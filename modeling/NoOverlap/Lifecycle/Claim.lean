import NoOverlap.Lifecycle.Effect

/-!
# Who inserts a reservation

Only a hold does, and what its attempts insert is the stay that was asked for at the price
that was worked out before.  A row is pending in the transaction of the thread that inserted
it, and appears when that transaction commits.
-/

namespace NoOverlap

open Relational
open Concurrency.Prog

/-- The statements of the attempts at a stay, at a price. -/
def Claims (dto : CreateReservationDto) (price : Option Int) : Statement → Prop
  | .db (.reservationCreate data) =>
    data.listingId = dto.listingId ∧ data.checkIn = dto.checkIn ∧ data.checkOut = dto.checkOut ∧
      data.priceTotalCents = price
  | .db .begin | .db (.outboxCreate _ _) | .db .commit | .db .rollback | .host _ => True
  | _ => False

def Inserts : Statement → Prop
  | .db (.reservationCreate _) => True
  | _ => False

theorem uses_transaction {A : Statement → Prop} {α : Type} {body : Async α} (hb : A (.db .begin))
    (hc : A (.db .commit)) (hr : A (.db .rollback)) (h : body.Uses A) :
    (transaction body).Uses A :=
  Uses.tryCatch
    (Uses.bind (uses_op hb) fun _ => Uses.bind h fun _ => Uses.bind (uses_op hc) fun _ =>
      uses_pure _)
    fun _ => Uses.bind (uses_op hr) fun _ => uses_throw _

theorem claimSlot_claims (ttl : Int) (guestId : Id) (dto : CreateReservationDto)
    (price : Option Int) : (claimSlot ttl guestId dto price).Uses (Claims dto price) := by
  refine uses_transaction trivial trivial trivial (Uses.bind (uses_op trivial) fun now => ?_)
  refine Uses.bind (uses_op ⟨rfl, rfl, rfl, rfl⟩) fun r => Uses.bind (uses_op trivial) fun trace => ?_
  exact Uses.bind (uses_op trivial) fun _ => uses_pure r

theorem claimWithRetry_claims (ttl : Int) (guestId : Id) (dto : CreateReservationDto)
    (price : Option Int) : (claimWithRetry ttl guestId dto price).Uses (Claims dto price) := by
  have hclaim := claimSlot_claims ttl guestId dto price
  refine Uses.tryCatch (Uses.tryCatch hclaim fun err => ?_) fun err => ?_
  · exact uses_ite (fun _ => uses_throw _) fun _ => Uses.bind (uses_op trivial) fun _ => hclaim
  · exact uses_ite (fun _ => Uses.bind (uses_op trivial) fun _ => uses_throw _) fun _ => uses_throw _

theorem relayTick_inserts_nothing : relayTick.Uses fun o => ¬Inserts o := by
  refine Uses.tryCatch (Uses.bind (uses_transaction id id id ?_) fun _ => uses_pure ())
    fun _ => uses_pure ()
  refine Uses.bind (uses_op id) fun rows => uses_ite (fun _ => uses_pure 0) fun _ => ?_
  exact Uses.bind (uses_op id) fun _ => Uses.bind (uses_op id) fun _ =>
    Uses.bind (uses_op id) fun _ => uses_pure _

/-- No other call inserts one. -/
theorem program_inserts_nothing (cfg : Config) {c : Call}
    (hc : ∀ guestId dto, c ≠ .hold guestId dto) :
    (c.program cfg).Uses fun o => ¬Inserts o := by
  by_cases hrelay : c = .relayTick
  · subst hrelay
    exact Uses.bind relayTick_inserts_nothing fun _ => uses_pure _
  · have hquiet : c.transacts = false := by
      cases c with
      | hold guestId dto => exact (hc guestId dto rfl).elim
      | relayTick => exact (hrelay rfl).elim
      | _ => rfl
    refine (program_issues cfg c).mono fun o ho hi => ?_
    cases o with
    | db o =>
      cases o with
      | reservationCreate data =>
        have htransacts : c.transacts = true := ho
        rw [hquiet] at htransacts
        cases htransacts
      | _ => exact hi
    | _ => exact hi

namespace Database

variable {d d' : Database} {t : Nat} {id : Id} {now : Int} {o : DbStatement}
  {res : Except Err o.Resp}

theorem mem_setTransaction {f : Transaction → Transaction} {hf : ∀ tx, (f tx).tid = tx.tid}
    {tx' : Transaction} (h : tx' ∈ (d.setTransaction t f hf).transactions.rows) :
    tx' ∈ d.transactions.rows ∨ ∃ tx ∈ d.transactions.rows, tx.tid = t ∧ tx' = f tx := by
  obtain ⟨tx, hmem, he⟩ : ∃ tx ∈ d.transactions.rows,
      (if (tx.tid == t) = true then f tx else tx) = tx' := List.mem_map.mp h
  split at he
  · next hc => exact .inr ⟨tx, hmem, beq_iff_eq.mp hc, he.symm⟩
  · exact .inl (he ▸ hmem)

/-- A pending row was pending in the same transaction, or has just been inserted. -/
theorem pending_of_perform (hx : perform t id now o d = some (res, d')) {tx' : Transaction}
    (htx : tx' ∈ d'.transactions.rows) {r : Reservation} (hr : r ∈ tx'.reservations) :
    (∃ tx ∈ d.transactions.rows, tx.tid = tx'.tid ∧ r ∈ tx.reservations) ∨
      ∃ data, o = .reservationCreate data ∧ tx'.tid = t ∧ d.Inserted data r := by
  have hold : tx' ∈ d.transactions.rows →
      ∃ tx ∈ d.transactions.rows, tx.tid = tx'.tid ∧ r ∈ tx.reservations :=
    fun h => ⟨tx', h, rfl, hr⟩
  have heff := effect_of_perform hx
  cases heff with
  | begin =>
    simp only [Database.begin, Table.insert] at htx
    split at htx
    · rcases List.mem_append.mp htx with htx | htx
      · exact .inl (hold htx)
      · rw [List.mem_singleton.mp htx] at hr
        cases hr
    · exact .inl (hold htx)
  | reservationCreate data tx₀ row ht hs hown hother hid =>
    rcases mem_setTransaction htx with hsame | ⟨tx, hmem, htid, rfl⟩
    · exact .inl (hold hsame)
    · rcases List.mem_append.mp hr with hr | hr
      · exact .inl ⟨tx, hmem, rfl, hr⟩
      · rw [List.mem_singleton.mp hr]
        exact .inr ⟨data, rfl, htid, inserted_of_reservationCreate hx⟩
  | outboxCreate | selectUnpublished | outboxMarkPublished =>
    rcases mem_setTransaction htx with hsame | ⟨tx, hmem, htid, rfl⟩
    · exact .inl (hold hsame)
    · exact .inl ⟨tx, hmem, rfl, hr⟩
  | commit tx ht => exact .inl (hold (Table.mem_erase.mp htx).1)
  | rollback => exact .inl (hold (Table.mem_erase.mp htx).1)
  | reservationUpdate rid status seen r' hr' =>
    simp only [Database.reservationUpdate, hr'] at htx
    exact .inl (hold htx)
  | paymentUpdate key data p hp =>
    simp only [Database.paymentUpdate, hp] at htx
    exact .inl (hold htx)
  | _ => exact .inl (hold htx)

/-- A row that appears was pending in the transaction that commits. -/
theorem committed_of_perform (hx : perform t id now o d = some (res, d')) {r : Reservation}
    (hr : r ∈ d'.reservations.rows) (hn : d.reservations.find? r.id = none) :
    ∃ tx, o = .commit ∧ d.transactions.find? t = some tx ∧ r ∈ tx.reservations := by
  have heff := effect_of_perform hx
  rcases heff.reservations with ⟨he, -⟩ | ⟨tx, ho, ht, rfl⟩ | hrw
  · have hfind : d.reservations.find? r.id = some r := Table.find?_of_mem (he ▸ hr)
    rw [hn] at hfind
    cases hfind
  · rcases Table.find?_of_insertAll (Table.find?_of_mem hr) with hold | ⟨-, hmem⟩
    · have hfind : d.reservations.find? r.id = some r := hold
      rw [hn] at hfind
      cases hfind
    · exact ⟨tx, ho, ht, hmem⟩
  · have hfind : d'.reservations.find? r.id = some r := Table.find?_of_mem hr
    rw [hrw.find, hn] at hfind
    cases hfind

end Database

end NoOverlap
