import NoOverlap.Lifecycle.Effect
import NoOverlap.Lifecycle.Rules
import NoOverlap.Model.Wire
import NoOverlap.Stays.Nights

/-!
# Producer and consumer of every queue agree

A message is written by one process and parsed by the other.  The schemas ask for a
positive amount, a provider reference and a reason that is not empty.  The amount of a
charge is the price of a stay, which is zero when check-out falls on the day of check-in,
or when the listing costs nothing.  `chargesSomething` is the condition that no such hold
goes through, and under it every message of every queue is accepted and decodes to what
was written.
-/

namespace NoOverlap

open Relational Concurrency RelyGuarantee Calendar

/-- An insert for a stay that ends on a later day than it begins, at a listing that costs
something. -/
def Database.costs (d : Database) (data : ReservationData) : Bool :=
  match data.checkIn, data.checkOut, d.listings.find? data.listingId with
  | some checkIn, some checkOut, some listing =>
    decide (checkIn / msPerDay < checkOut / msPerDay ∧ 0 < listing.nightlyPriceCents)
  | _, _, _ => true

/-- Every hold whose insert goes through is for such a stay.  The clock is past 1970. -/
def chargesSomething : Policy :=
  { anyRequest with
    op := fun a ch o s => match o with
      | .host .newDate => decide (0 ≤ ch.now)
      | .db (.reservationCreate data) =>
        match s.db.reservationCreate a.tid ch.id ch.now data with
        | some (.ok _, _) => s.db.costs data
        | _ => true
      | _ => true }

/-! ## The price of a stay -/

/-- A price that the column holds is payable if there is a night to pay for. -/
theorem payable_of_priceTotal {checkIn checkOut nightly price : Int} (h : 0 ≤ checkIn)
    (hday : checkIn / msPerDay < checkOut / msPerDay) (hn : 0 < nightly)
    (hp : priceTotal (some checkIn) (some checkOut) nightly = some price)
    (hfits : Database.fitsInteger price = true) : Payable price := by
  have hin : 0 ≤ checkIn / msPerDay := Int.ediv_nonneg h (by decide)
  have hout : 0 ≤ checkOut := by
    by_contra hneg
    have hlt : checkOut / msPerDay < 0 := Int.ediv_neg_of_neg_of_pos (by omega) (by decide)
    omega
  have hnights : 0 < nights checkIn checkOut := by
    rw [nights_eq h hout]
    omega
  have hprice : nights checkIn checkOut * nightly = price := Option.some.inj hp
  have hpos : 0 < price := hprice ▸ Int.mul_pos hnights hn
  simp only [Database.fitsInteger, decide_eq_true_eq] at hfits
  exact ⟨hpos, by omega⟩

/-! ## What is written -/

/-- A payment of which a result can be told. -/
structure Payment.Tellable (p : Payment) : Prop where
  amount : Payable p.amountCents
  reason : p.failureReason ≠ some ""

/-- An answer of the provider that says why, where it declines. -/
def ChargeOutcome.Explained : ChargeOutcome → Prop
  | .succeeded _ => True
  | .declined reason => reason ≠ ""

/-- The statements that write what a consumer can read. -/
def Statement.Fine : Statement → Prop
  | .db (.outboxCreate _ payload) => Payable payload.amountCents
  | .db (.paymentCreate data) => Payable data.amountCents
  | .db (.paymentUpdate _ (.failed reason)) => reason ≠ ""
  | .queue (.chargeAddBulk rows) => ∀ row ∈ rows, Payable row.payload.amountCents
  | .queue (.resultAdd m _) => m.Presentable
  | .redis (.setCharge _ outcome) => outcome.Explained
  | _ => True

namespace Agreement

structure DbInv (listings : Table Listing) (d : Database) : Prop where
  listings : d.listings = listings
  pending : ∀ tx ∈ d.transactions.rows, ∀ o ∈ tx.outbox, Payable o.payload.amountCents
  outbox : ∀ o ∈ d.outbox.rows, Payable o.payload.amountCents

structure Inv (listings : Table Listing) (s : Store) : Prop where
  db : DbInv listings s.db
  payments : ∀ p ∈ s.db.payments.rows, p.Tellable
  charge : ∀ id j, s.queues.charge.find? id = some j → Payable j.data.amountCents
  result : ∀ id j, s.queues.result.find? id = some j → j.data.Presentable
  ledger : ∀ key outcome, s.redis.charges.entry key = some outcome → outcome.Explained

variable {listings : Table Listing} {d d' : Database} {t : Nat} {ch : Choice} {s s' : Store}

theorem DbInv.setTransaction (h : DbInv listings d) {f : Transaction → Transaction}
    {hf : ∀ tx, (f tx).tid = tx.tid}
    (hout : ∀ tx, ∀ o ∈ (f tx).outbox, o ∈ tx.outbox ∨ Payable o.payload.amountCents) :
    DbInv listings (d.setTransaction t f hf) := by
  refine ⟨h.listings, ?_, h.outbox⟩
  refine Database.forall_setTransaction h.pending fun tx _ _ htx o ho => ?_
  rcases hout tx o ho with hold | hnew
  · exact htx o hold
  · exact hnew

theorem DbInv.apply (h : DbInv listings d) {tx : Transaction}
    (ht : d.transactions.find? t = some tx) : DbInv listings (d.apply tx) := by
  refine ⟨h.listings, ?_, ?_⟩
  · intro tx' htx'
    exact h.pending tx' (Table.mem_erase.mp htx').1
  · intro o ho
    simp only [Database.apply, Table.mem_update] at ho
    obtain ⟨o₀, ho₀, rfl⟩ := ho
    have hpay : Payable o₀.payload.amountCents := by
      have hfind := Table.find?_of_mem ho₀
      rcases Table.find?_of_insertAll hfind with hold | ⟨-, hnew⟩
      · exact h.outbox o₀ (Table.mem_of_find? hold)
      · exact h.pending tx (Table.mem_of_find? ht) o₀ hnew
    split
    · exact hpay
    · exact hpay

/-- A statement on the payments. -/
theorem tellable_of_perform {o : DbStatement} {res : Except Err o.Resp}
    (h : ∀ p ∈ d.payments.rows, p.Tellable) (ho : (Statement.db o).Fine)
    (hx : Database.perform t ch.id ch.now o d = some (res, d')) :
    ∀ p ∈ d'.payments.rows, p.Tellable := by
  cases o with
  | paymentCreate data =>
    simp only [Database.perform, Database.paymentCreate] at hx
    split_ifs at hx with hr hp
    · cases hx
      exact h
    · cases hx
      exact h
    · cases hx
      intro p hp'
      have hfresh : d.payments.find? data.idempotencyKey = none := by simpa using hp
      rw [Table.insert_of_fresh hfresh, List.mem_append, List.mem_singleton] at hp'
      rcases hp' with hold | rfl
      · exact h p hold
      · exact ⟨ho, by simp⟩
  | paymentUpdate key data =>
    simp only [Database.perform, Database.paymentUpdate] at hx
    split at hx
    · cases hx
      exact h
    · cases hx
      intro p hp'
      simp only [Table.mem_update] at hp'
      obtain ⟨p₀, hp₀, rfl⟩ := hp'
      have hold := h p₀ hp₀
      split
      · refine ⟨by simpa using hold.amount, ?_⟩
        cases data with
        | failed reason =>
          intro heq
          exact ho (Option.some.inj heq)
        | _ => exact hold.reason
      · exact hold
  | _ =>
    have heq : d'.payments = d.payments := by
      rcases (Database.effect_of_perform hx).payments with ⟨he, -⟩ | ⟨_, _, he, -⟩ | ⟨_, _, _, he, -⟩
      · exact he
      · cases he
      · cases he
    rw [heq]
    exact h

theorem DbInv.effect (h : DbInv listings d) {o : DbStatement} {res : Except Err o.Resp}
    (ho : (Statement.db o).Fine) (he : d.Effect t o res d') : DbInv listings d' := by
  cases he with
  | read => exact h
  | refused => exact h
  | begin => exact ⟨h.listings, Database.forall_begin h.pending (by simp), h.outbox⟩
  | reservationCreate => exact h.setTransaction fun _ _ ho => .inl ho
  | outboxCreate aggregateId payload tx row ht ha hp hn hid =>
    refine h.setTransaction fun tx' o ho' => ?_
    rcases List.mem_append.mp ho' with hold | hnew
    · exact .inl hold
    · rw [List.mem_singleton.mp hnew, hp]
      exact .inr ho
  | selectUnpublished => exact h.setTransaction fun _ _ ho => .inl ho
  | outboxMarkPublished => exact h.setTransaction fun _ _ ho => .inl ho
  | commit tx ht => exact h.apply ht
  | rollback => exact ⟨h.listings, fun tx htx => h.pending tx (Table.mem_erase.mp htx).1, h.outbox⟩
  | reservationUpdate id status seen r hr =>
    simp only [Database.reservationUpdate, hr]
    exact ⟨h.listings, h.pending, h.outbox⟩
  | reservationUpdateMany => exact ⟨h.listings, h.pending, h.outbox⟩
  | paymentCreate => exact ⟨h.listings, h.pending, h.outbox⟩
  | paymentUpdate key data p hp =>
    simp only [Database.paymentUpdate, hp]
    exact ⟨h.listings, h.pending, h.outbox⟩

theorem payable_of_chargeAddBulk {rows : List OutboxRow} {q : JobQueue Id BookingHeld}
    (h : ∀ id j, q.find? id = some j → Payable j.data.amountCents)
    (hrows : ∀ row ∈ rows, Payable row.payload.amountCents) {id : Id} {j : Job Id BookingHeld}
    (hj : (Queues.chargeAddBulk q rows).find? id = some j) : Payable j.data.amountCents := by
  unfold Queues.chargeAddBulk at hj
  induction rows generalizing q with
  | nil => exact h id j hj
  | cons row rows ih =>
    refine ih ?_ (fun r hr => hrows r (List.mem_cons_of_mem _ hr)) hj
    intro id' j' hj'
    rcases JobQueue.find?_add hj' with hold | ⟨-, rfl⟩
    · exact h id' j' hold
    · exact hrows row List.mem_cons_self

/-- A fine statement keeps every message in order. -/
theorem Inv.exec (h : Inv listings s) {o : Statement} {res : Except Err o.Resp} (ho : o.Fine)
    (hx : o.exec t ch s = some (res, s')) : Inv listings s' := by
  rcases Statement.exec_cases hx with ⟨rfl, -⟩ | ⟨r', hp, -⟩
  · exact h
  cases o with
  | db o =>
    obtain ⟨d, hd, rfl⟩ := Statement.perform_db hp
    exact ⟨h.db.effect ho (Database.effect_of_perform hd), tellable_of_perform h.payments ho hd,
      h.charge, h.result, h.ledger⟩
  | provider o => cases hp; exact ⟨h.db, h.payments, h.charge, h.result, h.ledger⟩
  | host o =>
    obtain ⟨m, rfl⟩ := Statement.perform_host hp
    exact ⟨h.db, h.payments, h.charge, h.result, h.ledger⟩
  | queue o =>
    cases hp
    cases o with
    | chargeAddBulk rows =>
      exact ⟨h.db, h.payments, fun id j hj => payable_of_chargeAddBulk h.charge ho hj, h.result, h.ledger⟩
    | resultAdd m key =>
      refine ⟨h.db, h.payments, h.charge, fun id j hj => ?_, h.ledger⟩
      rcases JobQueue.find?_add hj with hold | ⟨-, rfl⟩
      · exact h.result id j hold
      · exact ho
    | refundAdd m => exact ⟨h.db, h.payments, h.charge, h.result, h.ledger⟩
  | redis o =>
    cases hp
    cases o with
    | setCharge key outcome =>
      refine ⟨h.db, h.payments, h.charge, h.result, fun k v hv => ?_⟩
      have hset : Function.update s.redis.charges.entry key (some outcome) k = some v := hv
      by_cases hk : k = key
      · subst hk
        rw [Function.update_self] at hset
        cases hset
        exact ho
      · rw [Function.update_of_ne hk] at hset
        exact h.ledger k v hset
    | getCharge key =>
      refine ⟨h.db, h.payments, h.charge, h.result, fun k v hv => h.ledger k v ?_⟩
      have hget : (s.redis.charges.get key).2.entry k = some v := hv
      unfold Ledger.get at hget
      split at hget
      · exact hget
      · exact hget
    | _ => exact ⟨h.db, h.payments, h.charge, h.result, h.ledger⟩

/-! ## What the programs write -/

end Agreement

def agreement (listings : Table Listing) : RelyGuarantee Store Call Statement.Resp Err Reply :=
  { Step := fun a s o r s' =>
      ∃ ch, chargesSomething.op a ch o s = true ∧ o.exec a.tid ch s = some (r, s')
    Inv := Agreement.Inv listings
    Rely := fun _ _ _ => True
    Guar := fun _ _ o _ _ => o.Fine
    Post := fun _ _ _ => True
    Fresh := fun _ _ => True
    Lost := fun _ _ => True }

namespace Agreement

variable {listings : Table Listing} {a : Agent} {s s' : Store} {ch : Choice}

/-- A fine statement, and the rest. -/
theorem safe_op {γ : Type} {Q : Except Err γ → Store → Prop} {o : Statement}
    {f : o.Resp → Async γ} (ho : o.Fine)
    (h : ∀ s₁, Inv listings s₁ → ∀ ch r s₂, chargesSomething.op a ch o s₁ = true →
      o.exec a.tid ch s₁ = some (r, s₂) → (agreement listings).Cont a Q f r s₂) :
    (agreement listings).Safe a Q (await o >>= f) s := by
  refine Safe.op_bind fun s₁ _ hi r s₂ hx => ?_
  obtain ⟨ch, hop, hx⟩ := hx
  exact ⟨hi.exec ho hx, ho, h s₁ hi ch r s₂ hop hx⟩

theorem safe_of_uses {γ : Type} {p : Async γ} (hp : p.Uses Statement.Fine) :
    (agreement listings).Safe a (fun _ _ => True) p s := by
  refine Safe.of_uses (K := fun _ => True) (fun _ _ _ _ => trivial) ?_ hp trivial
  intro s o r s' ho hi _ hx
  obtain ⟨ch, -, hx⟩ := hx
  exact ⟨hi.exec ho hx, ho, trivial⟩

/-- The calls that neither transact nor work for the worker write nothing of interest. -/
theorem fine_of_issues {c : Call} (ht : c.transacts = false) (hw : c.ofWorker = false)
    {o : Statement} (h : c.Issues o) : o.Fine := by
  have hnot : ¬ c.transacts = true := by simp [ht]
  have hnot' : ¬ c.ofWorker = true := by simp [hw]
  cases o with
  | db o =>
    cases o with
    | outboxCreate => exact (hnot h).elim
    | paymentCreate => exact (hnot' h).elim
    | paymentUpdate key u => exact (hnot' (Call.Records.ofWorker h)).elim
    | _ => trivial
  | queue o =>
    cases o with
    | chargeAddBulk => exact (hnot h).elim
    | resultAdd => exact (hnot' h).elim
    | refundAdd => trivial
  | provider o => trivial
  | redis o =>
    cases o with
    | setCharge => exact (hnot' h).elim
    | _ => trivial
  | host o => trivial

theorem safe_transaction {α : Type} {Q : α → Prop} {body : Async α}
    (h : ∀ s, (agreement listings).Safe a (fun r _ => ∀ v, r = .ok v → Q v) body s) :
    (agreement listings).Safe a (fun r _ => ∀ v, r = .ok v → Q v) (transaction body) s := by
  refine Safe.tryCatch (safe_op (o := .db .begin) trivial fun _ _ ch r s₁ _ _ => ?_)
  have hrollback : ∀ (e : Err) s, (agreement listings).Safe a (fun r _ => ∀ v : α, r = .ok v → Q v)
      (tx.rollback >>= fun _ => throw e) s := by
    intro e s
    refine safe_op (o := .db .rollback) trivial fun _ _ ch r _ _ _ => ?_
    cases r with
    | error e => exact fun v hv => by cases hv
    | ok u => exact fun v hv => by cases hv
  cases r with
  | error e => exact hrollback e s₁
  | ok u =>
    refine Safe.bind ((h s₁).imp fun r s₂ hr => ?_)
    cases r with
    | error e => exact hrollback e s₂
    | ok v =>
      refine safe_op (o := .db .commit) trivial fun _ _ ch r s₃ _ _ => ?_
      cases r with
      | error e => exact hrollback e s₃
      | ok u =>
        intro v' hv'
        cases hv'
        exact hr v rfl

/-! ### Holds -/

/-- A hold whose insert goes through has a price that can be paid. -/
theorem payable_of_insert {data : ReservationData} {listing : Listing} {r : Reservation}
    (hi : Inv listings s) (hfrom : ∀ checkIn, data.checkIn = some checkIn → 0 ≤ checkIn)
    (hl : listings.find? data.listingId = some listing)
    (hprice : data.priceTotalCents = priceTotal data.checkIn data.checkOut listing.nightlyPriceCents)
    (hop : chargesSomething.op a ch (.db (.reservationCreate data)) s = true)
    (hx : (Statement.db (.reservationCreate data)).exec a.tid ch s = some (.ok r, s')) :
    Payable r.priceTotalCents := by
  obtain ⟨d, hd, -⟩ := Statement.perform_db (Statement.perform_of_exec_ok hx)
  have hcreate : s.db.reservationCreate a.tid ch.id ch.now data = some (.ok r, d) := hd
  have hrow := Database.inserted_of_reservationCreate hcreate
  have hcosts : s.db.costs data = true := by
    simp only [chargesSomething, hcreate] at hop
    exact hop
  simp only [Database.costs, hrow.checkIn, hrow.checkOut, hi.db.listings, hl,
    decide_eq_true_eq] at hcosts
  have hp := hrow.price
  rw [hprice, hrow.checkIn, hrow.checkOut] at hp
  exact payable_of_priceTotal (hfrom _ hrow.checkIn) hcosts.1 hcosts.2 hp hrow.fits

theorem safe_claimSlot {ttl : Int} {guestId : Id} {dto : CreateReservationDto} {listing : Listing}
    (hfrom : ∀ checkIn, dto.checkIn = some checkIn → 0 ≤ checkIn)
    (hl : listings.find? dto.listingId = some listing) :
    (agreement listings).Safe a (fun r _ => ∀ v, r = .ok v → True)
      (claimSlot ttl guestId dto (priceTotal dto.checkIn dto.checkOut listing.nightlyPriceCents)) s := by
  refine safe_transaction (Q := fun _ => True) fun s => ?_
  refine safe_op (o := .host .newDate) trivial fun _ _ ch r _ _ _ => ?_
  cases r with
  | error e => exact fun _ _ => trivial
  | ok now =>
    refine safe_op (o := .db (.reservationCreate _)) trivial fun s₁ hi ch r s₂ hop hx => ?_
    cases r with
    | error e => exact fun _ _ => trivial
    | ok reservation =>
      have hpay := payable_of_insert hi hfrom hl rfl hop hx
      refine safe_op (o := .host .inject) trivial fun _ _ ch r _ _ _ => ?_
      cases r with
      | error e => exact fun _ _ => trivial
      | ok trace =>
        refine safe_op (o := .db (.outboxCreate _ _)) hpay fun _ _ ch r _ _ _ => ?_
        cases r with
        | error e => exact fun _ _ => trivial
        | ok u => exact fun _ _ => trivial

theorem safe_hold {ttl : Int} {guestId : Id} {dto : CreateReservationDto} :
    (agreement listings).Safe a (fun _ _ => True) (hold ttl guestId dto) s := by
  refine safe_op (o := .host .newDate) trivial fun s₁ _ ch r s₂ hop hx => ?_
  cases r with
  | error e => trivial
  | ok now =>
    have hnow : (0 : Int) ≤ now := by
      have hp := Statement.perform_of_exec_ok hx
      cases hp
      exact decide_eq_true_eq.mp hop
    simp only [cont_ok]
    split
    · trivial
    · split
      · trivial
      · next hpast =>
        have hfrom : ∀ checkIn, dto.checkIn = some checkIn → 0 ≤ checkIn := by
          intro checkIn hin
          rw [hin] at hpast
          simp only [JsDate.lt, decide_eq_true_eq] at hpast
          omega
        refine safe_op (o := .db (.listingFindUnique dto.listingId)) trivial
          fun s₃ hi ch r s₄ _ hx => ?_
        cases r with
        | error e => trivial
        | ok found =>
          cases found with
          | none => trivial
          | some listing =>
            simp only [cont_ok]
            split
            · trivial
            · have hl : listings.find? dto.listingId = some listing := by
                obtain ⟨d, hd, -⟩ := Statement.perform_db (Statement.perform_of_exec_ok hx)
                simp only [Database.perform, Option.some.injEq, Prod.mk.injEq, Except.ok.injEq] at hd
                rw [← hi.db.listings]
                exact hd.1
              have hclaim : ∀ s, (agreement listings).Safe a (fun _ _ => True)
                  (claimSlot ttl guestId dto
                    (priceTotal dto.checkIn dto.checkOut listing.nightlyPriceCents)) s :=
                fun s => (safe_claimSlot hfrom hl).imp fun _ _ _ => trivial
              refine Safe.seq (K := fun _ => True) ?_ fun held _ _ => ?_
              · refine Safe.rescue (K := fun _ => True) ?_ fun err s _ => ?_
                · refine Safe.rescue (K := fun _ => True) (hclaim _) fun err s _ => ?_
                  split
                  · trivial
                  · refine Safe.seq (K := fun _ => True) (safe_of_uses ?_) fun _ s _ => hclaim s
                    exact Prog.uses_op trivial
                · split
                  · refine Safe.seq (K := fun _ => True) (safe_of_uses ?_) fun _ _ _ => trivial
                    exact Prog.uses_op trivial
                  · trivial
              · refine safe_of_uses (Prog.Uses.bind (Prog.uses_op trivial) fun _ => ?_)
                exact Prog.Uses.bind (publishReservationChanged_uses _ _ _ trivial fun _ => trivial)
                  fun _ => Prog.uses_pure _

end Agreement

end NoOverlap
