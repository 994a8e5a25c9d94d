import NoOverlap.Lifecycle.Rules
import NoOverlap.Seam.Invariant

/-!
# Every program keeps the seam

The programs of the calls that the outside world can start, each followed statement
by statement: at every statement the thread knows what `Pre` asks of it, because it
has seen it and it cannot be taken back.  A thread ends with no transaction open, so
a row that is locked is locked by a thread that is still running.
-/

namespace NoOverlap

open Relational Concurrency RelyGuarantee
open Concurrency.Prog

def Statement.transactional : Statement → Bool
  | db o => o.transactional
  | _ => false

namespace Seam

/-- Thread `t` has no transaction open. -/
def Idle (t : Nat) (s : Store) : Prop := s.db.transactions.find? t = none

/-- Other threads have moved. -/
structure Rely (t : Nat) (s s' : Store) : Prop where
  grows : Grows s s'
  own : s'.db.transactions.find? t = s.db.transactions.find? t

theorem Rely.refl (t : Nat) (s : Store) : Rely t s s := ⟨Grows.refl s, rfl⟩

theorem Rely.trans {t : Nat} {s₁ s₂ s₃ : Store} (h : Rely t s₁ s₂) (h' : Rely t s₂ s₃) :
    Rely t s₁ s₃ := ⟨h.grows.trans h'.grows, h'.own.trans h.own⟩

theorem Rely.idle {t : Nat} {s s' : Store} (h : Rely t s s') (hs : Idle t s) : Idle t s' :=
  h.own.trans hs

end Seam

/-- The discipline.  A step comes with what is known of every reachable store. -/
def seam : RelyGuarantee Store Call Statement.Resp Err Reply :=
  { Step := fun a s o r s' => a.call.Issues o ∧ Apart s.db ∧ Logged s.db ∧
      ∃ ch, o.exec a.tid ch s = some (r, s')
    Inv := Seam.Inv
    Rely := Seam.Rely
    Guar := fun a s _ _ s' => ∀ t, t ≠ a.tid → Seam.Rely t s s'
    Post := fun a _ s => Seam.Idle a.tid s
    Fresh := Seam.Idle
    Lost := fun a s => Seam.Idle a.tid s }

namespace Seam

variable {a : Agent} {s s' : Store} {t : Nat}

/-- A statement leaves the transactions of the other threads alone. -/
theorem transaction_ne {ch : Choice} {o : Statement} {r : Except Err o.Resp}
    (hx : o.exec a.tid ch s = some (r, s')) {u : Nat} (hu : u ≠ a.tid) :
    s'.db.transactions.find? u = s.db.transactions.find? u := by
  rcases Statement.exec_db hx with he | ⟨o', rfl, r', hp⟩
  · rw [he]
  · exact (Database.effect_of_perform hp).transaction_ne hu

theorem transactions_eq {ch : Choice} {o : Statement} {r : Except Err o.Resp}
    (hx : o.exec a.tid ch s = some (r, s')) (ho : o.transactional = false) :
    s'.db.transactions = s.db.transactions := by
  rcases Statement.exec_db hx with he | ⟨o', rfl, r', hp⟩
  · rw [he]
  · exact (Database.effect_of_perform hp).transactions_eq ho

/-! ## Rules -/

/-- One statement whose precondition the thread knows, and the rest. -/
theorem safe_op {γ : Type} {Q : Except Err γ → Store → Prop} {o : Statement}
    {f : o.Resp → Async γ} (hpre : ∀ s₁, Rely a.tid s s₁ → Inv s₁ → Pre a.tid s₁ o)
    (h : ∀ s₁ ch r s₂, Rely a.tid s s₁ → Inv s₁ → o.exec a.tid ch s₁ = some (r, s₂) →
      Grows s₁ s₂ → Inv s₂ → seam.Cont a Q f r s₂) :
    seam.Safe a Q (await o >>= f) s := by
  refine Safe.op_bind fun s₁ hr hi r s₂ hx => ?_
  obtain ⟨hiss, hap, hlog, ch, hx⟩ := hx
  have hg := Grows.of_exec hiss hx
  have hi' := step_inv hi hiss hap hlog (hpre s₁ hr hi) hx
  exact ⟨hi', fun u hu => ⟨hg, transaction_ne hx hu⟩, h s₁ ch r s₂ hr hi hx hg hi'⟩

/-- The same outside a transaction. -/
theorem idle_op {γ : Type} {o : Statement} {f : o.Resp → Async γ}
    (ho : o.transactional = false) (hs : Idle a.tid s)
    (hpre : ∀ s₁, Grows s s₁ → Inv s₁ → Pre a.tid s₁ o)
    (h : ∀ s₁ ch v s₂, Grows s s₁ → Inv s₁ → o.exec a.tid ch s₁ = some (.ok v, s₂) →
      Grows s₁ s₂ → Inv s₂ → Idle a.tid s₂ → seam.Safe a (fun _ => Idle a.tid) (f v) s₂) :
    seam.Safe a (fun _ => Idle a.tid) (await o >>= f) s := by
  refine safe_op (fun s₁ hr => hpre s₁ hr.grows) fun s₁ ch r s₂ hr hi hx hg hi' => ?_
  have hs₂ : Idle a.tid s₂ := by
    rw [Idle, transactions_eq hx ho]
    exact hr.idle hs
  cases r with
  | ok v => exact h s₁ ch v s₂ hr.grows hi hx hg hi' hs₂
  | error e => exact hs₂

/-- A statement that a thread may issue on the strength of `K`. -/
def Free (K : Store → Prop) (o : Statement) : Prop :=
  o.transactional = false ∧ ∀ t s, Inv s → K s → Pre t s o

theorem known_of_uses {α : Type} {K : Store → Prop} {p : Async α}
    (hK : ∀ s s', Grows s s' → K s → K s') (hp : p.Uses (Free K)) (hs : Idle a.tid s) (hk : K s) :
    seam.Safe a (fun _ s => Idle a.tid s ∧ K s) p s := by
  refine Safe.of_uses (K := fun s => Idle a.tid s ∧ K s)
    (fun s s' hr h => ⟨hr.idle h.1, hK s s' hr.grows h.2⟩) ?_ hp ⟨hs, hk⟩
  rintro s o r s' ho hi ⟨hs, hk⟩ ⟨hiss, hap, hlog, ch, hx⟩
  have hg := Grows.of_exec hiss hx
  refine ⟨step_inv hi hiss hap hlog (ho.2 _ _ hi hk) hx,
    fun u hu => ⟨hg, transaction_ne hx hu⟩, ?_, hK s s' hg hk⟩
  rw [Idle, transactions_eq hx ho.1]
  exact hs

theorem idle_of_uses {α : Type} {K : Store → Prop} {p : Async α}
    (hK : ∀ s s', Grows s s' → K s → K s') (hp : p.Uses (Free K)) (hs : Idle a.tid s) (hk : K s) :
    seam.Safe a (fun _ => Idle a.tid) p s := (known_of_uses hK hp hs hk).imp fun _ _ h => h.1

theorem free_of_issues {K : Store → Prop} {c : Call} (ht : c.transacts = false)
    (hw : c.ofWorker = false)
    (hm : ∀ filter, c.Moves filter .confirmed → ∀ t s, Inv s → K s →
      Pre t s (.db (.reservationUpdateMany filter .confirmed)))
    (hr : ∀ m, c.Refunds m → ∀ t s, Inv s → K s → Pre t s (.queue (.refundAdd m))) {o : Statement}
    (ho : c.Issues o) : Free K o := by
  cases o with
  | db o =>
    cases o with
    | begin | reservationCreate | outboxCreate | selectUnpublished | outboxMarkPublished | commit
    | rollback => cases ht.symm.trans ho
    | paymentCreate data => cases hw.symm.trans ho
    | paymentUpdate k u => cases hw.symm.trans (Call.Records.ofWorker ho)
    | reservationUpdateMany filter status =>
      refine ⟨rfl, fun t s hi hk hs => ?_⟩
      subst hs
      exact hm filter ho t s hi hk rfl
    | _ => exact ⟨rfl, fun _ _ _ _ => trivial⟩
  | queue o =>
    cases o with
    | chargeAddBulk rows => cases ht.symm.trans ho
    | resultAdd m key => cases hw.symm.trans ho
    | refundAdd m => exact ⟨rfl, hr m ho⟩
  | provider o => cases hw.symm.trans ho
  | redis o => exact ⟨rfl, fun _ _ _ _ => trivial⟩
  | host o => exact ⟨rfl, fun _ _ _ _ => trivial⟩

/-! ## Transactions -/

/-- What thread `t` has written in its transaction. -/
def Opened (t : Nat) (tx : Transaction) (s : Store) : Prop :=
  s.db.transactions.find? t = some tx

/-- The transaction that `begin` opens. -/
def blank (t : Nat) : Transaction :=
  { tid := t, reservations := [], outbox := [], locked := [], published := [], publishedAt := 0 }

/-- A statement outside the database, with a transaction open. -/
theorem opened_of_exec {ch : Choice} {o : Statement} {r : Except Err o.Resp} {tx : Transaction}
    {s₁ : Store} (ho : o.transactional = false) (hr : Rely a.tid s s₁)
    (hs : Opened a.tid tx s) (hx : o.exec a.tid ch s₁ = some (r, s')) : Opened a.tid tx s' := by
  rw [Opened, transactions_eq hx ho]
  exact hr.own.trans hs

theorem idle_of_exec {ch : Choice} {o : Statement} {r : Except Err o.Resp} {s₁ : Store}
    (ho : o.transactional = false) (hr : Rely a.tid s s₁) (hs : Idle a.tid s)
    (hx : o.exec a.tid ch s₁ = some (r, s')) : Idle a.tid s' := by
  rw [Idle, transactions_eq hx ho]
  exact hr.idle hs

theorem safe_rollback {α : Type} (e : Err) :
    seam.Safe a (fun _ => Idle a.tid) (do tx.rollback; throw e : Async α) s := by
  refine safe_op (o := .db .rollback) (fun _ _ _ => trivial) fun s₁ ch r s₂ _ _ hx _ _ => ?_
  have hidle : Idle a.tid s₂ := by
    rw [Statement.exec_of_not_fallible rfl] at hx
    cases hx
    exact Database.find?_rollback_self
  cases r with
  | ok v => exact hidle
  | error e => exact hidle

theorem idle_of_commit {ch : Choice} (hx : (Statement.db .commit).exec t ch s = some (.ok (), s')) :
    Idle t s' := by
  have heff := effect_of_ok hx
  rw [Idle]
  generalize s'.db = d at heff
  cases heff with
  | read _ _ h => cases h
  | commit tx ht =>
    have htid : tx.tid = t := Table.key_of_find? ht
    subst htid
    exact Database.find?_rollback_self

/-- `prisma.$transaction` around a body that leaves its transaction ready. -/
theorem safe_transaction {α : Type} {body : Async α} (hs : Idle a.tid s)
    (hbody : ∀ s₁, Grows s s₁ → Opened a.tid (blank a.tid) s₁ →
      seam.Safe a (fun r s₂ => ∀ v, r = .ok v → ∃ tx, Opened a.tid tx s₂ ∧ Ready s₂ tx) body s₁) :
    seam.Safe a (fun _ => Idle a.tid) (transaction body) s := by
  have hcaught : ∀ e s₁, seam.Caught a (fun _ => Idle a.tid)
      (fun e => do tx.rollback; throw e : Err → Async α) (.error e) s₁ :=
    fun e s₁ => safe_rollback e
  refine Safe.tryCatch ?_
  refine safe_op (o := .db .begin) (fun _ _ _ => trivial) fun s₁ ch r s₂ hr _ hx hg _ => ?_
  cases r with
  | error e => exact hcaught e s₂
  | ok u =>
    have hopen : Opened a.tid (blank a.tid) s₂ := by
      obtain ⟨d, hd, rfl⟩ := Statement.perform_db (Statement.perform_of_exec_ok hx)
      cases hd
      exact Database.find?_begin_self (hr.idle hs)
    refine Safe.bind ((hbody s₂ (hr.grows.trans hg) hopen).imp fun r s₃ h => ?_)
    cases r with
    | error e => exact hcaught e s₃
    | ok v =>
      obtain ⟨tx, hopen, hready⟩ := h v rfl
      refine safe_op (o := .db .commit) (fun s₄ hr _ tx' htx' => ?_)
        fun s₄ ch r s₅ _ _ hx _ _ => ?_
      · rw [hr.own.trans hopen] at htx'
        cases htx'
        exact hready.grows hr.grows
      · cases r with
        | error e => exact hcaught e s₅
        | ok u => exact idle_of_commit hx

/-! ## The hold -/

theorem opened_of_reservationCreate {ch : Choice} {data : ReservationData} {row : Reservation}
    (hs : Opened t (blank t) s)
    (hx : (Statement.db (.reservationCreate data)).exec t ch s = some (.ok row, s')) :
    Opened t { blank t with reservations := [row] } s' := by
  have heff := effect_of_ok hx
  rw [Opened] at hs ⊢
  generalize s'.db = d at heff
  cases heff with
  | read _ _ h => cases h
  | reservationCreate _ tx _ ht =>
    rw [hs] at ht
    cases ht
    exact Database.find?_setTransaction_self hs

theorem opened_of_outboxCreate {ch : Choice} {aggregateId : Id} {payload : BookingHeld}
    {tx : Transaction} (hs : Opened t tx s)
    (hx : (Statement.db (.outboxCreate aggregateId payload)).exec t ch s = some (.ok (), s')) :
    ∃ row : OutboxRow, row.aggregateId = aggregateId ∧ row.payload = payload ∧
      row.publishedAt = none ∧ Opened t { tx with outbox := tx.outbox ++ [row] } s' := by
  have heff := effect_of_ok hx
  rw [Opened] at hs
  simp only [Opened]
  generalize s'.db = d at heff
  cases heff with
  | read _ _ h => cases h
  | outboxCreate _ _ tx' row ht ha hp hn =>
    rw [hs] at ht
    cases ht
    exact ⟨row, ha, hp, hn, Database.find?_setTransaction_self hs⟩

theorem safe_claimSlot (ttl : Int) (guestId : Id) (dto : CreateReservationDto)
    (price : Option Int) (hs : Idle a.tid s) :
    seam.Safe a (fun _ => Idle a.tid) (claimSlot ttl guestId dto price) s := by
  refine safe_transaction hs fun s₁ _ hopen => ?_
  refine safe_op (o := .host .newDate) (fun _ _ _ => trivial) fun s₂ ch r s₃ hr _ hx _ _ => ?_
  cases r with
  | error e => exact fun v h => by cases h
  | ok now =>
    have hopen := opened_of_exec rfl hr hopen hx
    refine safe_op (o := .db (.reservationCreate _)) (fun _ _ _ => trivial)
      fun s₄ ch r s₅ hr _ hx _ _ => ?_
    cases r with
    | error e => exact fun v h => by cases h
    | ok reservation =>
      have hopen := opened_of_reservationCreate (hr.own.trans hopen) hx
      refine safe_op (o := .host .inject) (fun _ _ _ => trivial) fun s₆ ch r s₇ hr _ hx _ _ => ?_
      cases r with
      | error e => exact fun v h => by cases h
      | ok trace =>
        have hopen := opened_of_exec rfl hr hopen hx
        refine safe_op (o := .db (.outboxCreate _ _)) (fun _ _ _ => trivial)
          fun s₈ ch r s₉ hr _ hx _ _ => ?_
        cases r with
        | error e => exact fun v h => by cases h
        | ok u =>
          obtain ⟨row, ha, hp, hn, hopen⟩ := opened_of_outboxCreate (hr.own.trans hopen) hx
          have hd : row.Describes reservation := by
            constructor
            · exact ha
            · rw [hp, bookingHeld]
            · rw [hp, bookingHeld]
            · rw [hp, bookingHeld]
          exact fun v _ => ⟨_, hopen, .claims reservation row rfl rfl hd hn rfl⟩

theorem idle_of_host {o : HostStatement} {β : Type} {f : o.Resp → Async β}
    (hs : Idle a.tid s) (h : ∀ v s', Idle a.tid s' → seam.Safe a (fun _ => Idle a.tid) (f v) s') :
    seam.Safe a (fun _ => Idle a.tid) (await (.host o) >>= f) s :=
  idle_op rfl hs (fun _ _ _ => trivial) fun _ _ v s₂ _ _ _ _ _ hs₂ => h v s₂ hs₂

theorem safe_publishReservationChanged (listingId reservationId : Id) (status : ReservationStatus)
    (hs : Idle a.tid s) : seam.Safe a (fun _ => Idle a.tid)
      (publishReservationChanged listingId reservationId status) s := by
  refine idle_of_uses (K := fun _ => True) (fun _ _ _ _ => trivial) ?_ hs trivial
  exact publishReservationChanged_uses _ _ _ ⟨rfl, fun _ _ _ _ => trivial⟩
    fun _ => ⟨rfl, fun _ _ _ _ => trivial⟩

theorem safe_claimWithRetry (ttl : Int) (guestId : Id) (dto : CreateReservationDto)
    (price : Option Int) (hs : Idle a.tid s) :
    seam.Safe a (fun _ => Idle a.tid) (claimWithRetry ttl guestId dto price) s := by
  refine Safe.rescue (Safe.rescue (safe_claimSlot ttl guestId dto price hs) fun e s₁ hs => ?_)
    fun e s₁ hs => ?_
  · by_cases h : (!e.isDeadlock) = true
    · simp only [if_pos h, safe_throw]
      exact hs
    · simp only [if_neg h]
      exact idle_of_host hs fun _ s₂ hs => safe_claimSlot ttl guestId dto price hs
  · by_cases h : e.isExclusionViolation = true
    · simp only [if_pos h]
      exact idle_of_host hs fun _ s₂ hs => hs
    · simp only [if_neg h, safe_throw]
      exact hs

theorem safe_hold (ttl : Int) (guestId : Id) (dto : CreateReservationDto) (hs : Idle a.tid s) :
    seam.Safe a (fun _ => Idle a.tid) (hold ttl guestId dto) s := by
  refine idle_of_host hs fun now s₁ hs => ?_
  by_cases h₁ : dto.checkOut.le dto.checkIn = true
  · simp only [if_pos h₁, safe_throw]
    exact hs
  by_cases h₂ : dto.checkIn.lt (some now) = true
  · simp only [if_neg h₁, if_pos h₂, safe_throw]
    exact hs
  simp only [if_neg h₁, if_neg h₂]
  refine idle_op (o := .db (.listingFindUnique _)) rfl hs (fun _ _ _ => trivial)
    fun _ _ listing s₂ _ _ _ _ _ hs => ?_
  cases listing with
  | none => exact hs
  | some listing =>
    by_cases h₃ : (!listing.active) = true
    · simp only [if_pos h₃, safe_throw]
      exact hs
    simp only [if_neg h₃]
    refine Safe.seq (safe_claimWithRetry ttl guestId dto _ hs) fun held s₃ hs => ?_
    refine idle_of_host hs fun _ s₄ hs => ?_
    exact Safe.seq (safe_publishReservationChanged _ _ _ hs) fun _ s₅ hs => hs

/-! ## The relay -/

theorem opened_of_selectUnpublished {ch : Choice} {limit : Nat} {rows : List OutboxRow}
    (hs : Opened t (blank t) s)
    (hx : (Statement.db (.selectUnpublished limit)).exec t ch s = some (.ok rows, s')) :
    (∀ row ∈ rows, s'.db.outbox.find? row.id = some row) ∧
      ∃ locked, Opened t { blank t with locked := locked } s' := by
  have heff := effect_of_ok hx
  rw [Opened] at hs
  simp only [Opened]
  generalize s'.db = d at heff
  cases heff with
  | read _ _ h => cases h
  | selectUnpublished _ tx ht =>
    rw [hs] at ht
    cases ht
    refine ⟨fun row hrow => ?_, _, Database.find?_setTransaction_self hs⟩
    have hm := List.mem_of_mem_take hrow
    rw [List.mem_insertionSort] at hm
    exact Table.find?_of_mem (List.mem_filter.mp hm).1

theorem opened_of_outboxMarkPublished {ch : Choice} {ids : List Id} {now : Int} {n : Nat}
    {tx : Transaction} (hs : Opened t tx s)
    (hx : (Statement.db (.outboxMarkPublished ids now)).exec t ch s = some (.ok n, s')) :
    Opened t { tx with published := tx.published ++ ids, publishedAt := now } s' := by
  have heff := effect_of_ok hx
  rw [Opened] at hs ⊢
  generalize s'.db = d at heff
  cases heff with
  | read _ _ h => cases h
  | outboxMarkPublished _ _ _ tx' ht =>
    rw [hs] at ht
    cases ht
    exact Database.find?_setTransaction_self hs

theorem find?_chargeAddBulk_isSome (q : JobQueue Id BookingHeld) {rows : List OutboxRow}
    {row : OutboxRow} (h : row ∈ rows) :
    ∃ j, (Queues.chargeAddBulk q rows).find? row.id = some j := by
  induction rows generalizing q with
  | nil => cases h
  | cons row' rows ih =>
    rcases List.mem_cons.mp h with rfl | h
    · obtain ⟨j, hj⟩ := JobQueue.add_find?_isSome q row.id row.payload (some chargeAttempts)
      obtain ⟨j', hj', -⟩ := keeps_chargeAddBulk (q.add row.id row.payload _) rows _ j hj
      exact ⟨j', hj'⟩
    · exact ih _ h

/-- After the addition, the job of every row carries the payload of the row, also
where it was stored before. -/
theorem has_of_chargeAddBulk {ch : Choice} {rows : List OutboxRow} (hi : Inv s')
    (hx : (Statement.queue (.chargeAddBulk rows)).exec t ch s = some (.ok (), s'))
    {row : OutboxRow} (hrow : row ∈ rows) :
    ∃ o, s'.db.outbox.find? row.id = some o ∧ s'.queues.charge.Has row.id o.payload := by
  have hp := Statement.perform_of_exec_ok hx
  cases hp
  obtain ⟨j, hj⟩ := find?_chargeAddBulk_isSome s.queues.charge hrow
  obtain ⟨o, ho, hpl⟩ := hi.charge row.id j hj
  exact ⟨o, ho, j, hj, hpl.symm⟩

theorem safe_publishBatch (hs : Idle a.tid s) :
    seam.Safe a (fun _ => Idle a.tid) publishBatch s := by
  refine safe_transaction hs fun s₁ _ hopen => ?_
  refine safe_op (o := .db (.selectUnpublished _)) (fun _ _ _ => trivial)
    fun s₂ ch r s₃ hr _ hx _ _ => ?_
  cases r with
  | error e => exact fun v h => by cases h
  | ok rows =>
    obtain ⟨hrows, locked, hopen⟩ := opened_of_selectUnpublished (hr.own.trans hopen) hx
    by_cases hn : rows.length = 0
    · simp only [cont_ok, if_pos hn, safe_pure]
      exact fun v _ => ⟨_, hopen, .publishes rfl rfl (by simp [blank])⟩
    simp only [cont_ok, if_neg hn]
    refine safe_op (o := .queue (.chargeAddBulk rows)) (fun s₄ hr _ row hrow => ?_)
      fun s₄ ch r s₅ hr _ hx _ hi => ?_
    · obtain ⟨o, ho, hl⟩ := hr.grows.db.outbox row.id row (hrows row hrow)
      exact ⟨o, ho, hl.payload⟩
    cases r with
    | error e => exact fun v h => by cases h
    | ok u =>
      have hopen := opened_of_exec rfl hr hopen hx
      have hready : Ready s₅ { blank a.tid with published := rows.map (·.id) } := by
        refine .publishes rfl rfl fun id hid => ?_
        obtain ⟨row, hrow, rfl⟩ := List.mem_map.mp hid
        exact has_of_chargeAddBulk hi hx hrow
      refine safe_op (o := .host .newDate) (fun _ _ _ => trivial) fun s₆ ch r s₇ hr hi hx hg _ => ?_
      cases r with
      | error e => exact fun v h => by cases h
      | ok now =>
        have hopen := opened_of_exec rfl hr hopen hx
        have hready := (hready.grows hr.grows).grows hg
        refine safe_op (o := .db (.outboxMarkPublished _ _)) (fun _ _ _ => trivial)
          fun s₈ ch r s₉ hr _ hx hg _ => ?_
        cases r with
        | error e => exact fun v h => by cases h
        | ok n =>
          have hopen := opened_of_outboxMarkPublished (hr.own.trans hopen) hx
          have hready := (hready.grows hr.grows).grows hg
          refine fun v _ => ⟨_, hopen, .publishes rfl rfl fun id hid => ?_⟩
          cases hready with
          | publishes _ _ hp => exact hp id hid
          | claims _ _ h => cases h

theorem safe_relayTick (hs : Idle a.tid s) : seam.Safe a (fun _ => Idle a.tid) relayTick s :=
  Safe.rescue (Safe.seq (safe_publishBatch hs) fun _ _ hs => hs) fun _ _ hs => hs

/-! ## The worker -/

/-- What a charge knows of the row it has read: it is of the right amount, and the
money it says was taken was taken. -/
def Known (e : BookingHeld) (p : Payment) (s : Store) : Prop :=
  p.amountCents = e.amountCents ∧ (p.status.took = true → Paid s e.reservationId)

theorem known_of_find {e : BookingHeld} {p : Payment} (hi : Inv s) (hb : Backed s e)
    (hp : s.db.payments.find? e.idempotencyKey = some p) : Known e p s := by
  obtain ⟨hk, r, hr, ha⟩ := hb
  rw [hk] at hp
  have hbook := hi.payment _ p hp
  obtain ⟨r', hr', ha'⟩ := hbook.amountCents
  rw [hr] at hr'
  cases hr'
  refine ⟨ha'.trans ha.symm, fun ht => ⟨r, p, hr, hp, hbook.reservationId, ha', ?_, ?_⟩⟩
  · obtain ⟨x, hx, hxk, hxn⟩ := hi.journal.row _ p hp fun hs => by
      rw [hs] at ht
      cases ht
    exact ⟨x, hx, hxk, hxn ▸ ht⟩
  · rw [← ha']
    exact hbook.took ht

/-- What the call of a charge hands to the queue, if it hands over anything. -/
def Hands (e : BookingHeld) (t : Nat) (r : Except Err PaymentResult) (s : Store) : Prop :=
  Idle t s ∧ ∀ m, r = .ok m → m.idempotencyKey = e.idempotencyKey ∧ Sent s m

theorem safe_toResult {e : BookingHeld} {p : Payment} (hb : Backed s e) (hpos : 0 < e.amountCents)
    (hk : Known e p s) (hs : Idle a.tid s) :
    seam.Safe a (Hands e a.tid) (PaymentService.toResult e p) s := by
  obtain ⟨hkey, r, hr, -⟩ := hb
  have herror : ∀ err, Hands e a.tid (.error err) s := fun err => ⟨hs, fun m h => by cases h⟩
  unfold PaymentService.toResult
  by_cases hst : p.status = .succeeded
  · rw [if_pos hst]
    cases href : p.providerRef with
    | none => exact herror _
    | some ref =>
      by_cases hempty : ref = ""
      · simp only [if_pos hempty, safe_throw]
        exact herror _
      · simp only [if_neg hempty, safe_pure]
        refine ⟨hs, fun m h => ?_⟩
        cases h
        refine ⟨rfl, hkey, ⟨r, hr⟩, fun _ => ⟨hk.2 (by rw [hst]; rfl), ?_⟩⟩
        rw [paymentResultSchema, if_pos ⟨by rw [hk.1]; exact hpos, hempty⟩]
  · rw [if_neg hst, safe_pure]
    refine ⟨hs, fun m h => ?_⟩
    cases h
    exact ⟨rfl, hkey, ⟨r, hr⟩, fun h => by cases h⟩

/-- A payment after an answer of the provider has been recorded. -/
theorem Booked.record {key : IdempotencyKey} {p : Payment} {outcome : ChargeOutcome}
    (h : Booked s key p) (hs : ∀ ref, outcome = .succeeded ref → Answered s key p.amountCents)
    (hd : ∀ reason, outcome = .declined reason → s.provider.Declined key) :
    Booked s key ((PaymentService.recorded outcome).apply p) := by
  cases outcome with
  | succeeded ref =>
    exact { h with
      took := fun _ => hs ref rfl
      declined := fun h => by cases h
      refunded := fun h => by cases h }
  | declined reason =>
    exact { h with
      took := fun h => by cases h
      declined := fun _ => hd reason rfl
      refunded := fun h => by cases h }

theorem safe_chargeAndRecord {e : BookingHeld} (hb : Backed s e) (hpos : 0 < e.amountCents)
    (hs : Idle a.tid s) :
    seam.Safe a (Hands e a.tid) (PaymentService.chargeAndRecord gateway e) s := by
  refine safe_op (o := .provider (.charge _ _)) (fun _ _ _ => trivial)
    fun s₁ ch r s₂ hr _ hx hg _ => ?_
  have hs := idle_of_exec rfl hr hs hx
  have hb := (hb.grows hr.grows).grows hg
  cases r with
  | error err => exact ⟨hs, fun m h => by cases h⟩
  | ok outcome =>
    refine safe_op (o := .db (.paymentUpdate _ _)) (fun s₃ hr hi p hp => ?_)
      fun s₃ ch r s₄ hr _ hx hg hi => ?_
    · have hbook := hi.payment _ p hp
      have ha := (known_of_find hi (hb.grows hr.grows) hp).1
      refine hbook.record ?_ ?_
      · rintro ref hrec
        cases outcome with
        | succeeded ref =>
          rw [ha]
          exact Answered.grows ⟨_, mem_charges_of_charge hx, rfl, rfl, ref, rfl⟩ hr.grows
        | declined reason => cases hrec
      · rintro reason hrec
        cases outcome with
        | succeeded ref => cases hrec
        | declined reason =>
          exact ⟨_, hr.grows.charges _ (mem_charges_of_charge hx), rfl, reason, rfl⟩
    have hs := idle_of_exec rfl hr hs hx
    have hb := (hb.grows hr.grows).grows hg
    cases r with
    | error err => exact ⟨hs, fun m h => by cases h⟩
    | ok p => exact safe_toResult hb hpos (known_of_find hi hb (find?_of_paymentUpdate hx)) hs

theorem safe_charge {e : BookingHeld} (hb : Backed s e) (hpos : 0 < e.amountCents)
    (hs : Idle a.tid s) : seam.Safe a (Hands e a.tid) (PaymentService.charge gateway e) s := by
  refine safe_op (o := .db (.paymentFindUnique _)) (fun _ _ _ => trivial)
    fun s₁ ch r s₂ hr _ hx hg hi => ?_
  have hs := idle_of_exec rfl hr hs hx
  have hb := (hb.grows hr.grows).grows hg
  cases r with
  | error err => exact ⟨hs, fun m h => by cases h⟩
  | ok existing =>
    cases existing with
    | some existing =>
      by_cases h : existing.status ≠ .pending
      · simp only [cont_ok, if_pos h]
        exact safe_toResult hb hpos (known_of_find hi hb (find?_of_paymentFindUnique hx)) hs
      · simp only [cont_ok, if_neg h]
        exact safe_chargeAndRecord hb hpos hs
    | none =>
      have hclaim : (PaymentService.claim e).Uses (Free fun s => Backed s e) := by
        refine Uses.tryCatch (uses_op ⟨rfl, fun _ _ _ h => h⟩) fun _ => ?_
        exact uses_ite (fun _ => uses_throw _) fun _ => uses_pure ()
      refine Safe.bind ((known_of_uses (fun _ _ hg h => h.grows hg) hclaim hs hb).imp
        fun r s₃ hk => ?_)
      obtain ⟨hs, hb⟩ := hk
      cases r with
      | error err => exact ⟨hs, fun m h => by cases h⟩
      | ok u => exact safe_chargeAndRecord hb hpos hs

theorem Sent.withTrace {m : PaymentResult} (h : Sent s m) (tc : TraceContext) :
    Sent s (m.withTrace tc) := by
  obtain ⟨hk, hr, hp⟩ := h
  refine ⟨by simpa using hk, by simpa using hr, fun ht => ?_⟩
  rw [PaymentResult.tag_withTrace] at ht
  obtain ⟨hpaid, hschema⟩ := hp ht
  refine ⟨by simpa using hpaid, ?_⟩
  cases m with
  | failed m => cases ht
  | succeeded m =>
    simp only [paymentResultSchema] at hschema ⊢
    split at hschema
    · next h => simp only [PaymentResult.withTrace, if_pos h]
    · cases hschema

theorem safe_addResult {e : BookingHeld} {m : PaymentResult} (hm : Sent s m)
    (hk : e.idempotencyKey = m.idempotencyKey) (hs : Idle a.tid s) :
    seam.Safe a (fun _ => Idle a.tid) (addResult e m) s := by
  refine idle_of_uses (K := fun s => Sent s m) (fun _ _ hg h => h.grows hg) ?_ hs hm
  refine Uses.bind (uses_op ⟨rfl, fun _ _ _ _ => trivial⟩) fun trace => ?_
  cases trace with
  | none => exact uses_op ⟨rfl, fun _ _ _ h => ⟨hk, h⟩⟩
  | some tc => exact uses_op ⟨rfl, fun _ _ _ h => ⟨by simpa using hk, h.withTrace tc⟩⟩

theorem safe_processCharge {data : BookingHeld} (hb : Backed s data) (hs : Idle a.tid s) :
    seam.Safe a (fun _ => Idle a.tid) (processCharge gateway data) s := by
  unfold processCharge
  cases hp : bookingHeldSchema data with
  | error e => exact hs
  | ok event =>
    obtain ⟨rfl, hpos⟩ := bookingHeldSchema_eq_ok hp
    refine Safe.bind ((safe_charge hb hpos hs).imp fun r s₁ ⟨hs, hm⟩ => ?_)
    cases r with
    | error e => exact hs
    | ok m => exact safe_addResult (hm m rfl).2 (hm m rfl).1.symm hs

theorem safe_processRefund {data : RefundRequested}
    (hjob : ∃ j, s.queues.refund.find? data.idempotencyKey = some j) (hs : Idle a.tid s) :
    seam.Safe a (fun _ => Idle a.tid) (processRefund gateway data) s := by
  unfold processRefund refundRequestedSchema
  refine idle_op (o := .db (.paymentFindUnique _)) rfl hs (fun _ _ _ => trivial)
    fun s₁ ch payment s₂ hg₁ _ hx hg₂ hi hs => ?_
  have hf := find?_of_paymentFindUnique hx
  cases payment with
  | none => exact hs
  | some payment =>
    by_cases h : payment.status ≠ .succeeded
    · simp only [if_pos h, safe_pure]
      exact hs
    simp only [if_neg h]
    have hbook := hi.payment _ payment hf
    refine idle_op (o := .provider (.refund _)) rfl hs (fun s₃ hg₃ _ => ?_)
      fun s₃ ch u s₄ hg₃ _ hx hg₄ _ hs => ?_
    · obtain ⟨j, hj⟩ := hjob
      obtain ⟨j', hj', -⟩ := ((hg₁.trans hg₂).trans hg₃).refund _ j hj
      exact ⟨j', hj'⟩
    -- The money has been taken and has been returned, so the payment may say so.
    have hret : data.idempotencyKey ∈ s₄.provider.refunds := by
      have hp := Statement.perform_of_exec_ok hx
      cases hp
      exact List.mem_append_right _ (List.mem_singleton_self _)
    refine idle_op (o := .db (.paymentUpdate _ _)) rfl hs (fun s₅ hg₅ hi p hp => ?_)
      fun _ _ _ _ _ _ _ _ _ hs => hs
    have hg := (hg₃.trans hg₄).trans hg₅
    obtain ⟨p', hp', hl⟩ := hg.db.payments _ payment hf
    rw [hp] at hp'
    cases hp'
    exact { hi.payment _ p hp with
      took := fun _ => by
        rw [PaymentUpdate.apply_amountCents, hl.amountCents]
        exact (hbook.took (by rw [not_not.mp h]; rfl)).grows hg
      declined := fun h => by cases h
      refunded := fun _ => hg₅.refunds _ hret }

/-! ## The API -/

theorem safe_processResult (jobId : ResultJobId) {data : PaymentResult} (hm : Sent s data)
    (hs : Idle a.tid s) : seam.Safe a (fun _ => Idle a.tid) (processPaymentResult data) s := by
  refine idle_of_uses (K := fun s => Sent s data) (fun _ _ hg h => h.grows hg) ?_ hs hm
  refine (processPaymentResult_uses jobId data).mono fun o => ?_
  refine free_of_issues (c := .processResult jobId data) rfl rfl ?_ ?_
  · rintro filter hmv t s hi hm - id r hr hmatch
    cases data with
    | failed m => cases hmv.2
    | succeeded m =>
      obtain ⟨rfl, -⟩ := hmv
      have hid : id = m.reservationId :=
        (Table.key_of_find? hr).symm.trans (matches_heldById.mp hmatch).1
      rw [hid]
      exact (hm.2.2 rfl).1
  · rintro m' h t s hi hm
    cases data with
    | failed m => exact h.elim
    | succeeded m =>
      rw [show m' = _ from h]
      exact ⟨hm.1, (hm.2.2 rfl).1⟩

/-- A call of the API that confirms nothing. -/
theorem safe_of_api {c : Call} {ttl : Int} (ht : c.transacts = false) (hw : c.ofWorker = false)
    (hm : ∀ filter, ¬ c.Moves filter .confirmed)
    (hr : ∀ m, ¬ c.Refunds m) (hs : Idle a.tid s) :
    seam.Safe a (fun _ => Idle a.tid) (c.program { holdTtlMs := ttl, provider := gateway }) s :=
  idle_of_uses (K := fun _ => True) (fun _ _ _ _ => trivial)
    ((program_issues _ c).mono fun _ =>
      free_of_issues ht hw (fun filter h => (hm filter h).elim) fun m h => (hr m h).elim) hs trivial

/-- A guest who is seen to be confirmed has paid. -/
theorem safe_cancel (guestId id : Id) (hs : Idle a.tid s) :
    seam.Safe a (fun _ => Idle a.tid) (cancel guestId id) s := by
  refine Safe.bind (safe_op (o := .db (.reservationFindFirst id guestId)) (fun _ _ _ => trivial)
    fun s₁ ch r s₂ hr _ hx _ hi => ?_)
  have hs := idle_of_exec rfl hr hs hx
  refine cont_cancel (fun _ => hs) (fun _ _ _ => hs) ?_
  rintro current rfl hseen
  have hpaid : current.status = .confirmed → Paid s₂ id := by
    intro h
    obtain ⟨rfl, hst⟩ := of_reservationFindFirst hx
    obtain ⟨row, hrow, hst⟩ := statusOf_eq_some.mp hst
    exact hi.settled id row hrow (by rw [hst, h]; rfl)
  refine idle_of_uses (K := fun s => current.status = .confirmed → Paid s id)
    (fun _ _ hg h hc => (h hc).grows hg) ?_ hs hpaid
  refine Uses.bind (uses_op ⟨rfl, fun _ _ _ _ => trivial⟩) fun r => compensate_uses ?_ ?_ ?_
  · exact fun hc => ⟨rfl, fun _ _ _ hk => ⟨rfl, hk (beq_iff_eq.mp hc)⟩⟩
  · exact fun _ => ⟨rfl, fun _ _ _ _ => trivial⟩
  · exact fun _ => ⟨rfl, fun _ _ _ _ => trivial⟩

theorem backed_of_has (hi : Inv s) {id : Id} {data : BookingHeld}
    (h : s.queues.charge.Has id data) : Backed s data := by
  obtain ⟨j, hj, rfl⟩ := h
  obtain ⟨o, ho, hpl⟩ := hi.charge id j hj
  obtain ⟨r, hr, hd⟩ := hi.described o (Table.mem_of_find? ho)
  have hid : r.id = o.aggregateId := Table.key_of_find? hr
  rw [← hpl]
  refine ⟨hd.idempotencyKey.trans hd.reservationId.symm, r, ?_, hd.amountCents⟩
  rw [hd.reservationId, hid]
  exact hr

theorem sent_of_has (hi : Inv s) {id : ResultJobId} {data : PaymentResult}
    (h : s.queues.result.Has id data) : Sent s data := by
  obtain ⟨j, hj, rfl⟩ := h
  exact (hi.result id j hj).2

theorem inv_of_same {q : Queues} (hi : Inv s) (h : s.queues.Same q) :
    Inv { s with queues := q } := by
  have hg := Grows.of_same h
  refine hi.of_db_eq hg rfl rfl (fun id j' hj' => ?_) (fun id j' hj' => ?_) (fun id j' hj' => ?_)
  · obtain ⟨j, hj, hd⟩ := h.charge.2 id j' hj'
    rw [← show j.data = j'.data from hd]
    exact hi.charge id j hj
  · obtain ⟨j, hj, hd⟩ := h.result.2 id j' hj'
    rw [← show j.data = j'.data from hd]
    exact ⟨(hi.result id j hj).1, (hi.result id j hj).2.grows hg⟩
  · obtain ⟨j, hj, hd⟩ := h.refund.2 id j' hj'
    rw [← show j.data = j'.data from hd]
    exact ⟨(hi.refund id j hj).1, (hi.refund id j hj).2.grows hg⟩

theorem has_of_spawned_charge {id : Id} {data : BookingHeld}
    (h : s.spawned (.processCharge id data) = some s') : s.queues.charge.Has id data := by
  obtain ⟨q, hq, -⟩ := Option.map_eq_some_iff.mp h
  exact (Queues.deliver_eq_some hq).1

theorem has_of_spawned_result {id : ResultJobId} {data : PaymentResult}
    (h : s.spawned (.processResult id data) = some s') : s.queues.result.Has id data := by
  obtain ⟨q, hq, -⟩ := Option.map_eq_some_iff.mp h
  exact (Queues.deliver_eq_some hq).1

theorem job_of_spawned_refund {id : Id} {data : RefundRequested} (hi : Inv s)
    (h : s.spawned (.processRefund id data) = some s') :
    ∃ j, s.queues.refund.find? data.idempotencyKey = some j := by
  obtain ⟨q, hq, -⟩ := Option.map_eq_some_iff.mp h
  obtain ⟨j, hj, rfl⟩ := (Queues.deliver_eq_some hq).1
  rw [(hi.refund id j hj).1]
  exact ⟨j, hj⟩

/-- Every external call, started on a store in which its job was delivered. -/
theorem safe_program (ttl : Int) {c : Call} (hi : Inv s) (hext : c.external = true)
    (hsp : s.spawned c = some s') (hs : Idle a.tid s) :
    seam.Safe a (fun _ => Idle a.tid) (c.program { holdTtlMs := ttl, provider := gateway }) s' := by
  obtain ⟨q, rfl, hq⟩ := same_of_spawned hsp
  have hg := Grows.of_same hq
  have hs : Idle a.tid { s with queues := q } := hs
  cases c with
  | hold guestId dto => exact safe_answer (safe_hold ttl guestId dto hs)
  | relayTick => exact safe_answer (safe_relayTick hs)
  | processCharge id data =>
    exact safe_answer
      (safe_processCharge ((backed_of_has hi (has_of_spawned_charge hsp)).grows hg) hs)
  | processResult id data =>
    exact safe_answer
      (safe_processResult id ((sent_of_has hi (has_of_spawned_result hsp)).grows hg) hs)
  | processRefund id data =>
    obtain ⟨j, hj⟩ := job_of_spawned_refund hi hsp
    obtain ⟨j', hj', -⟩ := hg.refund _ j hj
    exact safe_answer (safe_processRefund ⟨j', hj'⟩ hs)
  | cancel guestId id => exact safe_answer (safe_cancel guestId id hs)
  | sweepExpiredHolds =>
    exact safe_of_api rfl rfl (fun _ ⟨_, _, h⟩ => by cases h) (fun _ h => h) hs
  | sweepCompletedStays =>
    exact safe_of_api rfl rfl (fun _ ⟨_, _, h⟩ => by cases h) (fun _ h => h) hs
  | _ => cases hext

theorem inv_of_rollback (hi : Inv s) (t : Nat) : Inv { s with db := s.db.rollback t } :=
  have hg := Grows.of_rollback t s
  hi.of_queues_eq hg rfl rfl rfl (Inv.reservations_unchanged rfl) (hi.payments_unchanged hg rfl)
    (hi.journal.of_eq hg rfl rfl)

theorem sound (ttl : Int) (listings : Table Listing) :
    Sound seam (system { holdTtlMs := ttl, provider := gateway }) anyRequest
      (Store.init listings) where
  start := Inv.init listings
  fresh_start := fun _ => rfl
  rely_refl := Rely.refl
  rely_trans := fun _ _ _ _ => Rely.trans
  guar_rely := fun a t _ _ _ _ hne h => h t (Ne.symm hne)
  fresh_stable := fun _ _ _ hr => hr.idle
  post_stable := fun _ _ _ _ hr _ => hr.idle
  lost_stable := fun _ _ _ hr => hr.idle
  step := by
    intro w hr t c o k ch r s' ht _ hx
    have hany := hr.relax (Q := anything) (fun _ _ _ => rfl) (fun _ _ _ _ _ => rfl)
      fun _ _ _ _ => rfl
    exact ⟨hr.uses_head (program_issues _) ht, apart_of_reaches hany, logged_of_reaches hany, ch, hx⟩
  spawn := by
    intro t c s s' hi hfresh hp hs
    have hsafe := safe_program (a := ⟨t, c⟩) ttl hi hp hs hfresh
    obtain ⟨q, rfl, hq⟩ := same_of_spawned hs
    exact ⟨inv_of_same hi hq, fun u => ⟨Grows.of_same hq, rfl⟩, hsafe⟩
  ret := by
    intro t c r s hi _
    obtain ⟨q, he, hq⟩ := same_of_returned t c r s
    rw [show (system { holdTtlMs := ttl, provider := gateway }).returned t c r s = _ from he]
    exact ⟨inv_of_same hi hq, fun u => ⟨Grows.of_same hq, rfl⟩⟩
  kill := by
    intro t c p s hi _
    exact ⟨inv_of_rollback hi t, fun u hu =>
      ⟨Grows.of_rollback t s, Database.find?_rollback_ne hu⟩, Database.find?_rollback_self⟩

end Seam

end NoOverlap
