import NoOverlap.Recovery.Rest

/-!
# The calls of a booking

Each followed to its end with nothing else going on and nothing failing: the hold of a stay that
is free, its first charge, and the result that settles it.  For each there is the state it starts
in, what the environment answers on the way, and the state it leaves.
-/

namespace NoOverlap

open Relational Concurrency
open Concurrency.Prog

namespace Recovery

variable {s : Store} {t : Nat}

/-! ## The hold -/

/-- At the moment `now` nothing stands in the way of the stay from `a` to `b`. -/
structure Bookable (d : Database) (now : Int) (dto : CreateReservationDto) (a b : Int)
    (found : Listing) : Prop where
  checkIn : dto.checkIn = some a
  checkOut : dto.checkOut = some b
  order : a < b
  future : now ≤ a
  listed : d.listings.find? dto.listingId = some found
  active : found.active = true
  positive : 0 < nights a b * found.nightlyPriceCents
  fits : Database.fitsInteger (nights a b * found.nightlyPriceCents) = true
  free : ∀ r ∈ d.reservations.rows, r.status.active = true → r.listingId = dto.listingId →
    rangesIntersect a b r.checkIn r.checkOut = false

/-- Nothing fails, every row that is created gets this id, and every clock shows this time. -/
structure Fixed (id : Id) (now : Int) (ch : Choice) : Prop where
  unfailing : Unfailing ch
  id : ch.id = id
  now : ch.now = now

/-- The reservation that the hold creates. -/
def placed (ttl : Int) (guestId : Id) (dto : CreateReservationDto) (a b : Int) (found : Listing)
    (id : Id) (now : Int) : Reservation :=
  { id := id, listingId := dto.listingId, guestId := guestId, checkIn := a, checkOut := b
    status := .held, priceTotalCents := nights a b * found.nightlyPriceCents
    holdExpiresAt := now + ttl, createdAt := now }

/-- Its event. -/
def noted (v : Reservation) (id : Id) (now : Int) (trace : Option TraceContext) : OutboxRow :=
  { id := id, aggregateId := v.id, payload := bookingHeld v trace, publishedAt := none
    createdAt := now }

/-- The transaction that has inserted the reservation. -/
def holding (t : Nat) (v : Reservation) : Transaction := { Seam.blank t with reservations := [v] }

/-- The transaction that has inserted its event as well. -/
def recording (t : Nat) (v : Reservation) (o : OutboxRow) : Transaction :=
  { holding t v with outbox := [o] }

variable {ttl now a b : Int} {guestId id : Id} {dto : CreateReservationDto} {found : Listing}
  {v : Reservation} {ch : Choice}

theorem Bookable.priceTotal_eq (h : Bookable s.db now dto a b found) :
    priceTotal dto.checkIn dto.checkOut found.nightlyPriceCents =
      some (nights a b * found.nightlyPriceCents) := by
  rw [h.checkIn, h.checkOut]
  rfl

/-- Nobody is in the way. -/
theorem Bookable.conflicts_eq_false (h : Bookable s.db now dto a b found) :
    s.db.reservations.rows.any (placed ttl guestId dto a b found id now).conflicts = false := by
  refine List.any_eq_false.mpr fun r hr hc => ?_
  simp only [Reservation.conflicts, placed, Bool.and_eq_true, beq_iff_eq] at hc
  obtain ⟨⟨⟨-, hactive⟩, hlisting⟩, hmeet⟩ := hc
  have hfree := h.free r hr hactive hlisting.symm
  rw [hmeet] at hfree
  cases hfree

theorem exec_reservationCreate (hch : Fixed id now ch) (h : Bookable s.db now dto a b found)
    (hid : s.db.reservations.find? id = none) :
    (Statement.db (.reservationCreate
        { listingId := dto.listingId, guestId := guestId, checkIn := dto.checkIn
          checkOut := dto.checkOut
          priceTotalCents := priceTotal dto.checkIn dto.checkOut found.nightlyPriceCents
          holdExpiresAt := some (now + ttl) })).exec t ch (inside s (Seam.blank t)) =
      some (.ok (placed ttl guestId dto a b found id now),
        inside s (holding t (placed ttl guestId dto a b found id now))) := by
  let v := placed ttl guestId dto a b found id now
  have hfind : (inside s (Seam.blank t)).db.transactions.find? t = some (Seam.blank t) :=
    find?_inside s (Seam.blank t)
  have hlisting : (inside s (Seam.blank t)).db.listings.find? dto.listingId = some found := h.listed
  have horder : ¬ b < a := by
    have hlt := h.order
    omega
  have hfree : ¬ ((inside s (Seam.blank t)).db.reservations.rows.any v.conflicts ||
      (Seam.blank t).reservations.any v.conflicts) = true := by
    have hrows : (inside s (Seam.blank t)).db.reservations.rows.any v.conflicts = false :=
      h.conflicts_eq_false
    rw [hrows]
    simp [Seam.blank]
  have hwait : ¬ ([Seam.blank t].any fun tx' =>
      tx'.tid != t && tx'.reservations.any v.conflicts) = true := by
    simp [Seam.blank]
  have hfresh : ¬ (!(inside s (Seam.blank t)).db.freshReservationId id) = true := by
    have hnone : (inside s (Seam.blank t)).db.reservations.find? id = none := hid
    rw [Database.freshReservationId, hnone, rows_inside]
    simp [Seam.blank]
  refine exec_db (o := .reservationCreate _) hch.unfailing ?_
  rw [hch.id, hch.now, h.priceTotal_eq]
  simp only [Database.perform, Database.reservationCreate, hfind, h.checkIn, h.checkOut, h.fits,
    horder, hlisting, rows_inside]
  refine (if_neg (by simp)).trans ((if_neg not_false).trans ((if_neg (by simp)).trans ?_))
  refine (if_neg hfree).trans ((if_neg hwait).trans ((if_neg hfresh).trans ?_))
  have hset := setTransaction_inside s (Seam.blank t)
    (fun tx => { tx with reservations := tx.reservations ++ [v] }) fun _ => rfl
  exact congrArg (fun d => some (Except.ok v, d)) hset

theorem exec_outboxCreate (hch : Fixed id now ch) (hout : s.db.outbox.find? id = none)
    (trace : Option TraceContext) :
    (Statement.db (.outboxCreate v.id (bookingHeld v trace))).exec t ch (inside s (holding t v)) =
      some (.ok (), inside s (recording t v (noted v id now trace))) := by
  have hfind : (inside s (holding t v)).db.transactions.find? t = some (holding t v) :=
    find?_inside s (holding t v)
  have hfresh : ¬ (!(inside s (holding t v)).db.freshOutboxId id) = true := by
    have hnone : (inside s (holding t v)).db.outbox.find? id = none := hout
    rw [Database.freshOutboxId, hnone, rows_inside]
    simp [holding, Seam.blank]
  refine exec_db (o := .outboxCreate _ _) hch.unfailing ?_
  rw [hch.id, hch.now]
  simp only [Database.perform, Database.outboxCreate, hfind]
  refine (if_neg hfresh).trans ?_
  have hset := setTransaction_inside s (holding t v)
    (fun tx => { tx with outbox := tx.outbox ++ [noted v id now trace] }) fun _ => rfl
  exact congrArg (fun d => some (Except.ok (), d)) hset

/-- No money has moved and no job been added, and no transaction is open. -/
structure Untouched (s s' : Store) : Prop where
  payments : s'.db.payments = s.db.payments
  queues : s'.queues = s.queues
  provider : s'.provider = s.provider
  idle : s'.db.transactions.rows = []

/-- The end of the transaction. -/
theorem untouched_apply (s : Store) (t : Nat) (v : Reservation) (o : OutboxRow) :
    Untouched s { s with db := (inside s (recording t v o)).db.apply (recording t v o) } where
  payments := rfl
  queues := rfl
  provider := rfl
  idle := by
    show [recording t v o].filter (fun tx' => !(tx'.tid == (recording t v o).tid)) = []
    simp

/-- One attempt at a stay that is free. -/
theorem completes_claimSlot (hidle : s.db.transactions.rows = [])
    (h : Bookable s.db now dto a b found) (hid : s.db.reservations.find? id = none)
    (hout : s.db.outbox.find? id = none) :
    Completes (Statement.exec t) (Fixed id now) (fun r s' =>
      r = .ok (placed ttl guestId dto a b found id now) ∧ Untouched s s' ∧
        s'.db.reservations.find? id = some (placed ttl guestId dto a b found id now))
      (claimSlot ttl guestId dto (priceTotal dto.checkIn dto.checkOut found.nightlyPriceCents))
      s := by
  let v := placed ttl guestId dto a b found id now
  refine Completes.tryCatch (Completes.op_bind fun ch₁ hch₁ =>
    ⟨_, _, exec_begin hch₁.unfailing hidle, ?_⟩)
  refine Completes.bind (Completes.op_bind fun ch₂ hch₂ =>
    ⟨.ok ch₂.now, _, Statement.exec_of_fault_none hch₂.unfailing, ?_⟩)
  rw [hch₂.now]
  refine Completes.op_bind fun ch₃ hch₃ => ⟨_, _, exec_reservationCreate hch₃ h hid, ?_⟩
  refine Completes.op_bind fun ch₄ hch₄ =>
    ⟨.ok ch₄.trace, _, Statement.exec_of_fault_none hch₄.unfailing, ?_⟩
  refine Completes.op_bind fun ch₅ hch₅ => ⟨_, _, exec_outboxCreate hch₅ hout ch₄.trace, ?_⟩
  refine Completes.op_bind fun ch₆ hch₆ => ⟨_, _, exec_commit hch₆.unfailing rfl, rfl, ?_, ?_⟩
  · exact untouched_apply s t v (noted v id now ch₄.trace)
  · have hfresh : s.db.reservations.find? (key v) = none := hid
    exact (Table.find?_insert hfresh).trans (if_pos rfl)

/-- To announce a change changes nothing that is kept. -/
theorem completes_publish {C : Choice → Prop} (hC : ∀ ch, C ch → Unfailing ch) (listingId id : Id)
    (status : ReservationStatus) :
    Completes (Statement.exec t) C
      (fun r s' => r = .ok () ∧ ∃ redis, s' = { s with redis := redis })
      (publishReservationChanged listingId id status) s := by
  refine Completes.tryCatch (Completes.op_bind fun ch₁ hch₁ =>
    ⟨.ok _, _, Statement.exec_of_fault_none (hC ch₁ hch₁), ?_⟩)
  intro ch₂ hch₂
  exact ⟨.ok (), _, Statement.exec_of_fault_none (hC ch₂ hch₂), rfl, _, rfl⟩

/-- The first attempt is the only one. -/
theorem completes_claimWithRetry (hidle : s.db.transactions.rows = [])
    (h : Bookable s.db now dto a b found) (hid : s.db.reservations.find? id = none)
    (hout : s.db.outbox.find? id = none) :
    Completes (Statement.exec t) (Fixed id now) (fun r s' =>
      r = .ok (placed ttl guestId dto a b found id now) ∧ Untouched s s' ∧
        s'.db.reservations.find? id = some (placed ttl guestId dto a b found id now))
      (claimWithRetry ttl guestId dto
        (priceTotal dto.checkIn dto.checkOut found.nightlyPriceCents)) s := by
  refine Completes.tryCatch (Completes.tryCatch ?_)
  refine (completes_claimSlot hidle h hid hout).imp fun r s' hend => ?_
  obtain ⟨rfl, hend⟩ := hend
  exact ⟨rfl, hend⟩

/-- Nothing fails, and the provider answers this. -/
structure Answers (answer : ChargeOutcome) (ch : Choice) : Prop where
  unfailing : Unfailing ch
  outcome : ch.outcome = answer

/-- The payment as it is opened. -/
def opened (pid : Id) (e : BookingHeld) : Payment :=
  { id := pid, reservationId := e.reservationId, status := .pending, providerRef := none
    idempotencyKey := e.idempotencyKey, amountCents := e.amountCents, failureReason := none }

/-- The result that the worker hands back. -/
def verdict (e : BookingHeld) (trace : Option TraceContext) : ChargeOutcome → PaymentResult
  | .succeeded ref => .succeeded
    { reservationId := e.reservationId, idempotencyKey := e.idempotencyKey
      amountCents := e.amountCents, providerRef := ref, traceContext := trace }
  | .declined reason => .failed
    { reservationId := e.reservationId, idempotencyKey := e.idempotencyKey, reason := reason
      traceContext := trace }

variable {e : BookingHeld} {answer : ChargeOutcome} {p : Payment}

/-- Once the card is charged: the payment is on record, and the result waits in its queue. -/
structure Charged (s s' : Store) (e : BookingHeld) (answer : ChargeOutcome) : Prop where
  payment : ∃ p, s'.db.payments.find? e.idempotencyKey = some p ∧ p.amountCents = e.amountCents ∧
    p.status = (PaymentService.recorded answer).status
  charges : ∃ t, s'.provider.charges = s.provider.charges ++
    [{ tid := t, key := e.idempotencyKey, amountCents := e.amountCents, outcome := answer }]
  result : ∃ trace, s'.queues.result = s.queues.result.add
    ((verdict e trace answer).tag, e.idempotencyKey) (verdict e trace answer) none
  reservations : s'.db.reservations = s.db.reservations
  transactions : s'.db.transactions = s.db.transactions

/-- The reservation has its final status, and nothing else has changed. -/
structure Settled (s s' : Store) (v : Reservation) (status : ReservationStatus) : Prop where
  reservation : s'.db.reservations.find? v.id = some { v with status := status }
  payments : s'.db.payments = s.db.payments
  provider : s'.provider = s.provider
  transactions : s'.db.transactions = s.db.transactions

theorem Settled.announced {s s' : Store} {status : ReservationStatus} (h : Settled s s' v status)
    {C : Choice → Prop} (hC : ∀ ch, C ch → Unfailing ch) :
    Completes (Statement.exec t) C (fun r s'' => r = .ok () ∧ Settled s s'' v status)
      (announce v.id status) s' := by
  refine Completes.op_bind fun ch₁ hch₁ => ⟨.ok (some v.listingId), s', ?_, ?_⟩
  · rw [Statement.exec_of_fault_none (hC ch₁ hch₁)]
    simp only [Statement.perform, Database.perform, h.reservation, Option.map_some]
  refine (completes_publish hC _ _ _).imp fun r s'' hend => ?_
  obtain ⟨rfl, redis, rfl⟩ := hend
  exact ⟨rfl, h.reservation, h.payments, h.provider, h.transactions⟩

end Recovery

end NoOverlap
