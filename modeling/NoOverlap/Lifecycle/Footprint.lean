import NoOverlap.Model.System

/-!
# Who writes what

`Call.Issues` lists, for every call, the statements it can issue: the writes it can
make to a reservation or a payment, the refunds it can ask for, whether it opens a
transaction and whether it talks to the provider.  Reads and announcements are
left open.  `program_issues` checks the list against every path of every program.
-/

namespace NoOverlap

open Concurrency.Prog

/-- The bulk status writes of a call: which rows, and to what. -/
def Call.Moves : Call → ReservationWhere → ReservationStatus → Prop
  | applyPaymentSucceeded id, f, status => f = heldById id ∧ status = .confirmed
  | applyPaymentFailed id, f, status => f = heldById id ∧ status = .cancelled
  | processResult _ (.succeeded m), f, status => f = heldById m.reservationId ∧ status = .confirmed
  | processResult _ (.failed m), f, status => f = heldById m.reservationId ∧ status = .cancelled
  | sweepExpiredHolds, f, status => ∃ now, f = expiredHolds now ∧ status = .expired
  | sweepCompletedStays, f, status => ∃ now, f = finishedStays now ∧ status = .completed
  | _, _, _ => False

/-- The calls of the worker, which talk to the payment provider. -/
def Call.ofWorker : Call → Bool
  | charge _ | refund _ | processCharge _ _ | processRefund _ _ => true
  | _ => false

/-- The calls that deliver a charge. -/
def Call.charges : Call → Bool
  | charge _ | processCharge _ _ => true
  | _ => false

/-- The payment writes of a call. -/
def Call.Records : Call → IdempotencyKey → PaymentUpdate → Prop
  | charge e, key, u => key = e.idempotencyKey ∧ u.status ≠ .refunded
  | processCharge _ e, key, u => key = e.idempotencyKey ∧ u.status ≠ .refunded
  | refund e, key, u => key = e.idempotencyKey ∧ u = .refunded
  | processRefund _ e, key, u => key = e.idempotencyKey ∧ u = .refunded
  | _, _, _ => False

theorem Call.Records.ofWorker {c : Call} {k : IdempotencyKey} {u : PaymentUpdate}
    (h : c.Records k u) : c.ofWorker = true := by
  cases c with
  | charge | refund | processCharge | processRefund => rfl
  | _ => exact h.elim

/-- The refunds a call asks for. -/
def Call.Refunds : Call → RefundRequested → Prop
  | cancel _ id, m => m = { reservationId := id, idempotencyKey := id }
  | processResult _ (.succeeded r), m =>
    m = { reservationId := r.reservationId, idempotencyKey := r.idempotencyKey }
  | _, _ => False

/-- The calls that open a transaction. -/
def Call.transacts : Call → Bool
  | hold _ _ | relayTick => true
  | _ => false

def Call.Issues (c : Call) : Statement → Prop
  | .db .begin | .db (.reservationCreate _) | .db (.outboxCreate _ _)
  | .db (.selectUnpublished _) | .db (.outboxMarkPublished _ _) | .db .commit | .db .rollback =>
    c.transacts = true
  | .db (.paymentCreate _) => c.ofWorker = true
  | .queue (.chargeAddBulk _) => c.transacts = true
  | .queue (.resultAdd _ _) => c.ofWorker = true
  | .db (.reservationUpdate id status seen) =>
    (∃ guestId, c = .cancel guestId id) ∧ status = .cancelled ∧ (seen = .held ∨ seen = .confirmed)
  | .db (.reservationUpdateMany f status) => c.Moves f status
  | .db (.paymentUpdate key u) => c.Records key u
  | .queue (.refundAdd m) => c.Refunds m
  | .provider _ => c.ofWorker = true
  | .redis (.getCharge _) | .redis (.setCharge _ _) | .redis (.getRefund _)
  | .redis (.setRefund _) => c.ofWorker = true
  | _ => True

theorem ReservationWhere.status_eq {f : ReservationWhere} {r : Reservation}
    (h : f.matches r = true) : r.status = f.status := by
  simp only [ReservationWhere.matches, Bool.and_eq_true, beq_iff_eq] at h
  exact h.1.1.1

/-- Legal moves start from an active status, so none revives a row. -/
theorem active_of_legal {s s' : ReservationStatus} (h : s' ∈ allowedTransitions s) :
    s.active = true := by
  cases s with
  | held => rfl
  | confirmed => rfl
  | _ => simp [allowedTransitions] at h

/-- Every bulk write is a legal move, from the status it filters on. -/
theorem Call.Moves.legal {c : Call} {f : ReservationWhere} {status : ReservationStatus}
    (h : c.Moves f status) : status ∈ allowedTransitions f.status := by
  cases c with
  | applyPaymentSucceeded id => obtain ⟨rfl, rfl⟩ := h; simp [heldById, allowedTransitions]
  | applyPaymentFailed id => obtain ⟨rfl, rfl⟩ := h; simp [heldById, allowedTransitions]
  | processResult jobId r =>
    cases r with
    | succeeded m => obtain ⟨rfl, rfl⟩ := h; simp [heldById, allowedTransitions]
    | failed m => obtain ⟨rfl, rfl⟩ := h; simp [heldById, allowedTransitions]
  | sweepExpiredHolds => obtain ⟨now, rfl, rfl⟩ := h; simp [expiredHolds, allowedTransitions]
  | sweepCompletedStays => obtain ⟨now, rfl, rfl⟩ := h; simp [finishedStays, allowedTransitions]
  | _ => exact h.elim

section Programs

variable (c : Call)

theorem issues_of_isolated (hc : c.ofWorker = true) {o : Statement} (h : o.Isolated) :
    c.Issues o := by
  cases o with
  | db o => exact h.elim
  | queue o => exact h.elim
  | provider o => exact hc
  | redis o =>
    cases o with
    | incr | emit => trivial
    | _ => exact hc
  | host o => trivial

theorem answer_uses {α : Type} {p : Async α} {f : α → Reply} (h : p.Uses c.Issues) :
    (answer p f).Uses c.Issues := Uses.bind h fun _ => uses_pure _

theorem publishReservationChanged_uses {A : Statement → Prop} (listingId reservationId : Id)
    (status : ReservationStatus) (hi : A (.redis (.incr listingId)))
    (he : ∀ event, A (.redis (.emit event))) :
    (publishReservationChanged listingId reservationId status).Uses A :=
  Uses.tryCatch (Uses.bind (uses_op hi) fun _ => uses_op (he _)) fun _ => uses_pure ()

theorem announce_uses {A : Statement → Prop} (id : Id) (status : ReservationStatus)
    (hf : A (.db (.reservationFindListing id))) (hi : ∀ listingId, A (.redis (.incr listingId)))
    (he : ∀ event, A (.redis (.emit event))) : (announce id status).Uses A := by
  refine Uses.bind (uses_op hf) fun l => ?_
  cases l with
  | none => exact uses_pure ()
  | some listingId => exact publishReservationChanged_uses listingId id status (hi listingId) he

theorem transaction_uses (hc : c.transacts = true) {α : Type} {body : Async α}
    (h : body.Uses c.Issues) : (transaction body).Uses c.Issues :=
  Uses.tryCatch
    (Uses.bind (uses_op hc) fun _ => Uses.bind h fun _ => Uses.bind (uses_op hc) fun _ =>
      uses_pure _)
    fun _ => Uses.bind (uses_op hc) fun _ => uses_throw _

theorem claimSlot_uses (hc : c.transacts = true) (ttl : Int) (guestId : Id)
    (dto : CreateReservationDto) (price : Option Int) :
    (claimSlot ttl guestId dto price).Uses c.Issues :=
  transaction_uses c hc <| Uses.bind (uses_op trivial) fun _ => Uses.bind (uses_op hc) fun _ =>
    Uses.bind (uses_op trivial) fun _ => Uses.bind (uses_op hc) fun _ => uses_pure _

theorem hold_uses (hc : c.transacts = true) (ttl : Int) (guestId : Id)
    (dto : CreateReservationDto) : (hold ttl guestId dto).Uses c.Issues := by
  refine Uses.bind (uses_op trivial) fun now => ?_
  refine uses_ite (fun _ => uses_throw _) fun _ => uses_ite (fun _ => uses_throw _) fun _ => ?_
  refine Uses.bind (uses_op trivial) fun listing => ?_
  cases listing with
  | none => exact uses_throw _
  | some listing =>
    refine uses_ite (fun _ => uses_throw _) fun _ => Uses.bind ?_ fun r => ?_
    · refine Uses.tryCatch (Uses.tryCatch (claimSlot_uses c hc ttl guestId dto _) fun err => ?_)
        fun err => ?_
      · exact uses_ite (fun _ => uses_throw _) fun _ =>
          Uses.bind (uses_op trivial) fun _ => claimSlot_uses c hc ttl guestId dto _
      · exact uses_ite (fun _ => Uses.bind (uses_op trivial) fun _ => uses_throw _)
          fun _ => uses_throw _
    · exact Uses.bind (uses_op trivial) fun _ =>
        Uses.bind (publishReservationChanged_uses _ _ _ trivial fun _ => trivial) fun _ => uses_pure r

/-- A write that `assertTransition` lets through was seen as held or confirmed. -/
theorem held_or_confirmed_of_cancel {s : ReservationStatus}
    (h : ReservationStatus.cancelled ∈ allowedTransitions s) : s = .held ∨ s = .confirmed := by
  cases s with
  | held => exact .inl rfl
  | confirmed => exact .inr rfl
  | expired => simp [allowedTransitions] at h
  | cancelled => simp [allowedTransitions] at h
  | completed => simp [allowedTransitions] at h

theorem compensate_uses {A : Statement → Prop} {id : Id} {wasPaid : Bool} {r : Reservation}
    (hr : wasPaid = true → A (.queue (.refundAdd { reservationId := id, idempotencyKey := id })))
    (hi : ∀ listingId, A (.redis (.incr listingId))) (he : ∀ event, A (.redis (.emit event))) :
    (compensate id wasPaid r).Uses A := by
  have hp := Uses.bind (publishReservationChanged_uses r.listingId r.id .cancelled (hi _) he)
    fun _ => uses_pure r
  exact uses_ite (fun hc => Uses.bind (uses_op (hr hc)) fun _ => hp) fun _ => hp

theorem cancelSeen_uses {A : Statement → Prop} {id : Id} {seen : ReservationStatus}
    (hu : seen = .held ∨ seen = .confirmed → A (.db (.reservationUpdate id .cancelled seen)))
    (hr : seen = .confirmed → A (.queue (.refundAdd { reservationId := id, idempotencyKey := id })))
    (hi : ∀ listingId, A (.redis (.incr listingId))) (he : ∀ event, A (.redis (.emit event))) :
    (cancelSeen id seen).Uses A := by
  unfold cancelSeen assertTransition
  by_cases h : ReservationStatus.cancelled ∈ allowedTransitions seen
  · rw [if_pos h]
    exact Uses.bind (uses_pure ()) fun _ =>
      Uses.bind (uses_op (hu (held_or_confirmed_of_cancel h))) fun r =>
        compensate_uses (fun hc => hr (beq_iff_eq.mp hc)) hi he
  · rw [if_neg h]
    exact uses_throw _

theorem cancel_uses (guestId id : Id) :
    (cancel guestId id).Uses (Call.Issues (.cancel guestId id)) := by
  refine Uses.bind (Uses.bind (uses_op trivial) fun r => ?_) fun current => ?_
  · cases r with
    | none => exact uses_throw _
    | some r => exact uses_pure r
  · exact uses_ite (fun _ => uses_pure current) fun _ => cancelSeen_uses
      (fun h => ⟨⟨guestId, rfl⟩, rfl, h⟩) (fun _ => rfl) (fun _ => trivial) fun _ => trivial

theorem sweep_uses {f : Int → ReservationWhere} {status : ReservationStatus}
    (h : ∀ now, c.Moves (f now) status) : (sweep f status).Uses c.Issues :=
  Uses.bind (uses_op trivial) fun _ => Uses.bind (uses_op trivial) fun _ =>
    Uses.bind (uses_op trivial) fun now => Uses.bind (uses_op (h now)) fun _ =>
      Uses.bind
        (uses_forM fun _ => publishReservationChanged_uses _ _ _ trivial fun _ => trivial)
        fun _ => uses_pure _

theorem applyPaymentSucceeded_uses {id : Id} (h : c.Moves (heldById id) .confirmed) :
    (applyPaymentSucceeded id).Uses c.Issues := by
  refine Uses.bind (uses_op h) fun n => uses_ite (fun _ => ?_) fun _ => ?_
  · exact Uses.bind (announce_uses id .confirmed trivial (fun _ => trivial) fun _ => trivial)
      fun _ => uses_pure _
  · refine Uses.bind (uses_op trivial) fun status => ?_
    cases status with
    | none => exact uses_pure _
    | some status => exact uses_ite (fun _ => uses_pure _) fun _ => uses_pure _

theorem applyPaymentFailed_uses {id : Id} (h : c.Moves (heldById id) .cancelled) :
    (applyPaymentFailed id).Uses c.Issues := by
  refine Uses.bind (uses_op h) fun n => uses_ite (fun _ => ?_) fun _ => ?_
  · exact Uses.bind (announce_uses id .cancelled trivial (fun _ => trivial) fun _ => trivial)
      fun _ => uses_pure _
  · refine Uses.bind (uses_op trivial) fun status => ?_
    cases status with
    | none => exact uses_pure _
    | some status => exact uses_pure _

/-- A declined charge never asks for a refund. -/
theorem applyPaymentFailed_returns (id : Id) :
    (applyPaymentFailed id).Returns fun o => ∀ status, o ≠ .refundRequired status := by
  refine returns_bind fun n => ?_
  by_cases h : n = 1
  · rw [if_pos h]
    exact returns_bind fun _ => returns_pure fun _ => by simp
  · rw [if_neg h]
    refine returns_bind fun status => ?_
    cases status with
    | none => exact returns_pure fun _ => by simp
    | some status => exact returns_pure fun _ => by simp

theorem processPaymentResult_uses (jobId : ResultJobId) (data : PaymentResult) :
    (processPaymentResult data).Uses (Call.Issues (.processResult jobId data)) := by
  unfold processPaymentResult
  cases hp : paymentResultSchema data with
  | error e => exact uses_throw e
  | ok result =>
    cases paymentResultSchema_eq_ok hp
    cases data with
    | succeeded m =>
      refine Uses.bind (applyPaymentSucceeded_uses _ ⟨rfl, rfl⟩) fun o => ?_
      cases o with
      | refundRequired status => exact uses_op rfl
      | _ => exact uses_pure ()
    | failed m =>
      refine Uses.bind_of_returns (applyPaymentFailed_uses _ ⟨rfl, rfl⟩)
        (applyPaymentFailed_returns _) fun o ho => ?_
      cases o with
      | refundRequired status => exact (ho status rfl).elim
      | _ => exact uses_pure ()

theorem relayTick_uses (hc : c.transacts = true) : relayTick.Uses c.Issues := by
  refine Uses.tryCatch (Uses.bind (transaction_uses c hc ?_) fun _ => uses_pure ())
    fun _ => uses_pure ()
  refine Uses.bind (uses_op hc) fun rows => uses_ite (fun _ => uses_pure 0) fun _ => ?_
  exact Uses.bind (uses_op hc) fun _ => Uses.bind (uses_op trivial) fun _ =>
    Uses.bind (uses_op hc) fun _ => uses_pure _

theorem toResult_uses {A : Statement → Prop} (e : BookingHeld) (p : Payment) :
    (PaymentService.toResult e p).Uses A := by
  refine uses_ite (fun _ => ?_) fun _ => uses_pure _
  cases p.providerRef with
  | none => exact uses_throw _
  | some ref => exact uses_ite (fun _ => uses_throw _) fun _ => uses_pure _

theorem claim_uses {A : Statement → Prop} (e : BookingHeld)
    (h : ∀ data, A (.db (.paymentCreate data))) : (PaymentService.claim e).Uses A :=
  Uses.tryCatch (uses_op (h _)) fun _ => uses_ite (fun _ => uses_throw _) fun _ => uses_pure ()

theorem chargeAndRecord_uses (P : PaymentProvider) (hc : c.ofWorker = true) {e : BookingHeld}
    (h : ∀ u : PaymentUpdate, u.status ≠ .refunded → c.Records e.idempotencyKey u) :
    (PaymentService.chargeAndRecord P e).Uses c.Issues := by
  refine Uses.bind ((P.charge_isolated _ _).mono fun _ => issues_of_isolated c hc) fun outcome => ?_
  refine Uses.bind (uses_op (h _ ?_)) fun p => toResult_uses e p
  cases outcome <;> simp [PaymentService.recorded, PaymentUpdate.status]

theorem charge_uses (P : PaymentProvider) (hc : c.ofWorker = true) {e : BookingHeld}
    (h : ∀ u : PaymentUpdate, u.status ≠ .refunded → c.Records e.idempotencyKey u) :
    (PaymentService.charge P e).Uses c.Issues := by
  refine Uses.bind (uses_op trivial) fun existing => ?_
  cases existing with
  | some existing =>
    exact uses_ite (fun _ => toResult_uses e existing) fun _ => chargeAndRecord_uses c P hc h
  | none =>
    exact Uses.bind (claim_uses e fun _ => hc) fun _ => chargeAndRecord_uses c P hc h

theorem refund_uses (P : PaymentProvider) (hc : c.ofWorker = true) {e : RefundRequested}
    (h : c.Records e.idempotencyKey .refunded) : (PaymentService.refund P e).Uses c.Issues := by
  refine Uses.bind (uses_op trivial) fun payment => ?_
  cases payment with
  | none => exact uses_pure ()
  | some payment =>
    refine uses_ite (fun _ => uses_pure ()) fun _ => ?_
    exact Uses.bind ((P.refund_isolated _).mono fun _ => issues_of_isolated c hc) fun _ =>
      Uses.bind (uses_op h) fun _ => uses_pure ()

theorem addResult_uses {A : Statement → Prop} (event : BookingHeld) (result : PaymentResult)
    (h : A (.host .inject)) (h' : ∀ m key, A (.queue (.resultAdd m key))) :
    (addResult event result).Uses A := by
  refine Uses.bind (uses_op h) fun trace => ?_
  cases trace with
  | none => exact uses_op (h' _ _)
  | some tc => exact uses_op (h' _ _)

theorem processCharge_uses (P : PaymentProvider) (jobId : Id) (data : BookingHeld) :
    (processCharge P data).Uses (Call.Issues (.processCharge jobId data)) := by
  unfold processCharge
  cases hp : bookingHeldSchema data with
  | error e => exact uses_throw e
  | ok event =>
    cases (bookingHeldSchema_eq_ok hp).1
    exact Uses.bind (charge_uses _ P rfl fun u hu => ⟨rfl, hu⟩) fun result =>
      addResult_uses _ result trivial fun _ _ => rfl

end Programs

/-- The list is complete. -/
theorem program_issues (cfg : Config) (c : Call) : (c.program cfg).Uses c.Issues := by
  cases c with
  | hold guestId dto => exact answer_uses _ (hold_uses _ rfl _ _ _)
  | cancel guestId id => exact answer_uses _ (cancel_uses guestId id)
  | applyPaymentSucceeded id => exact answer_uses _ (applyPaymentSucceeded_uses _ ⟨rfl, rfl⟩)
  | applyPaymentFailed id => exact answer_uses _ (applyPaymentFailed_uses _ ⟨rfl, rfl⟩)
  | sweepExpiredHolds => exact answer_uses _ (sweep_uses _ fun now => ⟨now, rfl, rfl⟩)
  | sweepCompletedStays => exact answer_uses _ (sweep_uses _ fun now => ⟨now, rfl, rfl⟩)
  | relayTick => exact answer_uses _ (relayTick_uses _ rfl)
  | charge e => exact answer_uses _ (charge_uses _ _ rfl fun u hu => ⟨rfl, hu⟩)
  | refund e => exact answer_uses _ (refund_uses _ _ rfl ⟨rfl, rfl⟩)
  | processCharge jobId e => exact answer_uses _ (processCharge_uses _ jobId e)
  | processResult jobId r => exact answer_uses _ (processPaymentResult_uses jobId r)
  | processRefund jobId e => exact answer_uses _ (refund_uses _ _ rfl ⟨rfl, rfl⟩)

end NoOverlap
