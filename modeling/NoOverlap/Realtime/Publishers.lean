import NoOverlap.Concurrency.Order
import NoOverlap.Lifecycle.Effect
import NoOverlap.Lifecycle.Footprint

/-!
# Who announces, and when

Two facts about every call.  Once it has asked for a number it commits nothing more:
each publisher announces after its own commit.  And every event it emits carries a number
that it has been given for the event's listing.
-/

namespace NoOverlap

open Relational
open Concurrency.Prog

namespace Statement

/-- The allocation of a number. -/
def Numbers : Statement → Prop
  | .redis (.incr _) => True
  | _ => False

/-- A statement that leaves the committed reservations alone. -/
def Quiet : Statement → Prop
  | .db .commit | .db (.reservationUpdate _ _ _) | .db (.reservationUpdateMany _ _) => False
  | _ => True

/-- A statement that has no part in an announcement. -/
def Unannounced : Statement → Prop
  | .redis (.incr _) | .redis (.emit _) => False
  | _ => True

theorem reservations_of_effect {o : DbStatement} (ho : (db o).Quiet) {t : Nat} {d d' : Database}
    {r : Except Err o.Resp} (hx : d.Effect t o r d') : d'.reservations = d.reservations := by
  cases hx with
  | commit | reservationUpdate | reservationUpdateMany => exact ho.elim
  | paymentUpdate key data p hk => simp only [Database.paymentUpdate, hk]
  | _ => rfl

theorem reservations_of_quiet {o : Statement} (ho : o.Quiet) {t : Nat} {ch : Choice}
    {s s' : Store} {r : Except Err o.Resp} (hx : o.exec t ch s = some (r, s')) :
    s'.db.reservations = s.db.reservations := by
  rcases exec_db hx with he | ⟨o', rfl, r', hp⟩
  · rw [he]
  · exact reservations_of_effect ho (Database.effect_of_perform hp)

/-- A number, for the listing it was given for. -/
def gives : (o : Statement) → Except Err o.Resp → Id × Nat → Prop
  | .redis (.incr listingId), .ok n, f => f = (listingId, n)
  | _, _, _ => False

def needs : Statement → Id × Nat → Prop
  | .redis (.emit e), f => f = (e.listingId, e.seq)
  | _, _ => False

theorem Unannounced.not_numbers {o : Statement} (h : o.Unannounced) : ¬o.Numbers := by
  intro hn
  cases o with
  | redis o =>
    cases o with
    | incr => exact h
    | _ => exact hn
  | _ => exact hn

theorem Unannounced.not_needs {o : Statement} (h : o.Unannounced) (f : Id × Nat) :
    ¬o.needs f := by
  intro hn
  cases o with
  | redis o =>
    cases o with
    | emit => exact h
    | _ => exact hn
  | _ => exact hn

end Statement

open Statement (Numbers Quiet Unannounced)

/-- What is known of every program, whatever numbers it has been given before. -/
structure Announces {α : Type} (p : Async α) : Prop where
  after : p.After Numbers Quiet
  earned : ∀ known, p.Earned Statement.gives Statement.needs known

namespace Announces

variable {α β : Type}

theorem of_unannounced {p : Async α} (h : p.Uses Unannounced) : Announces p where
  after := .of_unused (h.mono fun _ => Unannounced.not_numbers)
  earned := fun _ => .of_uses (h.mono fun _ => Unannounced.not_needs)

theorem bind {p : Async α} {f : α → Async β} (hp : p.Uses Unannounced)
    (hf : ∀ a, Announces (f a)) : Announces (p >>= f) where
  after := .bind_of_unused (hp.mono fun _ => Unannounced.not_numbers) fun a => (hf a).after
  earned := fun known =>
    .bind (.of_uses (hp.mono fun _ => Unannounced.not_needs)) fun a => (hf a).earned known

/-- A program that commits nothing. -/
theorem of_quiet {p : Async α} (h : p.Uses Quiet)
    (he : ∀ known, p.Earned Statement.gives Statement.needs known) : Announces p :=
  ⟨.of_uses h, he⟩

/-- What comes after commits nothing, and announces nothing. -/
theorem andThen {p : Async α} {f : α → Async β} (hp : Announces p)
    (hf : ∀ a, (f a).Uses fun o => o.Quiet ∧ o.Unannounced) : Announces (p >>= f) where
  after := .bind hp.after fun a => (hf a).mono fun _ h => h.1
  earned := fun known => .bind (hp.earned known) fun a =>
    .of_uses ((hf a).mono fun _ h => h.2.not_needs)

theorem ite {c : Prop} [Decidable c] {p q : Async α} (hp : Announces p) (hq : Announces q) :
    Announces (if c then p else q) := by
  split
  · exact hp
  · exact hq

theorem pure (a : α) : Announces (Pure.pure a : Async α) := of_unannounced trivial

theorem throw (e : Err) : Announces (MonadExcept.throw e : Async α) := of_unannounced trivial

end Announces

/-! ## The announcement -/

theorem publish_earned (listingId reservationId : Id) (status : ReservationStatus)
    (known : Id × Nat → Prop) :
    (publishReservationChanged listingId reservationId status).Earned Statement.gives
      Statement.needs known := by
  refine Earned.tryCatch ⟨fun f hf => hf.elim, fun r => ?_⟩ fun _ => trivial
  cases r with
  | ok n => exact ⟨fun f hf => .inr hf, fun _ => trivial⟩
  | error e => trivial

theorem publish_quiet (listingId reservationId : Id) (status : ReservationStatus) :
    (publishReservationChanged listingId reservationId status).Uses Quiet :=
  publishReservationChanged_uses _ _ _ trivial fun _ => trivial

/-- An announcement, and an answer. -/
theorem publish_then {α : Type} (listingId reservationId : Id) (status : ReservationStatus)
    (a : α) : Announces (publishReservationChanged listingId reservationId status >>= fun _ => pure a) :=
  .of_quiet (Uses.bind (publish_quiet _ _ _) fun _ => uses_pure a) fun known =>
    .bind (publish_earned _ _ _ known) fun _ => trivial

theorem announce_then {α : Type} (id : Id) (status : ReservationStatus) (a : α) :
    Announces (announce id status >>= fun _ => pure a) := by
  refine .of_quiet (Uses.bind (announce_uses _ _ trivial (fun _ => trivial) fun _ => trivial)
    fun _ => uses_pure a) fun known => ?_
  refine Earned.bind (Earned.bind (Earned.of_uses (uses_op fun _ hf => hf)) fun l => ?_) fun _ => trivial
  cases l with
  | none => trivial
  | some listingId => exact publish_earned _ _ _ known

/-! ## The booking module -/

theorem transaction_unannounced {α : Type} {body : Async α} (h : body.Uses Unannounced) :
    (transaction body).Uses Unannounced :=
  Uses.tryCatch
    (Uses.bind (uses_op trivial) fun _ => Uses.bind h fun _ => Uses.bind (uses_op trivial) fun _ =>
      uses_pure _)
    fun _ => Uses.bind (uses_op trivial) fun _ => uses_throw _

theorem claimWithRetry_unannounced (ttl : Int) (guestId : Id) (dto : CreateReservationDto)
    (price : Option Int) : (claimWithRetry ttl guestId dto price).Uses Unannounced := by
  have hslot : (claimSlot ttl guestId dto price).Uses Unannounced :=
    transaction_unannounced <| Uses.bind (uses_op trivial) fun _ =>
      Uses.bind (uses_op trivial) fun _ => Uses.bind (uses_op trivial) fun _ =>
        Uses.bind (uses_op trivial) fun _ => uses_pure _
  refine Uses.tryCatch (Uses.tryCatch hslot fun err => ?_) fun err => ?_
  · exact uses_ite (fun _ => uses_throw _) fun _ => Uses.bind (uses_op trivial) fun _ => hslot
  · exact uses_ite (fun _ => Uses.bind (uses_op trivial) fun _ => uses_throw _)
      fun _ => uses_throw _

theorem hold_announces (ttl : Int) (guestId : Id) (dto : CreateReservationDto) :
    Announces (hold ttl guestId dto) := by
  refine .bind (uses_op trivial) fun now => .ite (.throw _) (.ite (.throw _) ?_)
  refine .bind (uses_op trivial) fun listing => ?_
  cases listing with
  | none => exact .throw _
  | some listing =>
    refine .ite (.throw _) (.bind (claimWithRetry_unannounced _ _ _ _) fun held => ?_)
    exact .bind (uses_op trivial) fun _ => publish_then _ _ _ held

theorem compensate_announces (id : Id) (wasPaid : Bool) (r : Reservation) :
    Announces (compensate id wasPaid r) :=
  .ite (.bind (uses_op trivial) fun _ => publish_then _ _ _ r) (publish_then _ _ _ r)

theorem cancel_announces (guestId id : Id) : Announces (cancel guestId id) := by
  refine .bind (Uses.bind (uses_op trivial) fun r => ?_) fun current => .ite (.pure _) ?_
  · cases r with
    | none => exact uses_throw _
    | some r => exact uses_pure r
  · refine .bind (uses_ite (fun _ => uses_pure ()) fun _ => uses_throw _) fun _ => ?_
    exact .bind (uses_op trivial) fun r => compensate_announces _ _ r

theorem applyPaymentSucceeded_announces (id : Id) : Announces (applyPaymentSucceeded id) := by
  refine .bind (uses_op trivial) fun n => .ite (announce_then _ _ _) ?_
  refine .bind (uses_op trivial) fun status => ?_
  cases status with
  | none => exact .pure _
  | some status => exact .ite (.pure _) (.pure _)

theorem applyPaymentFailed_announces (id : Id) : Announces (applyPaymentFailed id) := by
  refine .bind (uses_op trivial) fun n => .ite (announce_then _ _ _) ?_
  refine .bind (uses_op trivial) fun status => ?_
  cases status with
  | none => exact .pure _
  | some status => exact .pure _

theorem sweep_announces (filter : Int → ReservationWhere) (status : ReservationStatus) :
    Announces (sweep filter status) := by
  refine .bind (uses_op trivial) fun readAt => .bind (uses_op trivial) fun candidates => ?_
  refine .bind (uses_op trivial) fun writeAt => .bind (uses_op trivial) fun n => ?_
  exact .of_quiet (Uses.bind (uses_forM fun r => publish_quiet _ _ _) fun _ => uses_pure n)
    fun known => .bind (earned_forM fun r => publish_earned _ _ _ known) fun _ => trivial

theorem relayTick_unannounced : relayTick.Uses Unannounced := by
  refine Uses.tryCatch (Uses.bind (transaction_unannounced ?_) fun _ => uses_pure ())
    fun _ => uses_pure ()
  refine Uses.bind (uses_op trivial) fun rows => uses_ite (fun _ => uses_pure 0) fun _ => ?_
  exact Uses.bind (uses_op trivial) fun _ => Uses.bind (uses_op trivial) fun _ =>
    Uses.bind (uses_op trivial) fun _ => uses_pure _

theorem settle_announces (result : PaymentResult) : Announces (settle result) := by
  cases result with
  | succeeded m => exact applyPaymentSucceeded_announces _
  | failed m => exact applyPaymentFailed_announces _

theorem processPaymentResult_announces (data : PaymentResult) :
    Announces (processPaymentResult data) := by
  unfold processPaymentResult
  cases paymentResultSchema data with
  | error e => exact .throw e
  | ok result =>
    refine (settle_announces result).andThen fun o => ?_
    cases o with
    | refundRequired status => exact uses_op ⟨trivial, trivial⟩
    | _ => exact uses_pure ()

/-! ## The worker -/

/-- The provider leaves the numbers of the listings alone, and the events. -/
structure PaymentProvider.Unannounced (P : PaymentProvider) : Prop where
  charge : ∀ key amountCents, (P.charge key amountCents).Uses Statement.Unannounced
  refund : ∀ key, (P.refund key).Uses Statement.Unannounced

theorem gateway_unannounced : gateway.Unannounced where
  charge := fun _ _ => uses_op trivial
  refund := fun _ => uses_op trivial

theorem mockPaymentProvider_unannounced (cfg : MockConfig) :
    (mockPaymentProvider cfg).Unannounced where
  charge := fun key amountCents => by
    refine Uses.bind (uses_op trivial) fun prior => ?_
    cases prior with
    | some prior => exact uses_pure prior
    | none =>
      refine Uses.bind (uses_ite (fun _ => uses_op trivial) fun _ => uses_pure ()) fun _ => ?_
      refine Uses.bind (uses_op trivial) fun r => uses_ite (fun _ => uses_throw _) fun _ => ?_
      exact Uses.bind (uses_op trivial) fun _ => Uses.bind (uses_op trivial) fun _ => uses_pure _
  refund := fun key => by
    refine Uses.bind (uses_op trivial) fun prior => ?_
    cases prior with
    | some prior => exact uses_pure prior
    | none =>
      exact Uses.bind (uses_ite (fun _ => uses_op trivial) fun _ => uses_pure ())
        fun _ => uses_op trivial

section Worker

variable {P : PaymentProvider} (hP : P.Unannounced)

include hP

theorem charge_unannounced (event : BookingHeld) :
    (PaymentService.charge P event).Uses Unannounced := by
  have hrecord : (PaymentService.chargeAndRecord P event).Uses Unannounced :=
    Uses.bind (hP.charge _ _) fun outcome => Uses.bind (uses_op trivial) fun p => toResult_uses event p
  refine Uses.bind (uses_op trivial) fun existing => ?_
  cases existing with
  | some existing => exact uses_ite (fun _ => toResult_uses event existing) fun _ => hrecord
  | none => exact Uses.bind (claim_uses event fun _ => trivial) fun _ => hrecord

theorem refund_unannounced (event : RefundRequested) :
    (PaymentService.refund P event).Uses Unannounced := by
  refine Uses.bind (uses_op trivial) fun payment => ?_
  cases payment with
  | none => exact uses_pure ()
  | some payment =>
    refine uses_ite (fun _ => uses_pure ()) fun _ => Uses.bind (hP.refund _) fun _ => ?_
    exact Uses.bind (uses_op trivial) fun _ => uses_pure ()

theorem processCharge_unannounced (data : BookingHeld) :
    (processCharge P data).Uses Unannounced := by
  unfold processCharge
  cases bookingHeldSchema data with
  | error e => exact uses_throw e
  | ok event =>
    exact Uses.bind (charge_unannounced hP event) fun result =>
      addResult_uses _ result trivial fun _ _ => trivial

end Worker

/-! ## Every call -/

theorem answer_announces {α : Type} {p : Async α} {f : α → Reply} (h : Announces p) :
    Announces (answer p f) := h.andThen fun _ => uses_pure _

theorem program_announces {cfg : Config} (hP : cfg.provider.Unannounced) (c : Call) :
    Announces (c.program cfg) := by
  cases c with
  | hold guestId dto => exact answer_announces (hold_announces _ _ _)
  | cancel guestId id => exact answer_announces (cancel_announces _ _)
  | applyPaymentSucceeded id => exact answer_announces (applyPaymentSucceeded_announces id)
  | applyPaymentFailed id => exact answer_announces (applyPaymentFailed_announces id)
  | sweepExpiredHolds => exact answer_announces (sweep_announces _ _)
  | sweepCompletedStays => exact answer_announces (sweep_announces _ _)
  | relayTick => exact answer_announces (.of_unannounced relayTick_unannounced)
  | charge e => exact answer_announces (.of_unannounced (charge_unannounced hP e))
  | refund e => exact answer_announces (.of_unannounced (refund_unannounced hP e))
  | processCharge jobId e => exact answer_announces (.of_unannounced (processCharge_unannounced hP e))
  | processResult jobId r => exact answer_announces (processPaymentResult_announces r)
  | processRefund jobId e => exact answer_announces (.of_unannounced (refund_unannounced hP e))

end NoOverlap
