import NoOverlap.Concurrency.Footprint
import NoOverlap.Model.Async

/-!
# The payment module of the worker

`PaymentService` takes the provider as a parameter, as the source injects it.
Two providers are given: one that answers a charge in a single step, and the
mock provider of the source, which keeps a ledger in Redis.
-/

namespace NoOverlap

open Concurrency (Prog)
open Concurrency.Prog

/-- A statement that touches neither the database nor a queue. -/
def Statement.Isolated : Statement → Prop
  | .db _ | .queue _ => False
  | _ => True

/-- A provider is reached over its own connection: it has no hand in the tables
or the queues of the booking system. -/
structure PaymentProvider where
  charge : IdempotencyKey → Int → Async ChargeOutcome
  refund : IdempotencyKey → Async Unit
  charge_isolated : ∀ key amountCents, (charge key amountCents).Uses Statement.Isolated
  refund_isolated : ∀ key, (refund key).Uses Statement.Isolated

/-- A gateway reached over one request.  What it may answer is up to the policy
of a run. -/
def gateway : PaymentProvider :=
  { charge := fun key amountCents => await (.provider (.charge key amountCents))
    refund := fun key => await (.provider (.refund key))
    charge_isolated := fun _ _ => uses_op trivial
    refund_isolated := fun _ => uses_op trivial }

/-! ## MockPaymentProvider -/

structure MockConfig where
  failureRate : ℚ
  transientRate : ℚ
  latencyMs : Nat

namespace MockPaymentProvider

/-- `mock_${idempotencyKey}`. -/
def providerRef (key : IdempotencyKey) : String := "mock_" ++ toString key

def delay (cfg : MockConfig) : Async Unit :=
  if 0 < cfg.latencyMs then sleep cfg.latencyMs else pure ()

def charge (cfg : MockConfig) (key : IdempotencyKey) (_amountCents : Int) :
    Async ChargeOutcome := do
  match ← redis.getCharge key with
  | some prior => pure prior
  | none =>
    delay cfg
    let r ← mathRandom
    if r < cfg.transientRate then throw .transient
    else
      let r ← mathRandom
      let outcome : ChargeOutcome :=
        if r < cfg.failureRate then .declined "Card declined" else .succeeded (providerRef key)
      redis.setCharge key outcome
      pure outcome

def refund (cfg : MockConfig) (key : IdempotencyKey) : Async Unit := do
  match ← redis.getRefund key with
  | some prior => pure prior
  | none =>
    delay cfg
    redis.setRefund key

theorem delay_isolated (cfg : MockConfig) : (delay cfg).Uses Statement.Isolated :=
  uses_ite (fun _ => uses_op trivial) fun _ => uses_pure ()

theorem charge_isolated (cfg : MockConfig) (key : IdempotencyKey) (amountCents : Int) :
    (charge cfg key amountCents).Uses Statement.Isolated := by
  refine Uses.bind (uses_op trivial) fun prior => ?_
  cases prior with
  | some prior => exact uses_pure prior
  | none =>
    refine Uses.bind (delay_isolated cfg) fun _ => Uses.bind (uses_op trivial) fun r => ?_
    exact uses_ite (fun _ => uses_throw _) fun _ =>
      Uses.bind (uses_op trivial) fun _ => Uses.bind (uses_op trivial) fun _ => uses_pure _

theorem refund_isolated (cfg : MockConfig) (key : IdempotencyKey) :
    (refund cfg key).Uses Statement.Isolated := by
  refine Uses.bind (uses_op trivial) fun prior => ?_
  cases prior with
  | some prior => exact uses_pure prior
  | none => exact Uses.bind (delay_isolated cfg) fun _ => uses_op trivial

end MockPaymentProvider

def mockPaymentProvider (cfg : MockConfig) : PaymentProvider :=
  { charge := MockPaymentProvider.charge cfg
    refund := MockPaymentProvider.refund cfg
    charge_isolated := MockPaymentProvider.charge_isolated cfg
    refund_isolated := MockPaymentProvider.refund_isolated cfg }

/-! ## PaymentService -/

namespace PaymentService

/-- Build the result from the persisted payment. -/
def toResult (event : BookingHeld) (payment : Payment) : Async PaymentResult :=
  if payment.status = .succeeded then
    match payment.providerRef with
    | none => throw (.other "SUCCEEDED with no provider reference")
    | some ref =>
      if ref = "" then throw (.other "SUCCEEDED with no provider reference")
      else pure (.succeeded
        { reservationId := event.reservationId, idempotencyKey := event.idempotencyKey,
          amountCents := payment.amountCents, providerRef := ref, traceContext := none })
  else pure (.failed
    { reservationId := event.reservationId, idempotencyKey := event.idempotencyKey,
      reason := payment.failureReason.getD "Card declined", traceContext := none })

/-- Open the payment row.  A row that another delivery opened first is fine. -/
def claim (event : BookingHeld) : Async Unit :=
  tryCatch
    (prisma.paymentCreate
      { reservationId := event.reservationId, idempotencyKey := event.idempotencyKey,
        amountCents := event.amountCents })
    fun err => if !err.isUniqueViolation then throw err else pure ()

/-- What the answer of the provider is recorded as. -/
def recorded : ChargeOutcome → PaymentUpdate
  | .succeeded ref => .succeeded ref
  | .declined reason => .failed reason

/-- `charge` from the provider call on. -/
def chargeAndRecord (P : PaymentProvider) (event : BookingHeld) : Async PaymentResult := do
  let outcome ← P.charge event.idempotencyKey event.amountCents
  let payment ← prisma.paymentUpdate event.idempotencyKey (recorded outcome)
  toResult event payment

def charge (P : PaymentProvider) (event : BookingHeld) : Async PaymentResult := do
  match ← prisma.paymentFindUnique event.idempotencyKey with
  | some existing =>
    if existing.status ≠ .pending then toResult event existing else chargeAndRecord P event
  | none =>
    claim event
    chargeAndRecord P event

def refund (P : PaymentProvider) (event : RefundRequested) : Async Unit := do
  match ← prisma.paymentFindUnique event.idempotencyKey with
  | none => pure ()
  | some payment =>
    if payment.status ≠ .succeeded then pure ()
    else
      P.refund event.idempotencyKey
      let _ ← prisma.paymentUpdate event.idempotencyKey .refunded
      pure ()

end PaymentService

/-! ## The processors -/

/-- Hand the result back, under the trace of the charge. -/
def addResult (event : BookingHeld) (result : PaymentResult) : Async Unit := do
  match ← inject with
  | none => resultQueueAdd result event.idempotencyKey
  | some tc => resultQueueAdd (result.withTrace tc) event.idempotencyKey

/-- `ChargeProcessor.process`, on the data of a job. -/
def processCharge (P : PaymentProvider) (data : BookingHeld) : Async Unit :=
  match bookingHeldSchema data with
  | .error e => throw e
  | .ok event => PaymentService.charge P event >>= addResult event

/-- `RefundProcessor.process`, on the data of a job. -/
def processRefund (P : PaymentProvider) (data : RefundRequested) : Async Unit :=
  match refundRequestedSchema data with
  | .error e => throw e
  | .ok event => PaymentService.refund P event

end NoOverlap
