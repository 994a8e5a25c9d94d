import NoOverlap.Data.Table

/-!
# Rows and messages

The tables of the shared database that a booking touches, the events the API and
the worker exchange, and the errors either side can meet.  A row carries the
columns that some modelled function reads or writes.

Ids are natural numbers standing for UUIDs.  An instant is a number of
milliseconds from the start of 1970; a JavaScript `Date` may be invalid, and
every comparison with an invalid date is false.
-/

namespace NoOverlap

open Relational

abbrev Id := Nat

/-- The idempotency key of a charge is the id of the reservation it pays for. -/
abbrev IdempotencyKey := Id

/-- A JavaScript `Date`, `none` when it is invalid. -/
abbrev JsDate := Option Int

namespace JsDate

def lt : JsDate → JsDate → Bool
  | some a, some b => decide (a < b)
  | _, _ => false

def le : JsDate → JsDate → Bool
  | some a, some b => decide (a ≤ b)
  | _, _ => false

end JsDate

/-! ## Tables -/

inductive ReservationStatus where
  | held
  | confirmed
  | expired
  | cancelled
  | completed
  deriving DecidableEq, Repr

/-- The statuses the exclusion constraint looks at. -/
def ReservationStatus.active : ReservationStatus → Bool
  | .held | .confirmed => true
  | _ => false

inductive PaymentStatus where
  | pending
  | succeeded
  | failed
  | refunded
  deriving DecidableEq, Repr

structure Listing where
  id : Id
  nightlyPriceCents : Int
  active : Bool

structure Reservation where
  id : Id
  listingId : Id
  guestId : Id
  checkIn : Int
  checkOut : Int
  status : ReservationStatus
  priceTotalCents : Int
  holdExpiresAt : Int
  createdAt : Int
  deriving DecidableEq

/-- A ledger row.  `idempotencyKey` is unique and serves as the key here. -/
structure Payment where
  id : Id
  reservationId : Id
  status : PaymentStatus
  providerRef : Option String
  idempotencyKey : IdempotencyKey
  amountCents : Int
  failureReason : Option String
  deriving DecidableEq

/-! ## Messages -/

/-- W3C trace context, carried so that a booking can be followed end to end. -/
structure TraceContext where
  traceparent : String
  tracestate : Option String
  deriving DecidableEq

/-- Emitted when a hold is placed. -/
structure BookingHeld where
  reservationId : Id
  amountCents : Int
  idempotencyKey : IdempotencyKey
  traceContext : Option TraceContext
  deriving DecidableEq

structure PaymentSucceeded where
  reservationId : Id
  idempotencyKey : IdempotencyKey
  amountCents : Int
  providerRef : String
  traceContext : Option TraceContext
  deriving DecidableEq

structure PaymentFailed where
  reservationId : Id
  idempotencyKey : IdempotencyKey
  reason : String
  traceContext : Option TraceContext
  deriving DecidableEq

inductive PaymentResult where
  | succeeded (m : PaymentSucceeded)
  | failed (m : PaymentFailed)
  deriving DecidableEq

structure RefundRequested where
  reservationId : Id
  idempotencyKey : IdempotencyKey
  deriving DecidableEq

structure ReservationChanged where
  listingId : Id
  reservationId : Id
  status : ReservationStatus
  seq : Nat
  deriving DecidableEq

structure OutboxRow where
  id : Id
  aggregateId : Id
  payload : BookingHeld
  publishedAt : Option Int
  createdAt : Int
  deriving DecidableEq

namespace PaymentResult

/-- The discriminator `type`. -/
inductive Tag where
  | paymentSucceeded
  | paymentFailed
  deriving DecidableEq, Repr

def tag : PaymentResult → Tag
  | succeeded _ => .paymentSucceeded
  | failed _ => .paymentFailed

def reservationId : PaymentResult → Id
  | succeeded m => m.reservationId
  | failed m => m.reservationId

def idempotencyKey : PaymentResult → IdempotencyKey
  | succeeded m => m.idempotencyKey
  | failed m => m.idempotencyKey

def withTrace (tc : TraceContext) : PaymentResult → PaymentResult
  | succeeded m => succeeded { m with traceContext := some tc }
  | failed m => failed { m with traceContext := some tc }

@[simp] theorem tag_withTrace (tc : TraceContext) (r : PaymentResult) :
    (r.withTrace tc).tag = r.tag := by cases r <;> rfl

@[simp] theorem reservationId_withTrace (tc : TraceContext) (r : PaymentResult) :
    (r.withTrace tc).reservationId = r.reservationId := by cases r <;> rfl

@[simp] theorem idempotencyKey_withTrace (tc : TraceContext) (r : PaymentResult) :
    (r.withTrace tc).idempotencyKey = r.idempotencyKey := by cases r <;> rfl

end PaymentResult

/-! ## Errors -/

/-- The codes of the error catalogue that the modelled functions raise. -/
inductive ErrorCode where
  | validationFailed
  | unauthenticated
  | invalidCredentials
  | forbidden
  | notFound
  | reservationSlotTaken
  | invalidStateTransition
  | listingHasBookings
  | reviewStayNotFinished
  | reviewAlreadyExists
  deriving DecidableEq, Repr

/-- What a call can throw: a domain exception, a failed write of the driver with
its SQLSTATE on `code` or on `cause.originalCode`, a known Prisma request error,
a transient fault of the payment provider, or anything else. -/
inductive Err where
  | app (code : ErrorCode) (detail : Option String)
  | driver (code originalCode : Option String)
  | known (code : String)
  | transient
  | other (message : String)
  deriving DecidableEq

namespace Err

/-- The SQLSTATE of a failed write, wherever the driver put it. -/
def sqlState : Err → Option String
  | driver code originalCode => originalCode.or code
  | known code => some code
  | _ => none

def isExclusionViolation (e : Err) : Bool := e.sqlState == some "23P01"

def isDeadlock (e : Err) : Bool := e.sqlState == some "40P01"

def isUniqueViolation : Err → Bool
  | known code => code == "P2002"
  | _ => false

end Err

/-! ## Message schemas

The payloads are typed here, so what is left of a schema are the refinements the
types do not express. -/

def bookingHeldSchema (e : BookingHeld) : Except Err BookingHeld :=
  if 0 < e.amountCents then .ok e else .error (.other "ZodError")

def paymentResultSchema : PaymentResult → Except Err PaymentResult
  | .succeeded m =>
    if 0 < m.amountCents ∧ m.providerRef ≠ "" then .ok (.succeeded m)
    else .error (.other "ZodError")
  | .failed m => if m.reason ≠ "" then .ok (.failed m) else .error (.other "ZodError")

def refundRequestedSchema (e : RefundRequested) : Except Err RefundRequested := .ok e

theorem bookingHeldSchema_eq_ok {e e' : BookingHeld} (h : bookingHeldSchema e = .ok e') :
    e' = e ∧ 0 < e.amountCents := by
  unfold bookingHeldSchema at h
  split at h
  · next hpos => cases h; exact ⟨rfl, hpos⟩
  · cases h

theorem paymentResultSchema_eq_ok {r r' : PaymentResult} (h : paymentResultSchema r = .ok r') :
    r' = r := by
  cases r with
  | succeeded m =>
    simp only [paymentResultSchema] at h
    split at h <;> cases h
    rfl
  | failed m =>
    simp only [paymentResultSchema] at h
    split at h <;> cases h
    rfl

/-! ## Keys -/

instance : Keyed Listing Id := ⟨Listing.id⟩

instance : Keyed Reservation Id := ⟨Reservation.id⟩

instance : Keyed OutboxRow Id := ⟨OutboxRow.id⟩

instance : Keyed Payment IdempotencyKey := ⟨Payment.idempotencyKey⟩

@[simp] theorem key_payment (p : Payment) : key p = p.idempotencyKey := rfl

end NoOverlap
