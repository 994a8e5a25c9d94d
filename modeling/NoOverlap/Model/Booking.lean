import NoOverlap.Data.Calendar
import NoOverlap.Model.Async

/-!
# The booking module of the API

The service, the two sweeps, the outbox relay and the processor of payment
results, statement for statement.
-/

namespace NoOverlap

open Calendar

/-! ## The state machine -/

/-- The only legal moves. -/
def allowedTransitions : ReservationStatus → List ReservationStatus
  | .held => [.confirmed, .cancelled, .expired]
  | .confirmed => [.cancelled, .completed]
  | .expired => []
  | .cancelled => []
  | .completed => []

def ReservationStatus.name : ReservationStatus → String
  | .held => "HELD"
  | .confirmed => "CONFIRMED"
  | .expired => "EXPIRED"
  | .cancelled => "CANCELLED"
  | .completed => "COMPLETED"

def assertTransition (source target : ReservationStatus) : Async Unit :=
  if target ∈ allowedTransitions source then pure ()
  else throw (.app .invalidStateTransition
    (some ("Cannot move a " ++ source.name ++ " reservation to " ++ target.name ++ ".")))

/-! ## Announcements -/

/-- `RealtimeGateway.publishReservationChanged`.  The timeout around `incr` is a
failure of that statement, before or after it took effect; every failure is
swallowed. -/
def publishReservationChanged (listingId reservationId : Id) (status : ReservationStatus) :
    Async Unit :=
  tryCatch
    (do
      let seq ← redis.incr listingId
      redis.emit { listingId := listingId, reservationId := reservationId, status := status,
                   seq := seq })
    fun _ => pure ()

/-! ## BookingService -/

structure CreateReservationDto where
  listingId : Id
  /-- `new Date(dto.checkIn)`. -/
  checkIn : JsDate
  /-- `new Date(dto.checkOut)`. -/
  checkOut : JsDate

/-- Nights of a stay: the calendar days from one instant to the other, in UTC. -/
def nights (checkIn checkOut : Int) : Int :=
  mathRound
    (dateUTC (getUTCFullYear checkOut) (getUTCMonth checkOut) (getUTCDate checkOut) -
      dateUTC (getUTCFullYear checkIn) (getUTCMonth checkIn) (getUTCDate checkIn))
    msPerDay

/-- `nights * listing.nightlyPriceCents`, NaN for an invalid date. -/
def priceTotal (checkIn checkOut : JsDate) (nightlyPriceCents : Int) : Option Int :=
  match checkIn, checkOut with
  | some a, some b => some (nights a b * nightlyPriceCents)
  | _, _ => none

/-- The `BookingHeld` event of a reservation. -/
def bookingHeld (r : Reservation) (trace : Option TraceContext) : BookingHeld :=
  { reservationId := r.id, amountCents := r.priceTotalCents, idempotencyKey := r.id,
    traceContext := trace }

/-- One attempt at claiming the slot: the reservation and its event, committed
together. -/
def claimSlot (holdTtlMs : Int) (guestId : Id) (dto : CreateReservationDto)
    (priceTotalCents : Option Int) : Async Reservation :=
  transaction do
    let now ← newDate
    let reservation ← tx.reservationCreate
      { listingId := dto.listingId, guestId := guestId, checkIn := dto.checkIn,
        checkOut := dto.checkOut, priceTotalCents := priceTotalCents,
        holdExpiresAt := some (now + holdTtlMs) }
    let trace ← inject
    tx.outboxCreate reservation.id (bookingHeld reservation trace)
    pure reservation

/-- The two attempts and how their failures are reported. -/
def claimWithRetry (holdTtlMs : Int) (guestId : Id) (dto : CreateReservationDto)
    (priceTotalCents : Option Int) : Async Reservation :=
  tryCatch
    (tryCatch (claimSlot holdTtlMs guestId dto priceTotalCents) fun err =>
      if !err.isDeadlock then throw err
      else do
        recordDeadlockRetry
        claimSlot holdTtlMs guestId dto priceTotalCents)
    fun err =>
      if err.isExclusionViolation then do
        recordAttempt .conflict
        throw (.app .reservationSlotTaken none)
      else throw err

def hold (holdTtlMs : Int) (guestId : Id) (dto : CreateReservationDto) : Async Reservation := do
  let now ← newDate
  if dto.checkOut.le dto.checkIn then
    throw (.app .validationFailed (some "checkOut must be after checkIn."))
  else if dto.checkIn.lt (some now) then
    throw (.app .validationFailed (some "checkIn must be in the future."))
  else
    match ← prisma.listingFindUnique dto.listingId with
    | none => throw (.app .notFound none)
    | some listing =>
      if !listing.active then throw (.app .notFound none)
      else
        let held ← claimWithRetry holdTtlMs guestId dto
          (priceTotal dto.checkIn dto.checkOut listing.nightlyPriceCents)
        recordAttempt .held
        publishReservationChanged held.listingId held.id .held
        pure held

def getOwned (guestId id : Id) : Async Reservation := do
  match ← prisma.reservationFindFirst id guestId with
  | none => throw (.app .notFound none)
  | some r => pure r

/-- The refund of a released reservation, under the key its charge settled. -/
def requestRefund (id : Id) (key : IdempotencyKey) : Async Unit :=
  refundQueueAdd { reservationId := id, idempotencyKey := key }

/-- `cancel` after its write. -/
def compensate (id : Id) (wasPaid : Bool) (cancelled : Reservation) : Async Reservation := do
  if wasPaid then requestRefund id id else pure ()
  publishReservationChanged cancelled.listingId cancelled.id .cancelled
  pure cancelled

/-- `cancel` for a call that has read `seen`. -/
def cancelSeen (id : Id) (seen : ReservationStatus) : Async Reservation := do
  assertTransition seen .cancelled
  let wasPaid := seen == .confirmed
  let cancelled ← prisma.reservationUpdate id .cancelled seen
  compensate id wasPaid cancelled

def cancel (guestId id : Id) : Async Reservation := do
  let current ← getOwned guestId id
  if current.status = .cancelled then pure current else cancelSeen id current.status

/-- What applying a payment result did to the reservation. -/
inductive SettlementOutcome where
  | applied
  | alreadySettled
  | missing
  | refundRequired (status : ReservationStatus)
  deriving DecidableEq

def announce (reservationId : Id) (status : ReservationStatus) : Async Unit := do
  match ← prisma.reservationFindListing reservationId with
  | none => pure ()
  | some listingId => publishReservationChanged listingId reservationId status

/-- `where: { id, status: HELD }`. -/
def heldById (id : Id) : ReservationWhere :=
  { status := .held, id := some id, holdExpiresBefore := none, checkOutBefore := none }

def applyPaymentSucceeded (reservationId : Id) : Async SettlementOutcome := do
  let count ← prisma.reservationUpdateMany (heldById reservationId) .confirmed
  if count = 1 then
    announce reservationId .confirmed
    pure .applied
  else
    match ← prisma.reservationFindStatus reservationId with
    | none => pure .missing
    | some status =>
      if status = .confirmed then pure .alreadySettled else pure (.refundRequired status)

def applyPaymentFailed (reservationId : Id) : Async SettlementOutcome := do
  let count ← prisma.reservationUpdateMany (heldById reservationId) .cancelled
  if count = 1 then
    announce reservationId .cancelled
    pure .applied
  else
    match ← prisma.reservationFindStatus reservationId with
    | none => pure .missing
    | some _ => pure .alreadySettled

/-! ## The sweeps -/

/-- `where: { status: HELD, holdExpiresAt: { lt: now } }`. -/
def expiredHolds (now : Int) : ReservationWhere :=
  { status := .held, id := none, holdExpiresBefore := some now, checkOutBefore := none }

/-- `where: { status: CONFIRMED, checkOut: { lt: now } }`. -/
def finishedStays (now : Int) : ReservationWhere :=
  { status := .confirmed, id := none, holdExpiresBefore := none, checkOutBefore := some now }

/-- The shape the two sweeps share: read the candidates, move the rows that match
by now, announce every candidate. -/
def sweep (filter : Int → ReservationWhere) (status : ReservationStatus) : Async Nat := do
  let readAt ← newDate
  let candidates ← prisma.reservationFindMany (filter readAt)
  let writeAt ← newDate
  let count ← prisma.reservationUpdateMany (filter writeAt) status
  candidates.forM fun r => publishReservationChanged r.listingId r.id status
  pure count

def sweepExpiredHolds : Async Nat := sweep expiredHolds .expired

def sweepCompletedStays : Async Nat := sweep finishedStays .completed

/-! ## The outbox relay -/

def relayBatchSize : Nat := 100

def publishBatch : Async Nat :=
  transaction do
    let rows ← tx.selectUnpublished relayBatchSize
    if rows.length = 0 then pure 0
    else
      chargeQueueAddBulk rows
      let now ← newDate
      let _ ← tx.outboxMarkPublished (rows.map (·.id)) now
      pure rows.length

/-- The scheduled trigger.  A failed pass is logged and left to the next tick. -/
def relayTick : Async Unit :=
  tryCatch
    (do
      let _ ← publishBatch
      pure ())
    fun _ => pure ()

/-! ## PaymentResultProcessor -/

def settle (result : PaymentResult) : Async SettlementOutcome :=
  match result with
  | .succeeded m => applyPaymentSucceeded m.reservationId
  | .failed m => applyPaymentFailed m.reservationId

/-- `PaymentResultProcessor.process`, on the data of a job. -/
def processPaymentResult (data : PaymentResult) : Async Unit :=
  match paymentResultSchema data with
  | .error e => throw e
  | .ok result => do
    match ← settle result with
    | .refundRequired _ => requestRefund result.reservationId result.idempotencyKey
    | _ => pure ()

end NoOverlap
