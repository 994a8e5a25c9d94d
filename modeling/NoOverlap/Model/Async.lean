import NoOverlap.Model.Statement

/-!
# Asynchronous functions

An `async` function of the source is a program over statements: every `await` on
a client is one statement, and the code in between runs without a break.  The
names follow the clients of the source.
-/

namespace NoOverlap

abbrev Async (α : Type) := Concurrency.Prog Statement.Resp Err α

/-- Issue a statement and wait for its answer. -/
abbrev await (o : Statement) : Async o.Resp := Concurrency.Prog.op o

namespace prisma

abbrev listingFindUnique (id : Id) : Async (Option Listing) :=
  await (.db (.listingFindUnique id))

abbrev reservationFindFirst (id guestId : Id) : Async (Option Reservation) :=
  await (.db (.reservationFindFirst id guestId))

abbrev reservationUpdate (id : Id) (status seen : ReservationStatus) : Async Reservation :=
  await (.db (.reservationUpdate id status seen))

abbrev reservationUpdateMany (filter : ReservationWhere) (status : ReservationStatus) :
    Async Nat := await (.db (.reservationUpdateMany filter status))

abbrev reservationFindMany (filter : ReservationWhere) : Async (List Reservation) :=
  await (.db (.reservationFindMany filter))

abbrev reservationFindListing (id : Id) : Async (Option Id) :=
  await (.db (.reservationFindListing id))

abbrev reservationFindStatus (id : Id) : Async (Option ReservationStatus) :=
  await (.db (.reservationFindStatus id))

abbrev paymentFindUnique (key : IdempotencyKey) : Async (Option Payment) :=
  await (.db (.paymentFindUnique key))

abbrev paymentCreate (data : PaymentData) : Async Unit := await (.db (.paymentCreate data))

abbrev paymentUpdate (key : IdempotencyKey) (data : PaymentUpdate) : Async Payment :=
  await (.db (.paymentUpdate key data))

end prisma

/-! The statements available inside `prisma.$transaction`. -/

namespace tx

abbrev begin : Async Unit := await (.db .begin)

abbrev reservationCreate (data : ReservationData) : Async Reservation :=
  await (.db (.reservationCreate data))

abbrev outboxCreate (aggregateId : Id) (payload : BookingHeld) : Async Unit :=
  await (.db (.outboxCreate aggregateId payload))

abbrev selectUnpublished (limit : Nat) : Async (List OutboxRow) :=
  await (.db (.selectUnpublished limit))

abbrev outboxMarkPublished (ids : List Id) (now : Int) : Async Nat :=
  await (.db (.outboxMarkPublished ids now))

abbrev commit : Async Unit := await (.db .commit)

abbrev rollback : Async Unit := await (.db .rollback)

end tx

/-- `prisma.$transaction`: commit what the body wrote, or roll it back and pass
the error on. -/
def transaction {α : Type} (body : Async α) : Async α :=
  tryCatch
    (do
      tx.begin
      let a ← body
      tx.commit
      pure a)
    fun e => do
      tx.rollback
      throw e

abbrev chargeQueueAddBulk (rows : List OutboxRow) : Async Unit :=
  await (.queue (.chargeAddBulk rows))

abbrev resultQueueAdd (m : PaymentResult) (key : IdempotencyKey) : Async Unit :=
  await (.queue (.resultAdd m key))

abbrev refundQueueAdd (m : RefundRequested) : Async Unit := await (.queue (.refundAdd m))

namespace redis

abbrev incr (listingId : Id) : Async Nat := await (.redis (.incr listingId))

abbrev emit (event : ReservationChanged) : Async Unit := await (.redis (.emit event))

abbrev getCharge (key : IdempotencyKey) : Async (Option ChargeOutcome) :=
  await (.redis (.getCharge key))

abbrev setCharge (key : IdempotencyKey) (outcome : ChargeOutcome) : Async Unit :=
  await (.redis (.setCharge key outcome))

abbrev getRefund (key : IdempotencyKey) : Async (Option Unit) := await (.redis (.getRefund key))

abbrev setRefund (key : IdempotencyKey) : Async Unit := await (.redis (.setRefund key))

end redis

abbrev newDate : Async Int := await (.host .newDate)

abbrev inject : Async (Option TraceContext) := await (.host .inject)

abbrev mathRandom : Async ℚ := await (.host .mathRandom)

abbrev sleep (ms : Nat) : Async Unit := await (.host (.sleep ms))

abbrev recordAttempt (outcome : AttemptOutcome) : Async Unit :=
  await (.host (.recordAttempt outcome))

abbrev recordDeadlockRetry : Async Unit := await (.host .recordDeadlockRetry)

end NoOverlap
