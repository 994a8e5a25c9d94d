import NoOverlap.Model.Booking
import NoOverlap.Model.Payment

/-!
# The running system

A `Call` is one invocation of an entry point, and a thread of the pool serves
one call.  The API and the worker share the store, so a process crash is the
death of every thread it runs, and a run in which single threads die covers it.

A consumer can be handed any job its queue stores, however often: delivery is at
least once and in no order.  When it returns, the job is completed, or its
attempt has failed.  A thread that dies loses its connection, so its open
transaction is rolled back.
-/

namespace NoOverlap

open Relational

inductive Call where
  | hold (guestId : Id) (dto : CreateReservationDto)
  | cancel (guestId id : Id)
  | applyPaymentSucceeded (id : Id)
  | applyPaymentFailed (id : Id)
  | sweepExpiredHolds
  | sweepCompletedStays
  | relayTick
  | charge (event : BookingHeld)
  | refund (event : RefundRequested)
  | processCharge (jobId : Id) (data : BookingHeld)
  | processResult (jobId : ResultJobId) (data : PaymentResult)
  | processRefund (jobId : Id) (data : RefundRequested)

/-- What a call answers. -/
inductive Reply where
  | none
  | count (n : Nat)
  | reservation (r : Reservation)
  | settlement (o : SettlementOutcome)
  | result (r : PaymentResult)

/-- `HOLD_TTL` in milliseconds, and the payment provider of the worker. -/
structure Config where
  holdTtlMs : Int
  provider : PaymentProvider

/-- Hand the result of a function to its caller. -/
def answer {α : Type} (p : Async α) (f : α → Reply) : Async Reply := p >>= fun a => pure (f a)

def Call.program (cfg : Config) : Call → Async Reply
  | hold guestId dto => answer (NoOverlap.hold cfg.holdTtlMs guestId dto) .reservation
  | cancel guestId id => answer (NoOverlap.cancel guestId id) .reservation
  | applyPaymentSucceeded id => answer (NoOverlap.applyPaymentSucceeded id) .settlement
  | applyPaymentFailed id => answer (NoOverlap.applyPaymentFailed id) .settlement
  | sweepExpiredHolds => answer NoOverlap.sweepExpiredHolds .count
  | sweepCompletedStays => answer NoOverlap.sweepCompletedStays .count
  | relayTick => answer NoOverlap.relayTick fun _ => .none
  | charge event => answer (PaymentService.charge cfg.provider event) .result
  | refund event => answer (PaymentService.refund cfg.provider event) fun _ => .none
  | processCharge _ data => answer (NoOverlap.processCharge cfg.provider data) fun _ => .none
  | processResult _ data => answer (processPaymentResult data) fun _ => .none
  | processRefund _ data => answer (NoOverlap.processRefund cfg.provider data) fun _ => .none

namespace Queues

/-- Hand a job to a consumer, if the queue stores it with this payload. -/
def deliver {ι δ : Type} [DecidableEq ι] [DecidableEq δ] (q : JobQueue ι δ) (id : ι) (data : δ) :
    Option (JobQueue ι δ) :=
  match q.find? id with
  | some j => if j.data = data then some (q.take id) else none
  | none => none

/-- The consumer of a job has returned, or has thrown. -/
def acknowledge {ι δ α : Type} [DecidableEq ι] (q : JobQueue ι δ) (id : ι) (r : Except Err α) :
    JobQueue ι δ :=
  match r with
  | .ok _ => q.complete id
  | .error _ => q.fail id

end Queues

namespace Store

/-- Nothing has happened yet.  Listings are the business of another module. -/
def init (listings : Table Listing) : Store :=
  { db := { listings := listings, reservations := .empty, outbox := .empty, payments := .empty,
            transactions := .empty, statusLog := [], paymentLog := [] }
    queues := { charge := .empty, result := .empty, refund := .empty }
    provider := { charges := [], refunds := [] }
    redis := { seq := fun _ => 0, emitted := [], charges := .empty, refunds := .empty }
    metrics := { held := 0, conflict := 0, deadlockRetries := 0 } }

def spawned (c : Call) (s : Store) : Option Store :=
  match c with
  | .processCharge id data =>
    (Queues.deliver s.queues.charge id data).map fun q =>
      { s with queues := { s.queues with charge := q } }
  | .processResult id data =>
    (Queues.deliver s.queues.result id data).map fun q =>
      { s with queues := { s.queues with result := q } }
  | .processRefund id data =>
    (Queues.deliver s.queues.refund id data).map fun q =>
      { s with queues := { s.queues with refund := q } }
  | _ => some s

def returned (_ : Nat) (c : Call) (r : Except Err Reply) (s : Store) : Store :=
  match c with
  | .processCharge id _ =>
    { s with queues := { s.queues with charge := Queues.acknowledge s.queues.charge id r } }
  | .processResult id _ =>
    { s with queues := { s.queues with result := Queues.acknowledge s.queues.result id r } }
  | .processRefund id _ =>
    { s with queues := { s.queues with refund := Queues.acknowledge s.queues.refund id r } }
  | _ => s

def killed (t : Nat) (_ : Call) (s : Store) : Store := { s with db := s.db.rollback t }

end Store

abbrev Machine := Concurrency.Machine Store Call Choice Statement.Resp Err Reply

abbrev Policy := Concurrency.Policy Store Call Choice Statement.Resp Err Reply

abbrev World := Concurrency.World Store Call Statement.Resp Err Reply

abbrev Agent := Concurrency.Agent Call

abbrev Event := Concurrency.Event Call Choice

def system (cfg : Config) : Machine :=
  { program := Call.program cfg
    exec := Statement.exec
    spawned := Store.spawned
    returned := Store.returned
    killed := Store.killed }

/-! ## Policies -/

/-- Any call at any time, any failure, any crash. -/
def anything : Policy :=
  { spawn := fun _ _ => true
    op := fun _ _ _ _ => true
    kill := fun _ _ _ => true }

/-- The entry points the outside world reaches: requests, timers and queues.  A
payment result is applied, and a charge made, only by the consumer of a job. -/
def Call.external : Call → Bool
  | applyPaymentSucceeded _ | applyPaymentFailed _ | charge _ | refund _ => false
  | _ => true

/-- Any external call at any time, any failure, any crash. -/
def anyRequest : Policy :=
  { anything with spawn := fun c _ => c.external }

/-- The world in which nothing has happened. -/
def initial (listings : Table Listing) : World := Concurrency.World.start (Store.init listings)

/-- The status of a reservation. -/
def Store.statusOf (s : Store) (id : Id) : Option ReservationStatus :=
  (s.db.reservations.find? id).map (·.status)

/-- The status of a payment. -/
def Store.paymentOf (s : Store) (key : IdempotencyKey) : Option PaymentStatus :=
  (s.db.payments.find? key).map (·.status)

/-! ## A scenario

One listing, one stay, and the events of undisturbed calls about it, for the runs
that the development evaluates. -/

namespace Scenario

def cfg : Config := { holdTtlMs := 900000, provider := gateway }

def listings : Table Listing :=
  Table.empty.insert { id := 7, nightlyPriceCents := 100, active := true }

/-- Two nights. -/
def stay : CreateReservationDto :=
  { listingId := 7, checkIn := some 1000000000, checkOut := some 1172800000 }

/-- The two nights after. -/
def nextStay : CreateReservationDto :=
  { listingId := 7, checkIn := some 1172800000, checkOut := some 1345600000 }

/-- The next `n` statements of thread `t`. -/
def steps (t n : Nat) : List Event := List.replicate n (.step t {})

/-- A hold of thread `t` under the reservation id `rid` and the outbox id `oid`. -/
def place (t : Nat) (dto : CreateReservationDto) (rid oid : Id) : List Event :=
  .spawn (.hold 1 dto) :: steps t 4 ++
    [.step t { id := rid }, .step t {}, .step t { id := oid }] ++ steps t 4 ++ [.ret t]

def event (rid : Id) : BookingHeld :=
  { reservationId := rid, amountCents := 200, idempotencyKey := rid, traceContext := none }

def succeeded (rid : Id) : PaymentResult :=
  .succeeded { reservationId := rid, idempotencyKey := rid, amountCents := 200,
               providerRef := "ref", traceContext := none }

def refund (rid : Id) : RefundRequested := { reservationId := rid, idempotencyKey := rid }

/-- The relay pass that publishes the event. -/
def relay (t : Nat) : List Event := .spawn .relayTick :: steps t 6 ++ [.ret t]

/-- The delivery that charges the card. -/
def charge (t : Nat) (rid oid : Id) : List Event :=
  .spawn (.processCharge oid (event rid)) :: steps t 6 ++ [.ret t]

/-- The delivery that confirms the reservation. -/
def confirm (t : Nat) (rid : Id) : List Event :=
  .spawn (.processResult (.paymentSucceeded, rid) (succeeded rid)) :: steps t 4 ++ [.ret t]

/-- A sweep of the holds, long after the hold has run out. -/
def expire (t : Nat) : List Event :=
  .spawn .sweepExpiredHolds :: List.replicate 6 (.step t { now := 10000000 }) ++ [.ret t]

/-- A reservation is placed and paid for, and the answer of the provider is waiting. -/
def paid (rid oid : Id) : List Event := place 0 stay rid oid ++ relay 1 ++ charge 2 rid oid

end Scenario

end NoOverlap
