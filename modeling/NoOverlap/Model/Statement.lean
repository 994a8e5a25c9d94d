import Mathlib.Data.Rat.Defs
import NoOverlap.Concurrency.Machine
import NoOverlap.Data.JobQueue
import NoOverlap.Model.Database

/-!
# Everything the two processes can touch

A `Statement` is one round trip of a process: a database statement, a queue
operation, a request to the payment provider, a Redis command, or a reading the
process takes of itself (its clock, a random draw, its metrics).  `exec` gives
each its effect on the `Store`.  Statements of one kind act on one component of
the store only, so that they leave the others alone by construction.

The scheduler supplies a `Choice` with every statement: the values the
environment picks, and whether the statement fails.  A failed statement may or
may not have taken effect.
-/

namespace NoOverlap

open Relational

/-! ## Queues -/

/-- The job id `${type}-${idempotencyKey}` of a payment result. -/
abbrev ResultJobId := PaymentResult.Tag × IdempotencyKey

structure Queues where
  /-- `booking.charge`; a job id is the id of an outbox row. -/
  charge : JobQueue Id BookingHeld
  /-- `booking.payment-result`. -/
  result : JobQueue ResultJobId PaymentResult
  /-- `booking.refund`; the job id is `RefundRequested-${reservationId}`. -/
  refund : JobQueue Id RefundRequested

inductive QueueStatement where
  | chargeAddBulk (rows : List OutboxRow)
  | resultAdd (m : PaymentResult) (key : IdempotencyKey)
  | refundAdd (m : RefundRequested)

@[reducible] def QueueStatement.Resp (_ : QueueStatement) : Type := Unit

/-- `attempts` in the default job options of the charge queue. -/
def chargeAttempts : Nat := 5

namespace Queues

/-- `addBulk` in the order given, one job a row, under the id of the row. -/
def chargeAddBulk (q : JobQueue Id BookingHeld) (rows : List OutboxRow) : JobQueue Id BookingHeld :=
  rows.foldl (fun q row => q.add row.id row.payload (some chargeAttempts)) q

def perform : QueueStatement → Queues → Queues
  | .chargeAddBulk rows, q => { q with charge := chargeAddBulk q.charge rows }
  | .resultAdd m key, q => { q with result := q.result.add (m.tag, key) m none }
  | .refundAdd m, q => { q with refund := q.refund.add m.reservationId m none }

end Queues

/-! ## The payment provider -/

/-- The two answers a provider can give.  Both are final. -/
inductive ChargeOutcome where
  | succeeded (providerRef : String)
  | declined (reason : String)
  deriving DecidableEq

/-- A charge call the provider answered, and the thread that made it. -/
structure Charge where
  tid : Nat
  key : IdempotencyKey
  amountCents : Int
  outcome : ChargeOutcome
  deriving DecidableEq

/-- What the provider has answered so far.  No statement reads it. -/
structure Provider where
  charges : List Charge
  refunds : List IdempotencyKey

inductive ProviderStatement where
  | charge (key : IdempotencyKey) (amountCents : Int)
  | refund (key : IdempotencyKey)

@[reducible] def ProviderStatement.Resp : ProviderStatement → Type
  | charge _ _ => ChargeOutcome
  | refund _ => Unit

namespace Provider

def perform (t : Nat) (answer : ChargeOutcome) :
    (o : ProviderStatement) → Provider → Except Err o.Resp × Provider
  | .charge key amountCents, p =>
    let c : Charge := { tid := t, key := key, amountCents := amountCents, outcome := answer }
    (.ok answer, { p with charges := p.charges ++ [c] })
  | .refund key, p => (.ok (), { p with refunds := p.refunds ++ [key] })

/-- The provider has taken the money of this key. -/
def Captured (p : Provider) (key : IdempotencyKey) : Prop :=
  ∃ c ∈ p.charges, c.key = key ∧ ∃ ref, c.outcome = .succeeded ref

/-- The provider has turned the card down. -/
def Declined (p : Provider) (key : IdempotencyKey) : Prop :=
  ∃ c ∈ p.charges, c.key = key ∧ ∃ reason, c.outcome = .declined reason

def captured (p : Provider) (key : IdempotencyKey) : Bool :=
  p.charges.any fun c => c.key == key && match c.outcome with
    | .succeeded _ => true
    | .declined _ => false

theorem captured_iff {p : Provider} {key : IdempotencyKey} :
    p.captured key = true ↔ p.Captured key := by
  simp only [captured, Captured, List.any_eq_true, Bool.and_eq_true, beq_iff_eq]
  refine exists_congr fun c => and_congr_right fun _ => and_congr_right fun _ => ?_
  cases c.outcome <;> simp

end Provider

/-! ## Redis -/

/-- An answer of the mock provider. -/
structure Settlement (ω : Type) where
  key : IdempotencyKey
  outcome : ω
  /-- The call moved the money itself. -/
  fresh : Bool
  deriving DecidableEq

/-- A ledger of the mock provider.  `settled` is a history variable: every answer
a call got, whether by writing the ledger (`fresh`) or by reading it. -/
structure Ledger (ω : Type) where
  entry : IdempotencyKey → Option ω
  settled : List (Settlement ω)

namespace Ledger

variable {ω : Type}

def empty : Ledger ω := { entry := fun _ => none, settled := [] }

/-- `redis.get`. -/
def get (l : Ledger ω) (key : IdempotencyKey) : Option ω × Ledger ω :=
  match l.entry key with
  | some v =>
    let e : Settlement ω := { key := key, outcome := v, fresh := false }
    (some v, { l with settled := l.settled ++ [e] })
  | none => (none, l)

/-- `redis.set`. -/
def set (l : Ledger ω) (key : IdempotencyKey) (v : ω) : Ledger ω :=
  let e : Settlement ω := { key := key, outcome := v, fresh := true }
  { entry := Function.update l.entry key (some v), settled := l.settled ++ [e] }

end Ledger

structure Redis where
  /-- `listing-seq:${listingId}`. -/
  seq : Id → Nat
  emitted : List ReservationChanged
  /-- `mock-provider:charge:${idempotencyKey}`. -/
  charges : Ledger ChargeOutcome
  /-- `mock-provider:refund:${idempotencyKey}`. -/
  refunds : Ledger Unit

inductive RedisStatement where
  | incr (listingId : Id)
  | emit (event : ReservationChanged)
  | getCharge (key : IdempotencyKey)
  | setCharge (key : IdempotencyKey) (outcome : ChargeOutcome)
  | getRefund (key : IdempotencyKey)
  | setRefund (key : IdempotencyKey)

@[reducible] def RedisStatement.Resp : RedisStatement → Type
  | incr _ => Nat
  | emit _ => Unit
  | getCharge _ => Option ChargeOutcome
  | setCharge _ _ => Unit
  | getRefund _ => Option Unit
  | setRefund _ => Unit

def Redis.perform : (o : RedisStatement) → Redis → Except Err o.Resp × Redis
  | .incr lid, r =>
    (.ok (r.seq lid + 1), { r with seq := Function.update r.seq lid (r.seq lid + 1) })
  | .emit event, r => (.ok (), { r with emitted := r.emitted ++ [event] })
  | .getCharge key, r => (.ok (r.charges.get key).1, { r with charges := (r.charges.get key).2 })
  | .setCharge key outcome, r => (.ok (), { r with charges := r.charges.set key outcome })
  | .getRefund key, r => (.ok (r.refunds.get key).1, { r with refunds := (r.refunds.get key).2 })
  | .setRefund key, r => (.ok (), { r with refunds := r.refunds.set key () })

/-! ## The process itself -/

inductive AttemptOutcome where
  | held
  | conflict
  deriving DecidableEq, Repr

/-- The counters of the metrics service. -/
structure Metrics where
  held : Nat
  conflict : Nat
  deadlockRetries : Nat

inductive HostStatement where
  | newDate
  /-- `propagation.inject` into an empty carrier. -/
  | inject
  | mathRandom
  | sleep (ms : Nat)
  | recordAttempt (outcome : AttemptOutcome)
  | recordDeadlockRetry

@[reducible] def HostStatement.Resp : HostStatement → Type
  | newDate => Int
  | inject => Option TraceContext
  | mathRandom => ℚ
  | sleep _ => Unit
  | recordAttempt _ => Unit
  | recordDeadlockRetry => Unit

/-! ## Statements -/

inductive Statement where
  | db (o : DbStatement)
  | queue (o : QueueStatement)
  | provider (o : ProviderStatement)
  | redis (o : RedisStatement)
  | host (o : HostStatement)

@[reducible] def Statement.Resp : Statement → Type
  | db o => o.Resp
  | queue o => o.Resp
  | provider o => o.Resp
  | redis o => o.Resp
  | host o => o.Resp

structure Store where
  db : Database
  queues : Queues
  provider : Provider
  redis : Redis
  metrics : Metrics

/-- How a statement fails: without effect, or after it. -/
inductive Fault where
  | none
  | before (e : Err)
  | after (e : Err)
  deriving DecidableEq

/-- What the environment decides when a statement runs. -/
structure Choice where
  fault : Fault := .none
  /-- The UUID of a created row. -/
  id : Id := 0
  now : Int := 0
  trace : Option TraceContext := none
  /-- What the provider answers. -/
  outcome : ChargeOutcome := .succeeded "ref"
  /-- A draw from `[0, 1)`. -/
  random : ℚ := 0
  /-- Of two queries under way, the one issued first is answered first. -/
  inOrder : Bool := true

namespace Statement

/-- A process cannot fail to read its own clock or bump its own counter, and a
transaction whose connection is lost is rolled back all the same. -/
def fallible : Statement → Bool
  | db .rollback => false
  | host _ => false
  | _ => true

/-- A statement of thread `t` that does not fail, or `none` where it waits. -/
def perform (t : Nat) (c : Choice) : (o : Statement) → Store → Option (Except Err o.Resp × Store)
  | db o, s => (Database.perform t c.id c.now o s.db).map fun x => (x.1, { s with db := x.2 })
  | queue o, s => some (.ok (), { s with queues := Queues.perform o s.queues })
  | provider o, s =>
    let x := Provider.perform t c.outcome o s.provider
    some (x.1, { s with provider := x.2 })
  | redis o, s =>
    let x := Redis.perform o s.redis
    some (x.1, { s with redis := x.2 })
  | host .newDate, s => some (.ok c.now, s)
  | host .inject, s => some (.ok c.trace, s)
  | host .mathRandom, s => if 0 ≤ c.random ∧ c.random < 1 then some (.ok c.random, s) else none
  | host (.sleep _), s => some (.ok (), s)
  | host (.recordAttempt .held), s =>
    some (.ok (), { s with metrics := { s.metrics with held := s.metrics.held + 1 } })
  | host (.recordAttempt .conflict), s =>
    some (.ok (), { s with metrics := { s.metrics with conflict := s.metrics.conflict + 1 } })
  | host .recordDeadlockRetry, s =>
    some (.ok (), { s with
      metrics := { s.metrics with deadlockRetries := s.metrics.deadlockRetries + 1 } })

/-- A statement of thread `t`, under the fault the environment picked.  A
statement that waits can still be made to fail, as a deadlock victim is. -/
def exec (t : Nat) (c : Choice) (o : Statement) (s : Store) :
    Option (Except Err o.Resp × Store) :=
  match c.fault, o.fallible with
  | .before e, true => some (.error e, s)
  | .after e, true => (o.perform t c s).map fun x => (.error e, x.2)
  | _, _ => o.perform t c s

variable {t : Nat} {ch : Choice} {s s' : Store}

/-- A statement has either taken place or left the store alone, and what it
reports is what it did, or an error. -/
theorem exec_cases {o : Statement} {r : Except Err o.Resp} (hx : o.exec t ch s = some (r, s')) :
    (s' = s ∧ ∃ e, r = .error e) ∨
      ∃ r', o.perform t ch s = some (r', s') ∧ (r = r' ∨ ∃ e, r = .error e) := by
  unfold exec at hx
  split at hx
  · cases hx
    exact .inl ⟨rfl, _, rfl⟩
  · obtain ⟨⟨r', s₁⟩, hp, he⟩ := Option.map_eq_some_iff.mp hx
    cases he
    exact .inr ⟨r', hp, .inr ⟨_, rfl⟩⟩
  · exact .inr ⟨r, hx, .inl rfl⟩

/-- A statement that reports a value took place. -/
theorem perform_of_exec_ok {o : Statement} {v : o.Resp} (hx : o.exec t ch s = some (.ok v, s')) :
    o.perform t ch s = some (.ok v, s') := by
  rcases exec_cases hx with ⟨-, e, he⟩ | ⟨r', hp, rfl | ⟨e, he⟩⟩
  · cases he
  · exact hp
  · cases he

/-- A statement that did not report an error of the environment took place. -/
theorem exec_of_fault_none {o : Statement} (h : ch.fault = .none) :
    o.exec t ch s = o.perform t ch s := by
  simp [exec, h]

/-- A value is reported by a statement that met no fault. -/
theorem fault_of_exec_ok {o : Statement} {v : o.Resp} (ho : o.fallible = true)
    (hx : o.exec t ch s = some (.ok v, s')) : ch.fault = .none := by
  cases hf : ch.fault with
  | none => rfl
  | before e =>
    simp only [exec, hf, ho] at hx
    cases hx
  | after e =>
    simp only [exec, hf, ho] at hx
    obtain ⟨x, -, he⟩ := Option.map_eq_some_iff.mp hx
    cases he

theorem exec_of_not_fallible {o : Statement} (h : o.fallible = false) :
    o.exec t ch s = o.perform t ch s := by
  unfold exec
  rw [h]
  split
  · next h => cases h
  · next h => cases h
  · rfl

theorem perform_db {o : DbStatement} {r : Except Err o.Resp}
    (hx : (db o).perform t ch s = some (r, s')) :
    ∃ d, Database.perform t ch.id ch.now o s.db = some (r, d) ∧ s' = { s with db := d } := by
  obtain ⟨⟨r', d⟩, hp, he⟩ := Option.map_eq_some_iff.mp hx
  cases he
  exact ⟨d, hp, rfl⟩

theorem perform_host {o : HostStatement} {r : Except Err o.Resp}
    (hx : (host o).perform t ch s = some (r, s')) : ∃ m, s' = { s with metrics := m } := by
  cases o with
  | mathRandom =>
    simp only [perform] at hx
    split at hx <;> cases hx
    exact ⟨s.metrics, rfl⟩
  | recordAttempt outcome => cases outcome <;> cases hx <;> exact ⟨_, rfl⟩
  | recordDeadlockRetry => cases hx; exact ⟨_, rfl⟩
  | _ => cases hx; exact ⟨s.metrics, rfl⟩

/-- What a statement does to the database. -/
theorem exec_db {o : Statement} {r : Except Err o.Resp} (hx : o.exec t ch s = some (r, s')) :
    s'.db = s.db ∨ ∃ o' : DbStatement, o = db o' ∧ ∃ r' : Except Err o'.Resp,
      Database.perform t ch.id ch.now o' s.db = some (r', s'.db) := by
  rcases exec_cases hx with ⟨rfl, -⟩ | ⟨r', hp, -⟩
  · exact .inl rfl
  · cases o with
    | db o' =>
      obtain ⟨d, hd, rfl⟩ := perform_db hp
      exact .inr ⟨o', rfl, r', hd⟩
    | queue o' => cases hp; exact .inl rfl
    | provider o' => cases hp; exact .inl rfl
    | redis o' => cases hp; exact .inl rfl
    | host o' =>
      obtain ⟨m, rfl⟩ := perform_host hp
      exact .inl rfl

/-- What a statement does to the queues. -/
theorem exec_queues {o : Statement} {r : Except Err o.Resp} (hx : o.exec t ch s = some (r, s')) :
    s'.queues = s.queues ∨ ∃ o' : QueueStatement, o = queue o' ∧
      s' = { s with queues := Queues.perform o' s.queues } := by
  rcases exec_cases hx with ⟨rfl, -⟩ | ⟨r', hp, -⟩
  · exact .inl rfl
  · cases o with
    | db o' =>
      obtain ⟨d, -, rfl⟩ := perform_db hp
      exact .inl rfl
    | queue o' => cases hp; exact .inr ⟨o', rfl, rfl⟩
    | provider o' => cases hp; exact .inl rfl
    | redis o' => cases hp; exact .inl rfl
    | host o' =>
      obtain ⟨m, rfl⟩ := perform_host hp
      exact .inl rfl

/-- What a statement does to the record of the provider. -/
theorem exec_provider {o : Statement} {r : Except Err o.Resp}
    (hx : o.exec t ch s = some (r, s')) :
    s'.provider = s.provider ∨ ∃ o' : ProviderStatement, o = provider o' ∧
      s' = { s with provider := (Provider.perform t ch.outcome o' s.provider).2 } := by
  rcases exec_cases hx with ⟨rfl, -⟩ | ⟨r', hp, -⟩
  · exact .inl rfl
  · cases o with
    | db o' =>
      obtain ⟨d, -, rfl⟩ := perform_db hp
      exact .inl rfl
    | queue o' => cases hp; exact .inl rfl
    | provider o' => cases hp; exact .inr ⟨o', rfl, rfl⟩
    | redis o' => cases hp; exact .inl rfl
    | host o' =>
      obtain ⟨m, rfl⟩ := perform_host hp
      exact .inl rfl

end Statement

end NoOverlap
