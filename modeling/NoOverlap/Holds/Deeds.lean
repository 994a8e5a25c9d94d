import NoOverlap.Concurrency.Memory
import NoOverlap.Concurrency.RelyGuarantee
import NoOverlap.Lifecycle.Apart

/-!
# What a hold has done

`Deed` is the record of a thread: the rows its own statements have added to the two tables,
how each of its transactions has ended, and what it has put on the counters.  `Ended` lists
the ways a hold can end, each with the record it leaves, and `sound` shows that these are all:
whatever the other calls do in between, and however the statements of the hold fail, as long
as no commit takes effect that is then reported as failed.

`may` are the errors that a commit which took effect may be reported with after all.  Nothing
is said of a hold that ends with one of them.
-/

namespace NoOverlap

open Relational Concurrency

/-- An exception of the application.  No client raises one. -/
def Err.isApp : Err → Bool
  | app _ _ => true
  | _ => false

namespace Holds

structure Tally where
  reservations : List Reservation
  outbox : List OutboxRow
  /-- A row that was there has changed. -/
  rewritten : Bool
  /-- The outcomes of the transactions: committed, or rolled back after an error. -/
  attempts : List (Option Err)
  held : Nat
  conflict : Nat
  deadlockRetries : Nat

namespace Tally

def zero : Tally :=
  { reservations := [], outbox := [], rewritten := false, attempts := [], held := 0,
    conflict := 0, deadlockRetries := 0 }

/-- A transaction has added these rows. -/
def committed (T : Tally) (rs : List Reservation) (os : List OutboxRow) : Tally :=
  { T with reservations := T.reservations ++ rs, outbox := T.outbox ++ os,
           attempts := T.attempts ++ [none] }

/-- A transaction has been rolled back. -/
def rejected (T : Tally) (e : Err) : Tally := { T with attempts := T.attempts ++ [some e] }

/-- Attempts have failed, and each has been followed by another. -/
def after (rs : List (Option Err)) : Tally :=
  { zero with attempts := rs, deadlockRetries := rs.length }

end Tally

structure Deed extends Tally where
  /-- What the last statement has failed with. -/
  failure : Option Err
  /-- The active rows that stood in the way when the thread inserted. -/
  rivals : List Reservation

def Deed.zero : Deed := { Tally.zero with failure := none, rivals := [] }

/-- A statement that ends a transaction says how. -/
def outcome : (o : Statement) → Except Err o.Resp → Option Err → List (Option Err)
  | .db .commit, .ok _, _ => [none]
  | .db .rollback, _, e => [e]
  | _, _, _ => []

/-- The active rows that stand in the way of an insert of `data`. -/
def obstacles (data : ReservationData) (T : Table Reservation) : List Reservation :=
  T.rows.filter fun r => r.status.active && r.listingId == data.listingId &&
    data.checkIn.any fun a => data.checkOut.any fun b => rangesIntersect a b r.checkIn r.checkOut

def seen : Statement → Table Reservation → List Reservation
  | .db (.reservationCreate data), T => obstacles data T
  | _, _ => []

/-- The two tables have grown, and nothing else has happened to them. -/
def grown (d d' : Database) : Bool :=
  d'.reservations.rows == d.reservations.rows ++ d.reservations.added d'.reservations &&
    d'.outbox.rows == d.outbox.rows ++ d.outbox.added d'.outbox

/-- What a statement of a thread adds to its record. -/
def Deed.note (o : Statement) (r : Except Err o.Resp) (s s' : Store) (g : Deed) : Deed :=
  { reservations := g.reservations ++ s.db.reservations.added s'.db.reservations
    outbox := g.outbox ++ s.db.outbox.added s'.db.outbox
    rewritten := g.rewritten || !grown s.db s'.db
    attempts := g.attempts ++ outcome o r g.failure
    held := g.held + (s'.metrics.held - s.metrics.held)
    conflict := g.conflict + (s'.metrics.conflict - s.metrics.conflict)
    deadlockRetries := g.deadlockRetries + (s'.metrics.deadlockRetries - s.metrics.deadlockRetries)
    failure := match r with
      | .ok _ => none
      | .error e => some e
    rivals := g.rivals ++ seen o s.db.reservations }

abbrev Recorded := Store × (Nat → Deed)

abbrev RecordedWorld := Concurrency.World Recorded Call Statement.Resp Err Reply

abbrev RecordedPolicy := Concurrency.Policy Recorded Call Choice Statement.Resp Err Reply

abbrev recorded (cfg : Config) :
    Concurrency.Machine Recorded Call Choice Statement.Resp Err Reply :=
  (system cfg).recording Deed.note

/-! ## How a hold can end -/

/-- The errors of the attempts before the last: none, or the deadlock that a retry answers. -/
inductive Retried : List (Option Err) → Prop where
  | first : Retried []
  | again {e : Err} (h : e.isDeadlock = true) : Retried [some e]

/-- The outbox row of a reservation. -/
def Describes (v : Reservation) (o : OutboxRow) : Prop :=
  o.aggregateId = v.id ∧ ∃ trace, o.payload = bookingHeld v trace

def slotTaken : Err := .app .reservationSlotTaken none

/-- The ways a hold can end, and the record each leaves. -/
inductive Ended (may : Err → Bool) : Except Err Reservation → Tally → Prop where
  | unasked {e : Err} (h : e ≠ slotTaken) : Ended may (.error e) .zero
  | won {rs : List (Option Err)} {v : Reservation} {o : OutboxRow} (hr : Retried rs)
      (ho : Describes v o) :
      Ended may (.ok v) { (Tally.after rs).committed [v] [o] with held := 1 }
  | taken {rs : List (Option Err)} {e : Err} (hr : Retried rs)
      (he : e.isExclusionViolation = true) :
      Ended may (.error slotTaken) { (Tally.after rs).rejected e with conflict := 1 }
  | failed {rs : List (Option Err)} {e : Err} (hr : Retried rs) (h : e ≠ slotTaken)
      (he : e.isExclusionViolation = false) (hd : rs = [] → e.isDeadlock = false) :
      Ended may (.error e) ((Tally.after rs).rejected e)
  | unknown {e : Err} {T : Tally} (h : e ≠ slotTaken) (hm : may e = true) : Ended may (.error e) T

/-! ## Statements -/

/-- The statements of a hold that leave the tables and the counters alone. -/
def quiet : Statement → Bool
  | .db (.listingFindUnique _) | .db .begin | .db (.reservationCreate _)
  | .db (.outboxCreate _ _) | .host .newDate | .host .inject | .redis _ => true
  | _ => false

/-- How a statement may fail: not with an exception of the application, and a commit that took
effect only with an error that `may` allows. -/
def failing (may : Err → Bool) (o : Statement) : Fault → Bool
  | .none => true
  | .before e => !e.isApp
  | .after e => !e.isApp && match o with
    | .db .commit => may e
    | _ => true

variable {may : Err → Bool} {t : Nat} {ch : Choice} {s s' : Store} {g : Deed}

/-- The insert of `data` meets a row of the constraint. -/
def Met (d : Database) (t : Nat) (data : ReservationData) : Prop :=
  ∃ (tx : Transaction) (row : Reservation), d.transactions.find? t = some tx ∧
    row.status = .held ∧ row.listingId = data.listingId ∧ data.checkIn = some row.checkIn ∧
    data.checkOut = some row.checkOut ∧
    (d.reservations.rows.any row.conflicts || tx.reservations.any row.conflicts) = true

/-- What the database itself fails with: never an exception of the application, and an exclusion
violation only where the constraint is in the way. -/
theorem error_of_perform {o : DbStatement} {e : Err} {id : Id} {now : Int} {d d' : Database}
    (hx : Database.perform t id now o d = some (.error e, d')) :
    e.isApp = false ∧
      (e.isExclusionViolation = true → ∃ data, o = .reservationCreate data ∧ Met d t data) := by
  have hplain : ∀ {e' : Err}, e' = e → e'.isApp = false → e'.isExclusionViolation = false →
      e.isApp = false ∧
        (e.isExclusionViolation = true → ∃ data, o = .reservationCreate data ∧ Met d t data) := by
    rintro _ rfl happ hexcl
    exact ⟨happ, fun h => by rw [hexcl] at h; cases h⟩
  cases o with
  | reservationCreate data =>
    simp only [Database.perform, Database.reservationCreate] at hx
    split at hx
    · next tx checkIn checkOut price holdExpiresAt ht hin hout _ _ =>
      split_ifs at hx with h₁ h₂ h₃ h₄
      · cases hx
        exact hplain rfl rfl rfl
      · cases hx
        exact hplain rfl rfl rfl
      · cases hx
        exact hplain rfl rfl rfl
      · cases hx
        exact ⟨rfl, fun _ => ⟨data, rfl, tx, _, ht, rfl, rfl, hin, hout, h₄⟩⟩
      · cases hx
    · cases hx
      exact hplain rfl rfl rfl
  | outboxCreate aggregateId payload =>
    simp only [Database.perform, Database.outboxCreate] at hx
    split at hx
    · cases hx
      exact hplain rfl rfl rfl
    · split_ifs at hx
      cases hx
  | selectUnpublished limit =>
    simp only [Database.perform, Database.selectUnpublished] at hx
    split at hx <;> cases hx
    exact hplain rfl rfl rfl
  | outboxMarkPublished ids now =>
    simp only [Database.perform, Database.outboxMarkPublished] at hx
    split at hx <;> cases hx
    exact hplain rfl rfl rfl
  | commit =>
    simp only [Database.perform, Database.commit] at hx
    split at hx <;> cases hx
    exact hplain rfl rfl rfl
  | reservationUpdate id status seen =>
    simp only [Database.perform, Database.reservationUpdate] at hx
    split at hx <;> cases hx
    exact hplain rfl rfl rfl
  | paymentCreate data =>
    simp only [Database.perform, Database.paymentCreate] at hx
    split_ifs at hx
    · cases hx
      exact hplain rfl rfl rfl
    · cases hx
      exact hplain rfl rfl rfl
    · cases hx
  | paymentUpdate key data =>
    simp only [Database.perform, Database.paymentUpdate] at hx
    split at hx <;> cases hx
    exact hplain rfl rfl rfl
  | _ => cases hx

/-- A statement fails as the environment makes it fail, or as the database does. -/
theorem error_of_exec {o : Statement} {e : Err} (hx : o.exec t ch s = some (.error e, s')) :
    (ch.fault = .before e ∨ ch.fault = .after e) ∨
      ∃ o' d, o = .db o' ∧ Database.perform t ch.id ch.now o' s.db = some (.error e, d) := by
  have hperform : o.perform t ch s = some (.error e, s') →
      ∃ o' d, o = .db o' ∧ Database.perform t ch.id ch.now o' s.db = some (.error e, d) := by
    intro hp
    cases o with
    | db o =>
      obtain ⟨d, hd, -⟩ := Statement.perform_db hp
      exact ⟨o, d, rfl, hd⟩
    | host o =>
      cases o with
      | mathRandom =>
        simp only [Statement.perform] at hp
        split at hp <;> cases hp
      | recordAttempt outcome => cases outcome <;> cases hp
      | _ => cases hp
    | provider o => cases o <;> cases hp
    | redis o => cases o <;> cases hp
    | queue o => cases hp
  unfold Statement.exec at hx
  split at hx
  · next e' he _ =>
    cases hx
    exact .inl (.inl he)
  · next e' he _ =>
    obtain ⟨x, -, hxe⟩ := Option.map_eq_some_iff.mp hx
    cases hxe
    exact .inl (.inr he)
  · exact .inr (hperform hx)

/-- What a quiet statement leaves alone. -/
theorem same_of_quiet {o : Statement} {r : Except Err o.Resp} (ho : quiet o = true)
    (hx : o.exec t ch s = some (r, s')) :
    s'.db.reservations = s.db.reservations ∧ s'.db.outbox = s.db.outbox ∧
      s'.metrics = s.metrics := by
  rcases Statement.exec_cases hx with ⟨rfl, -⟩ | ⟨r', hp, -⟩
  · exact ⟨rfl, rfl, rfl⟩
  · cases o with
    | db o =>
      obtain ⟨d, hd, rfl⟩ := Statement.perform_db hp
      have heff := Database.effect_of_perform hd
      cases heff with
      | read | refused | begin | reservationCreate | outboxCreate => exact ⟨rfl, rfl, rfl⟩
      | _ => cases ho
    | host o =>
      cases o with
      | newDate | inject => cases hp; exact ⟨rfl, rfl, rfl⟩
      | _ => cases ho
    | redis o => cases hp; exact ⟨rfl, rfl, rfl⟩
    | _ => cases ho

theorem outcome_of_quiet {o : Statement} {r : Except Err o.Resp} (ho : quiet o = true)
    (e : Option Err) : outcome o r e = [] := by
  cases o with
  | db o => cases o <;> first | rfl | cases ho
  | _ => rfl

theorem grown_of_eq {d d' : Database} (hr : d'.reservations = d.reservations)
    (ho : d'.outbox = d.outbox) : grown d d' = true := by
  simp [grown, hr, ho, Table.added_self]

/-- A statement that leaves the tables and the counters alone adds nothing but its outcome. -/
theorem tally_of_same {o : Statement} {r : Except Err o.Resp}
    (hr : s'.db.reservations = s.db.reservations) (ho : s'.db.outbox = s.db.outbox)
    (hm : s'.metrics = s.metrics) :
    (Deed.note o r s s' g).toTally =
      { g.toTally with attempts := g.attempts ++ outcome o r g.failure } := by
  simp [Deed.note, grown_of_eq hr ho, hr, ho, hm, Table.added_self]

theorem tally_of_quiet {o : Statement} {r : Except Err o.Resp} (ho : quiet o = true)
    (hx : o.exec t ch s = some (r, s')) : (Deed.note o r s s' g).toTally = g.toTally := by
  obtain ⟨hr, hout, hm⟩ := same_of_quiet ho hx
  rw [tally_of_same hr hout hm, outcome_of_quiet ho, List.append_nil]

/-- What a reading or a counter of the process adds. -/
theorem tally_of_host {o : HostStatement} {r : Except Err o.Resp} (hd : s'.db = s.db) :
    (Deed.note (.host o) r s s' g).toTally =
      { g.toTally with
        held := g.held + (s'.metrics.held - s.metrics.held)
        conflict := g.conflict + (s'.metrics.conflict - s.metrics.conflict)
        deadlockRetries :=
          g.deadlockRetries + (s'.metrics.deadlockRetries - s.metrics.deadlockRetries) } := by
  simp [Deed.note, grown_of_eq, hd, Table.added_self, outcome]

/-- Nothing a statement can fail with is an exception of the application. -/
theorem isApp_of_exec {o : Statement} {e : Err} (hf : failing may o ch.fault = true)
    (hx : o.exec t ch s = some (.error e, s')) : e.isApp = false := by
  rcases error_of_exec hx with (he | he) | ⟨o', d, rfl, hd⟩
  · simpa [failing, he] using hf
  · simp only [failing, he, Bool.and_eq_true, Bool.not_eq_true'] at hf
    exact hf.1
  · exact (error_of_perform hd).1

/-- A commit adds what its transaction has inserted, or is refused. -/
theorem of_commit {tx : Transaction} {r : Except Err Unit}
    (hf : failing may (.db .commit) ch.fault = true)
    (ht : s.db.transactions.find? t = some tx)
    (hx : (Statement.db .commit).exec t ch s = some (r, s')) :
    (r = .ok () ∧ s'.db = s.db.apply tx ∧ s'.metrics = s.metrics) ∨
      ∃ e, r = .error e ∧ (s' = s ∨ may e = true) := by
  have hperform : ∀ {r' s''}, (Statement.db .commit).perform t ch s = some (r', s'') →
      r' = .ok () ∧ s''.db = s.db.apply tx ∧ s''.metrics = s.metrics := by
    intro r' s'' hp
    obtain ⟨d, hd, rfl⟩ := Statement.perform_db hp
    simp only [Database.perform, Database.commit, ht] at hd
    cases hd
    exact ⟨rfl, rfl, rfl⟩
  unfold Statement.exec at hx
  split at hx
  · cases hx
    exact .inr ⟨_, rfl, .inl rfl⟩
  · next e he _ =>
    obtain ⟨x, -, hxe⟩ := Option.map_eq_some_iff.mp hx
    cases hxe
    simp only [failing, he, Bool.and_eq_true] at hf
    exact .inr ⟨e, rfl, .inr hf.2⟩
  · exact .inl (hperform hx)

/-- What a commit adds to the record. -/
theorem tally_of_commit {tx : Transaction} (ha : Apart s.db)
    (ht : s.db.transactions.find? t = some tx) (hp : tx.published = [])
    (hd : s'.db = s.db.apply tx) (hm : s'.metrics = s.metrics) :
    (Deed.note (.db .commit) (.ok ()) s s' g).toTally =
      g.toTally.committed tx.reservations tx.outbox := by
  have hrows := Table.rows_insertAll (ha.new_reservations ht)
  have hout : s'.db.outbox = s.db.outbox.insertAll tx.outbox := by
    have hno : ∀ o ∈ (s.db.outbox.insertAll tx.outbox).rows, tx.published.contains o.id = false :=
      fun o _ => by rw [hp]; rfl
    rw [hd]
    simp only [Database.apply, Table.update_eq_self hno]
  have hres : s'.db.reservations = s.db.reservations.insertAll tx.reservations := by rw [hd]; rfl
  have hr : s.db.reservations.added s'.db.reservations = tx.reservations := by
    refine Table.added_of_rows (by rw [hres, hrows]) fun r hr => Table.find?_eq_none.mpr ?_
    intro r' hr'
    exact (List.pairwise_append.mp (ha.new_reservations ht)).2.2 r' hr' r hr
  have ho : s.db.outbox.added s'.db.outbox = tx.outbox := by
    refine Table.added_of_rows (by rw [hout, Table.rows_insertAll (ha.new_outbox ht)]) ?_
    intro o hmem
    refine Table.find?_eq_none.mpr fun o' ho' => ?_
    exact (List.pairwise_append.mp (ha.new_outbox ht)).2.2 o' ho' o hmem
  have hg : grown s.db s'.db = true := by
    rw [grown, hr, ho, hres, hrows, hout, Table.rows_insertAll (ha.new_outbox ht)]
    simp
  simp [Deed.note, hr, ho, hg, hm, outcome, Tally.committed]

/-- A rollback adds nothing but how the attempt has ended. -/
theorem tally_of_rollback {r : Except Err Unit}
    (hx : (Statement.db .rollback).exec t ch s = some (r, s')) :
    r = .ok () ∧ s'.db.transactions.find? t = none ∧
      (Deed.note (.db .rollback) r s s' g).toTally =
        { g.toTally with attempts := g.attempts ++ [g.failure] } := by
  rw [Statement.exec_of_not_fallible rfl] at hx
  obtain ⟨d, hd, rfl⟩ := Statement.perform_db hx
  cases hd
  exact ⟨rfl, Database.find?_rollback_self, tally_of_same rfl rfl rfl⟩

end Holds

end NoOverlap
