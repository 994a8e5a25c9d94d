import NoOverlap.Data.Retries
import NoOverlap.Model.Statement
import NoOverlap.Model.Wire
import Mathlib.Data.List.Induction

/-!
# The dead letters of the charge queue

`ChargeProcessor` as BullMQ drives it: an attempt at a charge job, the event `failed`, and
the queue that `onFailed` puts what was given up on.  BullMQ itself is the library's queue:
it counts the attempts that throw, retries while some remain, and gives up a job that
stalls once too often.

The handler tells the last failure by the count of attempts.  Over every run the dead
letters are the jobs that were given up, so long as no job is given up by a stall with
attempts to spare.
-/

namespace NoOverlap

open Json Relational

namespace Wire.PaymentResult

/-- `result.type`. -/
def type : PaymentResult → String
  | succeeded _ => "PaymentSucceeded"
  | failed _ => "PaymentFailed"

/-- `{ ...result, traceContext }`. -/
def withTrace (tc : TraceContext) : PaymentResult → PaymentResult
  | succeeded m => .succeeded { m with traceContext := some tc }
  | failed m => .failed { m with traceContext := some tc }

end Wire.PaymentResult

namespace ChargeProcessor

def CHARGE_QUEUE : String := "booking.charge"

/-- What is put on `CHARGE_DLQ` under the name `DeadLetter`. -/
structure DeadLetter where
  originalJobId : String
  queue : String
  data : Value
  failedReason : String
  attemptsMade : Nat

/-- What the calls of one attempt come to: the charge, which answers with a decline as it
does with a success, the carrier of the trace, and the result that is handed back. -/
structure Attempt where
  charge : Wire.BookingHeld → Except String Wire.PaymentResult
  carrier : Option TraceContext
  add : (name : String) → (data : Wire.PaymentResult) → (jobId : String) → Except String Unit

/-- How BullMQ and the validator are set up. -/
structure Config where
  maxStalledCount : Nat
  zodError : Value → String

/-- `process`. -/
def process (cfg : Config) (a : Attempt) (data : Value) : Except String Unit := do
  let event ← match Wire.bookingHeldSchema data with
    | some event => pure event
    | none => throw (cfg.zodError data)
  let result ← a.charge event
  a.add result.type (match a.carrier with | some tc => result.withTrace tc | none => result)
    (result.type ++ "-" ++ event.idempotencyKey)

/-- `onFailed`: the dead letter that it adds, if it adds one. -/
def onFailed (job : Option (Retried Value)) (message : String) : Option DeadLetter :=
  match job with
  | none => none
  | some job =>
    let allowed := job.attempts.getD 1
    if job.attemptsMade < allowed then none
    else some
      { originalJobId := job.id, queue := CHARGE_QUEUE, data := job.data,
        failedReason := message, attemptsMade := job.attemptsMade }

/-- The listener is told of what the end of a run emits. -/
def told (maxStalledCount : Nat) (j : Retried Value) (e : Ending) : List DeadLetter :=
  ((j.emitted maxStalledCount e).bind (onFailed (some (j.after maxStalledCount e)))).toList

/-! ## The queues -/

structure Queues where
  charge : RetryQueue Value
  deadLetters : List DeadLetter

def Queues.empty : Queues := { charge := Table.empty, deadLetters := [] }

namespace Queues

/-- The dead letters of a job. -/
def lettersOf (s : Queues) (id : String) : List DeadLetter :=
  s.deadLetters.filter fun d => decide (d.originalJobId = id)

/-- The run of a job ends, and the worker tells its listener of a failure. -/
def finish (maxStalledCount : Nat) (s : Queues) (j : Retried Value) (e : Ending) : Queues :=
  { charge := s.charge.finish maxStalledCount j.id e
    deadLetters := s.deadLetters ++ told maxStalledCount j e }

end Queues

/-- What happens to the queues, of which a stall may count as an attempt where it ends a job. -/
inductive Event where
  | add (id : String) (data : Value) (attempts : Option Nat)
  | take (id : String)
  | attempt (id : String) (a : Attempt)
  | stall (id : String) (counted : Bool)

/-- How an attempt ends, by what `process` does with the data of the job. -/
def ending (cfg : Config) (a : Attempt) (data : Value) : Ending :=
  match process cfg a data with
  | .ok () => .returned
  | .error message => .threw message

/-- An event that does not find its job in the state it needs changes nothing. -/
def step (cfg : Config) (s : Queues) : Event → Queues
  | .add id data attempts => { s with charge := s.charge.add id data.json attempts }
  | .take id => { s with charge := s.charge.take id }
  | .attempt id a =>
    match s.charge.find? id with
    | none => s
    | some j =>
      if j.state = .active then s.finish cfg.maxStalledCount j (ending cfg a j.data) else s
  | .stall id counted =>
    match s.charge.find? id with
    | none => s
    | some j => if j.state = .active then s.finish cfg.maxStalledCount j (.stalled counted) else s

def run (cfg : Config) (es : List Event) : Queues := es.foldl (step cfg) .empty

theorem run_append_singleton (cfg : Config) (es : List Event) (e : Event) :
    run cfg (es ++ [e]) = step cfg (run cfg es) e := by
  rw [run, List.foldl_append]
  rfl

/-! Without stalls the charge queue is the queue of the whole system. -/

/-- The step of a queue that knows no stalls. -/
def plainStep (cfg : Config) (q : JobQueue String Value) : Event → JobQueue String Value
  | .add id data attempts => q.add id data.json attempts
  | .take id =>
    match q.find? id with
    | none => q
    | some j => if j.state = .waiting then q.take id else q
  | .attempt id a =>
    match q.find? id with
    | none => q
    | some j =>
      if j.state = .active then
        match process cfg a j.data with
        | .ok () => q.complete id
        | .error _ => q.fail id
      else q
  | .stall _ _ => q

theorem plain_step (cfg : Config) (s : Queues) {e : Event}
    (h : ∀ id counted, e ≠ .stall id counted) :
    (step cfg s e).charge.plain = plainStep cfg s.charge.plain e := by
  cases e with
  | add id data attempts => exact RetryQueue.plain_add s.charge id data.json attempts
  | take id =>
    have hplain := RetryQueue.find?_plain (q := s.charge) (i := id)
    cases hf : s.charge.find? id with
    | none =>
      rw [hf] at hplain
      have hself : s.charge.take id = s.charge :=
        Table.update_eq_self fun r hr => decide_eq_false fun hc =>
          Table.find?_eq_none.mp hf r hr hc.1
      simp only [step, plainStep, hplain, Option.map_none, hself]
    | some j =>
      rw [hf] at hplain
      by_cases hst : j.state = .waiting
      · have hpst : j.plain.state = .waiting := hst
        simp only [step, plainStep, hplain, Option.map_some, if_pos hpst, RetryQueue.plain_take hf hst]
      · have hpst : ¬ j.plain.state = .waiting := hst
        have hself : s.charge.take id = s.charge := by
          refine Table.update_eq_self fun r hr => decide_eq_false fun hc => ?_
          have hrj : r = j := Table.eq_of_key_eq hr (Table.mem_of_find? hf)
            (hc.1.trans (Table.key_of_find? hf).symm)
          exact hst (hrj ▸ hc.2)
        simp only [step, plainStep, hplain, Option.map_some, if_neg hpst, hself]
  | attempt id a =>
    have hplain := RetryQueue.find?_plain (q := s.charge) (i := id)
    cases hf : s.charge.find? id with
    | none =>
      rw [hf] at hplain
      simp only [step, plainStep, hf, hplain, Option.map_none]
    | some j =>
      rw [hf] at hplain
      have hid : j.id = id := Table.key_of_find? hf
      by_cases hst : j.state = .active
      · have hpst : j.plain.state = .active := hst
        simp only [step, plainStep, hf, hplain, Option.map_some, if_pos hst, if_pos hpst, Queues.finish, hid]
        show _ = match process cfg a j.data with
          | .ok () => s.charge.plain.complete id
          | .error _ => s.charge.plain.fail id
        cases hp : process cfg a j.data with
        | ok u =>
          have hend : ending cfg a j.data = .returned := by rw [ending, hp]
          rw [hend]
          exact RetryQueue.plain_returned hf hst
        | error message =>
          have hend : ending cfg a j.data = .threw message := by rw [ending, hp]
          rw [hend]
          exact RetryQueue.plain_threw hf hst
      · have hpst : ¬ j.plain.state = .active := hst
        simp only [step, plainStep, hf, hplain, Option.map_some, if_neg hst, if_neg hpst]
  | stall id counted => exact (h id counted rfl).elim

theorem plain_run (cfg : Config) {es : List Event} (h : ∀ id counted, Event.stall id counted ∉ es) :
    (run cfg es).charge.plain = es.foldl (plainStep cfg) Table.empty := by
  induction es using List.reverseRecOn with
  | nil => rfl
  | append_singleton es e ih =>
    have hes : ∀ id counted, Event.stall id counted ∉ es := fun id counted hm =>
      h id counted (List.mem_append_left _ hm)
    have he : ∀ id counted, e ≠ .stall id counted := fun id counted heq =>
      h id counted (heq ▸ List.mem_append_right _ List.mem_cons_self)
    rw [run_append_singleton, plain_step cfg _ he, ih hes, List.foldl_append]
    rfl

/-! ## What the handler adds -/

variable {cfg : Config} {s : Queues} {id i : String} {j : Retried Value} {maxStalledCount : Nat}
  {message : String}

/-- The job the handler is told of has attempts left, so that it adds nothing. -/
theorem onFailed_of_lt (h : j.attemptsMade < j.allowed) : onFailed (some j) message = none :=
  if_pos h

theorem onFailed_of_not_lt (h : ¬ j.attemptsMade < j.allowed) (message : String) :
    ∃ d, onFailed (some j) message = some d ∧ d.originalJobId = j.id ∧ d.data = j.data :=
  ⟨_, if_neg h, rfl, rfl⟩

/-- A dead letter carries the id of its job. -/
theorem originalJobId_of_onFailed {d : DeadLetter} (h : onFailed (some j) message = some d) :
    d.originalJobId = j.id := by
  by_cases hlt : j.attemptsMade < j.allowed
  · rw [onFailed_of_lt hlt] at h
    cases h
  · obtain ⟨d', hd', hid, -⟩ := onFailed_of_not_lt hlt message
    rw [hd'] at h
    cases h
    exact hid

theorem mem_told {d : DeadLetter} {e : Ending} (h : d ∈ told maxStalledCount j e) :
    d.originalJobId = j.id := by
  obtain ⟨message, hm⟩ : ∃ message, onFailed (some (j.after maxStalledCount e)) message = some d := by
    rw [told, Option.mem_toList, Option.bind_eq_some_iff] at h
    obtain ⟨message, -, hm⟩ := h
    exact ⟨message, hm⟩
  rw [originalJobId_of_onFailed hm, Retried.id_after]

/-- A job that was given up with its attempts used up gets one dead letter. -/
theorem told_failed {e : Ending} (h : (j.after maxStalledCount e).state = .failed)
    (hlt : ¬ (j.after maxStalledCount e).attemptsMade < j.allowed) :
    ∃ d, told maxStalledCount j e = [d] ∧ d.data = j.data := by
  obtain ⟨message, hm⟩ := Retried.emitted_of_failed h
  have hlt' : ¬ (j.after maxStalledCount e).attemptsMade < (j.after maxStalledCount e).allowed := by
    rw [Retried.allowed_after]
    exact hlt
  obtain ⟨d, hd, -, hdata⟩ := onFailed_of_not_lt hlt' message
  refine ⟨d, ?_, hdata.trans (Retried.data_after e)⟩
  rw [told, hm]
  exact congrArg Option.toList hd

/-- A job that was given up with attempts to spare gets none. -/
theorem told_spare {e : Ending} (hlt : (j.after maxStalledCount e).attemptsMade < j.allowed) :
    told maxStalledCount j e = [] := by
  have hnone : ∀ message, onFailed (some (j.after maxStalledCount e)) message = none := by
    intro message
    refine onFailed_of_lt ?_
    rw [Retried.allowed_after]
    exact hlt
  cases hm : j.emitted maxStalledCount e with
  | none => rw [told, hm]; rfl
  | some message =>
    rw [told, hm]
    exact congrArg Option.toList (hnone message)

/-- Nothing is added for a job that was not given up. -/
theorem told_not_failed {e : Ending} (h : (j.after maxStalledCount e).state ≠ .failed) :
    told maxStalledCount j e = [] := by
  cases e with
  | returned => rfl
  | threw message =>
    have hlt := not_not.mp fun hn => h (Retried.failed_threw_iff.mpr hn)
    exact told_spare hlt
  | stalled counted =>
    have hout : ¬ j.StallsOut maxStalledCount := fun hn => h (Retried.failed_stalled_iff.mpr hn)
    have hm : j.emitted maxStalledCount (.stalled counted) = none := if_neg hout
    rw [told, hm]
    rfl

/-! ## What a step does to one job -/

/-- The step gives the job up by a stall although attempts are left: the count that the
handler reads stays below the attempts of the job. -/
def StalledOutEarly (cfg : Config) (s : Queues) (id : String) (e : Event) : Prop :=
  ∃ counted j, e = .stall id counted ∧ s.charge.find? id = some j ∧ j.state = .active ∧
    j.StallsOut cfg.maxStalledCount ∧ j.attemptsMade + counted.toNat < j.allowed

/-- All that a step does to a job and its dead letters. -/
inductive Change (cfg : Config) (s s' : Queues) (id : String) : Event → Prop
  | same {e : Event} (quiet : ¬ StalledOutEarly cfg s id e)
      (find : s'.charge.find? id = s.charge.find? id) (letters : s'.lettersOf id = s.lettersOf id) :
      Change cfg s s' id e
  | added {data : Value} {attempts : Option Nat} (absent : s.charge.find? id = none)
      (find : s'.charge.find? id = some (.fresh id data.json attempts))
      (letters : s'.lettersOf id = s.lettersOf id) : Change cfg s s' id (.add id data attempts)
  | taken {j : Retried Value} (before : s.charge.find? id = some j) (waiting : j.state = .waiting)
      (find : s'.charge.find? id = some j.taken) (letters : s'.lettersOf id = s.lettersOf id) :
      Change cfg s s' id (.take id)
  | attempted {j : Retried Value} {a : Attempt} (before : s.charge.find? id = some j)
      (active : j.state = .active)
      (find : s'.charge.find? id = some (j.after cfg.maxStalledCount (ending cfg a j.data)))
      (letters : s'.lettersOf id = s.lettersOf id ++
        told cfg.maxStalledCount j (ending cfg a j.data)) :
      Change cfg s s' id (.attempt id a)
  | stalled {j : Retried Value} {counted : Bool} (before : s.charge.find? id = some j)
      (active : j.state = .active)
      (find : s'.charge.find? id = some (j.after cfg.maxStalledCount (.stalled counted)))
      (letters : s'.lettersOf id = s.lettersOf id ++
        told cfg.maxStalledCount j (.stalled counted)) :
      Change cfg s s' id (.stall id counted)

/-- Only a stall of the job itself can give it up. -/
theorem quiet_of_ne {e : Event} (h : ∀ counted, e ≠ .stall id counted) :
    ¬ StalledOutEarly cfg s id e := by
  rintro ⟨counted, j, he, -⟩
  exact h counted he

section Finish

variable {end_ : Ending}

theorem lettersOf_finish (h : s.charge.find? id = some j) :
    (s.finish maxStalledCount j end_).lettersOf id =
      s.lettersOf id ++ told maxStalledCount j end_ := by
  have hid : j.id = id := Table.key_of_find? h
  rw [Queues.lettersOf, Queues.finish, List.filter_append]
  congr 1
  refine List.filter_eq_self.mpr fun d hd => ?_
  rw [decide_eq_true_eq, mem_told hd, hid]

theorem find?_finish (h : s.charge.find? id = some j) (hst : j.state = .active) :
    (s.finish maxStalledCount j end_).charge.find? id = some (j.after maxStalledCount end_) := by
  show (s.charge.finish maxStalledCount j.id end_).find? id = _
  rw [RetryQueue.find?_finish, h, Option.map_some, if_pos ⟨rfl, hst⟩]

/-- The end of another job's run. -/
theorem finish_of_ne (hi : j.id ≠ id) :
    (s.finish maxStalledCount j end_).charge.find? id = s.charge.find? id ∧
      (s.finish maxStalledCount j end_).lettersOf id = s.lettersOf id := by
  constructor
  · show (s.charge.finish maxStalledCount j.id end_).find? id = _
    rw [RetryQueue.find?_finish]
    cases hf : s.charge.find? id with
    | none => rfl
    | some r =>
      have hr : ¬ (r.id = j.id ∧ r.state = .active) := by
        rintro ⟨hrj, -⟩
        exact hi (hrj.symm.trans (Table.key_of_find? hf))
      rw [Option.map_some, if_neg hr]
  · rw [Queues.lettersOf, Queues.finish, List.filter_append]
    have hnone :
        (told maxStalledCount j end_).filter (fun d => decide (d.originalJobId = id)) = [] := by
      refine List.filter_eq_nil_iff.mpr fun d hd => ?_
      rw [decide_eq_true_eq, mem_told hd]
      exact hi
    rw [hnone, List.append_nil]
    rfl

end Finish

theorem step_change (cfg : Config) (s : Queues) (id : String) (e : Event) :
    Change cfg s (step cfg s e) id e := by
  cases e with
  | add i data attempts =>
    by_cases hi : id = i
    · subst hi
      cases hf : s.charge.find? id with
      | none => exact .added hf (RetryQueue.find?_add_of_none hf) rfl
      | some j =>
        refine .same (quiet_of_ne fun _ h => (by cases h)) ?_ rfl
        exact (Table.find?_insert_of_some hf).trans hf.symm
    · exact .same (quiet_of_ne fun _ h => (by cases h)) (RetryQueue.find?_add_of_ne hi) rfl
  | take i =>
    have hquiet : ¬ StalledOutEarly cfg s id (.take i) := quiet_of_ne fun _ h => (by cases h)
    have htake : (s.charge.take i).find? id = _ := RetryQueue.find?_take
    cases hf : s.charge.find? id with
    | none =>
      rw [hf] at htake
      exact .same hquiet (htake.trans hf.symm) rfl
    | some j =>
      have hid : j.id = id := Table.key_of_find? hf
      rw [hf, Option.map_some] at htake
      by_cases hw : j.id = i ∧ j.state = .waiting
      · rw [if_pos hw] at htake
        obtain ⟨rfl, hw⟩ := hw
        subst hid
        exact .taken hf hw htake rfl
      · rw [if_neg hw] at htake
        exact .same hquiet (htake.trans hf.symm) rfl
  | attempt i a =>
    have hquiet : ¬ StalledOutEarly cfg s id (.attempt i a) := quiet_of_ne fun _ h => (by cases h)
    cases hf : s.charge.find? i with
    | none =>
      have hs : step cfg s (.attempt i a) = s := by simp only [step, hf]
      rw [hs]
      exact .same hquiet rfl rfl
    | some j =>
      have hid : j.id = i := Table.key_of_find? hf
      by_cases hst : j.state = .active
      · have hs : step cfg s (.attempt i a) =
            s.finish cfg.maxStalledCount j (ending cfg a j.data) := by
          simp only [step, hf, if_pos hst]
        rw [hs]
        by_cases hi : id = i
        · subst hi
          exact .attempted hf hst (find?_finish hf hst) (lettersOf_finish hf)
        · have hne : j.id ≠ id := fun h => hi (h.symm.trans hid)
          exact .same hquiet (finish_of_ne hne).1 (finish_of_ne hne).2
      · have hs : step cfg s (.attempt i a) = s := by simp only [step, hf, if_neg hst]
        rw [hs]
        exact .same hquiet rfl rfl
  | stall i counted =>
    cases hf : s.charge.find? i with
    | none =>
      have hs : step cfg s (.stall i counted) = s := by simp only [step, hf]
      rw [hs]
      refine .same ?_ rfl rfl
      rintro ⟨c, j, he, hj, -⟩
      cases he
      rw [hf] at hj
      cases hj
    | some j =>
      have hid : j.id = i := Table.key_of_find? hf
      by_cases hst : j.state = .active
      · have hs : step cfg s (.stall i counted) =
            s.finish cfg.maxStalledCount j (.stalled counted) := by
          simp only [step, hf, if_pos hst]
        rw [hs]
        by_cases hi : id = i
        · subst hi
          exact .stalled hf hst (find?_finish hf hst) (lettersOf_finish hf)
        · have hne : j.id ≠ id := fun h => hi (h.symm.trans hid)
          refine .same (quiet_of_ne fun _ h => ?_) (finish_of_ne hne).1 (finish_of_ne hne).2
          cases h
          exact hi rfl
      · have hs : step cfg s (.stall i counted) = s := by simp only [step, hf, if_neg hst]
        rw [hs]
        refine .same ?_ rfl rfl
        rintro ⟨c, j', he, hj', hst', -⟩
        cases he
        rw [hf] at hj'
        cases hj'
        exact hst hst'

/-! ## Over a run -/

/-- The job under `id` has one dead letter, which carries its data, if and only if it was
given up, and none before that. -/
def Accounted (s : Queues) (id : String) : Prop :=
  ∀ j, s.charge.find? id = some j →
    (j.state = .failed ↔ ∃ d, s.lettersOf id = [d] ∧ d.data = j.data) ∧
      (j.state ≠ .failed → s.lettersOf id = [])

/-- Where a job stands.  `lost` says that it was given up early, which it is only once. -/
structure Standing (s : Queues) (id : String) (lost : Prop) : Prop where
  absent : s.charge.find? id = none → ¬ lost ∧ s.lettersOf id = []
  live : ∀ j, s.charge.find? id = some j → j.state ≠ .failed → ¬ lost ∧ s.lettersOf id = []
  dead : ∀ j, s.charge.find? id = some j → j.state = .failed →
    (lost → s.lettersOf id = []) ∧ (¬ lost → ∃ d, s.lettersOf id = [d] ∧ d.data = j.data)

namespace Standing

variable {lost : Prop} {s' : Queues}

theorem congr {lost' : Prop} (h : Standing s id lost) (hl : lost ↔ lost') :
    Standing s id lost' := by
  rwa [← propext hl]

theorem of_same (h : Standing s id lost) (hf : s'.charge.find? id = s.charge.find? id)
    (hl : s'.lettersOf id = s.lettersOf id) : Standing s' id lost := by
  constructor
  · rw [hf, hl]
    exact h.absent
  · rw [hf, hl]
    exact h.live
  · rw [hf, hl]
    exact h.dead

/-- A job that is not given up has no dead letter. -/
theorem of_live (hlost : ¬ lost) (hf : s'.charge.find? id = some j) (hst : j.state ≠ .failed)
    (hl : s'.lettersOf id = []) : Standing s' id lost := by
  constructor
  · rw [hf]
    exact fun hn => (by cases hn)
  · intro j' hj' _
    exact ⟨hlost, hl⟩
  · intro j' hj' hst'
    rw [hf] at hj'
    cases hj'
    exact (hst hst').elim

/-- The run of a live job has ended.  `spare` is what the handler takes for attempts left. -/
theorem of_end {e : Ending} (h : Standing s id lost) (hj : s.charge.find? id = some j)
    (hst : j.state = .active)
    (hf : s'.charge.find? id = some (j.after maxStalledCount e))
    (hl : s'.lettersOf id = s.lettersOf id ++ told maxStalledCount j e) :
    Standing s' id ((j.after maxStalledCount e).state = .failed ∧
      (j.after maxStalledCount e).attemptsMade < j.allowed) := by
  have hlive : j.state ≠ .failed := by rw [hst]; exact fun hn => (by cases hn)
  rw [(h.live j hj hlive).2, List.nil_append] at hl
  by_cases hfail : (j.after maxStalledCount e).state = .failed
  · constructor
    · rw [hf]
      exact fun hn => (by cases hn)
    · intro j' hj' hst'
      rw [hf] at hj'
      cases hj'
      exact (hst' hfail).elim
    · intro j' hj' _
      rw [hf] at hj'
      cases hj'
      rw [hl]
      refine ⟨fun hspare => told_spare hspare.2, fun hspare => ?_⟩
      obtain ⟨d, hd, hdata⟩ := told_failed hfail fun hlt => hspare ⟨hfail, hlt⟩
      exact ⟨d, hd, hdata.trans (Retried.data_after e).symm⟩
  · exact of_live (fun hc => hfail hc.1) hf hfail (hl.trans (told_not_failed hfail))

theorem step (h : Standing s id lost) (e : Event) :
    Standing (step cfg s e) id (lost ∨ StalledOutEarly cfg s id e) := by
  cases step_change cfg s id e with
  | same quiet find letters =>
    exact (h.of_same find letters).congr ⟨.inl, fun hc => hc.resolve_right quiet⟩
  | @added data attempts absent find letters =>
    have hquiet : ¬ StalledOutEarly cfg s id (.add id data attempts) :=
      quiet_of_ne fun _ hc => (by cases hc)
    obtain ⟨hlost, hl⟩ := h.absent absent
    exact of_live (not_or.mpr ⟨hlost, hquiet⟩) find (fun hc => by cases hc) (letters.trans hl)
  | taken before waiting find letters =>
    have hquiet : ¬ StalledOutEarly cfg s id (.take id) := quiet_of_ne fun _ hc => (by cases hc)
    obtain ⟨hlost, hl⟩ := h.live _ before (by rw [waiting]; exact fun hc => by cases hc)
    exact of_live (not_or.mpr ⟨hlost, hquiet⟩) find (fun hc => by cases hc) (letters.trans hl)
  | @attempted j a before active find letters =>
    have hlost := (h.live j before (by rw [active]; exact fun hc => by cases hc)).1
    have hquiet : ¬ StalledOutEarly cfg s id (.attempt id a) :=
      quiet_of_ne fun _ hc => (by cases hc)
    refine (h.of_end before active find letters).congr ⟨fun hc => ?_, fun hc => ?_⟩
    · -- an attempt that ends a job has used the attempts up
      obtain ⟨hfail, hlt⟩ := hc
      cases hend : ending cfg a j.data with
      | returned => rw [hend] at hfail; cases hfail
      | threw message =>
        rw [hend] at hfail hlt
        exact (Retried.failed_threw_iff.mp hfail hlt).elim
      | stalled counted =>
        rw [ending] at hend
        split at hend <;> cases hend
    · exact (not_or.mpr ⟨hlost, hquiet⟩ hc).elim
  | @stalled j counted before active find letters =>
    have hlost := (h.live j before (by rw [active]; exact fun hc => by cases hc)).1
    refine (h.of_end before active find letters).congr ⟨fun hc => .inr ?_, fun hc => ?_⟩
    · obtain ⟨hfail, hlt⟩ := hc
      have hout := Retried.failed_stalled_iff.mp hfail
      rw [Retried.after_stalled, if_pos hout] at hlt
      exact ⟨counted, j, rfl, before, active, hout, hlt⟩
    · obtain ⟨counted', j', he, hj', -, hout, hlt⟩ := hc.resolve_left hlost
      cases he
      rw [before] at hj'
      cases hj'
      rw [Retried.after_stalled, if_pos hout]
      exact ⟨rfl, hlt⟩

/-- Nothing has been lost exactly when every job is accounted for. -/
theorem accounted_iff (h : Standing s id lost) : Accounted s id ↔ ¬ lost := by
  constructor
  · intro hacc hlost
    cases hf : s.charge.find? id with
    | none => exact (h.absent hf).1 hlost
    | some j =>
      by_cases hst : j.state = .failed
      · obtain ⟨d, hd, -⟩ := (hacc j hf).1.mp hst
        rw [(h.dead j hf hst).1 hlost] at hd
        cases hd
      · exact (h.live j hf hst).1 hlost
  · intro hlost j hf
    by_cases hst : j.state = .failed
    · exact ⟨⟨fun _ => (h.dead j hf hst).2 hlost, fun _ => hst⟩, fun hn => (hn hst).elim⟩
    · have hl := (h.live j hf hst).2
      refine ⟨⟨fun hc => (hst hc).elim, ?_⟩, fun _ => hl⟩
      rintro ⟨d, hd, -⟩
      rw [hl] at hd
      cases hd

end Standing

/-- At some step of the run the job was given up early. -/
def Lost (cfg : Config) (es : List Event) (id : String) : Prop :=
  ∃ pre e post, es = pre ++ e :: post ∧ StalledOutEarly cfg (run cfg pre) id e

theorem lost_append_singleton {es : List Event} {e : Event} :
    Lost cfg (es ++ [e]) id ↔ Lost cfg es id ∨ StalledOutEarly cfg (run cfg es) id e := by
  constructor
  · rintro ⟨pre, e', post, hes, hearly⟩
    rcases List.eq_nil_or_concat post with rfl | ⟨post', last, rfl⟩
    · obtain ⟨rfl, he⟩ := List.append_inj' hes rfl
      cases he
      exact .inr hearly
    · have hes' : es ++ [e] = (pre ++ e' :: post') ++ [last] := by
        rw [hes, List.concat_eq_append, List.append_assoc, List.cons_append]
      obtain ⟨rfl, -⟩ := List.append_inj' hes' rfl
      exact .inl ⟨pre, e', post', rfl, hearly⟩
  · rintro (⟨pre, e', post, rfl, hearly⟩ | hearly)
    · exact ⟨pre, e', post ++ [e], by rw [List.append_assoc, List.cons_append], hearly⟩
    · exact ⟨es, e, [], rfl, hearly⟩

theorem run_standing (cfg : Config) (id : String) (es : List Event) :
    Standing (run cfg es) id (Lost cfg es id) := by
  induction es using List.reverseRecOn with
  | nil =>
    have hlost : ¬ Lost cfg [] id := by
      rintro ⟨pre, e, post, hes, -⟩
      cases pre <;> cases hes
    exact ⟨fun _ => ⟨hlost, rfl⟩, fun j hj => (by cases hj), fun j hj => (by cases hj)⟩
  | append_singleton es e ih =>
    rw [run_append_singleton]
    exact (ih.step e).congr lost_append_singleton.symm

/-! A job whose data is no `BookingHeld` fails every attempt. -/

theorem ending_of_unparsable {a : Attempt} {data : Value} (h : Wire.bookingHeldSchema data = none) :
    ending cfg a data = .threw (cfg.zodError data) := by
  have hprocess : process cfg a data = .error (cfg.zodError data) := by
    rw [process, h]
    rfl
  rw [ending, hprocess]

/-- Whatever the payments answer, a job is completed only if its data was understood. -/
theorem parsed_of_completed (cfg : Config) (es : List Event) (id : String) :
    ∀ j, (run cfg es).charge.find? id = some j → j.state = .completed →
      (Wire.bookingHeldSchema j.data).isSome = true := by
  induction es using List.reverseRecOn with
  | nil => exact fun j hj => (by cases hj)
  | append_singleton es e ih =>
    intro j' hj' hst'
    rw [run_append_singleton] at hj'
    cases step_change cfg (run cfg es) id e with
    | same _ find _ =>
      rw [find] at hj'
      exact ih j' hj' hst'
    | added _ find _ =>
      rw [find] at hj'
      cases hj'
      cases hst'
    | taken _ _ find _ =>
      rw [find] at hj'
      cases hj'
      cases hst'
    | @attempted j a _ _ find _ =>
      rw [find] at hj'
      cases hj'
      have hreturned := Retried.completed_after hst'
      rw [Retried.data_after]
      cases hparse : Wire.bookingHeldSchema j.data with
      | some event => rfl
      | none =>
        rw [ending_of_unparsable hparse] at hreturned
        cases hreturned
    | stalled _ _ find _ =>
      rw [find] at hj'
      cases hj'
      cases Retried.completed_after hst'

/-- The dead letters of a job are as they should be exactly when no stall has given it up
with attempts left. -/
theorem dead_letters_iff (cfg : Config) (es : List Event) (id : String) :
    Accounted (run cfg es) id ↔
      ∀ pre e post, es = pre ++ e :: post → ¬ StalledOutEarly cfg (run cfg pre) id e := by
  rw [(run_standing cfg id es).accounted_iff]
  constructor
  · intro hlost pre e post hes hearly
    exact hlost ⟨pre, e, post, hes, hearly⟩
  · rintro hall ⟨pre, e, post, hes, hearly⟩
    exact hall pre e post hes hearly

/-- The data of a charge job. -/
def heldPayload : Value :=
  .object [("type", .string "BookingHeld"), ("version", .number 1),
    ("reservationId", .string "0b7c2f4e-6a51-4d3f-9c21-5e8d7a6b4c10"), ("amountCents", .number 20000),
    ("idempotencyKey", .string "7d1e9a52-3c48-4b6f-8a07-2f5b6c8d9e31")]

/-- Five attempts that find the provider unreachable leave one dead letter. -/
example :
    ((run ⟨1, fun _ => ""⟩
        (.add "evt-1" heldPayload (some chargeAttempts) ::
          (List.replicate 5 [Event.take "evt-1",
            .attempt "evt-1" ⟨fun _ => .error "transient", none, fun _ _ _ => .ok ()⟩]).flatten)).lettersOf
      "evt-1").map DeadLetter.failedReason = ["transient"] := rfl

/-- The worker of a charge job is lost twice, on a queue that puts a job back once. -/
def stalledTwice : List Event :=
  [.add "evt-1" heldPayload (some chargeAttempts), .take "evt-1", .stall "evt-1" false,
    .take "evt-1", .stall "evt-1" false]

/-- The job is given up before its first attempt has ended, and no dead letter says so. -/
theorem not_dead_letters :
    ¬ ∀ (cfg : Config) (es : List Event) (id : String), Accounted (run cfg es) id := by
  intro h
  have hfind : ∃ j, (run ⟨1, fun _ => ""⟩ stalledTwice).charge.find? "evt-1" = some j ∧
      j.state = .failed := ⟨_, rfl, rfl⟩
  have hletters : (run ⟨1, fun _ => ""⟩ stalledTwice).lettersOf "evt-1" = [] := rfl
  obtain ⟨j, hj, hst⟩ := hfind
  obtain ⟨d, hd, -⟩ := (h _ _ _ j hj).1.mp hst
  rw [hletters] at hd
  cases hd

end ChargeProcessor

end NoOverlap
