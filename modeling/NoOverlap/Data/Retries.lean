import NoOverlap.Data.JobQueue

/-!
# Attempts, stalls and the event of a failure

A job as the worker that runs it sees it.  An attempt that throws is counted, and the job
goes back while attempts remain.  A job whose worker stops renewing its lock has stalled:
it goes back too, unless it has stalled more often than the queue allows, when it is given
up.  Such an end may be counted as an attempt or not.

The worker emits `failed` after every attempt that threw, and when it gives up a job that
stalled.  The event says what the job has become and why, but not whether that is the end.
-/

namespace Relational

/-- A job with the stalls it has been through.  `attempts` is the option of that name. -/
structure Retried (δ : Type) where
  id : String
  data : δ
  attempts : Option Nat
  attemptsMade : Nat
  stalledCount : Nat
  state : JobState
  deriving DecidableEq

instance {δ : Type} : Keyed (Retried δ) String := ⟨Retried.id⟩

/-- How the run of an active job ends. -/
inductive Ending where
  | returned
  | threw (message : String)
  | stalled (counted : Bool)
  deriving DecidableEq

namespace Retried

variable {δ : Type} {j : Retried δ} {maxStalledCount : Nat}

@[simp] theorem key_retried (j : Retried δ) : key j = j.id := rfl

/-- A job as it is added. -/
def fresh (id : String) (data : δ) (attempts : Option Nat) : Retried δ :=
  { id := id, data := data, attempts := attempts, attemptsMade := 0, stalledCount := 0,
    state := .waiting }

@[simp] theorem key_fresh (id : String) (data : δ) (attempts : Option Nat) :
    key (fresh id data attempts) = id := rfl

/-- The attempts a job has, one when they are not set. -/
def allowed (j : Retried δ) : Nat := j.attempts.getD 1

/-- The job is handed to a worker. -/
def taken (j : Retried δ) : Retried δ := { j with state := .active }

/-- The stall is one more than the queue allows. -/
def StallsOut (maxStalledCount : Nat) (j : Retried δ) : Prop := maxStalledCount < j.stalledCount + 1

instance : Decidable (StallsOut maxStalledCount j) := inferInstanceAs (Decidable (_ < _))

/-- What the end of a run makes of a job. -/
def after (maxStalledCount : Nat) (j : Retried δ) : Ending → Retried δ
  | .returned => { j with state := .completed }
  | .threw _ =>
    { j with attemptsMade := j.attemptsMade + 1,
             state := if j.attemptsMade + 1 < j.allowed then .waiting else .failed }
  | .stalled counted =>
    if StallsOut maxStalledCount j then
      { j with attemptsMade := j.attemptsMade + counted.toNat, stalledCount := j.stalledCount + 1,
               state := .failed }
    else { j with stalledCount := j.stalledCount + 1, state := .waiting }

/-- The error of the `failed` event, where there is one. -/
def emitted (maxStalledCount : Nat) (j : Retried δ) : Ending → Option String
  | .returned => none
  | .threw message => some message
  | .stalled _ =>
    if StallsOut maxStalledCount j then some "job stalled more than allowable limit" else none

/-! What an end leaves alone. -/

@[simp] theorem id_taken (j : Retried δ) : j.taken.id = j.id := rfl

theorem after_stalled {counted : Bool} :
    j.after maxStalledCount (.stalled counted) =
      if StallsOut maxStalledCount j then
        { j with attemptsMade := j.attemptsMade + counted.toNat,
                 stalledCount := j.stalledCount + 1, state := .failed }
      else { j with stalledCount := j.stalledCount + 1, state := .waiting } := rfl

@[simp] theorem id_after (e : Ending) : (j.after maxStalledCount e).id = j.id := by
  cases e with
  | stalled counted =>
    rw [after_stalled]
    split <;> rfl
  | _ => rfl

@[simp] theorem data_after (e : Ending) : (j.after maxStalledCount e).data = j.data := by
  cases e with
  | stalled counted =>
    rw [after_stalled]
    split <;> rfl
  | _ => rfl

@[simp] theorem allowed_after (e : Ending) : (j.after maxStalledCount e).allowed = j.allowed := by
  cases e with
  | stalled counted =>
    rw [after_stalled]
    split <;> rfl
  | _ => rfl

/-- A job that was given up was told of. -/
theorem emitted_of_failed {e : Ending} (h : (j.after maxStalledCount e).state = .failed) :
    ∃ message, j.emitted maxStalledCount e = some message := by
  cases e with
  | returned => cases h
  | threw message => exact ⟨message, rfl⟩
  | stalled counted =>
    by_cases hout : StallsOut maxStalledCount j
    · exact ⟨_, if_pos hout⟩
    · rw [after_stalled, if_neg hout] at h
      cases h

/-- An attempt that threw is the last one when the attempts it leaves are used up. -/
theorem failed_threw_iff {message : String} :
    (j.after maxStalledCount (.threw message)).state = .failed ↔
      ¬ (j.after maxStalledCount (.threw message)).attemptsMade < j.allowed := by
  show (if j.attemptsMade + 1 < j.allowed then JobState.waiting else .failed) = .failed ↔
    ¬ j.attemptsMade + 1 < j.allowed
  by_cases h : j.attemptsMade + 1 < j.allowed
  · rw [if_pos h]
    exact ⟨fun hst => (by cases hst), fun hn => (hn h).elim⟩
  · rw [if_neg h]
    exact ⟨fun _ => h, fun _ => rfl⟩

/-- A job that is put back after a stall emits nothing. -/
theorem failed_stalled_iff {counted : Bool} :
    (j.after maxStalledCount (.stalled counted)).state = .failed ↔ StallsOut maxStalledCount j := by
  rw [after_stalled]
  by_cases h : StallsOut maxStalledCount j
  · rw [if_pos h]
    exact ⟨fun _ => h, fun _ => rfl⟩
  · rw [if_neg h]
    exact ⟨fun hst => (by cases hst), fun hc => (h hc).elim⟩

/-- A run ends a job as completed only by returning. -/
theorem completed_after {e : Ending} (h : (j.after maxStalledCount e).state = .completed) :
    e = .returned := by
  cases e with
  | returned => rfl
  | threw message =>
    change (if j.attemptsMade + 1 < j.allowed then JobState.waiting else .failed) = .completed at h
    split at h <;> cases h
  | stalled counted =>
    rw [after_stalled] at h
    split at h <;> cases h

/-- The job as a queue that knows no stalls keeps it. -/
def plain (j : Retried δ) : Job String δ :=
  { id := j.id, data := j.data, attempts := j.allowed, attemptsMade := j.attemptsMade,
    state := j.state }

end Retried

/-! ## The queue -/

abbrev RetryQueue (δ : Type) := Table (Retried δ)

namespace RetryQueue

variable {δ : Type} {q : RetryQueue δ} {id i : String} {j : Retried δ} {maxStalledCount : Nat}

/-- Add a job, unless its id is taken. -/
def add (q : RetryQueue δ) (id : String) (data : δ) (attempts : Option Nat) : RetryQueue δ :=
  q.insert (.fresh id data attempts)

/-- Hand a waiting job to a worker. -/
def take (q : RetryQueue δ) (id : String) : RetryQueue δ :=
  q.update (fun j => decide (j.id = id ∧ j.state = .waiting)) Retried.taken Retried.id_taken

/-- The run of an active job ends. -/
def finish (maxStalledCount : Nat) (q : RetryQueue δ) (id : String) (e : Ending) : RetryQueue δ :=
  q.update (fun j => decide (j.id = id ∧ j.state = .active)) (fun j => j.after maxStalledCount e)
    fun _ => Retried.id_after e

theorem find?_add_of_ne {data : δ} {attempts : Option Nat} (h : i ≠ id) :
    (q.add id data attempts).find? i = q.find? i := by
  unfold add
  by_cases hf : q.find? id = none
  · rw [Table.find?_insert (by exact hf), Retried.key_fresh, if_neg (Ne.symm h)]
  · have hself : q.insert (.fresh id data attempts) = q := dif_neg hf
    rw [hself]

theorem find?_add_of_none {data : δ} {attempts : Option Nat} (h : q.find? id = none) :
    (q.add id data attempts).find? id = some (.fresh id data attempts) := by
  unfold add
  rw [Table.find?_insert (by exact h), Retried.key_fresh, if_pos rfl]

theorem find?_take : (q.take id).find? i = (q.find? i).map fun j =>
    if j.id = id ∧ j.state = .waiting then j.taken else j := by
  rw [take, Table.find?_update]
  simp only [decide_eq_true_eq]

theorem find?_finish {e : Ending} : (q.finish maxStalledCount id e).find? i = (q.find? i).map fun j =>
    if j.id = id ∧ j.state = .active then j.after maxStalledCount e else j := by
  simp only [finish, Table.find?_update, decide_eq_true_eq]

/-! Without its stalls it is the queue of `JobQueue`. -/

/-- The queue without what it knows of stalls. -/
def plain (q : RetryQueue δ) : JobQueue String δ := q.map Retried.plain fun _ => rfl

theorem find?_plain : q.plain.find? i = (q.find? i).map Retried.plain := Table.find?_map

theorem plain_add (q : RetryQueue δ) (id : String) (data : δ) (attempts : Option Nat) :
    (q.add id data attempts).plain = q.plain.add id data attempts := by
  cases hf : q.find? id with
  | none =>
    have hp : q.plain.find? id = none := by rw [find?_plain, hf]; rfl
    have hrows : (q.add id data attempts).rows = q.rows ++ [.fresh id data attempts] :=
      Table.insert_of_fresh hf
    refine Table.eq_of_rows ?_
    show (q.add id data attempts).rows.map Retried.plain = _
    rw [hrows, List.map_append, JobQueue.add, Table.insert_of_fresh (by exact hp)]
    rfl
  | some j =>
    have hp : q.plain.find? id = some j.plain := by rw [find?_plain, hf]; rfl
    rw [add, JobQueue.add, Table.insert_of_taken (by exact hf), Table.insert_of_taken (by exact hp)]

/-- What a rewriting of one job does to the plain queue. -/
theorem plain_update {p : Retried δ → Bool} {g : Retried δ → Retried δ}
    {hg : ∀ r, key (g r) = key r} {f : Job String δ → Nat × JobState} (h : q.find? id = some j)
    (hp : ∀ r : Retried δ, r.id ≠ id → p r = false) (hj : p j = true)
    (hf : (g j).plain = { j.plain with attemptsMade := (f j.plain).1, state := (f j.plain).2 }) :
    plain (q.update p g hg) = q.plain.setState id f := by
  refine Table.eq_of_rows ?_
  show (q.rows.map fun r => if p r then g r else r).map Retried.plain =
    (q.rows.map Retried.plain).map fun r : Job String δ =>
      if decide (r.id = id) then { r with attemptsMade := (f r).1, state := (f r).2 } else r
  rw [List.map_map, List.map_map]
  refine List.map_congr_left fun r hr => ?_
  by_cases hid : r.id = id
  · have hrj : r = j := Table.eq_of_key_eq hr (Table.mem_of_find? h) (hid.trans (Table.key_of_find? h).symm)
    subst hrj
    have hpid : r.plain.id = id := hid
    simp only [Function.comp_apply, hj, hpid, decide_true, if_true, hf]
  · have hpid : ¬ r.plain.id = id := hid
    simp only [Function.comp_apply, hp r hid, hpid, decide_false, Bool.false_eq_true, if_false]

theorem plain_take (h : q.find? id = some j) (hst : j.state = .waiting) :
    (q.take id).plain = q.plain.take id := by
  have hid : j.id = id := Table.key_of_find? h
  refine plain_update (g := Retried.taken) h (fun r hr => ?_) (decide_eq_true (And.intro hid hst)) rfl
  exact decide_eq_false fun hc => hr hc.1

theorem plain_finish {e : Ending} {f : Job String δ → Nat × JobState} (h : q.find? id = some j)
    (hst : j.state = .active)
    (hf : (j.after maxStalledCount e).plain =
      { j.plain with attemptsMade := (f j.plain).1, state := (f j.plain).2 }) :
    (q.finish maxStalledCount id e).plain = q.plain.setState id f := by
  have hid : j.id = id := Table.key_of_find? h
  refine plain_update (g := fun j => j.after maxStalledCount e) h (fun r hr => ?_)
    (decide_eq_true (And.intro hid hst)) hf
  exact decide_eq_false fun hc => hr hc.1

theorem plain_returned (h : q.find? id = some j) (hst : j.state = .active) :
    (q.finish maxStalledCount id .returned).plain = q.plain.complete id := plain_finish h hst rfl

theorem plain_threw {message : String} (h : q.find? id = some j) (hst : j.state = .active) :
    (q.finish maxStalledCount id (.threw message)).plain = q.plain.fail id :=
  plain_finish h hst rfl

end RetryQueue

end Relational
