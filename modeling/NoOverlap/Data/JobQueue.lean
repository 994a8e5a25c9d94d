import NoOverlap.Data.Table

/-!
# A job queue with job ids and attempts

A queue stores every job ever added, each in one of four states.  A job is
identified by an id chosen by its producer, and adding a job whose id is still
stored, in whatever state, does nothing.  A job whose attempts are not set gets
exactly one.  A failed attempt puts the job back while attempts remain and is
final once they are used up.

Storing the jobs in a keyed table makes the uniqueness of ids a property of the
type.
-/

namespace Relational

inductive JobState where
  | waiting
  | active
  | completed
  | failed
  deriving DecidableEq, Repr

/-- The queue will not hand out the job by itself any more. -/
def JobState.finished : JobState → Bool
  | completed | failed => true
  | _ => false

structure Job (ι δ : Type) where
  id : ι
  data : δ
  attempts : Nat
  attemptsMade : Nat
  state : JobState

instance {ι δ : Type} : Keyed (Job ι δ) ι := ⟨Job.id⟩

abbrev JobQueue (ι δ : Type) := Table (Job ι δ)

namespace JobQueue

variable {ι δ : Type}

@[simp] theorem key_job (j : Job ι δ) : key j = j.id := rfl

/-- The later version of a job keeps its payload. -/
def SameData (j j' : Job ι δ) : Prop := j'.data = j.data

theorem SameData.refl (j : Job ι δ) : SameData j j := rfl

variable [DecidableEq ι]

/-- Add a job.  `attempts` is the option of the same name, one when unset. -/
def add (q : JobQueue ι δ) (id : ι) (data : δ) (attempts : Option Nat) : JobQueue ι δ :=
  q.insert { id := id, data := data, attempts := attempts.getD 1, attemptsMade := 0,
             state := .waiting }

/-- Rewrite one job, its id and data excepted. -/
def setState (q : JobQueue ι δ) (id : ι) (f : Job ι δ → Nat × JobState) : JobQueue ι δ :=
  q.update (fun j => decide (j.id = id))
    (fun j => { j with attemptsMade := (f j).1, state := (f j).2 }) fun _ => rfl

/-- Hand a job to a consumer. -/
def take (q : JobQueue ι δ) (id : ι) : JobQueue ι δ :=
  q.setState id fun j => (j.attemptsMade, .active)

def complete (q : JobQueue ι δ) (id : ι) : JobQueue ι δ :=
  q.setState id fun j => (j.attemptsMade, .completed)

/-- One attempt failed. -/
def fail (q : JobQueue ι δ) (id : ι) : JobQueue ι δ :=
  q.setState id fun j =>
    (j.attemptsMade + 1, if j.attemptsMade + 1 < j.attempts then .waiting else .failed)

/-- A job is stored under `id` with this payload. -/
def Has (q : JobQueue ι δ) (id : ι) (data : δ) : Prop :=
  ∃ j, q.find? id = some j ∧ j.data = data

/-- The queue `q'` still stores every job of `q`. -/
abbrev Keeps (q q' : JobQueue ι δ) : Prop := Table.Extends SameData q q'

variable {q q' q'' : JobQueue ι δ} {id : ι} {data : δ}

theorem Keeps.refl (q : JobQueue ι δ) : Keeps q q := Table.Extends.refl SameData.refl q

theorem Keeps.trans (h₁ : Keeps q q') (h₂ : Keeps q' q'') : Keeps q q'' :=
  Table.Extends.trans (fun _ _ _ hab hbc => Eq.trans hbc hab) h₁ h₂

theorem Has.keeps (h : Has q id data) (hk : Keeps q q') : Has q' id data := by
  obtain ⟨j, hj, hd⟩ := h
  obtain ⟨j', hj', hd'⟩ := hk id j hj
  exact ⟨j', hj', hd'.trans hd⟩

theorem keeps_add (q : JobQueue ι δ) (id : ι) (data : δ) (attempts : Option Nat) :
    Keeps q (q.add id data attempts) := Table.Extends.insert SameData.refl q _

theorem keeps_setState (q : JobQueue ι δ) (id : ι) (f : Job ι δ → Nat × JobState) :
    Keeps q (q.setState id f) := by
  have h : ∀ j : Job ι δ, key { j with attemptsMade := (f j).1, state := (f j).2 } = key j :=
    fun _ => rfl
  refine Table.Extends.update h fun j _ => ?_
  split <;> rfl

/-- Every job of the rewritten queue was stored before. -/
theorem keeps_of_setState (q : JobQueue ι δ) (id : ι) (f : Job ι δ → Nat × JobState) :
    Keeps (q.setState id f) q := by
  intro i j' hj'
  rw [setState, Table.find?_update] at hj'
  obtain ⟨j, hj, rfl⟩ := Option.map_eq_some_iff.mp hj'
  refine ⟨j, hj, ?_⟩
  split <;> rfl

/-- After an addition every job is an old one or the new one. -/
theorem find?_add {attempts : Option Nat} {i : ι} {j : Job ι δ}
    (h : (q.add id data attempts).find? i = some j) :
    q.find? i = some j ∨
      i = id ∧ j = { id := id, data := data, attempts := attempts.getD 1, attemptsMade := 0,
                     state := .waiting } := by
  unfold add at h
  by_cases hf : q.find? id = none
  · rw [Table.find?_insert (by exact hf)] at h
    split at h
    · next hk =>
      cases h
      exact .inr ⟨hk.symm, rfl⟩
    · exact .inl h
  · simp only [Table.insert, key_job, hf, dif_neg, not_false_eq_true] at h
    exact .inl h

theorem find?_add_ne {attempts : Option Nat} {i : ι} (h : i ≠ id) :
    (q.add id data attempts).find? i = q.find? i := by
  unfold add
  by_cases hf : q.find? id = none
  · rw [Table.find?_insert (by exact hf), key_job, if_neg (Ne.symm h)]
  · simp only [Table.insert, key_job, hf, dif_neg, not_false_eq_true]

/-- After an addition some job is stored under the id, with the new payload
unless the id was taken. -/
theorem add_find?_isSome (q : JobQueue ι δ) (id : ι) (data : δ) (attempts : Option Nat) :
    ∃ j, (q.add id data attempts).find? id = some j := by
  unfold add
  by_cases hf : q.find? id = none
  · exact ⟨_, by rw [Table.find?_insert (by exact hf), key_job, if_pos rfl]⟩
  · obtain ⟨j, hj⟩ := Option.ne_none_iff_exists'.mp hf
    exact ⟨j, Table.find?_insert_of_some hj⟩

theorem find?_add_self {attempts : Option Nat} :
    (q.add id data attempts).find? id = some ((q.find? id).getD
      { id := id, data := data, attempts := attempts.getD 1, attemptsMade := 0,
        state := .waiting }) := by
  unfold add
  cases hf : q.find? id with
  | none => exact (Table.find?_insert (by exact hf)).trans (if_pos rfl)
  | some j => exact Table.find?_insert_of_some hf

theorem find?_setState {f : Job ι δ → Nat × JobState} {i : ι} :
    (q.setState id f).find? i = (q.find? i).map fun j =>
      if j.id = id then { j with attemptsMade := (f j).1, state := (f j).2 } else j := by
  simp only [setState, Table.find?_update, decide_eq_true_eq]

/-- A finished job of the rewritten queue was finished before, or is the one that was
rewritten. -/
theorem finished_of_setState {f : Job ι δ → Nat × JobState} {i : ι} {j' : Job ι δ}
    (h : (q.setState id f).find? i = some j') (hfin : j'.state.finished = true) :
    (∃ j, q.find? i = some j ∧ j.state.finished = true) ∨ i = id ∧ ∃ j, j'.state = (f j).2 := by
  rw [find?_setState] at h
  obtain ⟨j, hj, rfl⟩ := Option.map_eq_some_iff.mp h
  split at hfin
  · next hid => exact .inr ⟨(Table.key_of_find? hj).symm.trans hid, j, by rw [if_pos hid]⟩
  · exact .inl ⟨j, hj, hfin⟩

/-- Taking a job finishes none. -/
theorem finished_of_take {i : ι} {j' : Job ι δ} (h : (q.take id).find? i = some j')
    (hfin : j'.state.finished = true) : ∃ j, q.find? i = some j ∧ j.state.finished = true := by
  rcases finished_of_setState h hfin with h | ⟨-, j, hst⟩
  · exact h
  · rw [hst] at hfin
    cases hfin

end JobQueue

end Relational
