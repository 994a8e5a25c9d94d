import Mathlib.Data.List.Sort
import NoOverlap.Data.Table

/-!
# Backlogs

The pending rows of a table, oldest first, worked off in batches.  To mark the first `n` of them
leaves the others in their order (`backlog_update`): sorting keeps the order of rows of one age,
so it does not matter whether the marked rows are left out before or after it.
-/

namespace Relational

section Sorting

variable {α τ : Type} [LinearOrder τ] (age : α → τ)

/-- Oldest first. -/
def byAge (a b : α) : Prop := age a ≤ age b

instance : DecidableRel (byAge age) := fun _ _ => inferInstanceAs (Decidable (_ ≤ _))

instance : Std.Total (byAge age) := ⟨fun a b => le_total (age a) (age b)⟩

instance : IsTrans α (byAge age) := ⟨fun _ _ _ => le_trans⟩

variable {age}

/-- Into a sorted list, what is filtered out may be inserted or not. -/
theorem filter_orderedInsert {p : α → Bool} {a : α} {l : List α} (hl : l.Pairwise (byAge age)) :
    (l.orderedInsert (byAge age) a).filter p =
      if p a then (l.filter p).orderedInsert (byAge age) a else l.filter p := by
  induction l with
  | nil => simp [List.filter_cons]
  | cons b l ih =>
    obtain ⟨hb, hl'⟩ := List.pairwise_cons.mp hl
    by_cases hab : byAge age a b
    · rw [List.orderedInsert_cons_of_le _ _ hab, List.filter_cons]
      by_cases hp : p a = true
      · -- Everything from here on is as old as `b`, so `a` comes first either way.
        have hfirst : ∀ c ∈ (b :: l).filter p, byAge age a c := by
          intro c hc
          rcases List.mem_cons.mp (List.mem_filter.mp hc).1 with rfl | hcl
          · exact hab
          · exact le_trans hab (hb c hcl)
        rw [if_pos hp, if_pos hp]
        cases hf : (b :: l).filter p with
        | nil => rfl
        | cons c cs =>
          refine (List.orderedInsert_cons_of_le _ _ ?_).symm
          exact hfirst c (by rw [hf]; exact List.mem_cons_self)
      · rw [if_neg hp, if_neg hp]
    · rw [List.orderedInsert_of_not_le _ _ hab, List.filter_cons, List.filter_cons, ih hl']
      by_cases hp : p a = true
      · by_cases hq : p b = true
        · simp only [hp, hq, if_true]
          exact (List.orderedInsert_of_not_le _ _ hab).symm
        · simp [hp, hq]
      · by_cases hq : p b = true
        · simp [hp, hq]
        · simp [hp, hq]

theorem filter_insertionSort {p : α → Bool} {l : List α} :
    (l.insertionSort (byAge age)).filter p = (l.filter p).insertionSort (byAge age) := by
  induction l with
  | nil => rfl
  | cons a l ih =>
    rw [List.insertionSort_cons, filter_orderedInsert (List.pairwise_insertionSort _ l), ih,
      List.filter_cons]
    by_cases hp : p a = true
    · rw [if_pos hp, if_pos hp, List.insertionSort_cons]
    · rw [if_neg hp, if_neg hp]

end Sorting

namespace Table

variable {κ ρ τ : Type} [Keyed ρ κ] [LinearOrder τ]

def backlog (T : Table ρ) (age : ρ → τ) (p : ρ → Bool) : List ρ :=
  (T.rows.filter p).insertionSort (byAge age)

variable {T : Table ρ} {age : ρ → τ} {p : ρ → Bool} {r : ρ}

theorem mem_backlog : r ∈ T.backlog age p ↔ r ∈ T.rows ∧ p r = true := by
  rw [backlog, List.mem_insertionSort, List.mem_filter]

theorem length_backlog : (T.backlog age p).length = T.rows.countP p := by
  rw [backlog, List.length_insertionSort, List.countP_eq_length_filter]

theorem nodup_backlog : ((T.backlog age p).map key : List κ).Nodup := by
  have hperm := (List.perm_insertionSort (byAge age) (T.rows.filter p)).map (key : ρ → κ)
  exact hperm.nodup_iff.mpr (T.nodup.sublist (List.Sublist.map _ List.filter_sublist))

/-- What is left of the backlog has other keys than what has been taken from it. -/
theorem key_notMem_of_drop_backlog {n : Nat} (h : r ∈ (T.backlog age p).drop n) :
    (key r : κ) ∉ ((T.backlog age p).take n).map key := by
  have hparts : ((((T.backlog age p).take n).map key : List κ) ++
      ((T.backlog age p).drop n).map key).Nodup := by
    rw [← List.map_append, List.take_append_drop]
    exact nodup_backlog
  exact fun hin => List.disjoint_of_nodup_append hparts hin (List.mem_map_of_mem h)

variable [DecidableEq κ]

/-- The first rows of a list whose keys are distinct, left out. -/
theorem filter_not_taken {l : List ρ} (hl : (l.map key : List κ).Nodup) (n : Nat) :
    l.filter (fun r => !((l.take n).map key).contains (key r)) = l.drop n := by
  have hparts : (((l.take n).map key : List κ) ++ (l.drop n).map key).Nodup := by
    rw [← List.map_append, List.take_append_drop]
    exact hl
  have htaken : (l.take n).filter (fun r => !((l.take n).map key).contains (key r)) = [] := by
    refine List.filter_eq_nil_iff.mpr fun r hr => ?_
    have hin : key r ∈ (l.take n).map key := List.mem_map_of_mem hr
    rw [List.contains_iff_mem.mpr hin]
    decide
  have hleft : (l.drop n).filter (fun r => !((l.take n).map key).contains (key r)) =
      l.drop n := by
    refine List.filter_eq_self.mpr fun r hr => ?_
    have hnot : key r ∉ (l.take n).map key := fun hin =>
      List.disjoint_of_nodup_append hparts hin (List.mem_map_of_mem hr)
    rw [Bool.not_eq_true', Bool.eq_false_iff]
    exact fun hc => hnot (by simpa using hc)
  conv_lhs => rw [← List.take_append_drop n l]
  rw [List.filter_append, List.take_append_drop, htaken, hleft, List.nil_append]

/-- The first rows are marked, and the others wait as before. -/
theorem backlog_update {f : ρ → ρ} (hf : ∀ r, key (f r) = key r)
    (hmark : ∀ r, p (f r) = false) (n : Nat) :
    (T.update (fun r => (((T.backlog age p).take n).map key).contains (key r))
        f hf).backlog age p = (T.backlog age p).drop n := by
  let ks : List κ := ((T.backlog age p).take n).map key
  have hrows : (T.rows.map fun r => if ks.contains (key r) then f r else r).filter p =
      (T.rows.filter p).filter fun r => !ks.contains (key r) := by
    rw [List.filter_map, List.filter_filter]
    have hwhich : (p ∘ fun r => if ks.contains (key r) then f r else r) =
        fun r => !ks.contains (key r) && p r := by
      funext r
      by_cases hr : ks.contains (key r) = true
      · simp only [Function.comp_apply, hr, if_true, hmark, Bool.not_true, Bool.false_and]
      · have hr : ks.contains (key r) = false := by simpa using hr
        simp only [Function.comp_apply, hr, Bool.false_eq_true, if_false, Bool.not_false,
          Bool.true_and]
    rw [hwhich]
    refine (List.map_congr_left fun r hr => ?_).trans (List.map_id _)
    have hnot : ks.contains (key r) = false := by
      simpa using (Bool.and_eq_true_iff.mp (List.mem_filter.mp hr).2).1
    rw [hnot]
    rfl
  show ((T.rows.map fun r => if ks.contains (key r) then f r else r).filter
    p).insertionSort (byAge age) = _
  rw [hrows, ← filter_insertionSort]
  exact filter_not_taken nodup_backlog n

end Table

end Relational
