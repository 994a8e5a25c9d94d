import Mathlib.Data.List.Nodup
import Mathlib.Data.List.Basic

/-!
# Tables with a primary key

A table is a list of rows no two of which have the same key.  The constraint is
a field, so a table that violates it cannot be built.  Rows stay in the order in
which they were inserted, since a query without an order may return them in any.

`find?` reads by key, `update` rewrites the rows a predicate selects, and
`insert` adds a row whose key is new and does nothing otherwise.  Each comes
with the lemma that says what `find?` returns afterwards, which is how the rest
of the development uses tables.  `Extends` relates a table to a later version of
itself: no row is gone and every row has changed only as `rel` allows.
-/

namespace Relational

/-- Rows of type `ρ` carry a key of type `κ`. -/
class Keyed (ρ : Type) (κ : outParam Type) where
  key : ρ → κ

export Keyed (key)

structure Table (ρ : Type) {κ : Type} [Keyed ρ κ] where
  rows : List ρ
  nodup : (rows.map key).Nodup

namespace Table

variable {ρ κ : Type} [Keyed ρ κ]

def empty : Table ρ := { rows := [], nodup := List.nodup_nil }

/-- Rewrite the rows `p` selects.  A rewrite never changes a key. -/
def update (T : Table ρ) (p : ρ → Bool) (f : ρ → ρ) (hf : ∀ r, key (f r) = key r) : Table ρ :=
  { rows := T.rows.map fun r => if p r then f r else r
    nodup := by
      have h : (key ∘ fun r => if p r then f r else r) = (key : ρ → κ) := by
        funext r
        simp only [Function.comp_apply]
        split
        · exact hf r
        · rfl
      rw [List.map_map, h]
      exact T.nodup }

def erase (T : Table ρ) (p : ρ → Bool) : Table ρ :=
  { rows := T.rows.filter fun r => !p r
    nodup := T.nodup.sublist (List.Sublist.map _ List.filter_sublist) }

/-- Read some columns of every row, the key among them. -/
def map {ρ' : Type} [Keyed ρ' κ] (T : Table ρ) (f : ρ → ρ') (hf : ∀ r, key (f r) = key r) :
    Table ρ' :=
  { rows := T.rows.map f
    nodup := by
      have h : (key ∘ f : ρ → κ) = key := funext hf
      rw [List.map_map, h]
      exact T.nodup }

theorem eq_of_rows {T T' : Table ρ} (h : T.rows = T'.rows) : T = T' := by
  cases T
  cases T'
  cases h
  rfl

@[simp] theorem rows_empty : (empty : Table ρ).rows = [] := rfl

theorem mem_update {T : Table ρ} {p : ρ → Bool} {f : ρ → ρ} {hf : ∀ r, key (f r) = key r}
    {r : ρ} : r ∈ (T.update p f hf).rows ↔ ∃ r₀ ∈ T.rows, (if p r₀ then f r₀ else r₀) = r :=
  List.mem_map

theorem mem_erase {T : Table ρ} {p : ρ → Bool} {r : ρ} :
    r ∈ (T.erase p).rows ↔ r ∈ T.rows ∧ p r = false := by
  simp [erase, List.mem_filter]

theorem key_update {p : ρ → Bool} {f : ρ → ρ} (hf : ∀ r, key (f r) = key r) (r : ρ) :
    key (if p r then f r else r) = key r := by
  split
  · exact hf r
  · rfl

/-- A rewrite that selects no row. -/
theorem update_eq_self {T : Table ρ} {p : ρ → Bool} {f : ρ → ρ} {hf : ∀ r, key (f r) = key r}
    (h : ∀ r ∈ T.rows, p r = false) : T.update p f hf = T := by
  have hrows : (T.update p f hf).rows = T.rows := by
    refine (List.map_congr_left fun r hr => ?_).trans (List.map_id _)
    rw [h r hr]
    rfl
  cases T
  simp only [update] at hrows ⊢
  congr

/-- A deletion that selects no row. -/
theorem erase_eq_self {T : Table ρ} {p : ρ → Bool} (h : ∀ r ∈ T.rows, p r = false) :
    T.erase p = T := by
  have hrows : (T.erase p).rows = T.rows :=
    List.filter_eq_self.mpr fun r hr => by rw [h r hr, Bool.not_false]
  cases T
  simp only [erase] at hrows ⊢
  congr

/-- Two rows of one key are the same row. -/
theorem eq_of_key_eq {T : Table ρ} {r r' : ρ} (hr : r ∈ T.rows) (hr' : r' ∈ T.rows)
    (h : key r = key r') : r = r' := List.inj_on_of_nodup_map T.nodup hr hr' h

section Find

variable [DecidableEq κ]

def find? (T : Table ρ) (k : κ) : Option ρ := T.rows.find? fun r => decide (key r = k)

/-- Add a row if its key is new. -/
def insert (T : Table ρ) (r : ρ) : Table ρ :=
  if h : T.find? (key r) = none then
    { rows := T.rows ++ [r]
      nodup := by
        have hn : key r ∉ T.rows.map key := by
          simpa [find?, List.find?_eq_none] using h
        rw [List.map_append, List.map_singleton]
        exact T.nodup.append (List.nodup_singleton _) (by simpa using hn) }
  else T

variable {T T' T'' : Table ρ} {k : κ} {r : ρ}

theorem find?_eq_some : T.find? k = some r ↔ r ∈ T.rows ∧ key r = k := by
  constructor
  · intro h
    exact ⟨List.mem_of_find?_eq_some h, by simpa using List.find?_some h⟩
  · rintro ⟨hr, rfl⟩
    cases hf : T.find? (key r) with
    | none =>
      have := List.find?_eq_none.mp hf r hr
      simp at this
    | some r' =>
      have hm := List.mem_of_find?_eq_some hf
      have hk : key r' = key r := by simpa using List.find?_some hf
      rw [eq_of_key_eq hm hr hk]

theorem find?_of_mem (h : r ∈ T.rows) : T.find? (key r) = some r := find?_eq_some.mpr ⟨h, rfl⟩

theorem mem_of_find? (h : T.find? k = some r) : r ∈ T.rows := (find?_eq_some.mp h).1

theorem key_of_find? (h : T.find? k = some r) : key r = k := (find?_eq_some.mp h).2

theorem find?_eq_none : T.find? k = none ↔ ∀ r ∈ T.rows, key r ≠ k := by
  simp [find?, List.find?_eq_none]

@[simp] theorem find?_empty : (empty : Table ρ).find? k = none := rfl

theorem find?_update {p : ρ → Bool} {f : ρ → ρ} {hf : ∀ r, key (f r) = key r} :
    (T.update p f hf).find? k = (T.find? k).map fun r => if p r then f r else r := by
  have hc : (fun r => decide (key r = k)) ∘ (fun r => if p r then f r else r) =
      fun r => decide (key r = k) := by
    funext r
    simp only [Function.comp_apply, key_update hf]
  simp only [find?, update, List.find?_map, hc]

theorem find?_map {ρ' : Type} [Keyed ρ' κ] {f : ρ → ρ'} {hf : ∀ r, key (f r) = key r} :
    (T.map f hf).find? k = (T.find? k).map f := by
  have hc : (fun r => decide (key r = k)) ∘ f = fun r => decide (key r = k) := by
    funext r
    simp only [Function.comp_apply, hf]
  simp only [find?, map, List.find?_map, hc]

theorem find?_erase {p : ρ → Bool} :
    (T.erase p).find? k = (T.find? k).filter fun r => !p r := by
  cases hf : T.find? k with
  | none =>
    rw [Option.filter_none, find?_eq_none]
    intro r hr
    exact find?_eq_none.mp hf r (mem_erase.mp hr).1
  | some r =>
    obtain ⟨hr, hk⟩ := find?_eq_some.mp hf
    cases hp : p r with
    | false =>
      simp only [Option.filter, hp, Bool.not_false, if_true]
      exact find?_eq_some.mpr ⟨mem_erase.mpr ⟨hr, hp⟩, hk⟩
    | true =>
      simp only [Option.filter, hp, Bool.not_true, Bool.false_eq_true, if_false]
      refine find?_eq_none.mpr (fun r' hr' he => ?_)
      obtain ⟨hm, hp'⟩ := mem_erase.mp hr'
      rw [eq_of_key_eq hm hr (he.trans hk.symm), hp] at hp'
      cases hp'

theorem insert_of_fresh (h : T.find? (key r) = none) : (T.insert r).rows = T.rows ++ [r] := by
  simp [insert, h]

theorem insert_of_taken {r' : ρ} (h : T.find? (key r) = some r') : T.insert r = T := by
  simp [insert, h]

theorem find?_insert (h : T.find? (key r) = none) :
    (T.insert r).find? k = if key r = k then some r else T.find? k := by
  have hr := insert_of_fresh h
  by_cases hk : key r = k
  · rw [if_pos hk]
    exact find?_eq_some.mpr ⟨by rw [hr]; simp, hk⟩
  · rw [if_neg hk]
    simp [find?, hr, List.find?_append, hk]

/-- A row that was there is still there after an insertion, fresh or not. -/
theorem find?_insert_of_some {r' : ρ} (h : T.find? k = some r') :
    (T.insert r).find? k = some r' := by
  by_cases hf : T.find? (key r) = none
  · rw [find?_insert hf, if_neg, h]
    rintro rfl
    rw [hf] at h
    cases h
  · simp [insert, hf, h]

/-- A row found after an insertion was there, or is the new row of a new key. -/
theorem find?_of_insert {r' : ρ} (h : (T.insert r).find? k = some r') :
    T.find? k = some r' ∨ T.find? k = none ∧ r' = r := by
  by_cases hf : T.find? (key r) = none
  · rw [find?_insert hf] at h
    split at h
    · next hk => cases h; exact .inr ⟨hk ▸ hf, rfl⟩
    · exact .inl h
  · simp only [insert, hf, dif_neg, not_false_eq_true] at h
    exact .inl h

/-- Add every row whose key is new, in order. -/
def insertAll (T : Table ρ) (rs : List ρ) : Table ρ := rs.foldl insert T

theorem find?_insertAll_of_some {rs : List ρ} (h : T.find? k = some r) :
    (T.insertAll rs).find? k = some r := by
  induction rs generalizing T with
  | nil => exact h
  | cons r' rs ih => exact ih (find?_insert_of_some h)

theorem find?_of_insertAll {rs : List ρ} (h : (T.insertAll rs).find? k = some r) :
    T.find? k = some r ∨ T.find? k = none ∧ r ∈ rs := by
  induction rs generalizing T with
  | nil => exact .inl h
  | cons r' rs ih =>
    rcases ih h with h | ⟨hn, hr⟩
    · rcases find?_of_insert h with h | ⟨hn, rfl⟩
      · exact .inl h
      · exact .inr ⟨hn, List.mem_cons_self⟩
    · cases hf : T.find? k with
      | none => exact .inr ⟨rfl, List.mem_cons_of_mem _ hr⟩
      | some r₀ =>
        rw [find?_insert_of_some hf] at hn
        cases hn

theorem rows_insertAll {rs : List ρ}
    (h : (T.rows ++ rs).Pairwise fun r r' => key r ≠ key r') :
    (T.insertAll rs).rows = T.rows ++ rs := by
  induction rs generalizing T with
  | nil => simp [insertAll]
  | cons r rs ih =>
    have hf : T.find? (key r) = none :=
      find?_eq_none.mpr fun r' hr' => (List.pairwise_append.mp h).2.2 r' hr' r (by simp)
    have hrows : (T.insert r).rows ++ rs = T.rows ++ r :: rs := by
      rw [insert_of_fresh hf, List.append_assoc, List.singleton_append]
    have hrs : ((T.insert r).insertAll rs).rows = (T.insert r).rows ++ rs := ih (by rwa [hrows])
    exact hrs.trans hrows

/-- The rows of `T'` whose keys are new. -/
def added (T T' : Table ρ) : List ρ := T'.rows.filter fun r => (T.find? (key r)).isNone

theorem mem_added : r ∈ T.added T' ↔ r ∈ T'.rows ∧ T.find? (key r) = none := by
  simp [added, List.mem_filter]

theorem added_of_rows {rs : List ρ} (h : T'.rows = T.rows ++ rs)
    (hrs : ∀ r ∈ rs, T.find? (key r) = none) : T.added T' = rs := by
  have hold : T.rows.filter (fun r => (T.find? (key r)).isNone) = [] := by
    refine List.filter_eq_nil_iff.mpr fun r hr => ?_
    rw [find?_of_mem hr]
    simp
  have hnew : rs.filter (fun r => (T.find? (key r)).isNone) = rs :=
    List.filter_eq_self.mpr fun r hr => by simp [hrs r hr]
  rw [added, h, List.filter_append, hold, hnew, List.nil_append]

theorem added_self (T : Table ρ) : T.added T = [] :=
  added_of_rows (List.append_nil _).symm fun _ hr => by cases hr

/-- A filter on the key selects the one row. -/
theorem filter_eq_singleton {p : ρ → Bool} (hp : ∀ r', p r' = true → key r' = k)
    (h : T.find? k = some r) (hr : p r = true) : T.rows.filter p = [r] := by
  have hn : (T.rows.filter p).Nodup := (List.Nodup.of_map _ T.nodup).filter _
  refine List.perm_singleton.mp ((List.perm_ext_iff_of_nodup hn (List.nodup_singleton r)).mpr ?_)
  intro r'
  rw [List.mem_filter, List.mem_singleton]
  constructor
  · rintro ⟨hm, hk⟩
    exact eq_of_key_eq hm (mem_of_find? h) ((hp r' hk).trans (key_of_find? h).symm)
  · rintro rfl
    exact ⟨mem_of_find? h, hr⟩

/-- The row of a key can be taken out and put first. -/
theorem perm_cons_erase {p : ρ → Bool} (hp : ∀ r, p r = true ↔ key r = k)
    (h : T.find? k = some r) : T.rows.Perm (r :: (T.erase p).rows) := by
  have := (List.filter_append_perm p T.rows).symm
  rwa [filter_eq_singleton (fun r' => (hp r').mp) h ((hp r).mpr (key_of_find? h))] at this

/-- Rewriting the row of a key leaves the others as they are. -/
theorem update_perm_cons_erase {p : ρ → Bool} {f : ρ → ρ} {hf : ∀ r, key (f r) = key r}
    (hp : ∀ r, p r = true ↔ key r = k) (h : T.find? k = some r) :
    (T.update p f hf).rows.Perm (f r :: (T.erase p).rows) := by
  have hmap := (perm_cons_erase hp h).map fun r => if p r then f r else r
  have hrest : ((T.erase p).rows.map fun r => if p r then f r else r) = (T.erase p).rows := by
    refine (List.map_congr_left fun r' hr' => ?_).trans (List.map_id _)
    rw [if_neg (by simp [(mem_erase.mp hr').2]), id_eq]
  rw [List.map_cons, hrest, if_pos ((hp r).mpr (key_of_find? h))] at hmap
  exact hmap

/-- `T'` is a later version of `T`. -/
def Extends (rel : ρ → ρ → Prop) (T T' : Table ρ) : Prop :=
  ∀ k r, T.find? k = some r → ∃ r', T'.find? k = some r' ∧ rel r r'

variable {rel : ρ → ρ → Prop}

theorem Extends.refl (h : ∀ r, rel r r) (T : Table ρ) : Extends rel T T :=
  fun _ r hr => ⟨r, hr, h r⟩

theorem Extends.trans (h : ∀ a b c, rel a b → rel b c → rel a c) (h₁ : Extends rel T T')
    (h₂ : Extends rel T' T'') : Extends rel T T'' := by
  intro k r hr
  obtain ⟨r₁, hr₁, hrel₁⟩ := h₁ k r hr
  obtain ⟨r₂, hr₂, hrel₂⟩ := h₂ k r₁ hr₁
  exact ⟨r₂, hr₂, h _ _ _ hrel₁ hrel₂⟩

theorem Extends.insert (h : ∀ r, rel r r) (T : Table ρ) (r : ρ) : Extends rel T (T.insert r) :=
  fun _ r' hr' => ⟨r', find?_insert_of_some hr', h r'⟩

theorem Extends.insertAll (h : ∀ r, rel r r) (T : Table ρ) (rs : List ρ) :
    Extends rel T (T.insertAll rs) := fun _ r hr => ⟨r, find?_insertAll_of_some hr, h r⟩

theorem Extends.update {p : ρ → Bool} {f : ρ → ρ} (hf : ∀ r, key (f r) = key r)
    (h : ∀ r ∈ T.rows, rel r (if p r then f r else r)) : Extends rel T (T.update p f hf) := by
  intro k r hr
  exact ⟨_, by rw [find?_update, hr, Option.map_some], h r (mem_of_find? hr)⟩

end Find

end Table

end Relational
