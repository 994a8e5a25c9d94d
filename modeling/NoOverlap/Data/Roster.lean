import Mathlib
import NoOverlap.Concurrency.Chronicle

/-!
# Rosters of intervals

What a booking desk is for, without the desk.  A roster enters claims to intervals of resources
under keys, first tentatively and then firmly, and no two of its claims share a point: that is a
field, so a roster in which two do cannot be built.

`Op` is what can be asked of it, `Roster.Step` what that does.  A claim can be entered only where
it is free, and refused only where it is not.
-/

namespace Roster

/-- A claim to `resource` from `start` up to `stop`. -/
structure Claim (ρ α : Type) where
  resource : ρ
  start : α
  stop : α
  deriving DecidableEq

inductive Standing where
  | tentative
  | firm
  deriving DecidableEq, Repr

section Claims

variable {ρ α : Type} [LinearOrder α]

def Claim.points (c : Claim ρ α) : Set (ρ × α) :=
  {p | p.1 = c.resource ∧ p.2 ∈ Set.Ico c.start c.stop}

/-- Two claims share a point if they are to one resource and the later one starts before the
earlier one stops. -/
theorem not_disjoint_points {c c' : Claim ρ α} :
    ¬Disjoint c.points c'.points ↔
      c.resource = c'.resource ∧ max c.start c'.start < min c.stop c'.stop := by
  rw [Set.not_disjoint_iff]
  constructor
  · rintro ⟨⟨r, x⟩, ⟨hr, hx⟩, hr', hx'⟩
    refine ⟨hr.symm.trans hr', ?_⟩
    exact (max_le hx.1 hx'.1).trans_lt (lt_min hx.2 hx'.2)
  · rintro ⟨hr, hlt⟩
    obtain ⟨hstop, hstop'⟩ := lt_min_iff.mp hlt
    refine ⟨(c.resource, max c.start c'.start), ⟨rfl, ?_⟩, hr, ?_⟩
    · exact ⟨le_max_left _ _, hstop⟩
    · exact ⟨le_max_right _ _, hstop'⟩

end Claims

end Roster

open Roster in
structure Roster (κ ρ α : Type) [LinearOrder α] where
  entry : κ → Option (Claim ρ α × Standing)
  apart : ∀ k k' x x', entry k = some x → entry k' = some x' → k ≠ k' →
    Disjoint x.1.points x'.1.points

namespace Roster

variable {κ ρ α : Type} [LinearOrder α]

def empty : Roster κ ρ α := { entry := fun _ => none, apart := fun _ _ _ _ h => by cases h }

theorem ext {R R' : Roster κ ρ α} (h : ∀ k, R.entry k = R'.entry k) : R = R' := by
  cases R
  cases R'
  congr 1
  funext k
  exact h k

def Free (R : Roster κ ρ α) (c : Claim ρ α) : Prop :=
  ∀ k x, R.entry k = some x → Disjoint c.points x.1.points

/-- A roster whose claims were all there before. -/
def shrink (R : Roster κ ρ α) (f : κ → Option (Claim ρ α × Standing))
    (h : ∀ k x, f k = some x → ∃ s, R.entry k = some (x.1, s)) : Roster κ ρ α :=
  { entry := f
    apart := fun k k' x x' hx hx' hne => by
      obtain ⟨s, hs⟩ := h k x hx
      obtain ⟨s', hs'⟩ := h k' x' hx'
      exact R.apart k k' (x.1, s) (x'.1, s') hs hs' hne }

variable [DecidableEq κ]

/-! ## The operations -/

/-- Enter a claim that is free. -/
def grant (R : Roster κ ρ α) (k : κ) (c : Claim ρ α) (h : R.Free c) : Roster κ ρ α :=
  { entry := Function.update R.entry k (some (c, .tentative))
    apart := fun k₁ k₂ x x' hx hx' hne => by
      simp only [Function.update_apply] at hx hx'
      split at hx
      · next h₁ =>
        cases hx
        rw [if_neg fun h₂ => hne (h₁.trans h₂.symm)] at hx'
        exact h k₂ x' hx'
      · split at hx'
        · cases hx'
          exact (h k₁ x hx).symm
        · exact R.apart k₁ k₂ x x' hx hx' hne }

/-- A claim has become firm. -/
def confirm (R : Roster κ ρ α) (k : κ) : Roster κ ρ α :=
  R.shrink (Function.update R.entry k ((R.entry k).map fun x => (x.1, .firm))) fun k' x hx => by
    simp only [Function.update_apply] at hx
    split at hx
    · next hk =>
      subst hk
      obtain ⟨y, hy, rfl⟩ := Option.map_eq_some_iff.mp hx
      exact ⟨y.2, hy⟩
    · exact ⟨x.2, hx⟩

/-- Give a claim up. -/
def drop (R : Roster κ ρ α) (k : κ) : Roster κ ρ α :=
  R.shrink (Function.update R.entry k none) fun k' x hx => by
    simp only [Function.update_apply] at hx
    split at hx
    · cases hx
    · exact ⟨x.2, hx⟩

inductive Op (κ ρ α : Type) where
  | grant (k : κ) (c : Claim ρ α)
  | refuse (c : Claim ρ α)
  | confirm (k : κ)
  /-- Give up a claim of this standing. -/
  | withdraw (k : κ) (s : Standing)
  /-- Give up a claim, if there is one. -/
  | cancel (k : κ)
  deriving DecidableEq

inductive Step (R : Roster κ ρ α) : Op κ ρ α → Roster κ ρ α → Prop where
  | grant {k : κ} {c : Claim ρ α} (hk : R.entry k = none) (h : R.Free c) :
      Step R (.grant k c) (R.grant k c h)
  | refuse {c : Claim ρ α} (h : ¬R.Free c) : Step R (.refuse c) R
  | confirm {k : κ} {c : Claim ρ α} (h : R.entry k = some (c, .tentative)) :
      Step R (.confirm k) (R.confirm k)
  | withdraw {k : κ} {c : Claim ρ α} {s : Standing} (h : R.entry k = some (c, s)) :
      Step R (.withdraw k s) (R.drop k)
  | cancel {k : κ} : Step R (.cancel k) (R.drop k)

/-- What is asked leaves the roster no choice. -/
theorem Step.unique {R R₁ R₂ : Roster κ ρ α} {x : Op κ ρ α} (h₁ : R.Step x R₁)
    (h₂ : R.Step x R₂) : R₁ = R₂ := by
  cases h₁ <;> cases h₂ <;> rfl

theorem entry_grant {R : Roster κ ρ α} {k : κ} {c : Claim ρ α} (h : R.Free c) (k' : κ) :
    (R.grant k c h).entry k' = if k' = k then some (c, .tentative) else R.entry k' :=
  Function.update_apply ..

theorem entry_confirm {R : Roster κ ρ α} (k k' : κ) :
    (R.confirm k).entry k' =
      if k' = k then (R.entry k).map fun x => (x.1, .firm) else R.entry k' :=
  Function.update_apply ..

theorem entry_drop {R : Roster κ ρ α} (k k' : κ) :
    (R.drop k).entry k' = if k' = k then none else R.entry k' :=
  Function.update_apply ..

/-- The claims of some keys, all of one standing, can be given up one after the other. -/
theorem withdrawAll {R : Roster κ ρ α} {ks : List κ} {s : Standing} (hn : ks.Nodup)
    (h : ∀ k ∈ ks, ∃ c, R.entry k = some (c, s)) :
    ∃ R', Concurrency.History Step R (ks.map fun k => .withdraw k s) R' ∧
      ∀ k, R'.entry k = if k ∈ ks then none else R.entry k := by
  induction ks generalizing R with
  | nil => exact ⟨R, .nil R, fun k => by rw [if_neg List.not_mem_nil]⟩
  | cons k₀ ks ih =>
    obtain ⟨hnew, hn'⟩ := List.nodup_cons.mp hn
    obtain ⟨c₀, hc₀⟩ := h k₀ List.mem_cons_self
    have hrest : ∀ k ∈ ks, ∃ c, (R.drop k₀).entry k = some (c, s) := by
      intro k hk
      obtain ⟨c, hc⟩ := h k (List.mem_cons_of_mem _ hk)
      have hne : k ≠ k₀ := fun he => hnew (he ▸ hk)
      exact ⟨c, by rw [entry_drop, if_neg hne, hc]⟩
    obtain ⟨R', hR', hentry⟩ := ih hn' hrest
    refine ⟨R', .cons (.withdraw hc₀) hR', fun k => ?_⟩
    rw [hentry, entry_drop]
    by_cases hk : k = k₀
    · subst hk
      simp
    · simp [hk]

end Roster
