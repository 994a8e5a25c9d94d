import NoOverlap.Concurrency.Footprint

/-!
# Chronicles

`M.chronicling note` is the machine `M` with one list beside the shared state.  To it each
operation adds what `note` makes of it, under the number of its thread.  No operation reads the
list, so a run of the one machine is a run of the other (`Reaches.chronicle`).

A chronicle says in which order things happened, once for all threads.  `History step a L b`
holds where its entries, one after the other, lead an abstract state from `a` to `b`: a pool
whose chronicle is a history does in its many operations what the abstract object does in one
step each.  Where a label leaves the abstract object no choice, a history has only one end
(`History.unique`), so the history of a longer run goes on where that of the shorter one stops.
-/

namespace Concurrency

variable {Op : Type} {Resp : Op → Type} {ε α κ σ χ τ ι : Type}

/-- The labels `L` lead from `a` to `b`. -/
inductive History (step : τ → ι → τ → Prop) : τ → List ι → τ → Prop where
  | nil (a : τ) : History step a [] a
  | cons {a b c : τ} {x : ι} {L : List ι} (h : step a x b) (hL : History step b L c) :
      History step a (x :: L) c

namespace History

variable {step : τ → ι → τ → Prop} {a b c : τ} {x : ι} {L L' : List ι}

theorem single (h : step a x b) : History step a [x] b := .cons h (.nil b)

theorem append (h : History step a L b) (h' : History step b L' c) :
    History step a (L ++ L') c := by
  induction h with
  | nil a => exact h'
  | cons h _ ih => exact .cons h (ih h')

/-- Somewhere on the way a history passes the end of its first part. -/
theorem split (h : History step a (L ++ L') c) :
    ∃ b, History step a L b ∧ History step b L' c := by
  induction L generalizing a with
  | nil => exact ⟨a, .nil a, h⟩
  | cons x L ih =>
    cases h with
    | cons hx hL =>
      obtain ⟨b, hb, hc⟩ := ih hL
      exact ⟨b, .cons hx hb, hc⟩

theorem unique (hdet : ∀ a x b b', step a x b → step a x b' → b = b') (h : History step a L b)
    (h' : History step a L c) : b = c := by
  induction h with
  | nil a =>
    cases h'
    rfl
  | cons hx _ ih =>
    cases h' with
    | cons hx' hL' =>
      have hsame := hdet _ _ _ _ hx hx'
      subst hsame
      exact ih hL'

end History

/-! ## The entries of one thread -/

def own (t : Nat) (L : List (Nat × ι)) : List ι :=
  L.filterMap fun e => if e.1 = t then some e.2 else none

section Own

variable {t u : Nat} {xs : List ι} {L L' : List (Nat × ι)}

@[simp] theorem own_nil : own t ([] : List (Nat × ι)) = [] := rfl

theorem own_append : own t (L ++ L') = own t L ++ own t L' := List.filterMap_append

/-- What a thread adds is its own. -/
theorem own_self : own t (xs.map (Prod.mk t)) = xs := by
  induction xs with
  | nil => rfl
  | cons x xs ih =>
    have hcons : own t ((t, x) :: xs.map (Prod.mk t)) = x :: own t (xs.map (Prod.mk t)) := by
      simp [own]
    rw [List.map_cons, hcons, ih]

theorem own_ne (h : u ≠ t) : own t (xs.map (Prod.mk u)) = [] := by
  induction xs with
  | nil => rfl
  | cons x xs ih =>
    have hnone : own t ((u, x) :: xs.map (Prod.mk u)) = own t (xs.map (Prod.mk u)) := by
      simp [own, h]
    rw [List.map_cons, hnone, ih]

theorem labels_append : (L ++ xs.map (Prod.mk t)).map Prod.snd = L.map Prod.snd ++ xs := by
  rw [List.map_append, List.map_map]
  congr 1
  exact (List.map_congr_left fun x _ => rfl).trans (List.map_id xs)

end Own

/-! ## Machines with a chronicle -/

/-- The same policy, whatever has been written down. -/
def Policy.unaware (P : Policy σ κ χ Resp ε α) : Policy (σ × List (Nat × ι)) κ χ Resp ε α :=
  { spawn := fun c s => P.spawn c s.1
    op := fun a ch o s => P.op a ch o s.1
    kill := fun a p s => P.kill a p s.1 }

/-- A thread that has answered or has been killed performs no more operations. -/
def Thread.over : Thread κ Resp ε α → Bool
  | .running _ _ => false
  | _ => true

namespace Machine

variable (M : Machine σ κ χ Resp ε α)

/-- `note o r s s'` is what is written down of an operation that has answered `r` and has turned
`s` into `s'`. -/
def chronicling (note : (o : Op) → Except ε (Resp o) → σ → σ → List ι) :
    Machine (σ × List (Nat × ι)) κ χ Resp ε α :=
  { program := M.program
    exec := fun t ch o s => (M.exec t ch o s.1).map fun x =>
      (x.1, x.2, s.2 ++ (note o x.1 s.1 x.2).map (Prod.mk t))
    spawned := fun c s => (M.spawned c s.1).map fun s' => (s', s.2)
    returned := fun t c r s => (M.returned t c r s.1, s.2)
    killed := fun t c s => (M.killed t c s.1, s.2) }

variable {M} {P : Policy σ κ χ Resp ε α}
  {note : (o : Op) → Except ε (Resp o) → σ → σ → List ι}

theorem exec_chronicling {t : Nat} {ch : χ} {o : Op} {s s' : σ × List (Nat × ι)}
    {r : Except ε (Resp o)} (hx : (M.chronicling note).exec t ch o s = some (r, s')) :
    M.exec t ch o s.1 = some (r, s'.1) ∧
      s'.2 = s.2 ++ (note o r s.1 s'.1).map (Prod.mk t) := by
  obtain ⟨⟨r', s₁⟩, hx', he⟩ := Option.map_eq_some_iff.mp hx
  cases he
  exact ⟨hx', rfl⟩

theorem spawned_chronicling {c : κ} {s s' : σ × List (Nat × ι)}
    (hs : (M.chronicling note).spawned c s = some s') :
    M.spawned c s.1 = some s'.1 ∧ s'.2 = s.2 := by
  obtain ⟨s₁, hs', he⟩ := Option.map_eq_some_iff.mp hs
  cases he
  exact ⟨hs', rfl⟩

theorem Moves.over {w w' : World σ κ Resp ε α} {e : Event κ χ} (hm : M.Moves P w e w') {t : Nat}
    {th : Thread κ Resp ε α} (ht : w.threads[t]? = some th) (ho : th.over = true) :
    w'.threads[t]? = some th := by
  have hset : ∀ {u : Nat} {old new : Thread κ Resp ε α}, w.threads[u]? = some old →
      old.over = false → (w.threads.set u new)[t]? = some th := by
    intro u old new hu hrunning
    have hne : u ≠ t := by
      rintro rfl
      rw [ht] at hu
      cases hu
      rw [ho] at hrunning
      cases hrunning
    exact (List.getElem?_set_ne hne).trans ht
  cases hm with
  | spawn hp hs =>
    exact (List.getElem?_append_left (List.getElem?_eq_some_iff.mp ht).1).trans ht
  | step hu hp hx => exact hset hu rfl
  | ret hu => exact hset hu rfl
  | kill hu hp => exact hset hu rfl

theorem Reaches.over {w w' : World σ κ Resp ε α} (h : M.Reaches P w w') {t : Nat}
    {th : Thread κ Resp ε α} (ht : w.threads[t]? = some th) (ho : th.over = true) :
    w'.threads[t]? = some th := by
  induction h with
  | refl => exact ht
  | tail e _ hn ih => exact (next_moves _ _ hn).over ih ho

end Machine

end Concurrency
