import NoOverlap.Concurrency.Program

/-!
# A pool of programs over one shared state

A `Machine` says which program each call runs and what each atomic operation
does to the shared state.  A `World` is that state together with every thread
ever started: a thread is still running, has returned, or was killed.  Threads
are numbered by the order in which they start, and a number is never reused, so
the returned threads are a record of what every finished call answered.

Nondeterminism is resolved by the scheduler.  An event names the thread that
moves and, for a step, a choice the operation may consult, so `next` is a
function and a schedule can be evaluated.  A `Policy` restricts the events a
scheduler may pick, and `Reaches` is reachability under such a policy.
-/

namespace Concurrency

variable {Op : Type} {Resp : Op → Type} {ε α κ σ χ : Type}

/-- A thread, identified by its number and the call it serves. -/
structure Agent (κ : Type) where
  tid : Nat
  call : κ

/-- Where a thread is in its life. -/
inductive Thread (κ : Type) {Op : Type} (Resp : Op → Type) (ε α : Type) where
  | running (c : κ) (p : Prog Resp ε α)
  | returned (c : κ) (r : Except ε α)
  | killed (c : κ)

/-- The call a thread serves, or has served. -/
def Thread.call : Thread κ Resp ε α → κ
  | running c _ => c
  | returned c _ => c
  | killed c => c

structure World (σ κ : Type) {Op : Type} (Resp : Op → Type) (ε α : Type) where
  shared : σ
  threads : List (Thread κ Resp ε α)

/-- The programs of a system and the meaning of their operations.  `exec` is
`none` where the operation has to wait.  `spawned` is `none` where the call
cannot start. -/
structure Machine (σ κ χ : Type) {Op : Type} (Resp : Op → Type) (ε α : Type) where
  program : κ → Prog Resp ε α
  exec : Nat → χ → (o : Op) → σ → Option (Except ε (Resp o) × σ)
  spawned : κ → σ → Option σ
  returned : Nat → κ → Except ε α → σ → σ
  killed : Nat → κ → σ → σ

/-- What a scheduler may do. -/
structure Policy (σ κ χ : Type) {Op : Type} (Resp : Op → Type) (ε α : Type) where
  spawn : κ → σ → Bool
  op : Agent κ → χ → Op → σ → Bool
  kill : Agent κ → Prog Resp ε α → σ → Bool

inductive Event (κ χ : Type) where
  | spawn (c : κ)
  | step (t : Nat) (ch : χ)
  | ret (t : Nat)
  | kill (t : Nat)

namespace World

def start (s : σ) : World σ κ Resp ε α := { shared := s, threads := [] }

/-- No call is in progress. -/
def Quiet (w : World σ κ Resp ε α) : Prop :=
  ∀ (t : Nat) (c : κ) (p : Prog Resp ε α), w.threads[t]? ≠ some (.running c p)

end World

/-- A thread is put where it is. -/
theorem World.set_of_getElem? {w : World σ κ Resp ε α} {t : Nat} {th : Thread κ Resp ε α}
    (h : w.threads[t]? = some th) : { w with threads := w.threads.set t th } = w := by
  obtain ⟨hlt, rfl⟩ := List.getElem?_eq_some_iff.mp h
  rw [List.set_getElem_self]

/-! Threads are looked up by number: an entry of the list is the one that has just been
written, or it was there before. -/

theorem getElem?_of_set {β : Type} {l : List β} {i j : Nat} {a b : β}
    (h : (l.set i a)[j]? = some b) : (j = i ∧ b = a) ∨ (j ≠ i ∧ l[j]? = some b) := by
  by_cases hij : j = i
  · subst hij
    rw [List.getElem?_set_self'] at h
    obtain ⟨-, -, rfl⟩ := Option.map_eq_some_iff.mp h
    exact .inl ⟨rfl, rfl⟩
  · rw [List.getElem?_set_ne (Ne.symm hij)] at h
    exact .inr ⟨hij, h⟩

theorem getElem?_of_append {β : Type} {l : List β} {j : Nat} {a b : β}
    (h : (l ++ [a])[j]? = some b) : (j = l.length ∧ b = a) ∨ l[j]? = some b := by
  rcases Nat.lt_trichotomy j l.length with hlt | rfl | hgt
  · rw [List.getElem?_append_left hlt] at h
    exact .inr h
  · rw [List.getElem?_concat_length] at h
    cases h
    exact .inl ⟨rfl, rfl⟩
  · have hlen : (l ++ [a]).length ≤ j := by
      rw [List.length_append, List.length_singleton]
      omega
    rw [List.getElem?_eq_none hlen] at h
    cases h

namespace Machine

variable (M : Machine σ κ χ Resp ε α) (P : Policy σ κ χ Resp ε α)

/-- One event, or `none` where it is not possible or not allowed. -/
def next (w : World σ κ Resp ε α) : Event κ χ → Option (World σ κ Resp ε α)
  | .spawn c =>
    if P.spawn c w.shared then
      (M.spawned c w.shared).map fun s =>
        { shared := s, threads := w.threads ++ [.running c (M.program c)] }
    else none
  | .step t ch =>
    match w.threads[t]? with
    | some (.running c (.call o k)) =>
      if P.op ⟨t, c⟩ ch o w.shared then
        (M.exec t ch o w.shared).map fun rs =>
          { shared := rs.2, threads := w.threads.set t (.running c (k rs.1)) }
      else none
    | _ => none
  | .ret t =>
    match w.threads[t]? with
    | some (.running c (.done r)) =>
      some { shared := M.returned t c r w.shared, threads := w.threads.set t (.returned c r) }
    | _ => none
  | .kill t =>
    match w.threads[t]? with
    | some (.running c p) =>
      if P.kill ⟨t, c⟩ p w.shared then
        some { shared := M.killed t c w.shared, threads := w.threads.set t (.killed c) }
      else none
    | _ => none

/-- What a single event can have done. -/
inductive Moves (w : World σ κ Resp ε α) : Event κ χ → World σ κ Resp ε α → Prop where
  | spawn {c : κ} {s : σ} (hp : P.spawn c w.shared = true) (hs : M.spawned c w.shared = some s) :
      Moves w (.spawn c) { shared := s, threads := w.threads ++ [.running c (M.program c)] }
  | step {t : Nat} {ch : χ} {c : κ} {o : Op} {k : Except ε (Resp o) → Prog Resp ε α}
      {r : Except ε (Resp o)} {s : σ} (ht : w.threads[t]? = some (.running c (.call o k)))
      (hp : P.op ⟨t, c⟩ ch o w.shared = true) (hx : M.exec t ch o w.shared = some (r, s)) :
      Moves w (.step t ch) { shared := s, threads := w.threads.set t (.running c (k r)) }
  | ret {t : Nat} {c : κ} {r : Except ε α} (ht : w.threads[t]? = some (.running c (.done r))) :
      Moves w (.ret t)
        { shared := M.returned t c r w.shared, threads := w.threads.set t (.returned c r) }
  | kill {t : Nat} {c : κ} {p : Prog Resp ε α} (ht : w.threads[t]? = some (.running c p))
      (hp : P.kill ⟨t, c⟩ p w.shared = true) :
      Moves w (.kill t) { shared := M.killed t c w.shared, threads := w.threads.set t (.killed c) }

theorem next_moves {w w' : World σ κ Resp ε α} {e : Event κ χ} (h : M.next P w e = some w') :
    M.Moves P w e w' := by
  cases e with
  | spawn c =>
    simp only [next] at h
    split at h
    · next hp =>
      obtain ⟨s, hs, rfl⟩ := Option.map_eq_some_iff.mp h
      exact .spawn hp hs
    · cases h
  | step t ch =>
    simp only [next] at h
    split at h
    · next c o k ht =>
      split at h
      · next hp =>
        obtain ⟨⟨r, s⟩, hx, rfl⟩ := Option.map_eq_some_iff.mp h
        exact .step ht hp hx
      · cases h
    · cases h
  | ret t =>
    simp only [next] at h
    split at h
    · next c r ht =>
      cases h
      exact .ret ht
    · cases h
  | kill t =>
    simp only [next] at h
    split at h
    · next c p ht =>
      split at h
      · next hp =>
        cases h
        exact .kill ht hp
      · cases h
    · cases h

/-- The worlds a scheduler bound by `P` can reach from `w₀`. -/
inductive Reaches (w₀ : World σ κ Resp ε α) : World σ κ Resp ε α → Prop where
  | refl : Reaches w₀ w₀
  | tail {w w' : World σ κ Resp ε α} (e : Event κ χ) (h : Reaches w₀ w)
      (hn : M.next P w e = some w') : Reaches w₀ w'

/-- An operation that is possible and allowed takes place. -/
theorem Reaches.step {M : Machine σ κ χ Resp ε α} {P : Policy σ κ χ Resp ε α}
    {w₀ w : World σ κ Resp ε α} (h : M.Reaches P w₀ w) {t : Nat} {c : κ} {o : Op}
    {k : Except ε (Resp o) → Prog Resp ε α} {ch : χ} {r : Except ε (Resp o)} {s : σ}
    (ht : w.threads[t]? = some (.running c (.call o k)))
    (hp : P.op ⟨t, c⟩ ch o w.shared = true) (hx : M.exec t ch o w.shared = some (r, s)) :
    M.Reaches P w₀ { shared := s, threads := w.threads.set t (.running c (k r)) } :=
  .tail (.step t ch) h (by simp only [next, ht, hp, if_true, hx, Option.map_some])

theorem Reaches.spawn {M : Machine σ κ χ Resp ε α} {P : Policy σ κ χ Resp ε α}
    {w₀ w : World σ κ Resp ε α} (h : M.Reaches P w₀ w) {c : κ} {s : σ}
    (hp : P.spawn c w.shared = true) (hs : M.spawned c w.shared = some s) :
    M.Reaches P w₀ { shared := s, threads := w.threads ++ [.running c (M.program c)] } :=
  .tail (.spawn c) h (by simp only [next, hp, if_true, hs, Option.map_some])

theorem Reaches.ret {M : Machine σ κ χ Resp ε α} {P : Policy σ κ χ Resp ε α}
    {w₀ w : World σ κ Resp ε α} (h : M.Reaches P w₀ w) {t : Nat} {c : κ} {r : Except ε α}
    (ht : w.threads[t]? = some (.running c (.done r))) :
    M.Reaches P w₀
      { shared := M.returned t c r w.shared, threads := w.threads.set t (.returned c r) } :=
  .tail (.ret t) h (by simp only [next, ht])

theorem Reaches.kill {M : Machine σ κ χ Resp ε α} {P : Policy σ κ χ Resp ε α}
    {w₀ w : World σ κ Resp ε α} (h : M.Reaches P w₀ w) {t : Nat} {c : κ} {p : Prog Resp ε α}
    (ht : w.threads[t]? = some (.running c p)) (hp : P.kill ⟨t, c⟩ p w.shared = true) :
    M.Reaches P w₀ { shared := M.killed t c w.shared, threads := w.threads.set t (.killed c) } :=
  .tail (.kill t) h (by simp only [next, ht, hp, if_true])

/-- Run a schedule. -/
def run (w : World σ κ Resp ε α) : List (Event κ χ) → Option (World σ κ Resp ε α)
  | [] => some w
  | e :: es => (M.next P w e).bind fun w' => run w' es

variable {M P}

/-- A running thread has just started, or has performed an operation, or has not moved. -/
theorem Moves.running {w w' : World σ κ Resp ε α} {e : Event κ χ} (hm : M.Moves P w e w')
    {t : Nat} {c : κ} {p : Prog Resp ε α} (ht : w'.threads[t]? = some (.running c p)) :
    p = M.program c ∨
      (∃ (u : Nat) (o : Op) (k : Except ε (Resp o) → Prog Resp ε α) (r : Except ε (Resp o)),
        w.threads[u]? = some (.running c (.call o k)) ∧ p = k r) ∨
      w.threads[t]? = some (.running c p) := by
  cases hm with
  | spawn hp hs =>
    rcases getElem?_of_append ht with ⟨-, he⟩ | hold
    · cases he
      exact .inl rfl
    · exact .inr (.inr hold)
  | step hu hp hx =>
    rcases getElem?_of_set ht with ⟨-, he⟩ | ⟨-, hold⟩
    · cases he
      exact .inr (.inl ⟨_, _, _, _, hu, rfl⟩)
    · exact .inr (.inr hold)
  | ret hu =>
    rcases getElem?_of_set ht with ⟨-, he⟩ | ⟨-, hold⟩
    · cases he
    · exact .inr (.inr hold)
  | kill hu hp =>
    rcases getElem?_of_set ht with ⟨-, he⟩ | ⟨-, hold⟩
    · cases he
    · exact .inr (.inr hold)

/-- A killed thread was killed before, or the policy has allowed it. -/
theorem Moves.killed {w w' : World σ κ Resp ε α} {e : Event κ χ} (hm : M.Moves P w e w')
    {t : Nat} {c : κ} (ht : w'.threads[t]? = some (.killed c)) :
    (∃ a p, P.kill a p w.shared = true) ∨ w.threads[t]? = some (.killed c) := by
  cases hm with
  | spawn hp hs =>
    rcases getElem?_of_append ht with ⟨-, he⟩ | hold
    · cases he
    · exact .inr hold
  | step hu hp hx =>
    rcases getElem?_of_set ht with ⟨-, he⟩ | ⟨-, hold⟩
    · cases he
    · exact .inr hold
  | ret hu =>
    rcases getElem?_of_set ht with ⟨-, he⟩ | ⟨-, hold⟩
    · cases he
    · exact .inr hold
  | kill hu hp => exact .inl ⟨_, _, hp⟩

/-- A thread serves one call all its life. -/
theorem Moves.call_eq {w w' : World σ κ Resp ε α} {e : Event κ χ} (hm : M.Moves P w e w')
    {t : Nat} {th : Thread κ Resp ε α} (ht : w.threads[t]? = some th) :
    ∃ th', w'.threads[t]? = some th' ∧ th'.call = th.call := by
  have hset : ∀ {u : Nat} {old new : Thread κ Resp ε α}, w.threads[u]? = some old →
      new.call = old.call → ∃ th', (w.threads.set u new)[t]? = some th' ∧ th'.call = th.call := by
    intro u old new hu hc
    by_cases heq : u = t
    · subst heq
      have hold : old = th := Option.some.inj (hu.symm.trans ht)
      subst hold
      exact ⟨new, List.getElem?_set_self (List.getElem?_eq_some_iff.mp ht).1, hc⟩
    · exact ⟨th, (List.getElem?_set_ne heq).trans ht, rfl⟩
  cases hm with
  | spawn hp hs =>
    have hlt := (List.getElem?_eq_some_iff.mp ht).1
    exact ⟨th, (List.getElem?_append_left hlt).trans ht, rfl⟩
  | step hu hp hx => exact hset hu rfl
  | ret hu => exact hset hu rfl
  | kill hu hp => exact hset hu rfl

/-- Threads are never forgotten. -/
theorem Moves.length_le {w w' : World σ κ Resp ε α} {e : Event κ χ} (hm : M.Moves P w e w') :
    w.threads.length ≤ w'.threads.length := by
  cases hm with
  | spawn hp hs =>
    rw [List.length_append]
    exact Nat.le_add_right _ _
  | step ht hp hx => exact Nat.le_of_eq (List.length_set).symm
  | ret ht => exact Nat.le_of_eq (List.length_set).symm
  | kill ht hp => exact Nat.le_of_eq (List.length_set).symm

theorem Reaches.trans {w₀ w₁ w₂ : World σ κ Resp ε α} (h₁ : M.Reaches P w₀ w₁)
    (h₂ : M.Reaches P w₁ w₂) : M.Reaches P w₀ w₂ := by
  induction h₂ with
  | refl => exact h₁
  | tail e _ hn ih => exact .tail e ih hn

theorem Reaches.length_le {w₀ w : World σ κ Resp ε α} (h : M.Reaches P w₀ w) :
    w₀.threads.length ≤ w.threads.length := by
  induction h with
  | refl => exact Nat.le_refl _
  | tail e _ hn ih => exact Nat.le_trans ih (next_moves M P hn).length_le

theorem reaches_of_run {es : List (Event κ χ)} {w w' : World σ κ Resp ε α}
    (h : M.run P w es = some w') : M.Reaches P w w' := by
  induction es generalizing w with
  | nil => cases h; exact .refl
  | cons e es ih =>
    obtain ⟨w₁, hn, hr⟩ := Option.bind_eq_some_iff.mp h
    exact Reaches.trans (.tail e .refl hn) (ih hr)

/-- A schedule whose last world passes a test reaches a world that passes it. -/
theorem exists_reaches_of_run {es : List (Event κ χ)} {w : World σ κ Resp ε α}
    {test : World σ κ Resp ε α → Bool} (h : (M.run P w es).any test = true) :
    ∃ w', M.Reaches P w w' ∧ test w' = true := by
  cases hr : M.run P w es with
  | none => rw [hr] at h; cases h
  | some w' =>
    rw [hr] at h
    exact ⟨w', reaches_of_run hr, h⟩

/-- The same for the last event of a schedule. -/
theorem exists_next_of_run {es : List (Event κ χ)} {e : Event κ χ} {w : World σ κ Resp ε α}
    {test : World σ κ Resp ε α → World σ κ Resp ε α → Bool}
    (h : (M.run P w es).any (fun w₁ => (M.next P w₁ e).any (test w₁)) = true) :
    ∃ w₁ w₂, M.Reaches P w w₁ ∧ M.next P w₁ e = some w₂ ∧ test w₁ w₂ = true := by
  obtain ⟨w₁, hr, ht⟩ := exists_reaches_of_run h
  cases hn : M.next P w₁ e with
  | none => rw [hn] at ht; cases ht
  | some w₂ =>
    rw [hn] at ht
    exact ⟨w₁, w₂, hr, hn, ht⟩

/-- What a stricter policy allows. -/
theorem next_relax {Q : Policy σ κ χ Resp ε α}
    (hs : ∀ c s, P.spawn c s = true → Q.spawn c s = true)
    (ho : ∀ a ch o s, P.op a ch o s = true → Q.op a ch o s = true)
    (hk : ∀ a p s, P.kill a p s = true → Q.kill a p s = true)
    {w w' : World σ κ Resp ε α} {e : Event κ χ} (hn : M.next P w e = some w') :
    M.next Q w e = some w' := by
  cases next_moves M P hn with
  | spawn hp hx => simp only [next, hs _ _ hp, if_true, hx, Option.map_some]
  | step ht hp hx => simp only [next, ht, ho _ _ _ _ hp, if_true, hx, Option.map_some]
  | ret ht => simp only [next, ht]
  | kill ht hp => simp only [next, ht, hk _ _ _ hp, if_true]

/-- A stricter policy reaches no new worlds. -/
theorem Reaches.relax {Q : Policy σ κ χ Resp ε α}
    (hs : ∀ c s, P.spawn c s = true → Q.spawn c s = true)
    (ho : ∀ a ch o s, P.op a ch o s = true → Q.op a ch o s = true)
    (hk : ∀ a p s, P.kill a p s = true → Q.kill a p s = true)
    {w₀ w : World σ κ Resp ε α} (h : M.Reaches P w₀ w) : M.Reaches Q w₀ w := by
  induction h with
  | refl => exact .refl
  | tail e _ hn ih => exact .tail e ih (next_relax hs ho hk hn)

end Machine

end Concurrency
