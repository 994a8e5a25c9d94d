import NoOverlap.Concurrency.Footprint

/-!
# Programs that run alone, and two of them side by side

`alone` runs a program on a state that nobody else touches, one choice of the environment
for every operation.  `reaches_of_alone` says that a pool can do the same.

`Lockstep` compares two such runs under the same choices: operation by operation, each of
them possible, down to the two results.  `Alike L V M p q` is the triple made from it: from
states related by `L`, the programs `p` and `q` end with results related by `V`, or with one
error, in states related by `M`.  It follows the programs, as `Safe` does for one.

`Completes` is about one run alone: no operation has to wait, and it says how the run ends.
-/

namespace Concurrency

variable {Op : Type} {Resp : Op → Type} {ε α β κ σ χ : Type}

namespace Prog

variable (exec : χ → (o : Op) → σ → Option (Except ε (Resp o) × σ)) (C : χ → Prop)

/-- `none` where an operation has to wait, for there is nobody to wait for. -/
def alone : Prog Resp ε α → (Nat → χ) → σ → Option (Except ε α × σ)
  | done r, _, s => some (r, s)
  | call o k, c, s => (exec (c 0) o s).bind fun x => (k x.1).alone (fun n => c (n + 1)) x.2

/-- Two runs under the same choices, all of them in `C`, and how they end. -/
def Lockstep (Q : Except ε α → σ → Except ε α → σ → Prop) :
    Prog Resp ε α → σ → Prog Resp ε α → σ → Prop
  | done r, s, done r', s' => Q r s r' s'
  | call o k, s, call o' k', s' => ∀ ch, C ch → ∃ r s₁ r' s₁',
      exec ch o s = some (r, s₁) ∧ exec ch o' s' = some (r', s₁') ∧
        Lockstep Q (k r) s₁ (k' r') s₁'
  | _, _, _, _ => False

variable {exec C} {Q Q' : Except ε α → σ → Except ε α → σ → Prop} {p p' : Prog Resp ε α}
  {s s' : σ}

theorem Lockstep.alone (h : Lockstep exec C Q p s p' s') {c : Nat → χ} (hc : ∀ n, C (c n)) :
    ∃ r s₁ r' s₁', p.alone exec c s = some (r, s₁) ∧ p'.alone exec c s' = some (r', s₁') ∧
      Q r s₁ r' s₁' := by
  induction p generalizing p' s s' c with
  | done r =>
    cases p' with
    | done r' => exact ⟨r, s, r', s', rfl, rfl, h⟩
    | call o' k' => exact h.elim
  | call o k ih =>
    cases p' with
    | done r' => exact h.elim
    | call o' k' =>
      obtain ⟨r, s₁, r', s₁', hx, hx', hk⟩ := h (c 0) (hc 0)
      obtain ⟨v, s₂, v', s₂', hr, hr', hq⟩ := ih r hk fun n => hc (n + 1)
      refine ⟨v, s₂, v', s₂', ?_, ?_, hq⟩
      · simp only [Prog.alone, hx, Option.bind_some, hr]
      · simp only [Prog.alone, hx', Option.bind_some, hr']

theorem Lockstep.imp (h : Lockstep exec C Q p s p' s')
    (hQ : ∀ r s r' s', Q r s r' s' → Q' r s r' s') : Lockstep exec C Q' p s p' s' := by
  induction p generalizing p' s s' with
  | done r =>
    cases p' with
    | done r' => exact hQ _ _ _ _ h
    | call o' k' => exact h.elim
  | call o k ih =>
    cases p' with
    | done r' => exact h.elim
    | call o' k' =>
      intro ch hc
      obtain ⟨r, s₁, r', s₁', hx, hx', hk⟩ := h ch hc
      exact ⟨r, s₁, r', s₁', hx, hx', ih r hk⟩

/-! ## Triples -/

/-- Two results are related, or are the same error. -/
inductive Same (V : α → α → Prop) : Except ε α → Except ε α → Prop where
  | ok {a a' : α} (h : V a a') : Same V (.ok a) (.ok a')
  | error (e : ε) : Same V (.error e) (.error e)

theorem Same.eq {r r' : Except ε α} (h : Same Eq r r') : r = r' := by
  cases h with
  | ok h => rw [h]
  | error e => rfl

variable (exec C)

def Alike (L : σ → σ → Prop) (V : α → α → Prop) (M : σ → σ → Prop) (p p' : Prog Resp ε α) : Prop :=
  ∀ s s', L s s' → Lockstep exec C (fun r s r' s' => Same V r r' ∧ M s s') p s p' s'

variable {exec C} {L M N : σ → σ → Prop} {V : α → α → Prop}

theorem alike_pure {a a' : α} (h : V a a') :
    Alike exec C L V L (pure a : Prog Resp ε α) (pure a') :=
  fun _ _ hl => ⟨.ok h, hl⟩

theorem alike_throw (e : ε) : Alike exec C L V L (throw e : Prog Resp ε α) (throw e) :=
  fun _ _ hl => ⟨.error e, hl⟩

theorem Alike.imp (h : Alike exec C L V M p p') {V' : α → α → Prop} (hV : ∀ a a', V a a' → V' a a')
    (hM : ∀ s s', M s s' → N s s') : Alike exec C L V' N p p' := by
  refine fun s s' hl => (h s s' hl).imp fun r s r' s' hq => ⟨?_, hM _ _ hq.2⟩
  cases hq.1 with
  | ok hv => exact .ok (hV _ _ hv)
  | error e => exact .error e

theorem Alike.of_pre {L' : σ → σ → Prop} (h : Alike exec C L V M p p')
    (hL : ∀ s s', L' s s' → L s s') : Alike exec C L' V M p p' :=
  fun s s' hl => h s s' (hL s s' hl)

/-- One operation each. -/
theorem alike_op {o : Op} {V : Resp o → Resp o → Prop}
    (h : ∀ ch, C ch → ∀ s s', L s s' → ∃ r s₁ r' s₁', exec ch o s = some (r, s₁) ∧
      exec ch o s' = some (r', s₁') ∧ Same V r r' ∧ M s₁ s₁') :
    Alike exec C L V M (op o) (op o) := by
  intro s s' hl ch hc
  obtain ⟨r, s₁, r', s₁', hx, hx', hv, hm⟩ := h ch hc s s' hl
  exact ⟨r, s₁, r', s₁', hx, hx', hv, hm⟩

/-- Two operations that need not be the same. -/
theorem alike_call {o o' : Op} {k : Except ε (Resp o) → Prog Resp ε α}
    {k' : Except ε (Resp o') → Prog Resp ε α}
    (h : ∀ ch, C ch → ∀ s s', L s s' → ∃ r s₁ r' s₁', exec ch o s = some (r, s₁) ∧
      exec ch o' s' = some (r', s₁') ∧ M s₁ s₁' ∧ Alike exec C M V N (k r) (k' r')) :
    Alike exec C L V N (.call o k) (.call o' k') := by
  intro s s' hl ch hc
  obtain ⟨r, s₁, r', s₁', hx, hx', hm, hk⟩ := h ch hc s s' hl
  exact ⟨r, s₁, r', s₁', hx, hx', hk _ _ hm⟩

/-- One after the other.  The relation `M` in between also covers an early end. -/
theorem Alike.bind {W : β → β → Prop} {f f' : α → Prog Resp ε β} (h : Alike exec C L V M p p')
    (hM : ∀ s s', M s s' → N s s')
    (hf : ∀ a a', V a a' → Alike exec C M W N (f a) (f' a')) :
    Alike exec C L W N (p >>= f) (p' >>= f') := by
  intro s s' hl
  have hp := h s s' hl
  clear h hl
  induction p generalizing p' s s' with
  | done r =>
    cases p' with
    | done r' =>
      obtain ⟨hr, hm⟩ := hp
      cases hr with
      | ok hv => exact hf _ _ hv _ _ hm
      | error e => exact ⟨.error e, hM _ _ hm⟩
    | call o' k' => exact hp.elim
  | call o k ih =>
    cases p' with
    | done r' => exact hp.elim
    | call o' k' =>
      intro ch hc
      obtain ⟨r, s₁, r', s₁', hx, hx', hk⟩ := hp ch hc
      exact ⟨r, s₁, r', s₁', hx, hx', ih r _ _ hk⟩

theorem Alike.tryCatch {g g' : ε → Prog Resp ε α} (h : Alike exec C L V M p p')
    (hM : ∀ s s', M s s' → N s s') (hg : ∀ e, Alike exec C M V N (g e) (g' e)) :
    Alike exec C L V N (MonadExcept.tryCatch p g) (MonadExcept.tryCatch p' g') := by
  intro s s' hl
  have hp := h s s' hl
  clear h hl
  induction p generalizing p' s s' with
  | done r =>
    cases p' with
    | done r' =>
      obtain ⟨hr, hm⟩ := hp
      cases hr with
      | ok hv => exact ⟨.ok hv, hM _ _ hm⟩
      | error e => exact hg e _ _ hm
    | call o' k' => exact hp.elim
  | call o k ih =>
    cases p' with
    | done r' => exact hp.elim
    | call o' k' =>
      intro ch hc
      obtain ⟨r, s₁, r', s₁', hx, hx', hk⟩ := hp ch hc
      exact ⟨r, s₁, r', s₁', hx, hx', ih r _ _ hk⟩

/-! ## One run -/

/-- What follows an operation, by its response. -/
def Follow (exec : χ → (o : Op) → σ → Option (Except ε (Resp o) × σ)) (f : α → Prog Resp ε β)
    (c : Nat → χ) (v : Except ε β) (s' : σ) : Except ε α → σ → Prop
  | .ok a, s => (f a).alone exec c s = some (v, s')
  | .error e, s => v = .error e ∧ s' = s

/-- One operation, and what follows it, in a run that has ended. -/
theorem alone_op_bind {o : Op} {f : Resp o → Prog Resp ε β} {c : Nat → χ} {v : Except ε β}
    (h : (op o >>= f).alone exec c s = some (v, s')) :
    ∃ r s₁, exec (c 0) o s = some (r, s₁) ∧ Follow exec f (fun n => c (n + 1)) v s' r s₁ := by
  obtain ⟨⟨r, s₁⟩, hx, hk⟩ := Option.bind_eq_some_iff.mp h
  refine ⟨r, s₁, hx, ?_⟩
  cases r with
  | ok a => exact hk
  | error e =>
    cases hk
    exact ⟨rfl, rfl⟩

theorem pure_bind_eq (a : α) (f : α → Prog Resp ε β) : (pure a : Prog Resp ε α) >>= f = f a := rfl

theorem op_bind_bind {γ : Type} (o : Op) (f : Resp o → Prog Resp ε β) (g : β → Prog Resp ε γ) :
    (op o >>= f) >>= g = op o >>= fun a => f a >>= g := by
  show Prog.call o _ = Prog.call o _
  congr 1
  funext r
  cases r <;> rfl

/-- A run whose operations all keep `K` keeps it. -/
theorem keeps_of_uses {A : Op → Prop} {K : σ → Prop}
    (hstep : ∀ ch o s r s', A o → exec ch o s = some (r, s') → K s → K s') {c : Nat → χ}
    {v : Except ε α} (hp : p.Uses A) (h : p.alone exec c s = some (v, s')) (hk : K s) : K s' := by
  induction p generalizing s c with
  | done r =>
    cases h
    exact hk
  | call o k ih =>
    obtain ⟨⟨r, s₁⟩, hx, hrest⟩ := Option.bind_eq_some_iff.mp h
    exact ih r (hp.2 r) hrest (hstep _ _ _ _ _ hp.1 hx hk)

variable (exec C)

/-- Whatever choices of `C` the environment makes, no operation has to wait, and `Q` describes
the end. -/
def Completes (Q : Except ε α → σ → Prop) : Prog Resp ε α → σ → Prop
  | done r, s => Q r s
  | call o k, s => ∀ ch, C ch → ∃ r s', exec ch o s = some (r, s') ∧ Completes Q (k r) s'

variable {exec C} {R R' : Except ε α → σ → Prop}

theorem Completes.alone (h : Completes exec C R p s) {c : Nat → χ} (hc : ∀ n, C (c n)) :
    ∃ r s', p.alone exec c s = some (r, s') ∧ R r s' := by
  induction p generalizing s c with
  | done r => exact ⟨r, s, rfl, h⟩
  | call o k ih =>
    obtain ⟨r, s₁, hx, hk⟩ := h (c 0) (hc 0)
    obtain ⟨v, s₂, hr, hq⟩ := ih r hk fun n => hc (n + 1)
    refine ⟨v, s₂, ?_, hq⟩
    simp only [Prog.alone, hx, Option.bind_some, hr]

theorem Completes.imp (h : Completes exec C R p s) (hR : ∀ r s, R r s → R' r s) :
    Completes exec C R' p s := by
  induction p generalizing s with
  | done r => exact hR r s h
  | call o k ih =>
    intro ch hc
    obtain ⟨r, s₁, hx, hk⟩ := h ch hc
    exact ⟨r, s₁, hx, ih r hk⟩

/-- What follows a program, by how the program ends. -/
def Thereafter (exec : χ → (o : Op) → σ → Option (Except ε (Resp o) × σ)) (C : χ → Prop)
    (R : Except ε β → σ → Prop) (f : α → Prog Resp ε β) : Except ε α → σ → Prop
  | .ok a, s => Completes exec C R (f a) s
  | .error e, s => R (.error e) s

theorem Completes.bind {R : Except ε β → σ → Prop} {f : α → Prog Resp ε β}
    (h : Completes exec C (Thereafter exec C R f) p s) : Completes exec C R (p >>= f) s := by
  induction p generalizing s with
  | done r =>
    cases r with
    | ok a => exact h
    | error e => exact h
  | call o k ih =>
    intro ch hc
    obtain ⟨r, s₁, hx, hk⟩ := h ch hc
    exact ⟨r, s₁, hx, ih r hk⟩

/-- What follows a program under a handler. -/
def Handled (exec : χ → (o : Op) → σ → Option (Except ε (Resp o) × σ)) (C : χ → Prop)
    (R : Except ε α → σ → Prop) (g : ε → Prog Resp ε α) : Except ε α → σ → Prop
  | .ok a, s => R (.ok a) s
  | .error e, s => Completes exec C R (g e) s

theorem Completes.tryCatch {g : ε → Prog Resp ε α}
    (h : Completes exec C (Handled exec C R g) p s) :
    Completes exec C R (MonadExcept.tryCatch p g) s := by
  induction p generalizing s with
  | done r =>
    cases r with
    | ok a => exact h
    | error e => exact h
  | call o k ih =>
    intro ch hc
    obtain ⟨r, s₁, hx, hk⟩ := h ch hc
    exact ⟨r, s₁, hx, ih r hk⟩

/-- One operation, and what follows it. -/
theorem Completes.op_bind {o : Op} {R : Except ε β → σ → Prop} {f : Resp o → Prog Resp ε β}
    (h : ∀ ch, C ch → ∃ r s', exec ch o s = some (r, s') ∧ Thereafter exec C R f r s') :
    Completes exec C R (op o >>= f) s := Completes.bind h

end Prog

/-! ## In a pool -/

namespace Machine

variable {M : Machine σ κ χ Resp ε α} {P : Policy σ κ χ Resp ε α} {w₀ w : World σ κ Resp ε α}

/-- The scheduler picks one thread until that has finished. -/
theorem Reaches.alone {t : Nat} {c : κ} (hP : ∀ ch o s, P.op ⟨t, c⟩ ch o s = true)
    {p : Prog Resp ε α} {ch : Nat → χ} {r : Except ε α} {s : σ} (hr : M.Reaches P w₀ w)
    (ht : w.threads[t]? = some (.running c p)) (hx : p.alone (M.exec t) ch w.shared = some (r, s)) :
    M.Reaches P w₀ { shared := s, threads := w.threads.set t (.running c (.done r)) } := by
  induction p generalizing w ch with
  | done r' =>
    cases hx
    rw [World.set_of_getElem? ht]
    exact hr
  | call o k ih =>
    obtain ⟨⟨r', s'⟩, ho, hk⟩ := Option.bind_eq_some_iff.mp hx
    have hlt := (List.getElem?_eq_some_iff.mp ht).1
    have hnext := ih r' (hr.step ht (hP _ _ _) ho) (List.getElem?_set_self hlt) hk
    rw [List.set_set] at hnext
    exact hnext

end Machine

end Concurrency
