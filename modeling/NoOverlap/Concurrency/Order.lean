import NoOverlap.Concurrency.Footprint

/-!
# What a program does after what

Two facts about the order of a program's operations, on every path.  `p.After A B`
says that once `p` has issued an operation of `A` it issues only operations of `B`.
`p.Earned gives needs known` says that an operation needs no more than what is known
at the start and what earlier answers have given.

Both are kept by a step of the program, so in a pool they hold of what remains of a
thread.
-/

namespace Concurrency

namespace Prog

variable {Op : Type} {Resp : Op → Type} {ε α β : Type}

section After

variable {A B : Op → Prop}

def After (A B : Op → Prop) : Prog Resp ε α → Prop
  | done _ => True
  | call o k => ∀ r, (A o → (k r).Uses B) ∧ (k r).After A B

theorem After.of_uses {p : Prog Resp ε α} (h : p.Uses B) : p.After A B := by
  induction p with
  | done r => trivial
  | call o k ih => exact fun r => ⟨fun _ => h.2 r, ih r (h.2 r)⟩

theorem After.of_unused {p : Prog Resp ε α} (h : p.Uses fun o => ¬A o) : p.After A B := by
  induction p with
  | done r => trivial
  | call o k ih => exact fun r => ⟨fun ho => (h.1 ho).elim, ih r (h.2 r)⟩

/-- Nothing of `A` before the second program starts. -/
theorem After.bind_of_unused {p : Prog Resp ε α} {f : α → Prog Resp ε β}
    (hp : p.Uses fun o => ¬A o) (hf : ∀ a, (f a).After A B) : (p >>= f).After A B := by
  induction p with
  | done r =>
    cases r with
    | ok a => exact hf a
    | error e => trivial
  | call o k ih => exact fun r => ⟨fun ho => (hp.1 ho).elim, ih r (hp.2 r)⟩

/-- Nothing but `B` once the second program has started. -/
theorem After.bind {p : Prog Resp ε α} {f : α → Prog Resp ε β} (hp : p.After A B)
    (hf : ∀ a, (f a).Uses B) : (p >>= f).After A B := by
  induction p with
  | done r =>
    cases r with
    | ok a => exact .of_uses (hf a)
    | error e => trivial
  | call o k ih => exact fun r => ⟨fun ho => Uses.bind ((hp r).1 ho) hf, ih r (hp r).2⟩

end After

section Earned

variable {F : Type} {gives : (o : Op) → Except ε (Resp o) → F → Prop} {needs : Op → F → Prop}
  {known known' : F → Prop}

def Earned (gives : (o : Op) → Except ε (Resp o) → F → Prop) (needs : Op → F → Prop) :
    (F → Prop) → Prog Resp ε α → Prop
  | _, done _ => True
  | known, call o k => (∀ f, needs o f → known f) ∧
      ∀ r, (k r).Earned gives needs fun f => known f ∨ gives o r f

theorem Earned.mono {p : Prog Resp ε α} (h : p.Earned gives needs known)
    (hk : ∀ f, known f → known' f) : p.Earned gives needs known' := by
  induction p generalizing known known' with
  | done r => trivial
  | call o k ih =>
    refine ⟨fun f hf => hk f (h.1 f hf), fun r => ih r (h.2 r) fun f hf => ?_⟩
    rcases hf with hf | hf
    · exact .inl (hk f hf)
    · exact .inr hf

theorem Earned.of_uses {p : Prog Resp ε α} (h : p.Uses fun o => ∀ f, ¬needs o f) :
    p.Earned gives needs known := by
  induction p generalizing known with
  | done r => trivial
  | call o k ih => exact ⟨fun f hf => (h.1 f hf).elim, fun r => ih r (h.2 r)⟩

theorem Earned.bind {p : Prog Resp ε α} {f : α → Prog Resp ε β} (hp : p.Earned gives needs known)
    (hf : ∀ a, (f a).Earned gives needs known) : (p >>= f).Earned gives needs known := by
  induction p generalizing known with
  | done r =>
    cases r with
    | ok a => exact hf a
    | error e => trivial
  | call o k ih =>
    exact ⟨hp.1, fun r => ih r (hp.2 r) fun a => (hf a).mono fun _ => .inl⟩

theorem Earned.tryCatch {p : Prog Resp ε α} {h : ε → Prog Resp ε α}
    (hp : p.Earned gives needs known) (hh : ∀ e, (h e).Earned gives needs known) :
    (tryCatch p h).Earned gives needs known := by
  induction p generalizing known with
  | done r =>
    cases r with
    | ok a => trivial
    | error e => exact hh e
  | call o k ih =>
    exact ⟨hp.1, fun r => ih r (hp.2 r) fun e => (hh e).mono fun _ => .inl⟩

theorem earned_forM {f : β → Prog Resp ε PUnit} {l : List β}
    (hf : ∀ b, (f b).Earned gives needs known) : (l.forM f).Earned gives needs known := by
  induction l with
  | nil => trivial
  | cons b l ih => exact Earned.bind (hf b) fun _ => ih

end Earned

end Prog

end Concurrency
