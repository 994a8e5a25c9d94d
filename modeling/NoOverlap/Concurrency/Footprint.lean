import NoOverlap.Concurrency.Machine

/-!
# Footprints

The operations a program can issue, whatever the responses: `p.Uses A` says that
every operation of `p`, on every path, satisfies `A`.  It is a static fact about
a program, and in a pool it holds of what remains of a running thread.

`Reaches.inv` is the rule for invariants that need no more than that: if every
operation in the footprint of its call keeps `I`, every reachable world has `I`.
-/

namespace Concurrency

variable {Op : Type} {Resp : Op → Type} {ε α β κ σ χ : Type}

namespace Prog

def Uses (A : Op → Prop) : Prog Resp ε α → Prop
  | done _ => True
  | call o k => A o ∧ ∀ r, (k r).Uses A

variable {A B : Op → Prop}

theorem Uses.mono {p : Prog Resp ε α} (h : p.Uses A) (hAB : ∀ o, A o → B o) : p.Uses B := by
  induction p with
  | done r => trivial
  | call o k ih => exact ⟨hAB o h.1, fun r => ih r (h.2 r)⟩

theorem Uses.and {p : Prog Resp ε α} (h : p.Uses A) (h' : p.Uses B) :
    p.Uses fun o => A o ∧ B o := by
  induction p with
  | done r => trivial
  | call o k ih => exact ⟨⟨h.1, h'.1⟩, fun r => ih r (h.2 r) (h'.2 r)⟩

theorem uses_true (p : Prog Resp ε α) : p.Uses fun _ => True := by
  induction p with
  | done r => trivial
  | call o k ih => exact ⟨trivial, ih⟩

theorem uses_pure (a : α) : (pure a : Prog Resp ε α).Uses A := trivial

theorem uses_throw (e : ε) : (throw e : Prog Resp ε α).Uses A := trivial

theorem uses_op {o : Op} (h : A o) : (op o : Prog Resp ε (Resp o)).Uses A := ⟨h, fun _ => trivial⟩

theorem Uses.bind {p : Prog Resp ε α} {f : α → Prog Resp ε β} (hp : p.Uses A)
    (hf : ∀ a, (f a).Uses A) : (p >>= f).Uses A := by
  induction p with
  | done r =>
    cases r with
    | ok a => exact hf a
    | error e => trivial
  | call o k ih => exact ⟨hp.1, fun r => ih r (hp.2 r)⟩

theorem Uses.tryCatch {p : Prog Resp ε α} {h : ε → Prog Resp ε α} (hp : p.Uses A)
    (hh : ∀ e, (h e).Uses A) : (tryCatch p h).Uses A := by
  induction p with
  | done r =>
    cases r with
    | ok a => trivial
    | error e => exact hh e
  | call o k ih => exact ⟨hp.1, fun r => ih r (hp.2 r)⟩

/-- Every value the program can end with satisfies `R`. -/
def Returns (R : α → Prop) : Prog Resp ε α → Prop
  | done (.ok a) => R a
  | done (.error _) => True
  | call _ k => ∀ r, (k r).Returns R

theorem returns_pure {R : α → Prop} {a : α} (h : R a) :
    (pure a : Prog Resp ε α).Returns R := h

theorem returns_bind {R : β → Prop} {p : Prog Resp ε α} {f : α → Prog Resp ε β}
    (hf : ∀ a, (f a).Returns R) : (p >>= f).Returns R := by
  induction p with
  | done r =>
    cases r with
    | ok a => exact hf a
    | error e => trivial
  | call o k ih => exact fun r => ih r

theorem Returns.tryCatch {R : α → Prop} {p : Prog Resp ε α} {h : ε → Prog Resp ε α}
    (hp : p.Returns R) (hh : ∀ e, (h e).Returns R) : (tryCatch p h).Returns R := by
  induction p with
  | done r =>
    cases r with
    | ok a => exact hp
    | error e => exact hh e
  | call o k ih => exact fun r => ih r (hp r)

/-- What follows a program that ends with no value does not take place. -/
theorem Returns.bind_none {R : β → Prop} {p : Prog Resp ε α} {f : α → Prog Resp ε β}
    (hp : p.Returns fun _ => False) : (p >>= f).Returns R := by
  induction p with
  | done r =>
    cases r with
    | ok a => exact hp.elim
    | error e => trivial
  | call o k ih => exact fun r => ih r (hp r)

/-- The error of an operation is never caught: the program ends with no value then. -/
def Uncaught : Prog Resp ε α → Prop
  | done _ => True
  | call _ k => (∀ e, (k (.error e)).Returns fun _ => False) ∧ ∀ r, (k r).Uncaught

theorem uncaught_op (o : Op) : (op o : Prog Resp ε (Resp o)).Uncaught :=
  ⟨fun _ => trivial, fun _ => trivial⟩

theorem uncaught_ite {c : Prop} [Decidable c] {p q : Prog Resp ε α} (hp : p.Uncaught)
    (hq : q.Uncaught) : (if c then p else q).Uncaught := by
  split
  · exact hp
  · exact hq

theorem Uncaught.bind {p : Prog Resp ε α} {f : α → Prog Resp ε β} (hp : p.Uncaught)
    (hf : ∀ a, (f a).Uncaught) : (p >>= f).Uncaught := by
  induction p with
  | done r =>
    cases r with
    | ok a => exact hf a
    | error e => trivial
  | call o k ih => exact ⟨fun e => (hp.1 e).bind_none, fun r => ih r (hp.2 r)⟩

/-- The program ends with a value, unless one of its operations fails. -/
def Succeeds : Prog Resp ε α → Prop
  | done r => ∃ a, r = .ok a
  | call _ k => ∀ v, (k (.ok v)).Succeeds

theorem succeeds_pure (a : α) : (pure a : Prog Resp ε α).Succeeds := ⟨a, rfl⟩

theorem succeeds_op (o : Op) : (op o : Prog Resp ε (Resp o)).Succeeds := fun v => ⟨v, rfl⟩

theorem Succeeds.bind {p : Prog Resp ε α} {f : α → Prog Resp ε β} (hp : p.Succeeds)
    (hf : ∀ a, (f a).Succeeds) : (p >>= f).Succeeds := by
  induction p with
  | done r =>
    obtain ⟨a, rfl⟩ := hp
    exact hf a
  | call o k ih => exact fun v => ih _ (hp v)

/-- What follows a program only has to cope with the values it can end with. -/
theorem Uses.bind_of_returns {R : α → Prop} {p : Prog Resp ε α} {f : α → Prog Resp ε β}
    (hp : p.Uses A) (hr : p.Returns R) (hf : ∀ a, R a → (f a).Uses A) : (p >>= f).Uses A := by
  induction p with
  | done r =>
    cases r with
    | ok a => exact hf a hr
    | error e => trivial
  | call o k ih => exact ⟨hp.1, fun r => ih r (hp.2 r) (hr r)⟩

theorem uses_forM {f : β → Prog Resp ε PUnit} {l : List β} (hf : ∀ b, (f b).Uses A) :
    (l.forM f).Uses A := by
  induction l with
  | nil => trivial
  | cons b l ih => exact Uses.bind (hf b) fun _ => ih

theorem uses_ite {c : Prop} [Decidable c] {p q : Prog Resp ε α} (hp : c → p.Uses A)
    (hq : ¬c → q.Uses A) : (if c then p else q).Uses A := by
  split
  · next h => exact hp h
  · next h => exact hq h

end Prog

namespace Machine

variable {M : Machine σ κ χ Resp ε α} {P : Policy σ κ χ Resp ε α} {A : κ → Op → Prop}
  {w₀ w : World σ κ Resp ε α} {s₀ : σ}

/-- What a program hands on to what remains of it holds of every running thread. -/
theorem Reaches.remains {H : κ → Prog Resp ε α → Prop} (hH : ∀ c, H c (M.program c))
    (hstep : ∀ c o k r, H c (.call o k) → H c (k r)) (h : M.Reaches P (World.start s₀) w) {t : Nat}
    {c : κ} {p : Prog Resp ε α} (ht : w.threads[t]? = some (.running c p)) : H c p := by
  induction h generalizing t c p with
  | refl => simp [World.start] at ht
  | tail e _ hn ih =>
    rcases (next_moves M P hn).running ht with rfl | ⟨u, o, k, r, hu, rfl⟩ | hold
    · exact hH c
    · exact hstep c o k r (ih hu)
    · exact ih hold

/-- What remains of a running thread stays within the footprint of its call. -/
theorem Reaches.uses (hA : ∀ c, (M.program c).Uses (A c))
    (h : M.Reaches P (World.start s₀) w) {t : Nat} {c : κ} {p : Prog Resp ε α}
    (ht : w.threads[t]? = some (.running c p)) : p.Uses (A c) :=
  h.remains (H := fun c p => p.Uses (A c)) hA (fun _ _ _ r hp => hp.2 r) ht

/-- A thread answers with one of the values its program could end with. -/
theorem Reaches.returns {R : α → Prop} {w' : World σ κ Resp ε α} (h : M.Reaches P w w') {t : Nat}
    {c c' : κ} {p : Prog Resp ε α} (ht : w.threads[t]? = some (.running c p)) (hp : p.Returns R)
    {v : α} (ht' : w'.threads[t]? = some (.returned c' (.ok v))) : R v := by
  -- What is left of the program returns such a value, and so does what is done.
  have hlater : ∀ th, w'.threads[t]? = some th → (∀ c p, th = .running c p → p.Returns R) ∧
      ∀ c r, th = .returned c r → (Prog.done r : Prog Resp ε α).Returns R := by
    clear ht'
    induction h with
    | refl =>
      intro th hth
      cases ht.symm.trans hth
      exact ⟨fun _ _ he => by cases he; exact hp, fun _ _ he => (nomatch he)⟩
    | @tail w₁ w₂ e h hn ih =>
      have hlt := Nat.lt_of_lt_of_le (List.getElem?_eq_some_iff.mp ht).1 h.length_le
      intro th hth
      cases next_moves M P hn with
      | spawn =>
        rw [List.getElem?_append_left hlt] at hth
        exact ih th hth
      | @step u ch c o k r s hu _ _ =>
        rcases getElem?_of_set hth with ⟨rfl, rfl⟩ | ⟨-, hold⟩
        · have hcall := (ih _ hu).1 c _ rfl
          exact ⟨fun _ _ he => by cases he; exact hcall r, fun _ _ he => (nomatch he)⟩
        · exact ih th hold
      | ret hu =>
        rcases getElem?_of_set hth with ⟨rfl, rfl⟩ | ⟨-, hold⟩
        · have hdone := (ih _ hu).1 _ _ rfl
          exact ⟨fun _ _ he => (nomatch he), fun _ _ he => by cases he; exact hdone⟩
        · exact ih th hold
      | kill hu =>
        rcases getElem?_of_set hth with ⟨rfl, rfl⟩ | ⟨-, hold⟩
        · exact ⟨fun _ _ he => (nomatch he), fun _ _ he => (nomatch he)⟩
        · exact ih th hold
  exact (hlater _ ht').2 _ _ rfl

/-- Where nothing may be killed, nothing has been. -/
theorem Reaches.not_killed (hk : ∀ a p s, P.kill a p s = false)
    (h : M.Reaches P (World.start s₀) w) {t : Nat} {c : κ} :
    w.threads[t]? ≠ some (.killed c) := by
  intro ht
  induction h with
  | refl => simp [World.start] at ht
  | tail e _ hn ih =>
    rcases (next_moves M P hn).killed ht with ⟨a, p, hp⟩ | hold
    · rw [hk] at hp
      cases hp
    · exact ih hold

/-- The operation a thread is about to issue lies in the footprint of its call. -/
theorem Reaches.uses_head (hA : ∀ c, (M.program c).Uses (A c))
    (h : M.Reaches P (World.start s₀) w) {t : Nat} {c : κ} {o : Op}
    {k : Except ε (Resp o) → Prog Resp ε α}
    (ht : w.threads[t]? = some (.running c (.call o k))) : A c o := (h.uses hA ht).1

/-- Invariants that every operation of every footprint keeps. -/
theorem Reaches.inv {I : σ → Prop} (hA : ∀ c, (M.program c).Uses (A c)) (h₀ : I s₀)
    (hspawn : ∀ c s s', I s → M.spawned c s = some s' → I s')
    (hop : ∀ t c ch o s r s', A c o → P.op ⟨t, c⟩ ch o s = true → I s →
      M.exec t ch o s = some (r, s') → I s')
    (hret : ∀ t c r s, I s → I (M.returned t c r s))
    (hkill : ∀ t c s, I s → I (M.killed t c s))
    (h : M.Reaches P (World.start s₀) w) : I w.shared := by
  induction h with
  | refl => exact h₀
  | tail e hr hn ih =>
    cases next_moves M P hn with
    | spawn hp hs => exact hspawn _ _ _ ih hs
    | step ht hp hx => exact hop _ _ _ _ _ _ _ (hr.uses_head hA ht) hp ih hx
    | ret ht => exact hret _ _ _ _ ih
    | kill ht hp => exact hkill _ _ _ ih

end Machine

end Concurrency
