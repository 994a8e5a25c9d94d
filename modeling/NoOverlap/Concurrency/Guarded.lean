import NoOverlap.Concurrency.Footprint

/-!
# A service behind a guard

Two services, each with a state of its own, under one scheduler.  A call of the front asks
the first service, and what that answers decides which call of the second is served, if
any.  Work that nobody has to ask for goes to the second service directly.

`Plain.split` takes a run of the front apart into a run of either service, in which the
threads have the numbers they have in the front.  So what is proved about a service on its
own holds of it behind the front.

Which call of the second service a thread comes to is not known before the first one has
answered, and a thread has one call all its life.  The induction therefore ranges over every
guess that the answers so far bear out, and what is guessed for a thread that is still
asking is never run.
-/

namespace Concurrency

variable {Op₁ Op₂ : Type} {Resp₁ : Op₁ → Type} {Resp₂ : Op₂ → Type}
  {ε α α₁ α₂ κ κ₁ κ₂ σ₁ σ₂ χ₁ χ₂ : Type}

/-- The answers to the operations of two services. -/
@[reducible] def Either (Resp₁ : Op₁ → Type) (Resp₂ : Op₂ → Type) : Op₁ ⊕ Op₂ → Type
  | .inl o => Resp₁ o
  | .inr o => Resp₂ o

namespace Prog

/-- A program of the first service. -/
def first : Prog Resp₁ ε α → Prog (Either Resp₁ Resp₂) ε α
  | done r => done r
  | call o k => call (.inl o) fun r => (k r).first

/-- A program of the second service. -/
def second : Prog Resp₂ ε α → Prog (Either Resp₁ Resp₂) ε α
  | done r => done r
  | call o k => call (.inr o) fun r => (k r).second

theorem Uses.first {A : Op₁ ⊕ Op₂ → Prop} {p : Prog Resp₁ ε α} (h : p.Uses fun o => A (.inl o)) :
    (p.first : Prog (Either Resp₁ Resp₂) ε α).Uses A := by
  induction p with
  | done r => trivial
  | call o k ih => exact ⟨h.1, fun r => ih r (h.2 r)⟩

theorem Uses.second {A : Op₁ ⊕ Op₂ → Prop} {p : Prog Resp₂ ε α} (h : p.Uses fun o => A (.inr o)) :
    (p.second : Prog (Either Resp₁ Resp₂) ε α).Uses A := by
  induction p with
  | done r => trivial
  | call o k ih => exact ⟨h.1, fun r => ih r (h.2 r)⟩

end Prog

namespace Machine

variable {Op : Type} {Resp : Op → Type} {σ χ : Type} {M : Machine σ κ χ Resp ε α}
  {P : Policy σ κ χ Resp ε α} {w₀ w : World σ κ Resp ε α} {t : Nat} {c : κ}

/-- Invariants that the operations keep which the calls of this run can issue. -/
theorem Reaches.inv_of_calls {R : κ → Prop} {A : Op → Prop} {I : σ → Prop} {s₀ : σ}
    (hA : ∀ c, R c → (M.program c).Uses A) (h₀ : I s₀)
    (hspawn : ∀ c s s', I s → M.spawned c s = some s' → I s')
    (hop : ∀ t ch o s r s', A o → I s → M.exec t ch o s = some (r, s') → I s')
    (hret : ∀ t c r s, I s → I (M.returned t c r s))
    (hkill : ∀ t c s, I s → I (M.killed t c s)) (h : M.Reaches P (World.start s₀) w)
    (hR : ∀ (t : Nat) th, w.threads[t]? = some th → R th.call) : I w.shared := by
  induction h with
  | refl => exact h₀
  | @tail w w' e hr hn ih =>
    have hm := next_moves M P hn
    have hcalls : ∀ (t : Nat) th, w.threads[t]? = some th → R th.call := by
      intro t th ht
      obtain ⟨th', ht', hc⟩ := hm.call_eq ht
      exact hc ▸ hR t th' ht'
    have hi := ih hcalls
    cases hm with
    | spawn hp hs => exact hspawn _ _ _ hi hs
    | @step t ch c o k r s ht hp hx =>
      -- What a thread has yet to do, it does for the call it has.
      have huses : (Prog.call o k).Uses fun o => R c → A o :=
        hr.uses (A := fun c o => R c → A o)
          (fun c => by
            by_cases hc : R c
            · exact (hA c hc).mono fun _ ho _ => ho
            · exact (Prog.uses_true _).mono fun _ _ h => (hc h).elim) ht
      exact hop _ _ _ _ _ _ (huses.1 (hcalls t _ ht)) hi hx
    | ret ht => exact hret _ _ _ _ hi
    | kill ht hp => exact hkill _ _ _ hi

end Machine

/-- How a call of the front is served. -/
inductive Served (ε κ₁ κ₂ α₁ : Type) where
  /-- The first service is asked, and `next` is what its answer leads to: an error, that same
  answer, or a call of the second service. -/
  | asked (g : κ₁) (next : α₁ → Except ε (Option κ₂))
  | direct (c : κ₂)
  /-- Nobody is asked. -/
  | refused (e : ε)

structure Guarded (κ : Type) {Op₁ Op₂ : Type} (Resp₁ : Op₁ → Type) (Resp₂ : Op₂ → Type)
    (ε α₁ α₂ κ₁ κ₂ σ₁ σ₂ χ₁ χ₂ : Type) where
  guard : Machine σ₁ κ₁ χ₁ Resp₁ ε α₁
  inner : Machine σ₂ κ₂ χ₂ Resp₂ ε α₂
  served : κ → Served ε κ₁ κ₂ α₁
  /-- What the second service does about a thread that is lost. -/
  killed : Nat → σ₂ → σ₂

namespace Guarded

variable (G : Guarded κ Resp₁ Resp₂ ε α₁ α₂ κ₁ κ₂ σ₁ σ₂ χ₁ χ₂)

/-- What remains of a call of the second service. -/
def serve (p : Prog Resp₂ ε α₂) : Prog (Either Resp₁ Resp₂) ε (α₁ ⊕ α₂) :=
  p.second >>= fun b => pure (.inr b)

/-- What the answer of the first service leads to. -/
def go (next : α₁ → Except ε (Option κ₂)) (a : α₁) : Prog (Either Resp₁ Resp₂) ε (α₁ ⊕ α₂) :=
  match next a with
  | .error e => throw e
  | .ok none => pure (.inl a)
  | .ok (some c) => serve (G.inner.program c)

def program (q : κ) : Prog (Either Resp₁ Resp₂) ε (α₁ ⊕ α₂) :=
  match G.served q with
  | .asked g next => (G.guard.program g).first >>= G.go next
  | .direct c => serve (G.inner.program c)
  | .refused e => throw e

/-- The answer to a call that was served directly. -/
def toInner : Except ε (α₁ ⊕ α₂) → Option (Except ε α₂)
  | .ok (.inl _) => none
  | .ok (.inr b) => some (.ok b)
  | .error e => some (.error e)

def spawned (q : κ) (s : σ₁ × σ₂) : Option (σ₁ × σ₂) :=
  match G.served q with
  | .direct c => (G.inner.spawned c s.2).map fun s₂ => (s.1, s₂)
  | _ => some s

def returned (t : Nat) (q : κ) (r : Except ε (α₁ ⊕ α₂)) (s : σ₁ × σ₂) : σ₁ × σ₂ :=
  match G.served q, toInner r with
  | .direct c, some r => (s.1, G.inner.returned t c r s.2)
  | _, _ => s

def exec (t : Nat) (ch : χ₁ × χ₂) : (o : Op₁ ⊕ Op₂) → σ₁ × σ₂ →
    Option (Except ε (Either Resp₁ Resp₂ o) × (σ₁ × σ₂))
  | .inl o, s => (G.guard.exec t ch.1 o s.1).map fun x => (x.1, (x.2, s.2))
  | .inr o, s => (G.inner.exec t ch.2 o s.2).map fun x => (x.1, (s.1, x.2))

/-- The two services behind the front. -/
def machine : Machine (σ₁ × σ₂) κ (χ₁ × χ₂) (Either Resp₁ Resp₂) ε (α₁ ⊕ α₂) :=
  { program := G.program
    exec := G.exec
    spawned := G.spawned
    returned := G.returned
    killed := fun t _ s => (s.1, G.killed t s.2) }

/-- A call of the second service that can start at any time and needs no bookkeeping. -/
structure Inert (P₂ : Policy σ₂ κ₂ χ₂ Resp₂ ε α₂) (c : κ₂) : Prop where
  spawn : ∀ s, P₂.spawn c s = true
  spawned : ∀ s, G.inner.spawned c s = some s
  returned : ∀ t r s, G.inner.returned t c r s = s

/-- A front that adds nothing to the services but its own order.  `P₁` and `P₂` are what a
scheduler may do to either.  `idle` stands in for what the first service is not asked, and
`waiting` for what the second one is not. -/
structure Plain (P : Policy (σ₁ × σ₂) κ (χ₁ × χ₂) (Either Resp₁ Resp₂) ε (α₁ ⊕ α₂))
    (P₁ : Policy σ₁ κ₁ χ₁ Resp₁ ε α₁) (P₂ : Policy σ₂ κ₂ χ₂ Resp₂ ε α₂) (idle : κ₁) (waiting : κ₂) :
    Prop where
  spawned : ∀ g s, G.guard.spawned g s = some s
  returned : ∀ t g r s, G.guard.returned t g r s = s
  killed : ∀ t c s, G.inner.killed t c s = G.killed t s
  inert : ∀ q g next a c, G.served q = .asked g next → next a = .ok (some c) → G.Inert P₂ c
  idle_spawn : ∀ s, P₁.spawn idle s = true
  waiting_inert : G.Inert P₂ waiting
  asked_spawn : ∀ q g next s, G.served q = .asked g next → P.spawn q s = true →
    P₁.spawn g s.1 = true
  direct_spawn : ∀ q c s, G.served q = .direct c → P.spawn q s = true → P₂.spawn c s.2 = true
  asked_op : ∀ t q g next ch o s, G.served q = .asked g next → P.op ⟨t, q⟩ ch (.inl o) s = true →
    P₁.op ⟨t, g⟩ ch.1 o s.1 = true
  inner_op : ∀ t q c ch o s, P.op ⟨t, q⟩ ch (.inr o) s = true → P₂.op ⟨t, c⟩ ch.2 o s.2 = true
  inner_kill : ∀ a p s, P₂.kill a p s = true

/-! ## A thread of the front as two threads -/

/-- How far a thread of the front has come. -/
inductive Phase (κ₂ : Type) where
  | asking
  /-- The first service has let it through to a call of the second. -/
  | through (c : κ₂)
  | direct

/-- The call that a thread which has asked is let through to. -/
def settled (next : α₁ → Except ε (Option κ₂)) : Prog Resp₁ ε α₁ → Option κ₂
  | .done (.ok a) =>
    match next a with
    | .ok c => c
    | .error _ => none
  | _ => none

/-- The answer of a thread that is not let through. -/
def concluded (next : α₁ → Except ε (Option κ₂)) (r : Except ε α₁) : Except ε (α₁ ⊕ α₂) :=
  r >>= fun a => (next a).map fun _ => .inl a

/-- The thread of the first service, once the second one serves the call `c`. -/
inductive Admits (idle : κ₁) (q : κ) (c : κ₂) : Phase κ₂ → Thread κ₁ Resp₁ ε α₁ → Prop where
  | asked {g : κ₁} {next : α₁ → Except ε (Option κ₂)} {a : α₁} (h : G.served q = .asked g next)
      (ha : next a = .ok (some c)) : Admits idle q c (.through c) (.running g (.done (.ok a)))
  | direct (h : G.served q = .direct c) :
      Admits idle q c .direct (.running idle (G.guard.program idle))

/-- A thread of the front beside the threads of the two services it stands for. -/
inductive Splits (idle : κ₁) (guess : κ₂) : Phase κ₂ →
    Thread κ (Either Resp₁ Resp₂) ε (α₁ ⊕ α₂) → Thread κ₁ Resp₁ ε α₁ → Thread κ₂ Resp₂ ε α₂ →
    Prop where
  | asking {q : κ} {g : κ₁} {next : α₁ → Except ε (Option κ₂)} (h : G.served q = .asked g next)
      {p : Prog Resp₁ ε α₁} (hp : settled next p = none) :
      Splits idle guess .asking (.running q (p.first >>= G.go next)) (.running g p)
        (.running guess (G.inner.program guess))
  | answered {q : κ} {g : κ₁} {next : α₁ → Except ε (Option κ₂)} (h : G.served q = .asked g next)
      (r : Except ε α₁) (hr : settled next (.done r : Prog Resp₁ ε α₁) = none) :
      Splits idle guess .asking (.returned q (concluded next r)) (.returned g r)
        (.running guess (G.inner.program guess))
  | dropped {q : κ} {g : κ₁} {next : α₁ → Except ε (Option κ₂)} (h : G.served q = .asked g next)
      (p : Prog Resp₁ ε α₁) :
      Splits idle guess .asking (.killed q) (.running g p) (.killed guess)
  | refusing {q : κ} {e : ε} (h : G.served q = .refused e) :
      Splits idle guess .asking (.running q (.done (.error e)))
        (.running idle (G.guard.program idle)) (.running guess (G.inner.program guess))
  | refused {q : κ} {e : ε} (h : G.served q = .refused e) :
      Splits idle guess .asking (.returned q (.error e)) (.running idle (G.guard.program idle))
        (.running guess (G.inner.program guess))
  | turned {q : κ} {e : ε} (h : G.served q = .refused e) :
      Splits idle guess .asking (.killed q) (.running idle (G.guard.program idle)) (.killed guess)
  | serving {q : κ} {c : κ₂} {ph : Phase κ₂} {th : Thread κ₁ Resp₁ ε α₁}
      (h : G.Admits idle q c ph th) (p : Prog Resp₂ ε α₂) :
      Splits idle guess ph (.running q (serve p)) th (.running c p)
  | served {q : κ} {c : κ₂} {ph : Phase κ₂} {th : Thread κ₁ Resp₁ ε α₁}
      (h : G.Admits idle q c ph th) (r : Except ε α₂) :
      Splits idle guess ph (.returned q (r.map .inr)) th (.returned c r)
  | lost {q : κ} {c : κ₂} {ph : Phase κ₂} {th : Thread κ₁ Resp₁ ε α₁}
      (h : G.Admits idle q c ph th) : Splits idle guess ph (.killed q) th (.killed c)

variable {G} {idle : κ₁} {guess : κ₂} {ph : Phase κ₂} {q : κ} {th₁ : Thread κ₁ Resp₁ ε α₁}
  {th₂ : Thread κ₂ Resp₂ ε α₂}

/-- An answer that does not let a thread through is the end of it. -/
theorem go_of_settled {next : α₁ → Except ε (Option κ₂)} {a : α₁}
    (h : settled next (.done (.ok a) : Prog Resp₁ ε α₁) = none) :
    G.go next a = .done (concluded next (.ok a)) := by
  cases hnext : next a with
  | error e =>
    have hconcluded : (concluded next (.ok a) : Except ε (α₁ ⊕ α₂)) = .error e := by
      change (next a).map _ = _
      rw [hnext]
      rfl
    rw [hconcluded, go, hnext]
    rfl
  | ok c =>
    have hc : c = none := by simpa only [settled, hnext] using h
    subst hc
    have hconcluded : (concluded next (.ok a) : Except ε (α₁ ⊕ α₂)) = .ok (.inl a) := by
      change (next a).map _ = _
      rw [hnext]
      rfl
    rw [hconcluded, go, hnext]
    rfl

/-- A thread whose answer lets it through is served. -/
theorem splits_through (idle : κ₁) (guess : κ₂) {g : κ₁} {next : α₁ → Except ε (Option κ₂)}
    {p : Prog Resp₁ ε α₁} {c : κ₂} (h : G.served q = .asked g next) (hs : settled next p = some c) :
    ∃ a, next a = .ok (some c) ∧ G.Splits idle guess (.through c)
      (.running q (p.first >>= G.go next)) (.running g p) (.running c (G.inner.program c)) := by
  cases p with
  | call o k => cases hs
  | done r =>
    cases r with
    | error e => cases hs
    | ok a =>
      have ha : next a = .ok (some c) := by
        cases hnext : next a with
        | error e => simp only [settled, hnext, reduceCtorEq] at hs
        | ok c' => simp only [settled, hnext] at hs; rw [hs]
      have hgo : (Prog.done (.ok a) : Prog Resp₁ ε α₁).first >>= G.go next =
          serve (G.inner.program c) := by
        change G.go next a = _
        simp only [go, ha]
      rw [hgo]
      exact ⟨a, ha, .serving (.asked h ha) _⟩

/-- A thread that is about to issue an operation. -/
theorem Splits.step {o : Op₁ ⊕ Op₂}
    {k : Except ε (Either Resp₁ Resp₂ o) → Prog (Either Resp₁ Resp₂) ε (α₁ ⊕ α₂)}
    (h : G.Splits idle guess ph (.running q (.call o k)) th₁ th₂) :
    (∃ g next o₁ k₁, G.served q = .asked g next ∧ ph = .asking ∧ o = .inl o₁ ∧
      th₁ = .running g (.call o₁ k₁) ∧ th₂ = .running guess (G.inner.program guess) ∧
      HEq k fun r => (k₁ r).first >>= G.go next) ∨
    ∃ c o₂ k₂, G.Admits idle q c ph th₁ ∧ o = .inr o₂ ∧ th₂ = .running c (.call o₂ k₂) ∧
      HEq k fun r => (serve (k₂ r) : Prog (Either Resp₁ Resp₂) ε (α₁ ⊕ α₂)) := by
  generalize hth : Thread.running q (Prog.call o k) = th at h
  cases h with
  | @asking q' g next h p hp =>
    obtain ⟨rfl, hprog⟩ := Thread.running.inj hth
    cases p with
    | done r =>
      cases r with
      | error e => cases hprog
      | ok a =>
        have hgo : Prog.call o k = G.go next a := hprog
        rw [go_of_settled hp] at hgo
        cases hgo
    | call o₁ k₁ =>
      have hcall : Prog.call o k = .call (.inl o₁) fun r => (k₁ r).first >>= G.go next := hprog
      cases hcall
      exact .inl ⟨g, next, o₁, k₁, h, rfl, rfl, rfl, rfl, HEq.rfl⟩
  | answered => cases hth
  | dropped => cases hth
  | refusing h => cases hth
  | refused => cases hth
  | turned => cases hth
  | @serving q' c ph th h p =>
    obtain ⟨rfl, hprog⟩ := Thread.running.inj hth
    cases p with
    | done r =>
      cases r with
      | error e => cases hprog
      | ok b => cases hprog
    | call o₂ k₂ =>
      have hcall : Prog.call o k = .call (.inr o₂) fun r => serve (k₂ r) := hprog
      cases hcall
      exact .inr ⟨c, o₂, k₂, h, rfl, rfl, HEq.rfl⟩
  | served => cases hth
  | lost => cases hth

/-- A thread that has an answer to give. -/
theorem Splits.ret {r : Except ε (α₁ ⊕ α₂)}
    (h : G.Splits idle guess ph (.running q (.done r)) th₁ th₂) :
    (∃ g next r₁, G.served q = .asked g next ∧ ph = .asking ∧ r = concluded next r₁ ∧
      th₁ = .running g (.done r₁) ∧ th₂ = .running guess (G.inner.program guess) ∧
      settled next (.done r₁ : Prog Resp₁ ε α₁) = none) ∨
    (∃ e, G.served q = .refused e ∧ ph = .asking ∧ r = .error e ∧
      th₁ = .running idle (G.guard.program idle) ∧
      th₂ = .running guess (G.inner.program guess)) ∨
    ∃ c r₂, G.Admits idle q c ph th₁ ∧ r = r₂.map .inr ∧ th₂ = .running c (.done r₂) := by
  generalize hth : Thread.running q (Prog.done r) = th at h
  cases h with
  | @asking q' g next h p hp =>
    obtain ⟨rfl, hprog⟩ := Thread.running.inj hth
    cases p with
    | call o k => cases hprog
    | done r₁ =>
      refine .inl ⟨g, next, r₁, h, rfl, ?_, rfl, rfl, hp⟩
      cases r₁ with
      | error e =>
        cases hprog
        rfl
      | ok a =>
        have hgo : Prog.done r = G.go next a := hprog
        rw [go_of_settled hp] at hgo
        cases hgo
        rfl
  | answered => cases hth
  | dropped => cases hth
  | @refusing q' e h =>
    obtain ⟨rfl, hprog⟩ := Thread.running.inj hth
    cases hprog
    exact .inr (.inl ⟨e, h, rfl, rfl, rfl, rfl⟩)
  | refused => cases hth
  | turned => cases hth
  | @serving q' c ph th h p =>
    obtain ⟨rfl, hprog⟩ := Thread.running.inj hth
    cases p with
    | call o k => cases hprog
    | done r₂ =>
      refine .inr (.inr ⟨c, r₂, h, ?_, rfl⟩)
      cases r₂ with
      | error e =>
        cases hprog
        rfl
      | ok b =>
        cases hprog
        rfl
  | served => cases hth
  | lost => cases hth

/-- While a thread asks, its call of the second service is guessed and has not begun. -/
theorem Splits.waits {p : Prog (Either Resp₁ Resp₂) ε (α₁ ⊕ α₂)}
    (h : G.Splits idle guess .asking (.running q p) th₁ th₂) :
    th₂ = .running guess (G.inner.program guess) := by
  generalize hph : (Phase.asking : Phase κ₂) = ph at h
  generalize hth : Thread.running q p = th at h
  cases h with
  | asking h hp => rfl
  | answered => cases hth
  | dropped => cases hth
  | refusing h => rfl
  | refused => cases hth
  | turned => cases hth
  | serving h p =>
    cases h with
    | asked h ha => cases hph
    | direct h => cases hph
  | served => cases hth
  | lost => cases hth

/-- A running thread is killed, and so is the thread of the second service. -/
theorem Splits.kill {p : Prog (Either Resp₁ Resp₂) ε (α₁ ⊕ α₂)}
    (h : G.Splits idle guess ph (.running q p) th₁ th₂) :
    ∃ c p₂, th₂ = .running c p₂ ∧ G.Splits idle guess ph (.killed q) th₁ (.killed c) := by
  generalize hth : Thread.running q p = th at h
  cases h with
  | @asking q' g next h p' hp =>
    obtain ⟨rfl, -⟩ := Thread.running.inj hth
    exact ⟨guess, _, rfl, .dropped h p'⟩
  | answered => cases hth
  | dropped => cases hth
  | @refusing q' e h =>
    obtain ⟨rfl, -⟩ := Thread.running.inj hth
    exact ⟨guess, _, rfl, .turned h⟩
  | refused => cases hth
  | turned => cases hth
  | @serving q' c ph th h p' =>
    obtain ⟨rfl, -⟩ := Thread.running.inj hth
    exact ⟨c, p', rfl, .lost h⟩
  | served => cases hth
  | lost => cases hth

/-- The guess is forgotten once the thread has been let through. -/
theorem Splits.of_guess {guess' : κ₂} {th : Thread κ (Either Resp₁ Resp₂) ε (α₁ ⊕ α₂)}
    (h : G.Splits idle guess ph th th₁ th₂) (hg : ph = .asking → guess = guess') :
    G.Splits idle guess' ph th th₁ th₂ := by
  cases h with
  | asking h hp => exact hg rfl ▸ .asking h hp
  | answered h r hr => exact hg rfl ▸ .answered h r hr
  | dropped h p => exact hg rfl ▸ .dropped h p
  | refusing h => exact hg rfl ▸ .refusing h
  | refused h => exact hg rfl ▸ .refused h
  | turned h => exact hg rfl ▸ .turned h
  | serving h p => exact .serving h p
  | served h r => exact .served h r
  | lost h => exact .lost h

/-! ## A run of the front as two runs -/

/-- Thread `t` has become `th`, and no other thread has moved. -/
structure Sets {σ κ Op : Type} {Resp : Op → Type} {ε α : Type} (t : Nat) (th : Thread κ Resp ε α)
    (w w' : World σ κ Resp ε α) : Prop where
  length : w'.threads.length = w.threads.length
  self : w'.threads[t]? = some th
  other : ∀ u, u ≠ t → w'.threads[u]? = w.threads[u]?

section Sets

variable {σ κ Op : Type} {Resp : Op → Type} {ε α : Type} {t : Nat} {th : Thread κ Resp ε α}
  {w : World σ κ Resp ε α}

theorem sets_same (h : w.threads[t]? = some th) : Sets t th w w := ⟨rfl, h, fun _ _ => rfl⟩

theorem sets_set {old : Thread κ Resp ε α} (h : w.threads[t]? = some old) (s : σ) :
    Sets t th w { shared := s, threads := w.threads.set t th } := by
  have hlt : t < w.threads.length := (List.getElem?_eq_some_iff.mp h).1
  exact ⟨List.length_set, List.getElem?_set_self hlt, fun u hu => List.getElem?_set_ne hu.symm⟩

end Sets

variable (G idle) in
/-- A world of the front beside worlds of the two services. -/
structure Split (phase : Nat → Phase κ₂) (guess : Nat → κ₂)
    (w : World (σ₁ × σ₂) κ (Either Resp₁ Resp₂) ε (α₁ ⊕ α₂)) (w₁ : World σ₁ κ₁ Resp₁ ε α₁)
    (w₂ : World σ₂ κ₂ Resp₂ ε α₂) : Prop where
  first : w₁.shared = w.shared.1
  second : w₂.shared = w.shared.2
  length₁ : w₁.threads.length = w.threads.length
  length₂ : w₂.threads.length = w.threads.length
  threads : ∀ t th, w.threads[t]? = some th → ∃ th₁ th₂, w₁.threads[t]? = some th₁ ∧
    w₂.threads[t]? = some th₂ ∧ G.Splits idle (guess t) (phase t) th th₁ th₂

section Split

variable {phase : Nat → Phase κ₂} {guess : Nat → κ₂}
  {w w' : World (σ₁ × σ₂) κ (Either Resp₁ Resp₂) ε (α₁ ⊕ α₂)} {w₁ w₁' : World σ₁ κ₁ Resp₁ ε α₁}
  {w₂ w₂' : World σ₂ κ₂ Resp₂ ε α₂} {t : Nat}
  {th th' : Thread κ (Either Resp₁ Resp₂) ε (α₁ ⊕ α₂)}

/-- One thread moves. -/
theorem Split.set (h : G.Split idle phase guess w w₁ w₂) (hw : Sets t th w w')
    (hw₁ : Sets t th₁ w₁ w₁') (hw₂ : Sets t th₂ w₂ w₂') (h₁ : w₁'.shared = w'.shared.1)
    (h₂ : w₂'.shared = w'.shared.2) (hs : G.Splits idle (guess t) ph th th₁ th₂) :
    G.Split idle (Function.update phase t ph) guess w' w₁' w₂' := by
  refine ⟨h₁, h₂, ?_, ?_, fun u uh hu => ?_⟩
  · rw [hw₁.length, hw.length, h.length₁]
  · rw [hw₂.length, hw.length, h.length₂]
  · by_cases heq : u = t
    · subst heq
      have hth : uh = th := Option.some.inj (hu.symm.trans hw.self)
      subst hth
      exact ⟨th₁, th₂, hw₁.self, hw₂.self, by rwa [Function.update_self]⟩
    · rw [hw.other u heq] at hu
      rw [hw₁.other u heq, hw₂.other u heq, Function.update_of_ne heq]
      exact h.threads u uh hu

/-- Every thread of the first service belongs to one of the front. -/
theorem Split.of_first (h : G.Split idle phase guess w w₁ w₂) (ht : w₁.threads[t]? = some th₁) :
    ∃ th th₂, w.threads[t]? = some th ∧ G.Splits idle (guess t) (phase t) th th₁ th₂ := by
  have hlt : t < w.threads.length := h.length₁ ▸ (List.getElem?_eq_some_iff.mp ht).1
  obtain ⟨th₁', th₂, ht₁', -, hsp⟩ := h.threads t _ (List.getElem?_eq_getElem hlt)
  cases ht.symm.trans ht₁'
  exact ⟨_, th₂, List.getElem?_eq_getElem hlt, hsp⟩

theorem Split.of_second (h : G.Split idle phase guess w w₁ w₂) (ht : w₂.threads[t]? = some th₂) :
    ∃ th th₁, w.threads[t]? = some th ∧ w₁.threads[t]? = some th₁ ∧
      G.Splits idle (guess t) (phase t) th th₁ th₂ := by
  have hlt : t < w.threads.length := h.length₂ ▸ (List.getElem?_eq_some_iff.mp ht).1
  obtain ⟨th₁, th₂', ht₁, ht₂', hsp⟩ := h.threads t _ (List.getElem?_eq_getElem hlt)
  cases ht.symm.trans ht₂'
  exact ⟨_, th₁, List.getElem?_eq_getElem hlt, ht₁, hsp⟩

/-- A thread starts. -/
theorem Split.spawn (h : G.Split idle phase guess w w₁ w₂) {s : σ₁ × σ₂}
    (hs : G.Splits idle (guess w.threads.length) ph th th₁ th₂) :
    G.Split idle (Function.update phase w.threads.length ph) guess
      { shared := s, threads := w.threads ++ [th] }
      { shared := s.1, threads := w₁.threads ++ [th₁] }
      { shared := s.2, threads := w₂.threads ++ [th₂] } := by
  have hnew₁ : (w₁.threads ++ [th₁])[w.threads.length]? = some th₁ := by
    rw [← h.length₁, List.getElem?_concat_length]
  have hnew₂ : (w₂.threads ++ [th₂])[w.threads.length]? = some th₂ := by
    rw [← h.length₂, List.getElem?_concat_length]
  refine ⟨rfl, rfl, ?_, ?_, fun u uh hu => ?_⟩
  · simp only [List.length_append, h.length₁]
    rfl
  · simp only [List.length_append, h.length₂]
    rfl
  · by_cases heq : u = w.threads.length
    · subst heq
      rw [List.getElem?_concat_length] at hu
      cases hu
      exact ⟨th₁, th₂, hnew₁, hnew₂, by rwa [Function.update_self]⟩
    · rcases getElem?_of_append hu with ⟨rfl, -⟩ | hold
      · exact (heq rfl).elim
      · obtain ⟨uh₁, uh₂, hu₁, hu₂, husplit⟩ := h.threads u uh hold
        have hlt₁ := (List.getElem?_eq_some_iff.mp hu₁).1
        have hlt₂ := (List.getElem?_eq_some_iff.mp hu₂).1
        refine ⟨uh₁, uh₂, ?_, ?_, by rwa [Function.update_of_ne heq]⟩
        · exact (List.getElem?_append_left hlt₁).trans hu₁
        · exact (List.getElem?_append_left hlt₂).trans hu₂

end Split

/-- The call that a thread of the first service serves. -/
theorem Splits.first_call {th : Thread κ (Either Resp₁ Resp₂) ε (α₁ ⊕ α₂)}
    (h : G.Splits idle guess ph th th₁ th₂) :
    th₁.call = idle ∨ ∃ next, G.served th.call = .asked th₁.call next := by
  -- A thread that is served has asked, or has not had to.
  have hadmits : ∀ {q c ph} {th₁ : Thread κ₁ Resp₁ ε α₁}, G.Admits idle q c ph th₁ →
      th₁.call = idle ∨ ∃ next, G.served q = .asked th₁.call next := by
    intro q c ph th₁ h
    cases h with
    | asked h ha => exact .inr ⟨_, h⟩
    | direct h => exact .inl rfl
  cases h with
  | asking h hp => exact .inr ⟨_, h⟩
  | answered h r hr => exact .inr ⟨_, h⟩
  | dropped h p => exact .inr ⟨_, h⟩
  | refusing h | refused h | turned h => exact .inl rfl
  | serving h p => exact hadmits h
  | served h r => exact hadmits h
  | lost h => exact hadmits h

/-- The call that a thread of the second service serves. -/
theorem Splits.second_call {th : Thread κ (Either Resp₁ Resp₂) ε (α₁ ⊕ α₂)}
    (h : G.Splits idle guess ph th th₁ th₂) :
    th₂.call = guess ∨ G.Admits idle th.call th₂.call ph th₁ := by
  cases h with
  | asking | answered | dropped | refusing | refused | turned => exact .inl rfl
  | serving h p => exact .inr h
  | served h r => exact .inr h
  | lost h => exact .inr h

section Run

variable {P : Policy (σ₁ × σ₂) κ (χ₁ × χ₂) (Either Resp₁ Resp₂) ε (α₁ ⊕ α₂)}
  {P₁ : Policy σ₁ κ₁ χ₁ Resp₁ ε α₁} {P₂ : Policy σ₂ κ₂ χ₂ Resp₂ ε α₂} {waiting : κ₂} {s₀ : σ₁ × σ₂}
  {w : World (σ₁ × σ₂) κ (Either Resp₁ Resp₂) ε (α₁ ⊕ α₂)} {w₁ : World σ₁ κ₁ Resp₁ ε α₁}
  {phase : Nat → Phase κ₂} {t : Nat}

variable (G P₁ P₂ idle s₀) in
/-- The run so far: that of the first service, and that of the second for every guess that
the phases of the threads bear out. -/
structure Follow (w : World (σ₁ × σ₂) κ (Either Resp₁ Resp₂) ε (α₁ ⊕ α₂))
    (w₁ : World σ₁ κ₁ Resp₁ ε α₁) (phase : Nat → Phase κ₂) : Prop where
  fresh : ∀ t, w.threads.length ≤ t → phase t = .asking
  inert : ∀ t c, phase t = .through c → G.Inert P₂ c
  first : G.guard.Reaches P₁ (World.start s₀.1) w₁
  second : ∀ guess, (∀ t, G.Inert P₂ (guess t)) → (∀ t c, phase t = .through c → guess t = c) →
    ∃ w₂, G.inner.Reaches P₂ (World.start s₀.2) w₂ ∧ G.Split idle phase guess w w₁ w₂

/-- There is such a guess. -/
theorem Plain.exists_guess (h : G.Plain P P₁ P₂ idle waiting)
    (hf : G.Follow idle P₁ P₂ s₀ w w₁ phase) :
    ∃ guess, (∀ t, phase t = .asking → guess t = waiting) ∧
      ∃ w₂, G.inner.Reaches P₂ (World.start s₀.2) w₂ ∧ G.Split idle phase guess w w₁ w₂ := by
  let guess : Nat → κ₂ := fun t =>
    match phase t with
    | .through c => c
    | _ => waiting
  have hguess : ∀ t c, phase t = .through c → guess t = c := by
    intro t c hc
    simp only [guess, hc]
  have hinert : ∀ t, G.Inert P₂ (guess t) := by
    intro t
    cases hph : phase t with
    | through c => exact (hguess t c hph).symm ▸ hf.inert t c hph
    | asking => simp only [guess, hph, h.waiting_inert]
    | direct => simp only [guess, hph, h.waiting_inert]
  exact ⟨guess, fun t ht => by simp only [guess, ht], hf.second guess hinert hguess⟩

/-- The phase of thread `t`, which was still asking, becomes known. -/
theorem Follow.update (ph : Phase κ₂) (h : G.Follow idle P₁ P₂ s₀ w w₁ phase)
    (ht : phase t = .asking)
    {w' : World (σ₁ × σ₂) κ (Either Resp₁ Resp₂) ε (α₁ ⊕ α₂)} {w₁' : World σ₁ κ₁ Resp₁ ε α₁}
    (hlen : w.threads.length ≤ w'.threads.length) (hlt : t < w'.threads.length)
    (hin : ∀ c, ph = .through c → G.Inert P₂ c)
    (hr₁ : G.guard.Reaches P₁ (World.start s₀.1) w₁')
    (hsplit : ∀ (guess : Nat → κ₂) (w₂ : World σ₂ κ₂ Resp₂ ε α₂), (∀ t, G.Inert P₂ (guess t)) →
      (∀ c, ph = .through c → guess t = c) → G.inner.Reaches P₂ (World.start s₀.2) w₂ →
      G.Split idle phase guess w w₁ w₂ → ∃ w₂', G.inner.Reaches P₂ (World.start s₀.2) w₂' ∧
        G.Split idle (Function.update phase t ph) guess w' w₁' w₂') :
    G.Follow idle P₁ P₂ s₀ w' w₁' (Function.update phase t ph) := by
  refine ⟨fun u hu => ?_, fun u c hc => ?_, hr₁, fun guess hg hm => ?_⟩
  · have hne : u ≠ t := by omega
    rw [Function.update_of_ne hne]
    exact h.fresh u (Nat.le_trans hlen hu)
  · by_cases heq : u = t
    · subst heq
      rw [Function.update_self] at hc
      exact hin c hc
    · rw [Function.update_of_ne heq] at hc
      exact h.inert u c hc
  · have hold : ∀ u c, phase u = .through c → guess u = c := by
      intro u c hc
      have hne : u ≠ t := by
        rintro rfl
        rw [ht] at hc
        cases hc
      exact hm u c (by rw [Function.update_of_ne hne]; exact hc)
    obtain ⟨w₂, hr₂, hs⟩ := h.second guess hg hold
    exact hsplit guess w₂ hg (fun c hc => hm t c (by rw [Function.update_self]; exact hc)) hr₂ hs

/-- A thread moves and stays in its phase. -/
theorem Follow.keep (h : G.Follow idle P₁ P₂ s₀ w w₁ phase)
    {w' : World (σ₁ × σ₂) κ (Either Resp₁ Resp₂) ε (α₁ ⊕ α₂)} {w₁' : World σ₁ κ₁ Resp₁ ε α₁}
    (hlen : w.threads.length = w'.threads.length)
    (hr₁ : G.guard.Reaches P₁ (World.start s₀.1) w₁')
    (hsplit : ∀ (guess : Nat → κ₂) (w₂ : World σ₂ κ₂ Resp₂ ε α₂),
      G.inner.Reaches P₂ (World.start s₀.2) w₂ → G.Split idle phase guess w w₁ w₂ →
      ∃ w₂', G.inner.Reaches P₂ (World.start s₀.2) w₂' ∧ G.Split idle phase guess w' w₁' w₂') :
    G.Follow idle P₁ P₂ s₀ w' w₁' phase := by
  refine ⟨fun u hu => h.fresh u (hlen ▸ hu), h.inert, hr₁, fun guess hg hm => ?_⟩
  obtain ⟨w₂, hr₂, hs⟩ := h.second guess hg hm
  exact hsplit guess w₂ hr₂ hs

theorem Split.stay {guess : Nat → κ₂} {w' : World (σ₁ × σ₂) κ (Either Resp₁ Resp₂) ε (α₁ ⊕ α₂)}
    {w₁' : World σ₁ κ₁ Resp₁ ε α₁} {w₂ w₂' : World σ₂ κ₂ Resp₂ ε α₂}
    {th : Thread κ (Either Resp₁ Resp₂) ε (α₁ ⊕ α₂)} (h : G.Split idle phase guess w w₁ w₂)
    (hw : Sets t th w w') (hw₁ : Sets t th₁ w₁ w₁') (hw₂ : Sets t th₂ w₂ w₂')
    (h₁ : w₁'.shared = w'.shared.1) (h₂ : w₂'.shared = w'.shared.2)
    (hs : G.Splits idle (guess t) (phase t) th th₁ th₂) : G.Split idle phase guess w' w₁' w₂' := by
  have hset := h.set hw hw₁ hw₂ h₁ h₂ hs
  rwa [Function.update_eq_self] at hset

/-- A call that asks starts, with the call it may come to. -/
theorem Split.ask {guess : Nat → κ₂} {w₂ : World σ₂ κ₂ Resp₂ ε α₂} {g : κ₁}
    {p : Prog (Either Resp₁ Resp₂) ε (α₁ ⊕ α₂)} (hs : G.Split idle phase guess w w₁ w₂)
    (hg : G.Inert P₂ (guess w.threads.length)) (hr₂ : G.inner.Reaches P₂ (World.start s₀.2) w₂)
    (hsp : G.Splits idle (guess w.threads.length) ph (.running q p)
      (.running g (G.guard.program g)) (.running (guess w.threads.length)
        (G.inner.program (guess w.threads.length)))) :
    ∃ w₂', G.inner.Reaches P₂ (World.start s₀.2) w₂' ∧
      G.Split idle (Function.update phase w.threads.length ph) guess
        { shared := w.shared, threads := w.threads ++ [.running q p] }
        { shared := w.shared.1, threads := w₁.threads ++ [.running g (G.guard.program g)] }
        w₂' := by
  have hr₂' := hr₂.spawn (hg.spawn w₂.shared) (hg.spawned w₂.shared)
  rw [hs.second] at hr₂'
  exact ⟨_, hr₂', hs.spawn hsp⟩

theorem Plain.spawn (h : G.Plain P P₁ P₂ idle waiting) (hf : G.Follow idle P₁ P₂ s₀ w w₁ phase)
    {s : σ₁ × σ₂} (hp : P.spawn q w.shared = true) (hs : G.spawned q w.shared = some s) :
    ∃ w₁' phase', G.Follow idle P₁ P₂ s₀
      { shared := s, threads := w.threads ++ [.running q (G.program q)] } w₁' phase' := by
  have hlen : ∀ th : Thread κ (Either Resp₁ Resp₂) ε (α₁ ⊕ α₂),
      w.threads.length < (w.threads ++ [th]).length := by
    intro th
    simp only [List.length_append, List.length_singleton]
    omega
  have hasking := hf.fresh _ (Nat.le_refl _)
  obtain ⟨_, _, _, _, hshared⟩ := h.exists_guess hf
  have hfirst : w₁.shared = w.shared.1 := hshared.first
  cases hq : G.served q with
  | refused e =>
    rw [Guarded.spawned, hq] at hs
    cases hs
    have hprog : G.program q = .done (.error e) := by
      rw [program, hq]
      rfl
    have hr₁ := hf.first.spawn (h.idle_spawn w₁.shared) (h.spawned idle w₁.shared)
    rw [hfirst] at hr₁
    refine ⟨_, _, hf.update .asking hasking (Nat.le_of_lt (hlen _)) (hlen _)
      (fun c hc => by cases hc) hr₁ ?_⟩
    intro guess w₂ hg hm hr₂ hsplit
    exact hsplit.ask (hg _) hr₂ (hprog ▸ .refusing hq)
  | direct c =>
    rw [Guarded.spawned, hq] at hs
    obtain ⟨s₂, hs₂, rfl⟩ := Option.map_eq_some_iff.mp hs
    have hprog : G.program q = serve (G.inner.program c) := by rw [program, hq]
    have hr₁ := hf.first.spawn (h.idle_spawn w₁.shared) (h.spawned idle w₁.shared)
    rw [hfirst] at hr₁
    refine ⟨_, _, hf.update .direct hasking (Nat.le_of_lt (hlen _)) (hlen _)
      (fun c hc => by cases hc) hr₁ ?_⟩
    intro guess w₂ hg hm hr₂ hsplit
    have hr₂' := hr₂.spawn (c := c) (s := s₂)
      (by rw [hsplit.second]; exact h.direct_spawn q c _ hq hp) (by rw [hsplit.second]; exact hs₂)
    exact ⟨_, hr₂', hsplit.spawn (hprog ▸ .serving (.direct hq) _)⟩
  | asked g next =>
    rw [Guarded.spawned, hq] at hs
    cases hs
    have hprog : G.program q = (G.guard.program g).first >>= G.go next := by rw [program, hq]
    have hr₁ := hf.first.spawn (c := g) (by rw [hfirst]; exact h.asked_spawn q g next _ hq hp)
      (h.spawned g w₁.shared)
    rw [hfirst] at hr₁
    cases hsettled : settled next (G.guard.program g) with
    | none =>
      refine ⟨_, _, hf.update .asking hasking (Nat.le_of_lt (hlen _)) (hlen _)
        (fun c hc => by cases hc) hr₁ ?_⟩
      intro guess w₂ hg hm hr₂ hsplit
      exact hsplit.ask (hg _) hr₂ (hprog ▸ .asking hq hsettled)
    | some c =>
      obtain ⟨a, ha, -⟩ := splits_through idle c hq hsettled
      refine ⟨_, _, hf.update (.through c) hasking (Nat.le_of_lt (hlen _)) (hlen _)
        (fun c' hc => ?_) hr₁ ?_⟩
      · cases hc
        exact h.inert q g next a c hq ha
      · intro guess w₂ hg hm hr₂ hsplit
        refine hsplit.ask (hg _) hr₂ ?_
        obtain ⟨-, -, hsp⟩ := splits_through idle (guess w.threads.length) hq hsettled
        rw [hm c rfl, hprog]
        rwa [hm c rfl] at hsp

/-- The thread of the first service that asks on behalf of thread `t`. -/
theorem Plain.asks (h : G.Plain P P₁ P₂ idle waiting) (hf : G.Follow idle P₁ P₂ s₀ w w₁ phase)
    {o : Op₁} {k : Except ε (Resp₁ o) → Prog (Either Resp₁ Resp₂) ε (α₁ ⊕ α₂)}
    (ht : w.threads[t]? = some (.running q (.call (.inl o) k))) :
    ∃ g next k₁, G.served q = .asked g next ∧ phase t = .asking ∧
      w₁.threads[t]? = some (.running g (.call o k₁)) ∧ k = fun r => (k₁ r).first >>= G.go next := by
  obtain ⟨guess, -, w₂, -, hs⟩ := h.exists_guess hf
  obtain ⟨th₁, th₂, ht₁, -, hsp⟩ := hs.threads t _ ht
  rcases hsp.step with ⟨g, next, o₁, k₁, hq, hph, ho, rfl, -, hk⟩ | ⟨_, _, _, _, ho, _⟩
  · cases ho
    exact ⟨g, next, k₁, hq, hph, ht₁, eq_of_heq hk⟩
  · cases ho

theorem Plain.step_first (h : G.Plain P P₁ P₂ idle waiting)
    (hf : G.Follow idle P₁ P₂ s₀ w w₁ phase) {o : Op₁}
    {k : Except ε (Resp₁ o) → Prog (Either Resp₁ Resp₂) ε (α₁ ⊕ α₂)} {ch : χ₁ × χ₂}
    {r : Except ε (Resp₁ o)} {s : σ₁} (ht : w.threads[t]? = some (.running q (.call (.inl o) k)))
    (hp : P.op ⟨t, q⟩ ch (.inl o) w.shared = true)
    (hx : G.guard.exec t ch.1 o w.shared.1 = some (r, s)) :
    ∃ w₁' phase', G.Follow idle P₁ P₂ s₀
      { shared := (s, w.shared.2), threads := w.threads.set t (.running q (k r)) } w₁' phase' := by
  obtain ⟨g, next, k₁, hq, hasking, ht₁, rfl⟩ := h.asks hf ht
  obtain ⟨_, _, _, _, hshared⟩ := h.exists_guess hf
  have hfirst : w₁.shared = w.shared.1 := hshared.first
  have hlen : w.threads.length ≤
      (w.threads.set t (.running q ((k₁ r).first >>= G.go next))).length :=
    Nat.le_of_eq List.length_set.symm
  have hlt : t < (w.threads.set t (.running q ((k₁ r).first >>= G.go next))).length := by
    rw [List.length_set]
    exact (List.getElem?_eq_some_iff.mp ht).1
  have hr₁ := hf.first.step ht₁ (by rw [hfirst]; exact h.asked_op t q g next ch o _ hq hp)
    (by rw [hfirst]; exact hx)
  cases hsettled : settled next (k₁ r) with
  | none =>
    refine ⟨_, _, hf.update .asking hasking hlen hlt (fun c hc => by cases hc) hr₁ ?_⟩
    intro guess w₂ hg hm hr₂ hs
    obtain ⟨th₁, th₂, -, ht₂, hsp⟩ := hs.threads t _ ht
    rw [hasking] at hsp
    rw [hsp.waits] at ht₂
    exact ⟨w₂, hr₂, hs.set (sets_set ht _) (sets_set ht₁ _) (sets_same ht₂) rfl hs.second
      (.asking hq hsettled)⟩
  | some c =>
    obtain ⟨a, ha, -⟩ := splits_through idle c hq hsettled
    refine ⟨_, _, hf.update (.through c) hasking hlen hlt (fun c' hc => ?_) hr₁ ?_⟩
    · cases hc
      exact h.inert q g next a c hq ha
    · intro guess w₂ hg hm hr₂ hs
      obtain ⟨th₁, th₂, -, ht₂, hsp⟩ := hs.threads t _ ht
      rw [hasking] at hsp
      rw [hsp.waits, hm c rfl] at ht₂
      obtain ⟨-, -, hthrough⟩ := splits_through idle (guess t) hq hsettled
      exact ⟨w₂, hr₂, hs.set (sets_set ht _) (sets_set ht₁ _) (sets_same ht₂) rfl hs.second hthrough⟩

theorem Plain.step_second (h : G.Plain P P₁ P₂ idle waiting)
    (hf : G.Follow idle P₁ P₂ s₀ w w₁ phase) {o : Op₂}
    {k : Except ε (Resp₂ o) → Prog (Either Resp₁ Resp₂) ε (α₁ ⊕ α₂)} {ch : χ₁ × χ₂}
    {r : Except ε (Resp₂ o)} {s : σ₂} (ht : w.threads[t]? = some (.running q (.call (.inr o) k)))
    (hp : P.op ⟨t, q⟩ ch (.inr o) w.shared = true)
    (hx : G.inner.exec t ch.2 o w.shared.2 = some (r, s)) :
    G.Follow idle P₁ P₂ s₀
      { shared := (w.shared.1, s), threads := w.threads.set t (.running q (k r)) } w₁ phase := by
  refine hf.keep List.length_set.symm hf.first fun guess w₂ hr₂ hs => ?_
  obtain ⟨th₁, th₂, ht₁, ht₂, hsp⟩ := hs.threads t _ ht
  rcases hsp.step with ⟨_, _, _, _, _, _, ho, _⟩ | ⟨c, o₂, k₂, hadmits, ho, rfl, hk⟩
  · cases ho
  · cases ho
    cases hk
    have hr₂' := hr₂.step ht₂ (by rw [hs.second]; exact h.inner_op t q c ch o _ hp)
      (by rw [hs.second]; exact hx)
    exact ⟨_, hr₂', hs.stay (sets_set ht _) (sets_same ht₁) (sets_set ht₂ _) hs.first rfl
      (.serving hadmits _)⟩

theorem toInner_map (r : Except ε α₂) : toInner (r.map .inr : Except ε (α₁ ⊕ α₂)) = some r := by
  cases r <;> rfl

/-- The answer of the second service is its own. -/
theorem Plain.returned_eq (h : G.Plain P P₁ P₂ idle waiting) {c : κ₂}
    (ha : G.Admits idle q c ph th₁) (r : Except ε α₂) (s : σ₁ × σ₂) :
    G.returned t q (r.map .inr) s = (s.1, G.inner.returned t c r s.2) := by
  cases ha with
  | asked hq ha => rw [Guarded.returned, hq, (h.inert _ _ _ _ _ hq ha).returned]
  | direct hq => simp only [Guarded.returned, hq, toInner_map]

/-- A thread that is served is not asking. -/
theorem Admits.ne_asking {c : κ₂} (h : G.Admits idle q c ph th₁) : ph ≠ .asking := by
  cases h <;> exact fun h => by cases h

theorem Plain.ret (h : G.Plain P P₁ P₂ idle waiting) (hf : G.Follow idle P₁ P₂ s₀ w w₁ phase)
    {r : Except ε (α₁ ⊕ α₂)} (ht : w.threads[t]? = some (.running q (.done r))) :
    ∃ w₁', G.Follow idle P₁ P₂ s₀
      { shared := G.returned t q r w.shared, threads := w.threads.set t (.returned q r) }
      w₁' phase := by
  obtain ⟨guess, -, w₂, -, hs⟩ := h.exists_guess hf
  obtain ⟨th₁, th₂, ht₁, -, hsp⟩ := hs.threads t _ ht
  have hfirst : w₁.shared = w.shared.1 := hs.first
  by_cases hasking : phase t = .asking
  · rw [hasking] at hsp
    rcases hsp.ret with ⟨g, next, r₁, hq, -, rfl, rfl, -, hnone⟩ | ⟨e, hq, -, rfl, rfl, -⟩ |
      ⟨c, r₂, hadmits, -, -⟩
    · have hsame : G.returned t q (concluded next r₁) w.shared = w.shared := by
        rw [Guarded.returned, hq]
      have hr₁ := hf.first.ret ht₁
      rw [h.returned, hfirst] at hr₁
      rw [hsame]
      refine ⟨_, hf.keep List.length_set.symm hr₁ fun guess w₂ hr₂ hs => ⟨w₂, hr₂, ?_⟩⟩
      obtain ⟨_, th₂, _, ht₂, hsp⟩ := hs.threads t _ ht
      rw [hasking] at hsp
      rw [hsp.waits] at ht₂
      refine hs.stay (sets_set ht _) (sets_set ht₁ _) (sets_same ht₂) rfl hs.second ?_
      rw [hasking]
      exact .answered hq r₁ hnone
    · have hsame : G.returned t q (.error e) w.shared = w.shared := by
        rw [Guarded.returned, hq]
      rw [hsame]
      refine ⟨w₁, hf.keep List.length_set.symm hf.first fun guess w₂ hr₂ hs => ⟨w₂, hr₂, ?_⟩⟩
      obtain ⟨_, th₂, _, ht₂, hsp⟩ := hs.threads t _ ht
      rw [hasking] at hsp
      rw [hsp.waits] at ht₂
      refine hs.stay (sets_set ht _) (sets_same ht₁) (sets_same ht₂) hs.first hs.second ?_
      rw [hasking]
      exact .refused hq
    · exact (hadmits.ne_asking rfl).elim
  · refine ⟨w₁, hf.keep List.length_set.symm hf.first fun guess w₂ hr₂ hs => ?_⟩
    obtain ⟨th₁, th₂, ht₁, ht₂, hsp⟩ := hs.threads t _ ht
    rcases hsp.ret with ⟨_, _, _, _, hph, _⟩ | ⟨_, _, hph, _⟩ | ⟨c, r₂, hadmits, rfl, rfl⟩
    · exact (hasking hph).elim
    · exact (hasking hph).elim
    · have hr₂' := hr₂.ret ht₂
      rw [hs.second] at hr₂'
      rw [h.returned_eq hadmits]
      exact ⟨_, hr₂', hs.stay (sets_set ht _) (sets_same ht₁) (sets_set ht₂ _) hs.first rfl
        (.served hadmits r₂)⟩

theorem Plain.kill (h : G.Plain P P₁ P₂ idle waiting) (hf : G.Follow idle P₁ P₂ s₀ w w₁ phase)
    {p : Prog (Either Resp₁ Resp₂) ε (α₁ ⊕ α₂)} (ht : w.threads[t]? = some (.running q p)) :
    G.Follow idle P₁ P₂ s₀
      { shared := (w.shared.1, G.killed t w.shared.2), threads := w.threads.set t (.killed q) }
      w₁ phase := by
  refine hf.keep List.length_set.symm hf.first fun guess w₂ hr₂ hs => ?_
  obtain ⟨th₁, th₂, ht₁, ht₂, hsp⟩ := hs.threads t _ ht
  obtain ⟨c, p₂, rfl, hkilled⟩ := hsp.kill
  have hr₂' := hr₂.kill ht₂ (h.inner_kill _ _ _)
  rw [h.killed, hs.second] at hr₂'
  exact ⟨_, hr₂', hs.stay (sets_set ht _) (sets_same ht₁) (sets_set ht₂ _) hs.first rfl hkilled⟩

/-- Induction over the run. -/
theorem Plain.follow (h : G.Plain P P₁ P₂ idle waiting)
    (hr : G.machine.Reaches P (World.start s₀) w) :
    ∃ w₁ phase, G.Follow idle P₁ P₂ s₀ w w₁ phase := by
  induction hr with
  | refl =>
    have hnone : ∀ t c, (fun _ : Nat => (Phase.asking : Phase κ₂)) t = .through c → G.Inert P₂ c :=
      fun _ _ hc => nomatch hc
    refine ⟨World.start s₀.1, fun _ => .asking, ⟨fun _ _ => rfl, hnone, .refl, fun guess _ _ => ?_⟩⟩
    exact ⟨World.start s₀.2, .refl, rfl, rfl, rfl, rfl, by simp [World.start]⟩
  | tail e hr hn ih =>
    obtain ⟨w₁, phase, hf⟩ := ih
    cases Machine.next_moves G.machine P hn with
    | spawn hp hs => exact h.spawn hf hp hs
    | @step t ch q o k r s ht hp hx =>
      cases o with
      | inl o =>
        obtain ⟨⟨r', s'⟩, hx', he⟩ := Option.map_eq_some_iff.mp hx
        cases he
        exact h.step_first hf ht hp hx'
      | inr o =>
        obtain ⟨⟨r', s'⟩, hx', he⟩ := Option.map_eq_some_iff.mp hx
        cases he
        exact ⟨_, _, h.step_second hf ht hp hx'⟩
    | ret ht =>
      obtain ⟨w₁', hf'⟩ := h.ret hf ht
      exact ⟨w₁', phase, hf'⟩
    | kill ht hp => exact ⟨_, _, h.kill hf ht⟩

/-- A run of the front is a run of the first service and one of the second, and its threads
are theirs.  A thread that is still asking has not begun a call of the second one. -/
theorem Plain.split (h : G.Plain P P₁ P₂ idle waiting)
    (hr : G.machine.Reaches P (World.start s₀) w) :
    ∃ (w₁ : World σ₁ κ₁ Resp₁ ε α₁) (w₂ : World σ₂ κ₂ Resp₂ ε α₂) (phase : Nat → Phase κ₂),
      G.guard.Reaches P₁ (World.start s₀.1) w₁ ∧ G.inner.Reaches P₂ (World.start s₀.2) w₂ ∧
      G.Split idle phase (fun _ => waiting) w w₁ w₂ := by
  obtain ⟨w₁, phase, hf⟩ := h.follow hr
  obtain ⟨guess, hwaiting, w₂, hr₂, hs⟩ := h.exists_guess hf
  refine ⟨w₁, w₂, phase, hf.first, hr₂, hs.first, hs.second, hs.length₁, hs.length₂, ?_⟩
  intro t th ht
  obtain ⟨th₁, th₂, ht₁, ht₂, hsp⟩ := hs.threads t th ht
  exact ⟨th₁, th₂, ht₁, ht₂, hsp.of_guess (hwaiting t)⟩

end Run

end Guarded

end Concurrency
