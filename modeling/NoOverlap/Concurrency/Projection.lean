import NoOverlap.Concurrency.Footprint

/-!
# Runs of one machine read as runs of another

Where a program of the fine machine runs a section of several operations, the program of
the coarse machine performs a single one, which answers what the section answers.  A
section can be interrupted by other threads and cut off by a kill; the single operation
happens at one moment.  `Refines` relates the programs, `Projection.Valid` says what the
machines and their policies have to agree on, and `Valid.reaches` reads every run of the
fine machine as a run of the coarse one.

The coarse machine waits with the single operation until the thread that has left its
section moves on.  Nobody can tell the difference, because no operation of a section
changes what the two states are compared by.
-/

namespace Concurrency

open Prog

variable {Op : Type} {Resp : Op → Type} {ε α β γ κ σ χ : Type}

structure Projection (σ κ χ : Type) {Op : Type} (Resp : Op → Type) (ε α : Type) where
  fine : Machine σ κ χ Resp ε α
  coarse : Machine σ κ χ Resp ε α
  finePolicy : Policy σ κ χ Resp ε α
  coarsePolicy : Policy σ κ χ Resp ε α
  /-- A state of the fine machine, and one of the coarse machine. -/
  Sim : σ → σ → Prop
  /-- What can become of a state of the fine machine. -/
  Later : σ → σ → Prop
  /-- The operations that both machines perform. -/
  Shared : Op → Prop
  /-- The operations of a section. -/
  Inside : Op → Prop
  /-- A section has answered what the single operation is to answer. -/
  Answers : Agent κ → (o : Op) → Except ε (Resp o) → σ → Prop

namespace Projection

variable (D : Projection σ κ χ Resp ε α)

/-- However the section goes on from `s`, whatever others do in between, it ends with an
answer that satisfies `R`. -/
def Ends (a : Agent κ) (R : Except ε β → σ → Prop) : Prog Resp ε β → σ → Prop
  | .done r, s => R r s
  | .call o k, s => D.Inside o ∧ ∀ s₁, D.Later s s₁ → ∀ ch r s₂,
      D.finePolicy.op a ch o s₁ = true → D.fine.exec a.tid ch o s₁ = some (r, s₂) →
      Ends a R (k r) s₂

/-- The second program performs one operation where the first runs a section. -/
inductive Refines (a : Agent κ) : σ → Prog Resp ε β → Prog Resp ε β → Prop
  | done {s : σ} (r : Except ε β) : Refines a s (.done r) (.done r)
  | call {s : σ} {o : Op} {k k' : Except ε (Resp o) → Prog Resp ε β} (ho : D.Shared o)
      (h : ∀ r s', Refines a s' (k r) (k' r)) : Refines a s (.call o k) (.call o k')
  | inside {s : σ} {o : Op} {p : Prog Resp ε (Resp o)} {f f' : Resp o → Prog Resp ε β}
      (hp : D.Ends a (D.Answers a o) p s) (hf : ∀ v s', Refines a s' (f v) (f' v)) :
      Refines a s (p >>= f) (op o >>= f')

/-- The two programs are about to do the same, or the first is still in its section. -/
inductive Ready (a : Agent κ) (s : σ) : Prog Resp ε β → Prog Resp ε β → Prop
  | done (r : Except ε β) : Ready a s (.done r) (.done r)
  | call {o : Op} {k k' : Except ε (Resp o) → Prog Resp ε β} (ho : D.Shared o)
      (h : ∀ r s', D.Refines a s' (k r) (k' r)) : Ready a s (.call o k) (.call o k')
  | inside {o : Op} {k : Except ε (Resp o) → Prog Resp ε β} {q : Prog Resp ε β}
      (ho : D.Inside o) (h : ∀ s₁, D.Later s s₁ → ∀ ch r s₂, D.finePolicy.op a ch o s₁ = true →
        D.fine.exec a.tid ch o s₁ = some (r, s₂) → D.Refines a s₂ (k r) q) :
      Ready a s (.call o k) q

/-- Thread `t`, in the two machines. -/
inductive Along (t : Nat) (s : σ) : Thread κ Resp ε α → Thread κ Resp ε α → Prop
  | running {c : κ} {p q : Prog Resp ε α} (h : D.Refines ⟨t, c⟩ s p q) :
      Along t s (.running c p) (.running c q)
  | returned (c : κ) (r : Except ε α) : Along t s (.returned c r) (.returned c r)
  | killed (c : κ) : Along t s (.killed c) (.killed c)

/-- The second world is the first as the coarse machine sees it. -/
structure Follows (w w' : World σ κ Resp ε α) : Prop where
  sim : D.Sim w.shared w'.shared
  threads : ∀ (t : Nat) th, w.threads[t]? = some th →
    ∃ th', w'.threads[t]? = some th' ∧ D.Along t w.shared th th'
  length : w'.threads.length = w.threads.length

/-- What the machines and the policies have to agree on. -/
structure Valid (s₀ s₀' : σ) : Prop where
  start : D.Sim s₀ s₀'
  later_refl : ∀ s, D.Later s s
  later_trans : ∀ s₁ s₂ s₃, D.Later s₁ s₂ → D.Later s₂ s₃ → D.Later s₁ s₃
  later : ∀ w w' e, D.fine.Reaches D.finePolicy (World.start s₀) w →
    D.fine.next D.finePolicy w e = some w' → D.Later w.shared w'.shared
  answers_stable : ∀ a o r s s', D.Later s s' → D.Answers a o r s → D.Answers a o r s'
  program : ∀ a s, D.Refines a s (D.fine.program a.call) (D.coarse.program a.call)
  shared : ∀ a ch o s s' r s₁, D.Shared o → D.Sim s s' → D.Later s s₁ →
    D.finePolicy.op a ch o s = true → D.fine.exec a.tid ch o s = some (r, s₁) →
    D.coarsePolicy.op a ch o s' = true ∧
      ∃ s₁', D.coarse.exec a.tid ch o s' = some (r, s₁') ∧ D.Sim s₁ s₁'
  inside : ∀ t ch o s s' r s₁, D.Inside o → D.Sim s s' → D.Later s s₁ →
    D.fine.exec t ch o s = some (r, s₁) → D.Sim s₁ s'
  answer : ∀ a o r s s', D.Sim s s' → D.Answers a o r s → ∃ ch s₁',
    D.coarsePolicy.op a ch o s' = true ∧ D.coarse.exec a.tid ch o s' = some (r, s₁') ∧
      D.Sim s s₁'
  spawn : ∀ c s s' s₁, D.Sim s s' → D.Later s s₁ → D.finePolicy.spawn c s = true →
    D.fine.spawned c s = some s₁ → D.coarsePolicy.spawn c s' = true ∧
      ∃ s₁', D.coarse.spawned c s' = some s₁' ∧ D.Sim s₁ s₁'
  ret : ∀ t c r s s', D.Sim s s' → D.Later s (D.fine.returned t c r s) →
    D.Sim (D.fine.returned t c r s) (D.coarse.returned t c r s')
  kill : ∀ a p q s s', D.Sim s s' → D.Later s (D.fine.killed a.tid a.call s) →
    D.finePolicy.kill a p s = true → D.coarsePolicy.kill a q s' = true ∧
      D.Sim (D.fine.killed a.tid a.call s) (D.coarse.killed a.tid a.call s')

variable {D} {a : Agent κ} {s s' s₀ s₀' : σ}

/-! ## Programs -/

/-- A program without sections. -/
theorem Refines.of_uses {p : Prog Resp ε β} (hp : p.Uses D.Shared) : D.Refines a s p p := by
  induction p generalizing s with
  | done r => exact .done r
  | call o k ih => exact .call hp.1 fun r _ => ih r (hp.2 r)

theorem Refines.bind {p q : Prog Resp ε β} {f f' : β → Prog Resp ε γ} (hp : D.Refines a s p q)
    (hf : ∀ b s', D.Refines a s' (f b) (f' b)) : D.Refines a s (p >>= f) (q >>= f') := by
  induction hp with
  | done r =>
    cases r with
    | ok b => exact hf b _
    | error e => exact .done (.error e)
  | call ho _ ih => exact .call ho fun r s' => ih r s'
  | @inside s o p g g' hp _ ih =>
    rw [Prog.bind_assoc, Prog.bind_assoc]
    exact .inside hp fun v s' => ih v s'

/-- A section that keeps `K`, which others keep as well, and which is all that matters. -/
theorem Ends.of_uses {R : Except ε β → σ → Prop} {K : σ → Prop} {p : Prog Resp ε β}
    (hlater : ∀ s s', D.Later s s' → K s → K s')
    (hstep : ∀ ch o s r s', D.Inside o → K s → D.fine.exec a.tid ch o s = some (r, s') → K s')
    (hR : ∀ r s, K s → R r s) (hp : p.Uses D.Inside) (hk : K s) : D.Ends a R p s := by
  induction p generalizing s with
  | done r => exact hR r s hk
  | call o k ih =>
    exact ⟨hp.1, fun s₁ hl ch r s₂ _ hx =>
      ih r (hp.2 r) (hstep ch o s₁ r s₂ hp.1 (hlater s s₁ hl hk) hx)⟩

/-- One operation of a section, and the rest of it. -/
theorem Ends.op_bind {R : Except ε γ → σ → Prop} {o : Op} {f : Resp o → Prog Resp ε γ}
    (ho : D.Inside o) (he : ∀ e s, R (.error e) s)
    (hf : ∀ s₁ ch v s₂, D.fine.exec a.tid ch o s₁ = some (.ok v, s₂) → D.Ends a R (f v) s₂) :
    D.Ends a R (op o >>= f) s := by
  refine ⟨ho, fun s₁ _ ch r s₂ _ hx => ?_⟩
  cases r with
  | ok v => exact hf s₁ ch v s₂ hx
  | error e => exact he e s₂

/-- A part of a section, and the rest of it, where nothing is known in between. -/
theorem Ends.bind {R : Except ε γ → σ → Prop} {p : Prog Resp ε β} {f : β → Prog Resp ε γ}
    (hp : p.Uses D.Inside) (he : ∀ e s, R (.error e) s) (hf : ∀ b s, D.Ends a R (f b) s) :
    D.Ends a R (p >>= f) s := by
  induction p generalizing s with
  | done r =>
    cases r with
    | ok b => exact hf b s
    | error e => exact he e s
  | call o k ih => exact ⟨hp.1, fun _ _ _ r _ _ _ => ih r (hp.2 r)⟩

theorem Ends.stable (h : D.Valid s₀ s₀') {R : Except ε β → σ → Prop}
    (hR : ∀ r s s', D.Later s s' → R r s → R r s') {p : Prog Resp ε β} (hp : D.Ends a R p s)
    (hl : D.Later s s') : D.Ends a R p s' := by
  cases p with
  | done r => exact hR r s s' hl hp
  | call o k => exact ⟨hp.1, fun s₁ hl₁ => hp.2 s₁ (h.later_trans _ _ _ hl hl₁)⟩

theorem Refines.stable (h : D.Valid s₀ s₀') {p q : Prog Resp ε β} (hp : D.Refines a s p q)
    (hl : D.Later s s') : D.Refines a s' p q := by
  cases hp with
  | done r => exact .done r
  | call ho hk => exact .call ho hk
  | inside hp hf => exact .inside (hp.stable h (h.answers_stable a _) hl) hf

theorem Along.stable (h : D.Valid s₀ s₀') {t : Nat} {th th' : Thread κ Resp ε α}
    (ht : D.Along t s th th') (hl : D.Later s s') : D.Along t s' th th' := by
  cases ht with
  | running hp => exact .running (hp.stable h hl)
  | returned c r => exact .returned c r
  | killed c => exact .killed c

/-! ## Worlds -/

/-- A thread that has answered has answered the same. -/
theorem Follows.returned {w w' : World σ κ Resp ε α} (h : D.Follows w w') {t : Nat} {c : κ}
    {r : Except ε α} (ht : w.threads[t]? = some (.returned c r)) :
    w'.threads[t]? = some (.returned c r) := by
  obtain ⟨th', ht', hal⟩ := h.threads t _ ht
  cases hal
  exact ht'

/-- Thread `t` has moved, in both machines. -/
theorem Follows.set (h : D.Valid s₀ s₀') {w w' : World σ κ Resp ε α} (hw : D.Follows w w')
    {t : Nat} {th th' : Thread κ Resp ε α} (hlt : t < w.threads.length)
    (hl : D.Later w.shared s) (hs : D.Sim s s') (ht : D.Along t s th th') :
    D.Follows { shared := s, threads := w.threads.set t th }
      { shared := s', threads := w'.threads.set t th' } where
  sim := hs
  threads := by
    intro u uh hu
    rcases getElem?_of_set hu with ⟨rfl, rfl⟩ | ⟨hne, hold⟩
    · exact ⟨th', List.getElem?_set_self (hw.length ▸ hlt), ht⟩
    · obtain ⟨uh', hu', hal⟩ := hw.threads u uh hold
      exact ⟨uh', (List.getElem?_set_ne (Ne.symm hne)).trans hu', hal.stable h hl⟩
  length := by rw [List.length_set, List.length_set, hw.length]

/-- The coarse machine performs what its thread is behind with. -/
theorem Valid.catchUp (h : D.Valid s₀ s₀') {p q : Prog Resp ε α} (hp : D.Refines a s p q)
    {w : World σ κ Resp ε α} (ht : w.threads[a.tid]? = some (.running a.call q))
    (hs : D.Sim s w.shared) : ∃ s' q', D.coarse.Reaches D.coarsePolicy w
        { shared := s', threads := w.threads.set a.tid (.running a.call q') } ∧
      D.Sim s s' ∧ D.Ready a s p q' := by
  have hstay : ∀ {w : World σ κ Resp ε α} {q}, w.threads[a.tid]? = some (.running a.call q) →
      D.coarse.Reaches D.coarsePolicy w
        { w with threads := w.threads.set a.tid (.running a.call q) } := by
    intro w q ht
    rw [World.set_of_getElem? ht]
    exact .refl
  induction hp generalizing w with
  | @done s r => exact ⟨w.shared, .done r, hstay ht, hs, .done r⟩
  | @call s o k k' ho hk ih => exact ⟨w.shared, .call o k', hstay ht, hs, .call ho hk⟩
  | @inside s o p f f' hp hf ih =>
    -- The section is over, and the single operation can give its answer, or it goes on.
    cases p with
    | done r =>
      obtain ⟨ch, s', hpol, hx, hs'⟩ := h.answer a o r s w.shared hs hp
      have hstep := Machine.Reaches.step (.refl (M := D.coarse)) ht hpol hx
      cases r with
      | ok v =>
        have hlt := (List.getElem?_eq_some_iff.mp ht).1
        obtain ⟨s'', q', hr, hs'', hready⟩ := ih v s (w := ⟨s', _⟩)
          (List.getElem?_set_self hlt) hs'
        rw [List.set_set] at hr
        exact ⟨s'', q', hstep.trans hr, hs'', hready⟩
      | error e => exact ⟨s', .done (.error e), hstep, hs', .done _⟩
    | call o' k =>
      refine ⟨w.shared, _, hstay ht, hs, .inside hp.1 fun s₁ hl ch r s₂ hpol hx => ?_⟩
      exact .inside (hp.2 s₁ hl ch r s₂ hpol hx) hf

/-- One event of the fine machine. -/
theorem Valid.step (h : D.Valid s₀ s₀') {w w₁ w' : World σ κ Resp ε α} {e : Event κ χ}
    (hr : D.fine.Reaches D.finePolicy (World.start s₀) w) (hw : D.Follows w w')
    (hn : D.fine.next D.finePolicy w e = some w₁) :
    ∃ w₁', D.coarse.Reaches D.coarsePolicy w' w₁' ∧ D.Follows w₁ w₁' := by
  have hl := h.later w w₁ e hr hn
  cases Machine.next_moves _ _ hn with
  | @spawn c s hp hs =>
    obtain ⟨hp', s', hs', hsim⟩ := h.spawn c _ _ _ hw.sim hl hp hs
    refine ⟨_, (Machine.Reaches.refl).spawn hp' hs', hsim, fun u uh hu => ?_, ?_⟩
    · rcases getElem?_of_append hu with ⟨rfl, rfl⟩ | hold
      · rw [← hw.length]
        exact ⟨_, List.getElem?_concat_length, .running (h.program ⟨_, c⟩ s)⟩
      · obtain ⟨uh', hu', hal⟩ := hw.threads u uh hold
        have hlt := (List.getElem?_eq_some_iff.mp hu').1
        exact ⟨uh', (List.getElem?_append_left hlt).trans hu', hal.stable h hl⟩
    · rw [List.length_append, List.length_append, hw.length]
      rfl
  | @step t ch c o k r s ht hp hx =>
    obtain ⟨th', ht', hal⟩ := hw.threads t _ ht
    have hlt := (List.getElem?_eq_some_iff.mp ht).1
    cases hal with
    | running href =>
      obtain ⟨s', q', hr', hs', hready⟩ := h.catchUp (a := ⟨t, c⟩) href ht' hw.sim
      cases hready with
      | @call _ _ k' ho hk =>
        obtain ⟨hp', s₁', hx', hsim⟩ := h.shared ⟨t, c⟩ ch o _ _ r s ho hs' hl hp hx
        refine ⟨_, hr'.step (List.getElem?_set_self (hw.length ▸ hlt)) hp' hx', ?_⟩
        rw [List.set_set]
        exact hw.set h hlt hl hsim (.running (hk r s))
      | inside ho hk =>
        have hsim := h.inside t ch o _ _ r s ho hs' hl hx
        exact ⟨_, hr', hw.set h hlt hl hsim
          (.running (hk _ (h.later_refl _) ch r s hp hx))⟩
  | @ret t c r ht =>
    obtain ⟨th', ht', hal⟩ := hw.threads t _ ht
    have hlt := (List.getElem?_eq_some_iff.mp ht).1
    cases hal with
    | running href =>
      obtain ⟨s', q', hr', hs', hready⟩ := h.catchUp (a := ⟨t, c⟩) href ht' hw.sim
      cases hready with
      | done =>
        refine ⟨_, hr'.ret (List.getElem?_set_self (hw.length ▸ hlt)), ?_⟩
        rw [List.set_set]
        exact hw.set h hlt hl (h.ret t c r _ _ hs' hl) (.returned c r)
  | @kill t c p ht hp =>
    obtain ⟨th', ht', hal⟩ := hw.threads t _ ht
    have hlt := (List.getElem?_eq_some_iff.mp ht).1
    cases hal with
    | @running _ _ q href =>
      obtain ⟨hp', hsim⟩ := h.kill ⟨t, c⟩ p q _ _ hw.sim hl hp
      exact ⟨_, (Machine.Reaches.refl).kill ht' hp', hw.set h hlt hl hsim (.killed c)⟩

/-- Every run of the fine machine is a run of the coarse one. -/
theorem Valid.reaches (h : D.Valid s₀ s₀') {w : World σ κ Resp ε α}
    (hr : D.fine.Reaches D.finePolicy (World.start s₀) w) :
    ∃ w', D.coarse.Reaches D.coarsePolicy (World.start s₀') w' ∧ D.Follows w w' := by
  induction hr with
  | refl => exact ⟨_, .refl, h.start, fun t th ht => by simp [World.start] at ht, rfl⟩
  | tail e hr hn ih =>
    obtain ⟨w', hr', hw⟩ := ih
    obtain ⟨w₁', hr₁, hw₁⟩ := h.step hr hw hn
    exact ⟨w₁', hr'.trans hr₁, hw₁⟩

end Projection

end Concurrency
