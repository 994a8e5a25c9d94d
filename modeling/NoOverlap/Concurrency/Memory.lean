import NoOverlap.Concurrency.Footprint

/-!
# What a thread has been told

`note` says what a thread remembers of the answer to an operation.  `p.Follows note allows g`
says that on every path of `p`, started with the memory `g`, each operation is one that the
memory of that moment allows.

`M.recording note` is the machine `M` with a record of every thread written beside the shared
state, where no operation reads it.  A run of one is a run of the other, so a statement about
runs may mention what a thread has been told or has done.
-/

namespace Concurrency

variable {Op : Type} {Resp : Op → Type} {ε α β κ σ χ γ : Type}

namespace Prog

variable {note : (o : Op) → Except ε (Resp o) → γ → γ} {allows : γ → Op → Prop} {g : γ}

def Follows (note : (o : Op) → Except ε (Resp o) → γ → γ) (allows : γ → Op → Prop) :
    γ → Prog Resp ε α → Prop
  | _, done _ => True
  | g, call o k => allows g o ∧ ∀ r, (k r).Follows note allows (note o r g)

/-- Operations that are allowed throughout and of which nothing is remembered. -/
theorem Follows.of_uses {p : Prog Resp ε α}
    (h : p.Uses fun o => allows g o ∧ ∀ r, note o r g = g) : p.Follows note allows g := by
  induction p with
  | done r => trivial
  | call o k ih =>
    refine ⟨h.1.1, fun r => ?_⟩
    rw [h.1.2 r]
    exact ih r (h.2 r)

/-- An operation of which something may be remembered, and the rest. -/
theorem Follows.op_bind {o : Op} {f : Resp o → Prog Resp ε β} (ho : allows g o)
    (hf : ∀ a, (f a).Follows note allows (note o (.ok a) g)) :
    (op o >>= f : Prog Resp ε β).Follows note allows g := by
  refine ⟨ho, fun r => ?_⟩
  cases r with
  | ok a => exact hf a
  | error e => trivial

/-- Only what is done with the result follows. -/
theorem Follows.map {p : Prog Resp ε α} (h : p.Follows note allows g) (f : α → β) :
    (p >>= fun a => pure (f a)).Follows note allows g := by
  induction p generalizing g with
  | done r => cases r <;> trivial
  | call o k ih => exact ⟨h.1, fun r => ih r (h.2 r)⟩

/-- Each operation is one that the memory allows, and the end is one that it promises. -/
def Runs (note : (o : Op) → Except ε (Resp o) → γ → γ) (allows : γ → Op → Prop)
    (fin : γ → Except ε α → Prop) : γ → Prog Resp ε α → Prop
  | g, done r => fin g r
  | g, call o k => allows g o ∧ ∀ r, (k r).Runs note allows fin (note o r g)

/-- What follows a program, by how the program ends. -/
def Then (note : (o : Op) → Except ε (Resp o) → γ → γ) (allows : γ → Op → Prop)
    (fin : γ → Except ε β → Prop) (f : α → Prog Resp ε β) (g : γ) : Except ε α → Prop
  | .ok a => (f a).Runs note allows fin g
  | .error e => fin g (.error e)

/-- What follows a program under a handler. -/
def Else (note : (o : Op) → Except ε (Resp o) → γ → γ) (allows : γ → Op → Prop)
    (fin : γ → Except ε α → Prop) (h : ε → Prog Resp ε α) (g : γ) : Except ε α → Prop
  | .ok a => fin g (.ok a)
  | .error e => (h e).Runs note allows fin g

theorem Runs.imp {fin fin' : γ → Except ε α → Prop} {p : Prog Resp ε α}
    (h : p.Runs note allows fin g) (hfin : ∀ g r, fin g r → fin' g r) :
    p.Runs note allows fin' g := by
  induction p generalizing g with
  | done r => exact hfin g r h
  | call o k ih => exact ⟨h.1, fun r => ih r (h.2 r)⟩

theorem Runs.bind {fin : γ → Except ε β → Prop} {p : Prog Resp ε α} {f : α → Prog Resp ε β}
    (h : p.Runs note allows (Then note allows fin f) g) : (p >>= f).Runs note allows fin g := by
  induction p generalizing g with
  | done r =>
    cases r with
    | ok a => exact h
    | error e => exact h
  | call o k ih => exact ⟨h.1, fun r => ih r (h.2 r)⟩

theorem Runs.tryCatch {fin : γ → Except ε α → Prop} {p : Prog Resp ε α} {h : ε → Prog Resp ε α}
    (hp : p.Runs note allows (Else note allows fin h) g) :
    (MonadExcept.tryCatch p h).Runs note allows fin g := by
  induction p generalizing g with
  | done r =>
    cases r with
    | ok a => exact hp
    | error e => exact hp
  | call o k ih => exact ⟨hp.1, fun r => ih r (hp.2 r)⟩

theorem Runs.op {fin : γ → Except ε β → Prop} {o : Op} {f : Resp o → Prog Resp ε β}
    (ho : allows g o) (hf : ∀ r, Then note allows fin f (note o r g) r) :
    (Prog.op o >>= f : Prog Resp ε β).Runs note allows fin g := Runs.bind ⟨ho, hf⟩

end Prog

/-! ## Records -/

/-- A world without the records of its threads. -/
def World.forget (w : World (σ × (Nat → γ)) κ Resp ε α) : World σ κ Resp ε α :=
  { shared := w.shared.1, threads := w.threads }

/-- The same policy, whatever is recorded. -/
def Policy.forgetful (P : Policy σ κ χ Resp ε α) : Policy (σ × (Nat → γ)) κ χ Resp ε α :=
  { spawn := fun c s => P.spawn c s.1
    op := fun a ch o s => P.op a ch o s.1
    kill := fun a p s => P.kill a p s.1 }

namespace Machine

variable (M : Machine σ κ χ Resp ε α)

/-- `note o r s s'` records for a thread that its operation `o` has answered `r` and has turned
`s` into `s'`. -/
def recording (note : (o : Op) → Except ε (Resp o) → σ → σ → γ → γ) :
    Machine (σ × (Nat → γ)) κ χ Resp ε α :=
  { program := M.program
    exec := fun t ch o s => (M.exec t ch o s.1).map fun x =>
      (x.1, x.2, Function.update s.2 t (note o x.1 s.1 x.2 (s.2 t)))
    spawned := fun c s => (M.spawned c s.1).map fun s' => (s', s.2)
    returned := fun t c r s => (M.returned t c r s.1, s.2)
    killed := fun t c s => (M.killed t c s.1, s.2) }

/-- A record of answers alone. -/
abbrev remembering (note : (o : Op) → Except ε (Resp o) → γ → γ) :
    Machine (σ × (Nat → γ)) κ χ Resp ε α := M.recording fun o r _ _ => note o r

variable {M} {s₀ : σ} {P : Policy σ κ χ Resp ε α} {Q : Policy (σ × (Nat → γ)) κ χ Resp ε α}

section Recording

variable {note : (o : Op) → Except ε (Resp o) → σ → σ → γ → γ}

theorem exec_recording {t : Nat} {ch : χ} {o : Op} {s s' : σ × (Nat → γ)} {r : Except ε (Resp o)}
    (hx : (M.recording note).exec t ch o s = some (r, s')) :
    M.exec t ch o s.1 = some (r, s'.1) ∧
      s'.2 = Function.update s.2 t (note o r s.1 s'.1 (s.2 t)) := by
  obtain ⟨⟨r', s₁⟩, hx', he⟩ := Option.map_eq_some_iff.mp hx
  cases he
  exact ⟨hx', rfl⟩

theorem spawned_recording {c : κ} {s s' : σ × (Nat → γ)}
    (hs : (M.recording note).spawned c s = some s') :
    M.spawned c s.1 = some s'.1 ∧ s'.2 = s.2 := by
  obtain ⟨s₁, hs', he⟩ := Option.map_eq_some_iff.mp hs
  cases he
  exact ⟨hs', rfl⟩

/-- A run with records is a run without. -/
theorem Reaches.forget (hs : ∀ c s, Q.spawn c s = true → P.spawn c s.1 = true)
    (ho : ∀ a ch o s, Q.op a ch o s = true → P.op a ch o s.1 = true)
    (hk : ∀ a p s, Q.kill a p s = true → P.kill a p s.1 = true)
    {w₀ w : World (σ × (Nat → γ)) κ Resp ε α} (h : (M.recording note).Reaches Q w₀ w) :
    M.Reaches P w₀.forget w.forget := by
  induction h with
  | refl => exact .refl
  | @tail w w' e _ hn ih =>
    refine .tail e ih ?_
    cases next_moves _ _ hn with
    | spawn hp hx =>
      have hx' := (spawned_recording hx).1
      simp only [next, World.forget, hs _ _ hp, if_true, hx', Option.map_some]
      rfl
    | step ht hp hx =>
      have hx' := (exec_recording hx).1
      simp only [next, World.forget, ht, ho _ _ _ _ hp, if_true, hx', Option.map_some]
    | ret ht =>
      simp only [next, World.forget, ht]
      rfl
    | kill ht hp =>
      simp only [next, World.forget, ht, hk _ _ _ hp, if_true]
      rfl

/-- A run without records is one with. -/
theorem Reaches.record {w : World σ κ Resp ε α} (h : M.Reaches P (World.start s₀) w)
    (note : (o : Op) → Except ε (Resp o) → σ → σ → γ → γ) (g₀ : γ) :
    ∃ m, (M.recording note).Reaches (Policy.forgetful P) (World.start (s₀, fun _ => g₀))
      { shared := (w.shared, m), threads := w.threads } := by
  induction h with
  | refl => exact ⟨_, .refl⟩
  | @tail w w' e _ hn ih =>
    obtain ⟨m, hm⟩ := ih
    cases next_moves _ _ hn with
    | @spawn c s hp hx =>
      exact ⟨m, .tail (.spawn c) hm (by simp [next, recording, Policy.forgetful, hp, hx])⟩
    | @step t ch c o k r s ht hp hx =>
      exact ⟨Function.update m t (note o r w.shared s (m t)),
        .tail (.step t ch) hm (by simp [next, recording, Policy.forgetful, ht, hp, hx])⟩
    | @ret t c r ht =>
      exact ⟨m, .tail (.ret t) hm (by simp [next, recording, ht])⟩
    | @kill t c p ht hp =>
      exact ⟨m, .tail (.kill t) hm (by simp [next, recording, Policy.forgetful, ht, hp])⟩

end Recording

/-! ## Memories -/

variable {note : (o : Op) → Except ε (Resp o) → γ → γ} {allows : γ → Op → Prop} {g₀ : γ}

/-- What remains of a thread follows from what it remembers, and a thread that has not
started remembers nothing. -/
def Told (note : (o : Op) → Except ε (Resp o) → γ → γ) (allows : γ → Op → Prop) (g₀ : γ)
    (w : World (σ × (Nat → γ)) κ Resp ε α) : Prop :=
  (∀ (t : Nat) (c : κ) (p : Prog Resp ε α), w.threads[t]? = some (.running c p) →
    p.Follows note allows (w.shared.2 t)) ∧ ∀ t, w.threads.length ≤ t → w.shared.2 t = g₀

theorem Told.set {w : World (σ × (Nat → γ)) κ Resp ε α} (h : Told note allows g₀ w) {t : Nat}
    {th th' : Thread κ Resp ε α} (ht : w.threads[t]? = some th) {s : σ} {m : Nat → γ}
    (hm : ∀ u, u ≠ t → m u = w.shared.2 u)
    (hth : ∀ c p, th' = .running c p → p.Follows note allows (m t)) :
    Told note allows g₀ { shared := (s, m), threads := w.threads.set t th' } := by
  have hlt : t < w.threads.length := (List.getElem?_eq_some_iff.mp ht).1
  refine ⟨fun u c p hu => ?_, fun u hu => ?_⟩
  · rcases getElem?_of_set hu with ⟨rfl, he⟩ | ⟨hne, hold⟩
    · exact hth c p he.symm
    · show p.Follows note allows (m u)
      rw [hm u hne]
      exact h.1 u c p hold
  · rw [List.length_set] at hu
    have hne : u ≠ t := by omega
    exact (hm u hne).trans (h.2 u hu)

theorem Reaches.told (hp : ∀ c, (M.program c).Follows note allows g₀)
    {w : World (σ × (Nat → γ)) κ Resp ε α}
    (h : (M.remembering note).Reaches Q (World.start (s₀, fun _ => g₀)) w) :
    Told note allows g₀ w := by
  induction h with
  | refl => exact ⟨fun t c p ht => by simp [World.start] at ht, fun _ _ => rfl⟩
  | @tail w w' e _ hn ih =>
    cases next_moves _ _ hn with
    | @spawn c s hq hx =>
      have hm := (spawned_recording hx).2
      refine ⟨fun u c' p hu => ?_, fun u hu => ?_⟩
      · show p.Follows note allows (s.2 u)
        rw [hm]
        rcases getElem?_of_append hu with ⟨rfl, he⟩ | hold
        · cases he
          rw [ih.2 _ (Nat.le_refl _)]
          exact hp c
        · exact ih.1 u c' p hold
      · rw [List.length_append, List.length_singleton] at hu
        have hle : w.threads.length ≤ u := by omega
        show s.2 u = g₀
        rw [hm]
        exact ih.2 u hle
    | @step t ch c o k r s ht hq hx =>
      have hm := (exec_recording hx).2
      refine Told.set ih ht (fun u hne => ?_) fun c' p he => ?_
      · rw [hm, Function.update_of_ne hne]
      · cases he
        rw [hm, Function.update_self]
        exact (ih.1 t c _ ht).2 r
    | @ret t c r ht => exact Told.set ih ht (fun _ _ => rfl) fun c' p he => by cases he
    | @kill t c p ht hq => exact Told.set ih ht (fun _ _ => rfl) fun c' p' he => by cases he

/-- The operation a thread is about to issue is one that it has been told to. -/
theorem Reaches.allowed (hp : ∀ c, (M.program c).Follows note allows g₀)
    {w : World (σ × (Nat → γ)) κ Resp ε α}
    (h : (M.remembering note).Reaches Q (World.start (s₀, fun _ => g₀)) w) {t : Nat} {c : κ}
    {o : Op} {k : Except ε (Resp o) → Prog Resp ε α}
    (ht : w.threads[t]? = some (.running c (.call o k))) : allows (w.shared.2 t) o :=
  ((h.told hp).1 t c _ ht).1

/-- Invariants that every operation keeps, each where it is allowed. -/
theorem Reaches.inv_of_follows {I : σ × (Nat → γ) → Prop}
    (hp : ∀ c, (M.program c).Follows note allows g₀) (h₀ : I (s₀, fun _ => g₀))
    (hspawn : ∀ c s s' m, I (s, m) → M.spawned c s = some s' → I (s', m))
    (hop : ∀ t ch o s m r s', allows (m t) o → I (s, m) → M.exec t ch o s = some (r, s') →
      I (s', Function.update m t (note o r (m t))))
    (hret : ∀ t c r s m, I (s, m) → I (M.returned t c r s, m))
    (hkill : ∀ t c s m, I (s, m) → I (M.killed t c s, m)) {w : World (σ × (Nat → γ)) κ Resp ε α}
    (h : (M.remembering note).Reaches Q (World.start (s₀, fun _ => g₀)) w) : I w.shared := by
  induction h with
  | refl => exact h₀
  | @tail w w' e hr hn ih =>
    cases next_moves _ _ hn with
    | @spawn c s hq hx =>
      obtain ⟨hx', hm⟩ := spawned_recording hx
      have hi := hspawn c w.shared.1 s.1 w.shared.2 ih hx'
      rwa [← hm] at hi
    | @step t ch c o k r s ht hq hx =>
      obtain ⟨hx', hm⟩ := exec_recording hx
      have hi := hop t ch o w.shared.1 w.shared.2 r s.1 (hr.allowed hp ht) ih hx'
      rwa [← hm] at hi
    | ret ht => exact hret _ _ _ _ _ ih
    | kill ht hq => exact hkill _ _ _ _ ih

end Machine

end Concurrency
