import NoOverlap.Concurrency.Footprint

/-!
# Rely-guarantee reasoning for pools

A `RelyGuarantee` says what holds of the shared state at every moment (`Inv`),
what a thread may count on between two of its own operations (`Rely`), what each
of its operations does (`Guar`), and what its answer promises (`Post`).  A
thread that has not started yet, or has been killed, is described by `Fresh` and
`Lost`.

`Safe a Q p s` reads: from `s`, whatever the other threads do in between, every
operation of `p` keeps the invariant and the guarantee, and the result satisfies
`Q`.  It is a weakest precondition, computed by recursion on the program, so a
proof about a program follows the program.

`Sound.holds` is the theorem the proofs below are for: if every call is safe
when it starts, every reachable world satisfies the invariant, every running
thread is safe for what remains of it, and the promise of every returned thread
still stands.
-/

namespace Concurrency

variable {Op : Type} {Resp : Op → Type} {ε α β κ σ χ : Type}

structure RelyGuarantee (σ κ : Type) {Op : Type} (Resp : Op → Type) (ε α : Type) where
  /-- The operations a thread may perform, as a relation on shared states. -/
  Step : Agent κ → σ → (o : Op) → Except ε (Resp o) → σ → Prop
  Inv : σ → Prop
  Rely : Nat → σ → σ → Prop
  Guar : Agent κ → σ → (o : Op) → Except ε (Resp o) → σ → Prop
  Post : Agent κ → Except ε α → σ → Prop
  Fresh : Nat → σ → Prop
  Lost : Agent κ → σ → Prop

namespace RelyGuarantee

variable (D : RelyGuarantee σ κ Resp ε α)

def Safe (a : Agent κ) (Q : Except ε β → σ → Prop) : Prog Resp ε β → σ → Prop
  | .done r, s => Q r s
  | .call o k, s => ∀ s₁, D.Rely a.tid s s₁ → D.Inv s₁ → ∀ r s₂, D.Step a s₁ o r s₂ →
      D.Inv s₂ ∧ D.Guar a s₁ o r s₂ ∧ Safe a Q (k r) s₂

variable {D} {a : Agent κ} {s s' : σ}

@[simp] theorem safe_done {Q : Except ε β → σ → Prop} {r : Except ε β} :
    D.Safe a Q (.done r) s ↔ Q r s := Iff.rfl

@[simp] theorem safe_pure {Q : Except ε β → σ → Prop} {b : β} :
    D.Safe a Q (pure b) s ↔ Q (.ok b) s := Iff.rfl

@[simp] theorem safe_throw {Q : Except ε β → σ → Prop} {e : ε} :
    D.Safe a Q (throw e) s ↔ Q (.error e) s := Iff.rfl

/-- Weaken the promise. -/
theorem Safe.imp {Q Q' : Except ε β → σ → Prop} {p : Prog Resp ε β} (h : D.Safe a Q p s)
    (hQ : ∀ r s', Q r s' → Q' r s') : D.Safe a Q' p s := by
  induction p generalizing s with
  | done r => exact hQ r s h
  | call o k ih =>
    intro s₁ hr hi r s₂ hx
    obtain ⟨h₁, h₂, h₃⟩ := h s₁ hr hi r s₂ hx
    exact ⟨h₁, h₂, ih r h₃⟩

/-- What follows a program, by how the program ends. -/
def Cont (D : RelyGuarantee σ κ Resp ε α) {γ : Type} (a : Agent κ)
    (Q : Except ε γ → σ → Prop) (f : β → Prog Resp ε γ) : Except ε β → σ → Prop
  | .ok b, s => D.Safe a Q (f b) s
  | .error e, s => Q (.error e) s

@[simp] theorem cont_ok {γ : Type} {Q : Except ε γ → σ → Prop} {f : β → Prog Resp ε γ} {b : β} :
    D.Cont a Q f (.ok b) s ↔ D.Safe a Q (f b) s := Iff.rfl

@[simp] theorem cont_error {γ : Type} {Q : Except ε γ → σ → Prop} {f : β → Prog Resp ε γ}
    {e : ε} : D.Cont a Q f (.error e) s ↔ Q (.error e) s := Iff.rfl

theorem Safe.bind {γ : Type} {Q : Except ε γ → σ → Prop} {p : Prog Resp ε β}
    {f : β → Prog Resp ε γ} (h : D.Safe a (D.Cont a Q f) p s) : D.Safe a Q (p >>= f) s := by
  induction p generalizing s with
  | done r =>
    cases r with
    | ok b => exact h
    | error e => exact h
  | call o k ih =>
    intro s₁ hr hi r s₂ hx
    obtain ⟨h₁, h₂, h₃⟩ := h s₁ hr hi r s₂ hx
    exact ⟨h₁, h₂, ih r h₃⟩

/-- One program after another, with one assertion throughout. -/
theorem Safe.seq {γ : Type} {K : σ → Prop} {p : Prog Resp ε β} {f : β → Prog Resp ε γ}
    (hp : D.Safe a (fun _ => K) p s) (hf : ∀ b s', K s' → D.Safe a (fun _ => K) (f b) s') :
    D.Safe a (fun _ => K) (p >>= f) s := by
  refine Safe.bind (hp.imp fun r s' hk => ?_)
  cases r with
  | ok b => exact hf b s' hk
  | error e => exact hk

/-- What follows a program under a handler. -/
def Caught (D : RelyGuarantee σ κ Resp ε α) (a : Agent κ) (Q : Except ε β → σ → Prop)
    (h : ε → Prog Resp ε β) : Except ε β → σ → Prop
  | .ok b, s => Q (.ok b) s
  | .error e, s => D.Safe a Q (h e) s

@[simp] theorem caught_ok {Q : Except ε β → σ → Prop} {h : ε → Prog Resp ε β} {b : β} :
    D.Caught a Q h (.ok b) s ↔ Q (.ok b) s := Iff.rfl

@[simp] theorem caught_error {Q : Except ε β → σ → Prop} {h : ε → Prog Resp ε β} {e : ε} :
    D.Caught a Q h (.error e) s ↔ D.Safe a Q (h e) s := Iff.rfl

theorem Safe.tryCatch {Q : Except ε β → σ → Prop} {p : Prog Resp ε β} {h : ε → Prog Resp ε β}
    (hp : D.Safe a (D.Caught a Q h) p s) : D.Safe a Q (tryCatch p h) s := by
  induction p generalizing s with
  | done r =>
    cases r with
    | ok b => exact hp
    | error e => exact hp
  | call o k ih =>
    intro s₁ hr hi r s₂ hx
    obtain ⟨h₁, h₂, h₃⟩ := hp s₁ hr hi r s₂ hx
    exact ⟨h₁, h₂, ih r h₃⟩

/-- A handler, with one assertion throughout. -/
theorem Safe.rescue {K : σ → Prop} {p : Prog Resp ε β} {h : ε → Prog Resp ε β}
    (hp : D.Safe a (fun _ => K) p s) (hh : ∀ e s', K s' → D.Safe a (fun _ => K) (h e) s') :
    D.Safe a (fun _ => K) (MonadExcept.tryCatch p h) s := by
  refine Safe.tryCatch (hp.imp fun r s' hk => ?_)
  cases r with
  | ok b => exact hk
  | error e => exact hh e s' hk

/-- One operation, then the rest. -/
theorem Safe.op_bind {γ : Type} {Q : Except ε γ → σ → Prop} {o : Op}
    {f : Resp o → Prog Resp ε γ}
    (h : ∀ s₁, D.Rely a.tid s s₁ → D.Inv s₁ → ∀ r s₂, D.Step a s₁ o r s₂ →
      D.Inv s₂ ∧ D.Guar a s₁ o r s₂ ∧ D.Cont a Q f r s₂) :
    D.Safe a Q (Prog.op o >>= f) s := Safe.bind h

/-- A program stays safe while other threads move. -/
theorem Safe.stable {Q : Except ε β → σ → Prop} {p : Prog Resp ε β}
    (htrans : ∀ s₁ s₂ s₃, D.Rely a.tid s₁ s₂ → D.Rely a.tid s₂ s₃ → D.Rely a.tid s₁ s₃)
    (hQ : ∀ r s s', D.Rely a.tid s s' → D.Inv s' → Q r s → Q r s')
    (h : D.Safe a Q p s) (hr : D.Rely a.tid s s') (hi : D.Inv s') : D.Safe a Q p s' := by
  cases p with
  | done r => exact hQ r s s' hr hi h
  | call o k => exact fun s₁ hr₁ => h s₁ (htrans _ _ _ hr hr₁)

/-- A program is safe if every operation of its footprint is.  `K` is what the
thread knows throughout. -/
theorem Safe.of_uses {A : Op → Prop} {K : σ → Prop} {p : Prog Resp ε β}
    (hrely : ∀ s s', D.Rely a.tid s s' → K s → K s')
    (hstep : ∀ s o r s', A o → D.Inv s → K s → D.Step a s o r s' →
      D.Inv s' ∧ D.Guar a s o r s' ∧ K s')
    (hp : p.Uses A) (hk : K s) : D.Safe a (fun _ => K) p s := by
  induction p generalizing s with
  | done r => exact hk
  | call o k ih =>
    intro s₁ hr hi r s₂ hx
    obtain ⟨hi₂, hg, hk₂⟩ := hstep s₁ o r s₂ hp.1 hi (hrely s s₁ hr hk) hx
    exact ⟨hi₂, hg, ih r (hp.2 r) hk₂⟩

/-- What a program can end with is also promised. -/
theorem Safe.of_returns {Q : Except ε β → σ → Prop} {R : β → Prop} {p : Prog Resp ε β}
    (h : D.Safe a Q p s) (hp : p.Returns R) :
    D.Safe a (fun r s => Q r s ∧ ∀ b, r = .ok b → R b) p s := by
  induction p generalizing s with
  | done r =>
    refine ⟨h, fun b hb => ?_⟩
    cases hb
    exact hp
  | call o k ih =>
    intro s₁ hr hi r s₂ hx
    obtain ⟨h₁, h₂, h₃⟩ := h s₁ hr hi r s₂ hx
    exact ⟨h₁, h₂, ih r h₃ (hp r)⟩

/-- What is known of a thread. -/
def ThreadOk (D : RelyGuarantee σ κ Resp ε α) (t : Nat) : Thread κ Resp ε α → σ → Prop
  | .running c p, s => D.Safe ⟨t, c⟩ (D.Post ⟨t, c⟩) p s
  | .returned c r, s => D.Post ⟨t, c⟩ r s
  | .killed c, s => D.Lost ⟨t, c⟩ s

/-- The conditions under which `D` describes the runs of `M` under `P`. -/
structure Sound (D : RelyGuarantee σ κ Resp ε α) (M : Machine σ κ χ Resp ε α)
    (P : Policy σ κ χ Resp ε α) (s₀ : σ) : Prop where
  start : D.Inv s₀
  fresh_start : ∀ t, D.Fresh t s₀
  rely_refl : ∀ t s, D.Rely t s s
  rely_trans : ∀ t s₁ s₂ s₃, D.Rely t s₁ s₂ → D.Rely t s₂ s₃ → D.Rely t s₁ s₃
  guar_rely : ∀ a t s o r s', a.tid ≠ t → D.Guar a s o r s' → D.Rely t s s'
  fresh_stable : ∀ t s s', D.Rely t s s' → D.Fresh t s → D.Fresh t s'
  post_stable : ∀ a r s s', D.Rely a.tid s s' → D.Inv s' → D.Post a r s → D.Post a r s'
  lost_stable : ∀ a s s', D.Rely a.tid s s' → D.Lost a s → D.Lost a s'
  step : ∀ w, M.Reaches P (World.start s₀) w → ∀ t c o k ch r s',
    w.threads[t]? = some (.running c (.call o k)) → P.op ⟨t, c⟩ ch o w.shared = true →
    M.exec t ch o w.shared = some (r, s') → D.Step ⟨t, c⟩ w.shared o r s'
  spawn : ∀ t c s s', D.Inv s → D.Fresh t s → P.spawn c s = true → M.spawned c s = some s' →
    D.Inv s' ∧ (∀ u, D.Rely u s s') ∧ D.Safe ⟨t, c⟩ (D.Post ⟨t, c⟩) (M.program c) s'
  ret : ∀ t c r s, D.Inv s → D.Post ⟨t, c⟩ r s →
    D.Inv (M.returned t c r s) ∧ (∀ u, D.Rely u s (M.returned t c r s))
  kill : ∀ t c p s, D.Inv s → P.kill ⟨t, c⟩ p s = true →
    D.Inv (M.killed t c s) ∧ (∀ u, u ≠ t → D.Rely u s (M.killed t c s)) ∧
      D.Lost ⟨t, c⟩ (M.killed t c s)

namespace Sound

variable {M : Machine σ κ χ Resp ε α} {P : Policy σ κ χ Resp ε α} {s₀ : σ}

/-- The invariant, what is known of every thread, and that no state is claimed
yet by a thread that has not started. -/
def Holds (D : RelyGuarantee σ κ Resp ε α) (w : World σ κ Resp ε α) : Prop :=
  D.Inv w.shared ∧ (∀ t th, w.threads[t]? = some th → D.ThreadOk t th w.shared) ∧
    ∀ t, w.threads.length ≤ t → D.Fresh t w.shared

theorem threadOk_stable (h : Sound D M P s₀) {t : Nat} {th : Thread κ Resp ε α}
    (hr : D.Rely t s s') (hi : D.Inv s') (ht : D.ThreadOk t th s) : D.ThreadOk t th s' := by
  cases th with
  | running c p =>
    exact Safe.stable (h.rely_trans t) (fun r s s' => h.post_stable ⟨t, c⟩ r s s') ht hr hi
  | returned c r => exact h.post_stable ⟨t, c⟩ r _ _ hr hi ht
  | killed c => exact h.lost_stable ⟨t, c⟩ _ _ hr ht

theorem lt_of_getElem?_eq_some {l : List β} {i : Nat} {b : β} (h : l[i]? = some b) :
    i < l.length := (List.getElem?_eq_some_iff.mp h).1

/-- Thread `t` becomes `th`, and every other thread keeps what is known of it. -/
theorem holds_set (h : Sound D M P s₀) {w : World σ κ Resp ε α} {t : Nat}
    {th : Thread κ Resp ε α} (hw : Holds D w) (hlt : t < w.threads.length) (hi : D.Inv s')
    (hr : ∀ u, u ≠ t → D.Rely u w.shared s') (ht : D.ThreadOk t th s') :
    Holds D { shared := s', threads := w.threads.set t th } := by
  refine ⟨hi, fun u uh hu => ?_, fun u hu => ?_⟩
  · rcases getElem?_of_set hu with ⟨rfl, rfl⟩ | ⟨hne, hold⟩
    · exact ht
    · exact h.threadOk_stable (hr u hne) hi (hw.2.1 u uh hold)
  · rw [List.length_set] at hu
    have hne : u ≠ t := by omega
    exact h.fresh_stable u _ _ (hr u hne) (hw.2.2 u hu)

theorem holds_moves (h : Sound D M P s₀) {w w' : World σ κ Resp ε α} {e : Event κ χ}
    (hr : M.Reaches P (World.start s₀) w) (hw : Holds D w) (hm : M.Moves P w e w') :
    Holds D w' := by
  cases hm with
  | @spawn c s hp hs =>
    obtain ⟨hi, hrely, hsafe⟩ := h.spawn _ c _ _ hw.1 (hw.2.2 _ (Nat.le_refl _)) hp hs
    refine ⟨hi, fun u uh hu => ?_, fun u hu => ?_⟩
    · rcases getElem?_of_append hu with ⟨rfl, rfl⟩ | hold
      · exact hsafe
      · exact h.threadOk_stable (hrely u) hi (hw.2.1 u uh hold)
    · rw [List.length_append, List.length_singleton] at hu
      have hle : w.threads.length ≤ u := by omega
      exact h.fresh_stable u _ _ (hrely u) (hw.2.2 u hle)
  | @step t ch c o k r s ht hp hx =>
    have hsafe : D.Safe ⟨t, c⟩ (D.Post ⟨t, c⟩) (.call o k) w.shared := hw.2.1 t _ ht
    obtain ⟨hi, hg, hk⟩ := hsafe _ (h.rely_refl t _) hw.1 r s (h.step w hr t c o k ch r s ht hp hx)
    exact h.holds_set hw (lt_of_getElem?_eq_some ht) hi
      (fun u hu => h.guar_rely ⟨t, c⟩ u _ o r _ (Ne.symm hu) hg) hk
  | @ret t c r ht =>
    have hpost : D.Post ⟨t, c⟩ r w.shared := hw.2.1 t _ ht
    obtain ⟨hi, hrely⟩ := h.ret t c r _ hw.1 hpost
    exact h.holds_set hw (lt_of_getElem?_eq_some ht) hi (fun u _ => hrely u)
      (h.post_stable ⟨t, c⟩ r _ _ (hrely t) hi hpost)
  | @kill t c p ht hp =>
    obtain ⟨hi, hrely, hlost⟩ := h.kill t c p _ hw.1 hp
    exact h.holds_set hw (lt_of_getElem?_eq_some ht) hi hrely hlost

/-- Induction over the run. -/
theorem holds (h : Sound D M P s₀) {w : World σ κ Resp ε α}
    (hr : M.Reaches P (World.start s₀) w) : Holds D w := by
  induction hr with
  | refl => exact ⟨h.start, by simp [World.start], fun t _ => h.fresh_start t⟩
  | tail e hr hn ih => exact h.holds_moves hr ih (Machine.next_moves M P hn)

theorem inv (h : Sound D M P s₀) {w : World σ κ Resp ε α}
    (hr : M.Reaches P (World.start s₀) w) : D.Inv w.shared := (h.holds hr).1

theorem post (h : Sound D M P s₀) {w : World σ κ Resp ε α}
    (hr : M.Reaches P (World.start s₀) w) {t : Nat} {c : κ} {r : Except ε α}
    (ht : w.threads[t]? = some (.returned c r)) : D.Post ⟨t, c⟩ r w.shared :=
  (h.holds hr).2.1 t _ ht

/-- Every operation performed in a run respects the guarantee. -/
theorem guar (h : Sound D M P s₀) {w : World σ κ Resp ε α}
    (hr : M.Reaches P (World.start s₀) w) {t : Nat} {c : κ} {o : Op}
    {k : Except ε (Resp o) → Prog Resp ε α} {ch : χ} {r : Except ε (Resp o)}
    (ht : w.threads[t]? = some (.running c (.call o k)))
    (hp : P.op ⟨t, c⟩ ch o w.shared = true) (hx : M.exec t ch o w.shared = some (r, s')) :
    D.Inv s' ∧ D.Guar ⟨t, c⟩ w.shared o r s' := by
  have hw := h.holds hr
  have hsafe : D.Safe ⟨t, c⟩ (D.Post ⟨t, c⟩) (.call o k) w.shared := hw.2.1 t _ ht
  obtain ⟨hi, hg, -⟩ := hsafe _ (h.rely_refl t _) hw.1 r s' (h.step w hr t c o k ch r s' ht hp hx)
  exact ⟨hi, hg⟩

/-- What a thread that has not started yet sees of a run is interference. -/
theorem rely_of_moves (h : Sound D M P s₀) {w w' : World σ κ Resp ε α} {e : Event κ χ}
    (hr : M.Reaches P (World.start s₀) w) (hm : M.Moves P w e w') {u : Nat}
    (hu : w.threads.length ≤ u) : D.Rely u w.shared w'.shared := by
  have hw := h.holds hr
  cases hm with
  | @spawn c s hp hs => exact (h.spawn _ c _ _ hw.1 (hw.2.2 _ (Nat.le_refl _)) hp hs).2.1 u
  | @step t ch c o k r s ht hp hx =>
    have hne : t ≠ u := Nat.ne_of_lt (Nat.lt_of_lt_of_le (lt_of_getElem?_eq_some ht) hu)
    exact h.guar_rely ⟨t, c⟩ u _ o r _ hne (h.guar hr ht hp hx).2
  | @ret t c r ht =>
    have hpost : D.Post ⟨t, c⟩ r w.shared := hw.2.1 t _ ht
    exact (h.ret t c r _ hw.1 hpost).2 u
  | @kill t c p ht hp =>
    have hne : u ≠ t := Nat.ne_of_gt (Nat.lt_of_lt_of_le (lt_of_getElem?_eq_some ht) hu)
    exact (h.kill t c p _ hw.1 hp).2.1 u hne

theorem rely_of_reaches (h : Sound D M P s₀) {w w' : World σ κ Resp ε α}
    (hr : M.Reaches P (World.start s₀) w) (hr' : M.Reaches P w w') {u : Nat}
    (hu : w'.threads.length ≤ u) : D.Rely u w.shared w'.shared := by
  induction hr' with
  | refl => exact h.rely_refl u _
  | tail e hr₁ hn ih =>
    have hm := Machine.next_moves M P hn
    have hle := Nat.le_trans hm.length_le hu
    exact h.rely_trans u _ _ _ (ih hle) (h.rely_of_moves (hr.trans hr₁) hm hle)

/-- Every entry of a history is accounted for by the call of the thread that made it. -/
theorem accounts (h : Sound D M P s₀) {E : Type} {L : σ → List E} {i : E → Nat}
    {A : κ → E → σ → Prop} (h₀ : L s₀ = [])
    (hstable : ∀ t s s' c e, D.Rely t s s' → A c e s → A c e s')
    (hspawn : ∀ c s s', M.spawned c s = some s' → L s' = L s)
    (hop : ∀ a s o r s', D.Step a s o r s' → D.Guar a s o r s' →
      ∀ e ∈ L s', e ∈ L s ∨ i e = a.tid ∧ A a.call e s')
    (hret : ∀ t c r s, L (M.returned t c r s) = L s)
    (hkill : ∀ t c s, L (M.killed t c s) = L s) {w : World σ κ Resp ε α}
    (hr : M.Reaches P (World.start s₀) w) :
    ∀ e ∈ L w.shared, ∃ th, w.threads[i e]? = some th ∧ A th.call e w.shared := by
  induction hr with
  | refl =>
    intro e he
    rw [show L (World.start s₀ : World σ κ Resp ε α).shared = L s₀ from rfl, h₀] at he
    cases he
  | @tail w w' ev hr hn ih =>
    have hm := Machine.next_moves M P hn
    have hrely := h.rely_of_moves hr hm (Nat.le_refl _)
    have hold : ∀ e ∈ L w.shared,
        ∃ th, w'.threads[i e]? = some th ∧ A th.call e w'.shared := by
      intro e he
      obtain ⟨th, ht, hacc⟩ := ih e he
      obtain ⟨th', ht', hc⟩ := hm.call_eq ht
      exact ⟨th', ht', hc ▸ hstable _ _ _ _ _ hrely hacc⟩
    intro e he
    cases hm with
    | spawn hp hs => exact hold e (hspawn _ _ _ hs ▸ he)
    | @step t ch c o k r s ht hp hx =>
      have hstep := h.step w hr t c o k ch r s ht hp hx
      rcases hop ⟨t, c⟩ w.shared o r s hstep (h.guar hr ht hp hx).2 e he with he | ⟨htid, hacc⟩
      · exact hold e he
      · have hlt := lt_of_getElem?_eq_some ht
        exact ⟨_, (congrArg _ htid).trans (List.getElem?_set_self hlt), hacc⟩
    | ret ht => exact hold e (hret _ _ _ _ ▸ he)
    | kill ht hp => exact hold e (hkill _ _ _ ▸ he)

/-- An invariant that needs the guarantee and a stricter policy. -/
theorem inv_of_guar (h : Sound D M P s₀) {R : Policy σ κ χ Resp ε α} {I : σ → Prop}
    (hs : ∀ c s, R.spawn c s = true → P.spawn c s = true)
    (ho : ∀ a ch o s, R.op a ch o s = true → P.op a ch o s = true)
    (hk : ∀ a p s, R.kill a p s = true → P.kill a p s = true) (h₀ : I s₀)
    (hspawn : ∀ c s s', I s → M.spawned c s = some s' → I s')
    (hop : ∀ t c ch o s r s', R.op ⟨t, c⟩ ch o s = true → D.Inv s → I s →
      M.exec t ch o s = some (r, s') → D.Guar ⟨t, c⟩ s o r s' → I s')
    (hret : ∀ t c r s, I s → I (M.returned t c r s)) (hkill : ∀ t c s, I s → I (M.killed t c s))
    {w : World σ κ Resp ε α} (hr : M.Reaches R (World.start s₀) w) : I w.shared := by
  induction hr with
  | refl => exact h₀
  | tail e hr hn ih =>
    have hr' := hr.relax hs ho hk
    cases Machine.next_moves M R hn with
    | spawn hp hx => exact hspawn _ _ _ ih hx
    | step ht hp hx =>
      exact hop _ _ _ _ _ _ _ hp (h.inv hr') ih hx (h.guar hr' ht (ho _ _ _ _ hp) hx).2
    | ret ht => exact hret _ _ _ _ ih
    | kill ht hp => exact hkill _ _ _ ih

/-- What is known of one thread, for a promise of its own. -/
def Follows (D : RelyGuarantee σ κ Resp ε α) (a : Agent κ) (Q : Except ε α → σ → Prop) :
    Thread κ Resp ε α → σ → Prop
  | .running c p, s => c = a.call ∧ D.Safe a Q p s
  | .returned c r, s => c = a.call ∧ Q r s
  | .killed c, _ => c = a.call

/-- A thread that is safe for some promise keeps it. -/
theorem follows_of_reaches (h : Sound D M P s₀) {a : Agent κ} {Q : Except ε α → σ → Prop}
    (hQ : ∀ r s s', D.Rely a.tid s s' → D.Inv s' → Q r s → Q r s') {w w' : World σ κ Resp ε α}
    (hr : M.Reaches P (World.start s₀) w) (hr' : M.Reaches P w w') {th : Thread κ Resp ε α}
    (ht : w.threads[a.tid]? = some th) (hf : Follows D a Q th w.shared) :
    ∃ th', w'.threads[a.tid]? = some th' ∧ Follows D a Q th' w'.shared := by
  induction hr' with
  | refl => exact ⟨th, ht, hf⟩
  | @tail w₁ w₂ e hr₁ hn ih =>
    obtain ⟨th₁, ht₁, hf₁⟩ := ih
    have hreach := hr.trans hr₁
    have hi := h.inv hreach
    have hi' := h.inv (.tail e hreach hn)
    -- Another thread moves.
    have hstay : D.Rely a.tid w₁.shared w₂.shared → w₂.threads[a.tid]? = some th₁ →
        ∃ th', w₂.threads[a.tid]? = some th' ∧ Follows D a Q th' w₂.shared := by
      intro hrely ht₂
      refine ⟨th₁, ht₂, ?_⟩
      cases th₁ with
      | running c p => exact ⟨hf₁.1, Safe.stable (h.rely_trans _) hQ hf₁.2 hrely hi'⟩
      | returned c r => exact ⟨hf₁.1, hQ r _ _ hrely hi' hf₁.2⟩
      | killed c => exact hf₁
    cases Machine.next_moves M P hn with
    | @spawn c s hp hs =>
      have hfresh := (h.holds hreach).2.2 _ (Nat.le_refl _)
      refine hstay ((h.spawn _ c _ _ hi hfresh hp hs).2.1 _) ?_
      exact (List.getElem?_append_left (lt_of_getElem?_eq_some ht₁)).trans ht₁
    | @step t ch c o k r s ht hp hx =>
      by_cases heq : t = a.tid
      · subst heq
        have hth : Thread.running c (.call o k) = th₁ := Option.some.inj (ht.symm.trans ht₁)
        subst hth
        obtain ⟨rfl, hsafe⟩ := hf₁
        have hstep := h.step w₁ hreach _ _ o k ch r s ht hp hx
        obtain ⟨-, -, hk⟩ := hsafe _ (h.rely_refl _ _) hi r s hstep
        exact ⟨_, List.getElem?_set_self (lt_of_getElem?_eq_some ht), rfl, hk⟩
      · have hguar := (h.guar hreach ht hp hx).2
        refine hstay (h.guar_rely _ _ _ _ _ _ heq hguar) ?_
        exact (List.getElem?_set_ne heq).trans ht₁
    | @ret t c r ht =>
      have hpost : D.Post ⟨t, c⟩ r w₁.shared := (h.holds hreach).2.1 t _ ht
      have hrely := (h.ret t c r _ hi hpost).2 a.tid
      by_cases heq : t = a.tid
      · subst heq
        have hth : Thread.running c (.done r) = th₁ := Option.some.inj (ht.symm.trans ht₁)
        subst hth
        obtain ⟨rfl, hsafe⟩ := hf₁
        exact ⟨_, List.getElem?_set_self (lt_of_getElem?_eq_some ht), rfl, hQ r _ _ hrely hi' hsafe⟩
      · exact hstay hrely ((List.getElem?_set_ne heq).trans ht₁)
    | @kill t c p ht hp =>
      by_cases heq : t = a.tid
      · subst heq
        have hth : Thread.running c p = th₁ := Option.some.inj (ht.symm.trans ht₁)
        subst hth
        exact ⟨_, List.getElem?_set_self (lt_of_getElem?_eq_some ht), hf₁.1⟩
      · exact hstay ((h.kill t c p _ hi hp).2.1 _ (Ne.symm heq)) ((List.getElem?_set_ne heq).trans ht₁)

end Sound

end RelyGuarantee

end Concurrency
