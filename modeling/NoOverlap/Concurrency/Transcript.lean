import NoOverlap.Concurrency.Memory

/-!
# The transcript of a thread

What a thread has asked and been told, in order, with the shared state before and after each
answer.  A transcript determines how far a program has come: `p.Leads L q` says that `p`, told
what `L` says, goes on as `q`.

`M.transcribing` keeps the transcript of every thread beside the shared state.  Between two
entries of one thread lies what the others have done, of which `R` is all that is known.
`Tells` is a finished program seen so, and its rules take the transcript apart as the program
is put together: the reasoning is that of a sequential program, with gaps.
-/

namespace Concurrency

variable {Op : Type} {Resp : Op → Type} {ε α β κ σ χ : Type}

/-- An operation, its answer, and the shared state before and after. -/
structure Entry (σ : Type) {Op : Type} (Resp : Op → Type) (ε : Type) where
  op : Op
  answer : Except ε (Resp op)
  before : σ
  after : σ

namespace Prog

/-- With the answers of `L`, the program `p` comes to `q`. -/
inductive Leads : Prog Resp ε α → List (Entry σ Resp ε) → Prog Resp ε α → Prop where
  | nil (p : Prog Resp ε α) : Leads p [] p
  | cons {o : Op} {k : Except ε (Resp o) → Prog Resp ε α} {r : Except ε (Resp o)} {s s' : σ}
      {L : List (Entry σ Resp ε)} {q : Prog Resp ε α} (h : Leads (k r) L q) :
      Leads (.call o k) (⟨o, r, s, s'⟩ :: L) q

variable {p q q' : Prog Resp ε α} {L L' : List (Entry σ Resp ε)} {f : α → Prog Resp ε β}
  {g : ε → Prog Resp ε α} {r : Except ε α}

theorem Leads.append (h : p.Leads L q) (h' : q.Leads L' q') : p.Leads (L ++ L') q' := by
  induction h with
  | nil p => exact h'
  | cons h ih => exact .cons (ih h')

/-- One more answer. -/
theorem Leads.snoc {o : Op} {k : Except ε (Resp o) → Prog Resp ε α} (h : p.Leads L (.call o k))
    (r : Except ε (Resp o)) (s s' : σ) : p.Leads (L ++ [⟨o, r, s, s'⟩]) (k r) :=
  h.append (.cons (.nil _))

theorem Leads.unique (h : p.Leads L q) (h' : p.Leads L q') : q = q' := by
  induction h with
  | nil p =>
    cases h'
    rfl
  | cons h ih =>
    cases h' with
    | cons h' => exact ih h'

theorem Leads.bind (h : p.Leads L q) : (p >>= f).Leads L (q >>= f) := by
  induction h with
  | nil p => exact .nil _
  | cons h ih => exact .cons ih

theorem bind_bind {γ : Type} (p : Prog Resp ε α) (f : α → Prog Resp ε β) (g : β → Prog Resp ε γ) :
    (p >>= f) >>= g = p >>= fun a => f a >>= g := by
  induction p with
  | done r => cases r <;> rfl
  | call o k ih =>
    show call o _ = call o _
    congr 1
    funext r
    exact ih r

theorem bind_pure (p : Prog Resp ε α) : p >>= pure = p := by
  induction p with
  | done r => cases r <;> rfl
  | call o k ih =>
    show call o _ = call o _
    congr 1
    funext r
    exact ih r

theorem leads_op {o : Op} (r : Except ε (Resp o)) (s s' : σ) :
    (op o : Prog Resp ε (Resp o)).Leads [⟨o, r, s, s'⟩] (.done r) := .cons (.nil _)

/-- A finished program does not come any further. -/
theorem Leads.done_inv {r' : Except ε α} (h : (done r).Leads L (done r')) : L = [] ∧ r' = r := by
  cases h
  exact ⟨rfl, rfl⟩

/-- What follows the end of a program. -/
def Onward (f : α → Prog Resp ε β) : Except ε α → List (Entry σ Resp ε) → Except ε β → Prop
  | .ok a, L, r => (f a).Leads L (.done r)
  | .error e, L, r => L = [] ∧ r = .error e

/-- What follows the end of a program under a handler. -/
def Rescued (g : ε → Prog Resp ε α) : Except ε α → List (Entry σ Resp ε) → Except ε α → Prop
  | .ok a, L, r => L = [] ∧ r = .ok a
  | .error e, L, r => (g e).Leads L (.done r)

theorem Leads.of_bind {r : Except ε β} (h : (p >>= f).Leads L (.done r)) :
    ∃ L₁ L₂ r₁, L = L₁ ++ L₂ ∧ p.Leads L₁ (.done r₁) ∧ Onward f r₁ L₂ r := by
  induction p generalizing L with
  | done r₁ =>
    refine ⟨[], L, r₁, rfl, .nil _, ?_⟩
    cases r₁ with
    | ok a => exact h
    | error e => exact h.done_inv
  | call o k ih =>
    cases h with
    | cons h =>
      obtain ⟨L₁, L₂, r₁, rfl, h₁, h₂⟩ := ih _ h
      exact ⟨_ :: L₁, L₂, r₁, rfl, .cons h₁, h₂⟩

theorem Leads.of_tryCatch (h : (tryCatch p g).Leads L (.done r)) :
    ∃ L₁ L₂ r₁, L = L₁ ++ L₂ ∧ p.Leads L₁ (.done r₁) ∧ Rescued g r₁ L₂ r := by
  induction p generalizing L with
  | done r₁ =>
    refine ⟨[], L, r₁, rfl, .nil _, ?_⟩
    cases r₁ with
    | ok a => exact h.done_inv
    | error e => exact h
  | call o k ih =>
    cases h with
    | cons h =>
      obtain ⟨L₁, L₂, r₁, rfl, h₁, h₂⟩ := ih _ h
      exact ⟨_ :: L₁, L₂, r₁, rfl, .cons h₁, h₂⟩

/-- A loop whose body always succeeds comes to every round. -/
theorem leads_forM {f : β → Prog Resp ε PUnit} {l : List β} {r : Except ε PUnit}
    (hf : ∀ b (L : List (Entry σ Resp ε)) r, (f b).Leads L (.done r) → r = .ok ⟨⟩)
    (h : (l.forM f).Leads L (.done r)) {b : β} (hb : b ∈ l) :
    ∃ L₁ L₂, ∃ g : PUnit → Prog Resp ε PUnit, L = L₁ ++ L₂ ∧ (l.forM f).Leads L₁ (f b >>= g) := by
  induction l generalizing L with
  | nil => cases hb
  | cons a l ih =>
    rcases List.mem_cons.mp hb with rfl | hb
    · exact ⟨[], L, fun _ => l.forM f, rfl, .nil _⟩
    · obtain ⟨L₀, L', r₀, rfl, h₀, h'⟩ := h.of_bind
      have hr := hf a L₀ r₀ h₀
      subst hr
      obtain ⟨L₁, L₂, g, rfl, hg⟩ := ih h' hb
      exact ⟨L₀ ++ L₁, L₂, g, (List.append_assoc ..).symm, h₀.bind.append hg⟩

end Prog

/-! ## Entries in their context -/

/-- The entries follow one another: `R` lies between two of them, and `E` holds of each, given
those before it. -/
inductive Chained (R : σ → σ → Prop) (E : List (Entry σ Resp ε) → Entry σ Resp ε → Prop) :
    List (Entry σ Resp ε) → σ → List (Entry σ Resp ε) → Prop where
  | nil {pre : List (Entry σ Resp ε)} {s : σ} : Chained R E pre s []
  | cons {pre L : List (Entry σ Resp ε)} {s : σ} {e : Entry σ Resp ε} (hr : R s e.before)
      (he : E pre e) (h : Chained R E (pre ++ [e]) e.after L) : Chained R E pre s (e :: L)

/-- The shared state when the last entry was made. -/
def last (s : σ) (L : List (Entry σ Resp ε)) : σ := L.foldl (fun _ e => e.after) s

@[simp] theorem last_nil (s : σ) : last s ([] : List (Entry σ Resp ε)) = s := rfl

@[simp] theorem last_cons (s : σ) (e : Entry σ Resp ε) (L : List (Entry σ Resp ε)) :
    last s (e :: L) = last e.after L := rfl

@[simp] theorem last_append (s : σ) (L L' : List (Entry σ Resp ε)) :
    last s (L ++ L') = last (last s L) L' := List.foldl_append

variable {R : σ → σ → Prop} {E : List (Entry σ Resp ε) → Entry σ Resp ε → Prop}
  {pre L L₁ L₂ : List (Entry σ Resp ε)} {s : σ}

theorem chained_append :
    Chained R E pre s (L₁ ++ L₂) ↔
      Chained R E pre s L₁ ∧ Chained R E (pre ++ L₁) (last s L₁) L₂ := by
  induction L₁ generalizing pre s with
  | nil => simp [Chained.nil]
  | cons e L ih =>
    constructor
    · intro h
      cases h with
      | cons hr he h =>
        obtain ⟨h₁, h₂⟩ := ih.mp h
        rw [List.append_assoc] at h₂
        exact ⟨.cons hr he h₁, h₂⟩
    · rintro ⟨h₁, h₂⟩
      cases h₁ with
      | cons hr he h₁ =>
        refine .cons hr he (ih.mpr ⟨h₁, ?_⟩)
        rw [List.append_assoc]
        exact h₂

theorem Chained.imp {E' : List (Entry σ Resp ε) → Entry σ Resp ε → Prop}
    (h : Chained R E pre s L) (hE : ∀ pre e, E pre e → E' pre e) : Chained R E' pre s L := by
  induction h with
  | nil => exact .nil
  | cons hr he _ ih => exact .cons hr (hE _ _ he) ih

theorem Chained.exists_of_mem (h : Chained R E pre s L) {e : Entry σ Resp ε} (he : e ∈ L) :
    ∃ pre, E pre e := by
  induction h with
  | nil => cases he
  | cons hr hE _ ih =>
    rcases List.mem_cons.mp he with rfl | he
    · exact ⟨_, hE⟩
    · exact ih he

/-- What the gaps and the entries keep. -/
theorem Chained.keeps {K : σ → Prop} (hR : ∀ s s', R s s' → K s → K s') (h : Chained R E pre s L)
    (hE : ∀ e ∈ L, ∀ pre, E pre e → K e.before → K e.after) (hs : K s) : K (last s L) := by
  induction h with
  | nil => exact hs
  | cons hr he _ ih =>
    have hafter := hE _ List.mem_cons_self _ he (hR _ _ hr hs)
    exact ih (fun e h => hE e (List.mem_cons_of_mem _ h)) hafter

/-! ## A finished program -/

/-- From `s`, with `pre` behind it, `p` has been told `L` and has ended with `r`. -/
structure Tells (R : σ → σ → Prop) (E : List (Entry σ Resp ε) → Entry σ Resp ε → Prop)
    (pre : List (Entry σ Resp ε)) (s : σ) (p : Prog Resp ε α) (L : List (Entry σ Resp ε))
    (r : Except ε α) : Prop where
  chained : Chained R E pre s L
  leads : p.Leads L (.done r)

/-- What follows the end of a program. -/
def Goes (R : σ → σ → Prop) (E : List (Entry σ Resp ε) → Entry σ Resp ε → Prop)
    (f : α → Prog Resp ε β) (r₁ : Except ε α) (pre : List (Entry σ Resp ε)) (s : σ)
    (L : List (Entry σ Resp ε)) (r : Except ε β) : Prop :=
  match r₁ with
  | .ok a => Tells R E pre s (f a) L r
  | .error e => L = [] ∧ r = .error e

namespace Tells

variable {p : Prog Resp ε α} {f : α → Prog Resp ε β} {g : ε → Prog Resp ε α} {r : Except ε α}

theorem of_done {r' : Except ε α} (h : Tells R E pre s (.done r) L r') : L = [] ∧ r' = r :=
  h.leads.done_inv

theorem of_pure {a : α} (h : Tells R E pre s (pure a) L r) : L = [] ∧ r = .ok a := h.of_done

theorem of_throw {e : ε} (h : Tells R E pre s (throw e) L r) : L = [] ∧ r = .error e := h.of_done

theorem of_bind {r : Except ε β} (h : Tells R E pre s (p >>= f) L r) :
    ∃ L₁ L₂ r₁, L = L₁ ++ L₂ ∧ Tells R E pre s p L₁ r₁ ∧
      Goes R E f r₁ (pre ++ L₁) (last s L₁) L₂ r := by
  obtain ⟨L₁, L₂, r₁, rfl, h₁, h₂⟩ := h.leads.of_bind
  obtain ⟨hc₁, hc₂⟩ := chained_append.mp h.chained
  refine ⟨L₁, L₂, r₁, rfl, ⟨hc₁, h₁⟩, ?_⟩
  cases r₁ with
  | ok a => exact ⟨hc₂, h₂⟩
  | error e => exact h₂

theorem of_tryCatch (h : Tells R E pre s (tryCatch p g) L r) :
    ∃ L₁ L₂ r₁, L = L₁ ++ L₂ ∧ Tells R E pre s p L₁ r₁ ∧
      ((∃ a, r₁ = .ok a ∧ L₂ = [] ∧ r = .ok a) ∨
        ∃ e, r₁ = .error e ∧ Tells R E (pre ++ L₁) (last s L₁) (g e) L₂ r) := by
  obtain ⟨L₁, L₂, r₁, rfl, h₁, h₂⟩ := h.leads.of_tryCatch
  obtain ⟨hc₁, hc₂⟩ := chained_append.mp h.chained
  refine ⟨L₁, L₂, r₁, rfl, ⟨hc₁, h₁⟩, ?_⟩
  cases r₁ with
  | ok a => exact .inl ⟨a, rfl, h₂⟩
  | error e => exact .inr ⟨e, rfl, hc₂, h₂⟩

theorem of_op {o : Op} {r : Except ε (Resp o)} (h : Tells R E pre s (Prog.op o) L r) :
    ∃ s₁ s₂, L = [⟨o, r, s₁, s₂⟩] ∧ R s s₁ ∧ E pre ⟨o, r, s₁, s₂⟩ := by
  obtain ⟨hc, hl⟩ := h
  cases hl with
  | cons hl =>
    obtain ⟨rfl, rfl⟩ := hl.done_inv
    cases hc with
    | cons hr he _ => exact ⟨_, _, rfl, hr, he⟩

/-- The first operation, and the rest. -/
theorem of_op_bind {o : Op} {f : Resp o → Prog Resp ε β} {r : Except ε β}
    (h : Tells R E pre s (Prog.op o >>= f) L r) :
    ∃ r₁ s₁ s₂ L', L = ⟨o, r₁, s₁, s₂⟩ :: L' ∧ R s s₁ ∧ E pre ⟨o, r₁, s₁, s₂⟩ ∧
      Goes R E f r₁ (pre ++ [⟨o, r₁, s₁, s₂⟩]) s₂ L' r := by
  obtain ⟨L₁, L', r₁, rfl, h₁, h₂⟩ := h.of_bind
  obtain ⟨s₁, s₂, rfl, hr, he⟩ := h₁.of_op
  exact ⟨r₁, s₁, s₂, L', rfl, hr, he, h₂⟩

/-- The entries of a program that stays within a footprint. -/
theorem uses {A : Op → Prop} (h : Tells R E pre s p L r) (hp : p.Uses A) : ∀ e ∈ L, A e.op := by
  obtain ⟨hc, hl⟩ := h
  clear hc
  induction p generalizing L with
  | done r₁ =>
    obtain ⟨rfl, -⟩ := hl.done_inv
    exact fun e he => by cases he
  | call o k ih =>
    cases hl with
    | cons hl =>
      intro e he
      rcases List.mem_cons.mp he with rfl | he
      · exact hp.1
      · exact ih _ (hp.2 _) hl e he

end Tells

/-! ## Transcripts in a pool -/

namespace Machine

/-- `M` with the transcripts of its threads. -/
abbrev transcribing (M : Machine σ κ χ Resp ε α) :
    Machine (σ × (Nat → List (Entry σ Resp ε))) κ χ Resp ε α :=
  M.recording fun o r s s' L => L ++ [⟨o, r, s, s'⟩]

/-- Whatever the others do lies in `R`, and `F` holds of a thread that has not started. -/
structure Interference (M : Machine σ κ χ Resp ε α) (R : Nat → σ → σ → Prop) (F : Nat → σ → Prop)
    (s₀ : σ) : Prop where
  start : ∀ t, F t s₀
  refl : ∀ t s, R t s s
  trans : ∀ t s₁ s₂ s₃, R t s₁ s₂ → R t s₂ s₃ → R t s₁ s₃
  fresh : ∀ t s s', R t s s' → F t s → F t s'
  exec : ∀ t u ch o s r s', u ≠ t → M.exec u ch o s = some (r, s') → R t s s'
  spawned : ∀ t c s s', M.spawned c s = some s' → R t s s'
  returned : ∀ t u c r s, R t s (M.returned u c r s)
  killed : ∀ t u c s, u ≠ t → R t s (M.killed u c s)

variable {M : Machine σ κ χ Resp ε α} {R : Nat → σ → σ → Prop} {F : Nat → σ → Prop} {s₀ : σ}
  {Q : Policy (σ × (Nat → List (Entry σ Resp ε))) κ χ Resp ε α}

/-- The operation was allowed where it took place, and did what the entry says. -/
def Noted (M : Machine σ κ χ Resp ε α)
    (Q : Policy (σ × (Nat → List (Entry σ Resp ε))) κ χ Resp ε α) (a : Agent κ)
    (pre : List (Entry σ Resp ε)) (e : Entry σ Resp ε) : Prop :=
  ∃ ch m, m a.tid = pre ∧ Q.op a ch e.op (e.before, m) = true ∧
    M.exec a.tid ch e.op e.before = some (e.answer, e.after)

/-- What a thread has come to. -/
def Comes (p : Prog Resp ε α) (L : List (Entry σ Resp ε)) : Thread κ Resp ε α → Prop
  | .running _ q => p.Leads L q
  | .returned _ r => p.Leads L (.done r)
  | .killed _ => True

/-- The transcript of a thread that lives is that of its program. -/
def Transcribed (M : Machine σ κ χ Resp ε α) (R : Nat → σ → σ → Prop) (F : Nat → σ → Prop)
    (Q : Policy (σ × (Nat → List (Entry σ Resp ε))) κ χ Resp ε α) (t : Nat)
    (th : Thread κ Resp ε α) (s : σ) (L : List (Entry σ Resp ε)) : Prop :=
  (∀ c, th ≠ .killed c) → ∃ s₁, F t s₁ ∧ Chained (R t) (M.Noted Q ⟨t, th.call⟩) [] s₁ L ∧
    R t (last s₁ L) s ∧ Comes (M.program th.call) L th

section Pool

variable {t : Nat} {th th' : Thread κ Resp ε α} {s s' : σ} {L : List (Entry σ Resp ε)}
  (hI : M.Interference R F s₀)
include hI

/-- Another thread moves. -/
theorem Transcribed.rely (h : M.Transcribed R F Q t th s L) (hr : R t s s') :
    M.Transcribed R F Q t th s' L := by
  intro hlive
  obtain ⟨s₁, hf, hc, hlast, hcomes⟩ := h hlive
  exact ⟨s₁, hf, hc, hI.trans _ _ _ _ hlast hr, hcomes⟩

/-- The thread performs an operation. -/
theorem Transcribed.perform {c : κ} {o : Op} {k : Except ε (Resp o) → Prog Resp ε α}
    (h : M.Transcribed R F Q t (.running c (.call o k)) s L) {ch : χ} {m : Nat → List (Entry σ Resp ε)}
    (hm : m t = L) (hq : Q.op ⟨t, c⟩ ch o (s, m) = true) {r : Except ε (Resp o)}
    (hx : M.exec t ch o s = some (r, s')) :
    M.Transcribed R F Q t (.running c (k r)) s' (L ++ [⟨o, r, s, s'⟩]) := by
  intro _
  obtain ⟨s₁, hf, hc, hlast, hcomes⟩ := h fun c h => by cases h
  refine ⟨s₁, hf, chained_append.mpr ⟨hc, .cons hlast ⟨ch, m, hm, hq, hx⟩ .nil⟩, ?_,
    Prog.Leads.snoc hcomes r s s'⟩
  rw [last_append]
  exact hI.refl t s'

end Pool

/-- What is known of a pool of threads and their transcripts. -/
def Transcripts (M : Machine σ κ χ Resp ε α) (R : Nat → σ → σ → Prop) (F : Nat → σ → Prop)
    (Q : Policy (σ × (Nat → List (Entry σ Resp ε))) κ χ Resp ε α)
    (w : World (σ × (Nat → List (Entry σ Resp ε))) κ Resp ε α) : Prop :=
  (∀ t th, w.threads[t]? = some th → M.Transcribed R F Q t th w.shared.1 (w.shared.2 t)) ∧
    ∀ t, w.threads.length ≤ t → w.shared.2 t = [] ∧ F t w.shared.1

theorem Interference.transcripts_set (hI : M.Interference R F s₀)
    {w : World (σ × (Nat → List (Entry σ Resp ε))) κ Resp ε α} (h : M.Transcripts R F Q w) {t : Nat}
    {th th' : Thread κ Resp ε α} (ht : w.threads[t]? = some th) {s : σ}
    {m : Nat → List (Entry σ Resp ε)} (hm : ∀ u, u ≠ t → m u = w.shared.2 u)
    (hr : ∀ u, u ≠ t → R u w.shared.1 s) (hth : M.Transcribed R F Q t th' s (m t)) :
    M.Transcripts R F Q { shared := (s, m), threads := w.threads.set t th' } := by
  have hlt : t < w.threads.length := (List.getElem?_eq_some_iff.mp ht).1
  refine ⟨fun u uh hu => ?_, fun u hu => ?_⟩
  · rcases getElem?_of_set hu with ⟨rfl, rfl⟩ | ⟨hne, hold⟩
    · exact hth
    · show M.Transcribed R F Q u uh s (m u)
      rw [hm u hne]
      exact (h.1 u uh hold).rely hI (hr u hne)
  · rw [List.length_set] at hu
    have hne : u ≠ t := by omega
    obtain ⟨hnil, hf⟩ := h.2 u hu
    exact ⟨(hm u hne).trans hnil, hI.fresh u _ _ (hr u hne) hf⟩

theorem Interference.transcripts (hI : M.Interference R F s₀)
    {w : World (σ × (Nat → List (Entry σ Resp ε))) κ Resp ε α}
    (h : M.transcribing.Reaches Q (World.start (s₀, fun _ => [])) w) : M.Transcripts R F Q w := by
  induction h with
  | refl => exact ⟨fun t th ht => by simp [World.start] at ht, fun t _ => ⟨rfl, hI.start t⟩⟩
  | @tail w w' e _ hn ih =>
    cases next_moves _ _ hn with
    | @spawn c s hq hx =>
      obtain ⟨hx', hm⟩ := spawned_recording hx
      have hr : ∀ u, R u w.shared.1 s.1 := fun u => hI.spawned u c _ _ hx'
      refine ⟨fun u uh hu => ?_, fun u hu => ?_⟩
      · show M.Transcribed R F Q u uh s.1 (s.2 u)
        rw [hm]
        rcases getElem?_of_append hu with ⟨rfl, rfl⟩ | hold
        · obtain ⟨hnil, hf⟩ := ih.2 _ (Nat.le_refl _)
          intro _
          rw [hnil]
          exact ⟨s.1, hI.fresh _ _ _ (hr _) hf, .nil, hI.refl _ _, .nil _⟩
        · exact (ih.1 u uh hold).rely hI (hr u)
      · rw [List.length_append, List.length_singleton] at hu
        have hle : w.threads.length ≤ u := by omega
        obtain ⟨hnil, hf⟩ := ih.2 u hle
        exact ⟨(congrFun hm u).trans hnil, hI.fresh u _ _ (hr u) hf⟩
    | @step t ch c o k r s ht hq hx =>
      obtain ⟨hx', hm⟩ := exec_recording hx
      have hth := (ih.1 t _ ht).perform hI (m := w.shared.2) rfl hq hx'
      refine hI.transcripts_set ih ht (fun u hne => ?_)
        (fun u hne => hI.exec u t _ _ _ _ _ (Ne.symm hne) hx') ?_
      · rw [hm, Function.update_of_ne hne]
      · rw [hm, Function.update_self]
        exact hth
    | @ret t c r ht =>
      refine hI.transcripts_set ih ht (fun _ _ => rfl) (fun u _ => hI.returned u t c r _) ?_
      intro _
      obtain ⟨s₁, hf, hc, hlast, hcomes⟩ := (ih.1 t _ ht).rely hI (hI.returned t t c r _)
        fun c h => by cases h
      exact ⟨s₁, hf, hc, hlast, hcomes⟩
    | @kill t c p ht hq =>
      refine hI.transcripts_set ih ht (fun _ _ => rfl) (fun u hne => hI.killed u t c _ (Ne.symm hne)) ?_
      exact fun hlive => (hlive c rfl).elim

/-- A thread that has returned tells what it has done. -/
theorem Interference.tells (hI : M.Interference R F s₀)
    {w : World (σ × (Nat → List (Entry σ Resp ε))) κ Resp ε α}
    (h : M.transcribing.Reaches Q (World.start (s₀, fun _ => [])) w) {t : Nat} {c : κ}
    {r : Except ε α} (ht : w.threads[t]? = some (.returned c r)) :
    ∃ s₁, F t s₁ ∧
      Tells (R t) (M.Noted Q ⟨t, c⟩) [] s₁ (M.program c) (w.shared.2 t) r := by
  obtain ⟨s₁, hf, hc, -, hcomes⟩ := (hI.transcripts h).1 t _ ht fun c h => by cases h
  exact ⟨s₁, hf, hc, hcomes⟩

end Machine

end Concurrency
