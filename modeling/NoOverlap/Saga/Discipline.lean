import NoOverlap.Payments.Gateway
import NoOverlap.Seam.Programs

/-!
# Reasoning about the saga

The seam holds in every run, so the arguments about refunds can take it for granted.
A `Saga` adds to it what one such argument needs: the conditions on the run, a
property of the store that every statement keeps, and what a call promises when it
returns.  The history of a run names the thread of every status write and of every
charge, so a promise can speak of what the call itself has done.
-/

namespace NoOverlap

open Relational Concurrency RelyGuarantee

/-- What is known of every reachable store. -/
structure Facts (s : Store) : Prop where
  inv : Seam.Inv s
  logged : Logged s.db

structure Saga where
  policy : Policy
  Keeps : Store → Prop
  Fresh : Nat → Store → Prop
  Post : Agent → Except Err Reply → Store → Prop

namespace Saga

/-- Threads other than `t` have moved. -/
structure Rely (t : Nat) (s s' : Store) : Prop where
  grows : Grows s s'
  log : ∀ e ∈ s'.db.statusLog, e.tid = t → e ∈ s.db.statusLog
  charges : ∀ c ∈ s'.provider.charges, c.tid = t → c ∈ s.provider.charges

theorem Rely.refl (t : Nat) (s : Store) : Rely t s s :=
  ⟨Grows.refl s, fun _ h _ => h, fun _ h _ => h⟩

theorem Rely.trans {t : Nat} {s₁ s₂ s₃ : Store} (h : Rely t s₁ s₂) (h' : Rely t s₂ s₃) :
    Rely t s₁ s₃ :=
  ⟨h.grows.trans h'.grows, fun e he ht => h.log e (h'.log e he ht) ht,
    fun c hc ht => h.charges c (h'.charges c hc ht) ht⟩

def discipline (S : Saga) : RelyGuarantee Store Call Statement.Resp Err Reply :=
  { Step := fun a s o r s' => a.call.Issues o ∧ Facts s' ∧
      ∃ ch, S.policy.op a ch o s = true ∧ o.exec a.tid ch s = some (r, s')
    Inv := fun s => Facts s ∧ S.Keeps s
    Rely := Rely
    Guar := fun a s _ _ s' => ∀ t, t ≠ a.tid → Rely t s s'
    Post := S.Post
    Fresh := S.Fresh
    Lost := fun _ _ => True }

variable {S : Saga} {a : Agent} {s s' : Store}

/-- The entries a statement adds to the history are its own thread's. -/
theorem rely_of_exec {t : Nat} {ch : Choice} {o : Statement} {r : Except Err o.Resp} {c : Call}
    (hi : c.Issues o) (hx : o.exec t ch s = some (r, s')) {u : Nat} (hu : u ≠ t) :
    Rely u s s' := by
  have hg := Grows.of_exec hi hx
  rcases Statement.exec_cases hx with ⟨rfl, -⟩ | ⟨r', hx, -⟩
  · exact Rely.refl u _
  cases o with
  | db o =>
    obtain ⟨d, hd, rfl⟩ := Statement.perform_db hx
    refine ⟨hg, fun e he ht => ?_, fun _ h _ => h⟩
    rcases (Database.effect_of_perform hd).reservations with ⟨-, hl⟩ | ⟨tx, -, -, rfl⟩ | hw
    · exact hl ▸ he
    · exact he
    · rcases (hw.log e).mp he with he | ⟨htid, -⟩
      · exact he
      · exact (hu (ht.symm.trans htid)).elim
  | queue o => cases hx; exact ⟨hg, fun _ h _ => h, fun _ h _ => h⟩
  | provider o =>
    cases hx
    refine ⟨hg, fun _ h _ => h, fun c hc ht => ?_⟩
    cases o with
    | charge key amountCents =>
      rcases List.mem_append.mp hc with hc | hc
      · exact hc
      · rw [List.mem_singleton.mp hc] at ht
        exact (hu ht.symm).elim
    | refund key => exact hc
  | redis o => cases hx; exact ⟨hg, fun _ h _ => h, fun _ h _ => h⟩
  | host o =>
    obtain ⟨m, rfl⟩ := Statement.perform_host hx
    exact ⟨hg, fun _ h _ => h, fun _ h _ => h⟩

/-- The statements that write neither history. -/
def silent : Statement → Bool
  | .queue _ | .redis _ | .host _ => true
  | _ => false

/-- A silent statement looks to its own thread as if another had issued it. -/
theorem rely_of_silent {t u : Nat} {ch : Choice} {o : Statement} {r : Except Err o.Resp}
    {c : Call} (hi : c.Issues o) (ho : silent o = true) (hx : o.exec t ch s = some (r, s')) :
    Rely u s s' := by
  have hg := Grows.of_exec hi hx
  rcases Statement.exec_cases hx with ⟨rfl, -⟩ | ⟨r', hx, -⟩
  · exact Rely.refl u _
  cases o with
  | db o => cases ho
  | provider o => cases ho
  | queue o => cases hx; exact ⟨hg, fun _ h _ => h, fun _ h _ => h⟩
  | redis o => cases hx; exact ⟨hg, fun _ h _ => h, fun _ h _ => h⟩
  | host o =>
    obtain ⟨m, rfl⟩ := Statement.perform_host hx
    exact ⟨hg, fun _ h _ => h, fun _ h _ => h⟩

/-! ## Rules -/

/-- A thread that was at `s` has issued a statement in `s₁`. -/
structure Turn (S : Saga) (a : Agent) (s : Store) (ch : Choice) (o : Statement) (s₁ : Store)
    (r : Except Err o.Resp) (s₂ : Store) : Prop where
  rely : Rely a.tid s s₁
  before : Facts s₁
  keeps : S.Keeps s₁
  issues : a.call.Issues o
  policy : S.policy.op a ch o s₁ = true
  exec : o.exec a.tid ch s₁ = some (r, s₂)
  after : Facts s₂

theorem Turn.grows {ch : Choice} {o : Statement} {s₁ s₂ : Store} {r : Except Err o.Resp}
    (h : Turn S a s ch o s₁ r s₂) : Grows s₁ s₂ := Grows.of_exec h.issues h.exec

theorem Turn.known {ch : Choice} {o : Statement} {s₁ s₂ : Store} {r : Except Err o.Resp}
    (h : Turn S a s ch o s₁ r s₂) : Grows s s₂ := h.rely.grows.trans h.grows

/-- One statement, and the rest. -/
theorem safe_op {γ : Type} {Q : Except Err γ → Store → Prop} {o : Statement}
    {f : o.Resp → Async γ}
    (h : ∀ ch s₁ r s₂, Turn S a s ch o s₁ r s₂ → S.Keeps s₂ ∧ S.discipline.Cont a Q f r s₂) :
    S.discipline.Safe a Q (await o >>= f) s := by
  refine Safe.op_bind fun s₁ hr hi r s₂ hx => ?_
  obtain ⟨hiss, hfacts, ch, hp, hx⟩ := hx
  obtain ⟨hk, hc⟩ := h ch s₁ r s₂ ⟨hr, hi.1, hi.2, hiss, hp, hx, hfacts⟩
  exact ⟨⟨hfacts, hk⟩, fun u hu => rely_of_exec hiss hx hu, hc⟩

/-- One statement, and nothing after it. -/
theorem safe_last {o : Statement} {Q : Except Err o.Resp → Store → Prop}
    (h : ∀ ch s₁ r s₂, Turn S a s ch o s₁ r s₂ → S.Keeps s₂ ∧ Q r s₂) :
    S.discipline.Safe a Q (await o) s := by
  intro s₁ hr hi r s₂ hx
  obtain ⟨hiss, hfacts, ch, hp, hx⟩ := hx
  obtain ⟨hk, hq⟩ := h ch s₁ r s₂ ⟨hr, hi.1, hi.2, hiss, hp, hx, hfacts⟩
  exact ⟨⟨hfacts, hk⟩, fun u hu => rely_of_exec hiss hx hu, hq⟩

/-- A program every statement of which keeps what has to be kept, by what the thread
knows. -/
theorem safe_of_uses {α : Type} {A : Statement → Prop} {K : Store → Prop} {p : Async α}
    (hp : p.Uses A) (hk : K s) (hK : ∀ s s', Rely a.tid s s' → K s → K s')
    (h : ∀ ch o s₁ r s₂, A o → K s₁ → Turn S a s₁ ch o s₁ r s₂ → S.Keeps s₂ ∧ K s₂) :
    S.discipline.Safe a (fun _ => K) p s := by
  refine Safe.of_uses hK ?_ hp hk
  rintro s₁ o r s₂ ho hi hk ⟨hiss, hfacts, ch, hp, hx⟩
  obtain ⟨hkeeps, hk₂⟩ := h ch o s₁ r s₂ ho hk ⟨.refl _ _, hi.1, hi.2, hiss, hp, hx, hfacts⟩
  exact ⟨⟨hfacts, hkeeps⟩, fun u hu => rely_of_exec hiss hx hu, hk₂⟩

/-! ## Soundness -/

section Sound

variable {ttl : Int} {listings : Table Listing}

theorem facts_of_reaches {P : Policy} (hP : ∀ c s, P.spawn c s = true → c.external = true)
    {w : World} (hr : (system { holdTtlMs := ttl, provider := gateway }).Reaches P
      (initial listings) w) : Facts w.shared where
  inv := (Seam.sound ttl listings).inv
    (hr.relax hP (fun _ _ _ _ _ => rfl) fun _ _ _ _ => rfl)
  logged := logged_of_reaches
    (hr.relax (fun _ _ _ => rfl) (fun _ _ _ _ _ => rfl) fun _ _ _ _ => rfl)

theorem Facts.of_same {q : Queues} (h : Facts s) (hq : s.queues.Same q) :
    Facts { s with queues := q } := ⟨Seam.inv_of_same h.inv hq, h.logged⟩

theorem Rely.of_same {t : Nat} {q : Queues} (hq : s.queues.Same q) :
    Rely t s { s with queues := q } := ⟨.of_same hq, fun _ h _ => h, fun _ h _ => h⟩

/-- What is left to show for a saga. -/
structure Valid (S : Saga) (ttl : Int) (listings : Table Listing) : Prop where
  external : ∀ c s, S.policy.spawn c s = true → c.external = true
  start : S.Keeps (Store.init listings)
  fresh_start : ∀ t, S.Fresh t (Store.init listings)
  fresh_stable : ∀ t s s', Rely t s s' → S.Fresh t s → S.Fresh t s'
  post_stable : ∀ a r s s', Rely a.tid s s' → Facts s' → S.Post a r s → S.Post a r s'
  spawn : ∀ t c s q, Facts s → S.Keeps s → S.Fresh t s → c.external = true →
    s.spawned c = some { s with queues := q } → s.queues.Same q →
    S.Keeps { s with queues := q } ∧ S.discipline.Safe ⟨t, c⟩ (S.Post ⟨t, c⟩)
      (c.program { holdTtlMs := ttl, provider := gateway }) { s with queues := q }
  ret : ∀ t c r s, Facts s → S.Keeps s → S.Post ⟨t, c⟩ r s → S.Keeps (Store.returned t c r s)
  kill : ∀ t s, S.Keeps s → S.Keeps { s with db := s.db.rollback t }

theorem Valid.sound (h : Valid S ttl listings) :
    Sound S.discipline (system { holdTtlMs := ttl, provider := gateway }) S.policy
      (Store.init listings) where
  start := ⟨facts_of_reaches h.external (.refl (M := system { holdTtlMs := ttl, provider := gateway })), h.start⟩
  fresh_start := h.fresh_start
  rely_refl := Rely.refl
  rely_trans := fun _ _ _ _ => Rely.trans
  guar_rely := fun a t _ _ _ _ hne hg => hg t (Ne.symm hne)
  fresh_stable := h.fresh_stable
  post_stable := fun a r s s' hr hi => h.post_stable a r s s' hr hi.1
  lost_stable := fun _ _ _ _ _ => trivial
  step := fun w hr t c o k ch r s' ht hp hx =>
    ⟨hr.uses_head (program_issues _) ht,
      facts_of_reaches h.external (hr.step ht hp hx), ch, hp, hx⟩
  spawn := by
    intro t c s s' hi hfresh hp hs
    obtain ⟨q, rfl, hq⟩ := same_of_spawned hs
    obtain ⟨hk, hsafe⟩ := h.spawn t c s q hi.1 hi.2 hfresh (h.external c s hp) hs hq
    exact ⟨⟨Facts.of_same hi.1 hq, hk⟩, fun u => .of_same hq, hsafe⟩
  ret := by
    intro t c r s hi hpost
    have hk := h.ret t c r s hi.1 hi.2 hpost
    obtain ⟨q, he, hq⟩ := same_of_returned t c r s
    rw [show (system { holdTtlMs := ttl, provider := gateway }).returned t c r s = _ from he]
    rw [he] at hk
    exact ⟨⟨Facts.of_same hi.1 hq, hk⟩, fun u => .of_same hq⟩
  kill := by
    intro t c p s hi _
    exact ⟨⟨⟨Seam.inv_of_rollback hi.1.inv t, hi.1.logged.rollback t⟩, h.kill t s hi.2⟩,
      fun u _ => ⟨.of_rollback t s, fun _ h _ => h, fun _ h _ => h⟩, trivial⟩

end Sound

end Saga

end NoOverlap
