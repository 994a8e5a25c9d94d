import NoOverlap.Saga.Discipline

/-!
# Faults in the return half of the seam

The jobs of the result queue and of the refund queue have one attempt.  A processor
that throws leaves its job failed, whatever the job was to do.  `failsHarmlessly` is
the condition under which nothing is lost: a statement of these processors fails only
where the effect of the job is there already, or is brought about by the statement that
fails.
-/

namespace NoOverlap

open Relational Concurrency RelyGuarantee
open Concurrency.Prog

/-! ## The effect of a job -/

/-- A delivery of the result has moved the reservation to CONFIRMED. -/
def Confirmed (s : Store) (id : Id) : Prop :=
  ∃ e ∈ s.db.statusLog, e.id = id ∧ e.new = .confirmed

/-- The payment has been marked REFUNDED. -/
def Refunded (s : Store) (key : IdempotencyKey) : Prop :=
  ∃ e ∈ s.db.paymentLog, e.key = key ∧ e.new = .refunded

/-- What the job of a call is for has been done. -/
def Call.Applied : Call → Store → Prop
  | processResult _ (.succeeded m), s => Confirmed s m.reservationId ∨ Requested s m.reservationId
  | processResult _ (.failed m), s => Moved s m.reservationId
  | processRefund _ m, s => Refunded s m.idempotencyKey
  | _, _ => True

/-- The same, to be evaluated. -/
def Call.applied : Call → Store → Bool
  | processResult _ (.succeeded m), s =>
    (s.db.statusLog.any fun e => e.id == m.reservationId && e.new == .confirmed) ||
      (s.queues.refund.find? m.reservationId).isSome
  | processResult _ (.failed m), s => (s.statusOf m.reservationId).any (· != .held)
  | processRefund _ m, s =>
    s.db.paymentLog.any fun e => e.key == m.idempotencyKey && e.new == .refunded
  | _, _ => true

theorem Call.applied_iff {c : Call} {s : Store} : c.applied s = true ↔ c.Applied s := by
  cases c with
  | processResult jobId data =>
    cases data with
    | succeeded m =>
      simp [applied, Applied, Confirmed, Requested, Option.isSome_iff_exists]
    | failed m => simp [applied, Applied, Moved, Option.any_eq_true]
  | processRefund jobId m => simp [applied, Applied, Refunded]
  | _ => simp [applied, Applied]

theorem Call.Applied.grows {c : Call} {s s' : Store} (h : c.Applied s) (hg : Grows s s') :
    c.Applied s' := by
  cases c with
  | processResult jobId data =>
    cases data with
    | succeeded m =>
      rcases h with ⟨e, he, hc⟩ | h
      · exact .inl ⟨e, hg.db.statusLog e he, hc⟩
      · exact .inr (h.grows hg)
    | failed m => exact Moved.grows h hg
  | processRefund jobId m =>
    obtain ⟨e, he, hc⟩ := h
    exact ⟨e, hg.db.paymentLog e he, hc⟩
  | _ => trivial

/-- The job of a call is stored. -/
def Call.Serves : Call → Store → Prop
  | processResult id data, s => s.queues.result.Has id data
  | processRefund id data, s => s.queues.refund.Has id data
  | _, _ => True

theorem Call.Serves.grows {c : Call} {s s' : Store} (h : c.Serves s) (hg : Grows s s') :
    c.Serves s' := by
  cases c with
  | processResult id data => exact JobQueue.Has.keeps h hg.result
  | processRefund id data => exact JobQueue.Has.keeps h hg.refund
  | _ => trivial

/-! ## The condition -/

/-- If this statement takes place, the effect of the job is there. -/
def Statement.completes : Statement → Store → Bool
  | .db (.reservationUpdateMany filter _), s => filter.id.any fun id => s.statusOf id == some .held
  | .db (.paymentUpdate _ _), _ => true
  | .queue (.refundAdd _), _ => true
  | _, _ => false

/-- The statement fails, if it does, after it has taken place. -/
def Choice.after (ch : Choice) : Bool :=
  match ch.fault with
  | .after _ => true
  | _ => false

theorem perform_of_after {t : Nat} {ch : Choice} {o : Statement} {s s' : Store}
    {r : Except Err o.Resp} (h : ch.after = true) (hx : o.exec t ch s = some (r, s')) :
    ∃ r', o.perform t ch s = some (r', s') := by
  unfold Choice.after at h
  split at h
  · next e hf =>
    cases hfall : o.fallible with
    | false => exact ⟨r, (Statement.exec_of_not_fallible hfall).symm.trans hx⟩
    | true =>
      simp only [Statement.exec, hf, hfall] at hx
      obtain ⟨x, hp, he⟩ := Option.map_eq_some_iff.mp hx
      cases he
      exact ⟨x.1, hp⟩
  · cases h

/-- No charge records a decline over a payment that has been recorded as taken. -/
def keepsCaptures : Policy :=
  { anyRequest with
    op := fun _ _ o s => match o with
      | .db (.paymentUpdate key (.failed _)) => (s.paymentOf key).all (!·.took)
      | _ => true }

/-- The processors of results and refunds fail harmlessly, and no charge records a decline
over a capture. -/
def failsHarmlessly : Policy :=
  { anyRequest with
    op := fun a ch o s => keepsCaptures.op a ch o s && match a.call with
      | .processResult _ _ | .processRefund _ _ =>
        ch.fault == .none || a.call.applied s || (ch.after && o.completes s)
      | _ => true }

/-- The payload of the job passes the schema of its processor. -/
def Call.accepts : Call → Bool
  | processResult _ data => (paymentResultSchema data).isOk
  | _ => true

/-- A payment that has been recorded as taken is one still, or has been given back. -/
def CapturesKept (s : Store) : Prop :=
  ∀ key, Seam.Taken s key → ∃ p, s.db.payments.find? key = some p ∧ p.status.took = true

/-- No job that its processor accepts ends with its effect missing. -/
structure Effective (s : Store) : Prop where
  kept : CapturesKept s
  result : ∀ id j, s.queues.result.find? id = some j → (paymentResultSchema j.data).isOk = true →
    j.state.finished = true → (Call.processResult id j.data).Applied s
  refund : ∀ id j, s.queues.refund.find? id = some j → j.state.finished = true →
    (Call.processRefund id j.data).Applied s

def faults : Saga :=
  { policy := failsHarmlessly
    Keeps := Effective
    Fresh := fun _ _ => True
    Post := fun a _ s => a.call.Serves s ∧ (a.call.accepts = true → a.call.Applied s) }

namespace Faults

variable {a : Agent} {s s' : Store} {t : Nat}

/-! ## What every statement keeps -/

/-- Where no decline is recorded over it, a capture is kept. -/
theorem captures_of_exec {ch : Choice} {o : Statement} {r : Except Err o.Resp}
    (h : CapturesKept s) (hp : keepsCaptures.op a ch o s = true)
    (hx : o.exec t ch s = some (r, s')) : CapturesKept s' := by
  rcases Statement.exec_db hx with he | ⟨o, rfl, r', hd⟩
  · simp only [CapturesKept, Seam.Taken, he]
    exact h
  rintro key ⟨e, he, rfl, hn⟩
  rcases (Database.effect_of_perform hd).payments with
    ⟨hrows, hlog⟩ | ⟨data, row, -, -, -, -, -, hrows, hlog⟩ | ⟨k, u, p, rfl, hf, hrows, hlog⟩
  · rw [hrows]
    exact h e.key ⟨e, hlog ▸ he, rfl, hn⟩
  · obtain ⟨p, hp, ht⟩ := h e.key ⟨e, hlog ▸ he, rfl, hn⟩
    exact ⟨p, by rw [hrows]; exact Table.find?_insert_of_some hp, ht⟩
  have htook : ∀ p', s.db.payments.find? k = some p' → p'.status.took = true →
      u.status.took = true := by
    intro p' hf' ht
    cases u with
    | failed reason =>
      simp only [keepsCaptures, Store.paymentOf, hf', Option.map_some, Option.all_some, ht] at hp
      cases hp
    | _ => rfl
  rw [hlog] at he
  rcases List.mem_append.mp he with he | he
  · obtain ⟨p', hp', ht⟩ := h e.key ⟨e, he, rfl, hn⟩
    simp only [hrows, Table.find?_update, hp', Option.map_some, Option.some.injEq, exists_eq_left']
    split
    · next hc =>
      have hk : e.key = k := (Table.key_of_find? hp').symm.trans (beq_iff_eq.mp hc)
      rw [PaymentUpdate.apply_status]
      exact htook p' (hk ▸ hp') ht
    · exact ht
  · cases List.mem_singleton.mp he
    have hc : (p.idempotencyKey == k) = true := beq_iff_eq.mpr (Table.key_of_find? hf)
    simp only [hrows, Table.find?_update, hf, Option.map_some, Option.some.injEq, exists_eq_left',
      hc, if_true, PaymentUpdate.apply_status]
    exact hn

theorem effective_of_exec {c : Call} {ch : Choice} {o : Statement} {r : Except Err o.Resp}
    (h : Effective s) (hi : c.Issues o) (hp : failsHarmlessly.op ⟨t, c⟩ ch o s = true)
    (hx : o.exec t ch s = some (r, s')) : Effective s' := by
  have hg := Grows.of_exec hi hx
  simp only [failsHarmlessly, Bool.and_eq_true] at hp
  constructor
  · exact captures_of_exec h.kept hp.1 hx
  · intro id j hj hok hfin
    rcases result_of_exec hx with he | ⟨m, key, rfl, rfl⟩
    · rw [he] at hj
      exact (h.result id j hj hok hfin).grows hg
    · rcases JobQueue.find?_add hj with hj | ⟨-, rfl⟩
      · exact (h.result id j hj hok hfin).grows hg
      · cases hfin
  · intro id j hj hfin
    rcases refund_of_exec hx with he | ⟨m, rfl, rfl⟩
    · rw [he] at hj
      exact (h.refund id j hj hfin).grows hg
    · rcases JobQueue.find?_add hj with hj | ⟨-, rfl⟩
      · exact (h.refund id j hj hfin).grows hg
      · cases hfin

/-- The jobs are the same, and what has finished since has its effect. -/
theorem effective_of_same {q : Queues} (h : Effective s) (hq : s.queues.Same q)
    (hr : ∀ id j', q.result.find? id = some j' → (paymentResultSchema j'.data).isOk = true →
      j'.state.finished = true → (∃ j, s.queues.result.find? id = some j ∧
        j.state.finished = true) ∨ (Call.processResult id j'.data).Applied s)
    (hf : ∀ id j', q.refund.find? id = some j' → j'.state.finished = true →
      (∃ j, s.queues.refund.find? id = some j ∧ j.state.finished = true) ∨
        (Call.processRefund id j'.data).Applied s) : Effective { s with queues := q } := by
  have hg := Grows.of_same hq
  constructor
  · exact h.kept
  · intro id j' hj' hok hfin
    refine Call.Applied.grows ?_ hg
    rcases hr id j' hj' hok hfin with ⟨j, hj, hfin⟩ | happ
    · obtain ⟨j₀, hj₀, hd⟩ := hq.result.2 id j' hj'
      rw [hj] at hj₀
      cases hj₀
      rw [← show j.data = j'.data from hd] at hok ⊢
      exact h.result id j hj hok hfin
    · exact happ
  · intro id j' hj' hfin
    refine Call.Applied.grows ?_ hg
    rcases hf id j' hj' hfin with ⟨j, hj, hfin⟩ | happ
    · obtain ⟨j₀, hj₀, hd⟩ := hq.refund.2 id j' hj'
      rw [hj] at hj₀
      cases hj₀
      rw [← show j.data = j'.data from hd]
      exact h.refund id j hj hfin
    · exact happ

/-- A finished job was finished before, or is the one its consumer has returned. -/
theorem finished_of_acknowledge {ι δ α : Type} [DecidableEq ι] {q : JobQueue ι δ} {id i : ι}
    {r : Except Err α} {j' : Job ι δ} (h : (Queues.acknowledge q id r).find? i = some j')
    (hfin : j'.state.finished = true) :
    (∃ j, q.find? i = some j ∧ j.state.finished = true) ∨
      i = id ∧ ∀ data, q.Has id data → j'.data = data := by
  have hor : (∃ j, q.find? i = some j ∧ j.state.finished = true) ∨ i = id := by
    cases r with
    | ok v => exact (JobQueue.finished_of_setState h hfin).imp_right And.left
    | error e => exact (JobQueue.finished_of_setState h hfin).imp_right And.left
  refine hor.imp_right fun hid => ⟨hid, ?_⟩
  subst hid
  rintro data ⟨j, hj, rfl⟩
  obtain ⟨j₀, hj₀, hdata⟩ := (Queues.same_acknowledge q i r).2 _ j' h
  cases hj.symm.trans hj₀
  exact hdata.symm

theorem effective_of_rollback (h : Effective s) (t : Nat) :
    Effective { s with db := s.db.rollback t } where
  kept := h.kept
  result := fun id j hj hok hfin => (h.result id j hj hok hfin).grows (.of_rollback t s)
  refund := fun id j hj hfin => (h.refund id j hj hfin).grows (.of_rollback t s)

/-! ## Rules -/

/-- The call is a delivery of one of the two queues. -/
def processes : Call → Bool
  | .processResult _ _ | .processRefund _ _ => true
  | _ => false

/-- Where the effect of the job is missing, a statement of its processor takes place,
and an error it reports comes after the effect. -/
theorem applied_or_performed {ch : Choice} {o : Statement} {s₁ s₂ : Store}
    {r : Except Err o.Resp} (hp : processes a.call = true)
    (ht : Saga.Turn faults a s ch o s₁ r s₂) :
    a.call.Applied s₁ ∨ ∃ r', o.perform a.tid ch s₁ = some (r', s₂) ∧
      (r = r' ∨ o.completes s₁ = true) := by
  have hpol : ch.fault = .none ∨ a.call.applied s₁ = true ∨
      (ch.after = true ∧ o.completes s₁ = true) := by
    have h := ht.policy
    simp only [faults, failsHarmlessly, Bool.and_eq_true] at h
    have h := h.2
    split at h
    · simpa only [Bool.or_eq_true, Bool.and_eq_true, beq_iff_eq, or_assoc] using h
    · simpa only [Bool.or_eq_true, Bool.and_eq_true, beq_iff_eq, or_assoc] using h
    · next h₁ h₂ =>
      generalize a.call = c at hp h₁ h₂
      cases c with
      | processResult id data => exact (h₁ id data rfl).elim
      | processRefund id data => exact (h₂ id data rfl).elim
      | _ => cases hp
  rcases hpol with hn | happ | ⟨haft, hcomp⟩
  · exact .inr ⟨r, (Statement.exec_of_fault_none hn).symm.trans ht.exec, .inl rfl⟩
  · exact .inl (Call.applied_iff.mp happ)
  · obtain ⟨r', hx⟩ := perform_of_after haft ht.exec
    exact .inr ⟨r', hx, .inr hcomp⟩

/-- A statement and the rest. -/
theorem safe_op {γ : Type} {Q : Except Err γ → Store → Prop} {o : Statement}
    {f : o.Resp → Async γ}
    (h : ∀ ch s₁ r s₂, Saga.Turn faults a s ch o s₁ r s₂ → faults.discipline.Cont a Q f r s₂) :
    faults.discipline.Safe a Q (await o >>= f) s :=
  Saga.safe_op fun ch s₁ r s₂ ht =>
    ⟨effective_of_exec ht.keeps ht.issues ht.policy ht.exec, h ch s₁ r s₂ ht⟩

/-- The job is stored and its effect is there. -/
def Done (a : Agent) (s : Store) : Prop := a.call.Serves s ∧ a.call.Applied s

/-- Nothing that happens takes the effect away. -/
theorem safe_of_done {α : Type} {p : Async α} (h : Done a s) :
    faults.discipline.Safe a (fun _ => Done a) p s :=
  Saga.safe_of_uses (K := Done a) (uses_true p) h
    (fun _ _ hr h => ⟨h.1.grows hr.grows, h.2.grows hr.grows⟩)
    fun _ _ _ _ _ _ h ht => ⟨effective_of_exec ht.keeps ht.issues ht.policy ht.exec,
      h.1.grows ht.grows, h.2.grows ht.grows⟩

/-- A statement of a processor, and the rest: it takes place, unless there is nothing
left to do. -/
theorem safe_perform {γ : Type} {Q : Except Err γ → Store → Prop} {o : Statement}
    {f : o.Resp → Async γ} (hp : processes a.call = true) (hs : a.call.Serves s)
    (hQ : ∀ r s, Done a s → Q r s)
    (h : ∀ ch s₁ r r' s₂, Saga.Turn faults a s ch o s₁ r s₂ → a.call.Serves s₁ →
      o.perform a.tid ch s₁ = some (r', s₂) → (r = r' ∨ o.completes s₁ = true) →
      faults.discipline.Cont a Q f r s₂) :
    faults.discipline.Safe a Q (await o >>= f) s := by
  refine safe_op fun ch s₁ r s₂ ht => ?_
  have hs₁ := hs.grows ht.rely.grows
  rcases applied_or_performed hp ht with happ | ⟨r', hx, hr⟩
  · have hdone : Done a s₂ := ⟨hs₁.grows ht.grows, happ.grows ht.grows⟩
    cases r with
    | error e => exact hQ _ _ hdone
    | ok v => exact (safe_of_done hdone).imp hQ
  · exact h ch s₁ r r' s₂ ht hs₁ hx hr

/-! ## The processors -/

theorem exists_status {id : ResultJobId} {data : PaymentResult} (hf : Facts s)
    (h : s.queues.result.Has id data) : ∃ status, s.statusOf data.reservationId = some status := by
  obtain ⟨r, hr⟩ := (Seam.sent_of_has hf.inv h).2.1
  exact ⟨r.status, statusOf_eq_some.mpr ⟨r, hr, rfl⟩⟩

theorem confirmed_of_status {id : Id} (hf : Facts s) (h : s.statusOf id = some .confirmed) :
    Confirmed s id := by
  obtain ⟨r, hr, hs⟩ := statusOf_eq_some.mp h
  exact hf.logged.confirmed id r hr (by rw [hs]; rfl)

/-- A successful payment confirms the reservation, or finds it confirmed, or has to be
given back. -/
theorem safe_applyPaymentSucceeded {jobId : ResultJobId} {m : PaymentSucceeded}
    (ha : a.call = .processResult jobId (.succeeded m)) (hs : a.call.Serves s) :
    faults.discipline.Safe a (fun r s => Done a s ∨
        a.call.Serves s ∧ ∃ status, r = .ok (.refundRequired status))
      (applyPaymentSucceeded m.reservationId) s := by
  have hp : processes a.call = true := by rw [ha]; rfl
  have happ : ∀ {s}, Confirmed s m.reservationId → a.call.Applied s := fun h => by
    rw [ha]; exact .inl h
  refine safe_perform (o := .db (.reservationUpdateMany (heldById m.reservationId) .confirmed))
    hp hs (fun _ _ h => .inl h) fun ch s₁ r r' s₂ ht hs₁ hx hr => ?_
  have hs₂ := hs₁.grows ht.grows
  rcases of_updateMany_heldById hx with ⟨-, -, -, hlog⟩ | ⟨hn, rfl, rfl⟩
  · have hdone : Done a s₂ := ⟨hs₂, happ ⟨_, hlog, rfl, rfl⟩⟩
    cases r with
    | error e => exact .inl hdone
    | ok count => exact (safe_of_done hdone).imp fun _ _ h => .inl h
  -- The hold is gone.  A fault here would have been one without effect.
  have hr : r = .ok 0 := by
    refine hr.resolve_right fun h => hn ?_
    simpa [Statement.completes, heldById] using h
  subst hr
  refine safe_perform (o := .db (.reservationFindStatus m.reservationId)) hp hs₂
    (fun _ _ h => .inl h) fun ch s₃ r r' s₄ ht hs₃ hx hr => ?_
  have hr : r = r' := hr.resolve_right fun h => by cases h
  subst hr
  have hs₄ := hs₃.grows ht.grows
  cases r with
  | error e => cases hx
  | ok status =>
    obtain ⟨rfl, hst⟩ := of_reservationFindStatus ht.exec
    cases status with
    | none =>
      rw [ha] at hs₄
      obtain ⟨status, h⟩ := exists_status ht.after hs₄
      cases hst.symm.trans h
    | some status =>
      by_cases hcf : status = .confirmed
      · simp only [cont_ok, if_pos hcf, safe_pure]
        exact .inl ⟨hs₄, happ (confirmed_of_status ht.after (hcf ▸ hst))⟩
      · simp only [cont_ok, if_neg hcf, safe_pure]
        exact .inr ⟨hs₄, status, rfl⟩

/-- A failed payment moves the reservation, or finds it moved. -/
theorem safe_applyPaymentFailed {jobId : ResultJobId} {m : PaymentFailed}
    (ha : a.call = .processResult jobId (.failed m)) (hs : a.call.Serves s) :
    faults.discipline.Safe a (fun _ => Done a) (applyPaymentFailed m.reservationId) s := by
  have hp : processes a.call = true := by rw [ha]; rfl
  refine safe_perform (o := .db (.reservationUpdateMany (heldById m.reservationId) .cancelled))
    hp hs (fun _ _ h => h) fun ch s₁ r r' s₂ ht hs₁ hx _ => ?_
  have hs₂ := hs₁.grows ht.grows
  have hmoved : Moved s₂ m.reservationId := by
    rcases of_updateMany_heldById hx with ⟨-, -, hst, -⟩ | ⟨hn, -, rfl⟩
    · exact ⟨_, hst, by simp⟩
    · rw [ha] at hs₁
      obtain ⟨status, h⟩ := exists_status ht.before hs₁
      exact ⟨status, h, fun he => hn (he ▸ h)⟩
  have hdone : Done a s₂ := ⟨hs₂, by rw [ha]; exact hmoved⟩
  cases r with
  | error e => exact hdone
  | ok count => exact safe_of_done hdone

theorem safe_processResult {jobId : ResultJobId} {data : PaymentResult}
    (ha : a.call = .processResult jobId data) (hs : a.call.Serves s)
    (hpass : paymentResultSchema data = .ok data) :
    faults.discipline.Safe a (fun _ => Done a) (processPaymentResult data) s := by
  unfold processPaymentResult
  rw [hpass]
  cases data with
  | failed m =>
    refine Safe.bind ((safe_applyPaymentFailed ha hs).imp fun r s₁ hd => ?_)
    cases r with
    | error e => exact hd
    | ok outcome => exact safe_of_done hd
  | succeeded m =>
    refine Safe.bind ((safe_applyPaymentSucceeded ha hs).imp fun r s₁ h => ?_)
    rcases h with hd | ⟨hs₁, status, rfl⟩
    · cases r with
      | error e => exact hd
      | ok outcome => exact safe_of_done hd
    rw [cont_ok, show requestRefund _ _ = _ from Prog.op_eq_bind _]
    refine safe_perform (o := .queue (.refundAdd _)) (by rw [ha]; rfl) hs₁
      (fun _ _ h => h) fun ch s₂ r r' s₃ ht hs₂ hx _ => ?_
    have hdone : Done a s₃ := ⟨hs₂.grows ht.grows, by
      rw [ha]
      exact .inr (requested_of_refundAdd hx)⟩
    cases r with
    | error e => exact hdone
    | ok u => exact hdone

/-- A refund that has been asked for is of a payment that took the money. -/
theorem exists_payment {id : Id} {data : RefundRequested} (hf : Facts s) (hk : Effective s)
    (h : s.queues.refund.Has id data) : ∃ p, s.db.payments.find? data.idempotencyKey = some p ∧
      (p.status = .succeeded ∨ p.status = .refunded) := by
  obtain ⟨j, hj, rfl⟩ := h
  obtain ⟨hdata, r, -, -, -, -, -, htaken, -⟩ := hf.inv.refund id j hj
  obtain ⟨p, hp, ht⟩ := hk.kept id htaken
  refine ⟨p, by rw [hdata]; exact hp, ?_⟩
  cases hst : p.status with
  | succeeded => exact .inl rfl
  | refunded => exact .inr rfl
  | _ => rw [hst] at ht; cases ht

theorem refunded_of_paymentUpdate {t : Nat} {ch : Choice} {key : IdempotencyKey} {p : Payment}
    {r : Except Err Payment} (hp : s.db.payments.find? key = some p)
    (hx : (Statement.db (.paymentUpdate key .refunded)).perform t ch s = some (r, s')) :
    Refunded s' key := by
  obtain ⟨d, hd, rfl⟩ := Statement.perform_db hx
  simp only [Database.perform, Database.paymentUpdate, hp, Option.some.injEq, Prod.mk.injEq] at hd
  obtain ⟨-, rfl⟩ := hd
  exact ⟨_, List.mem_append_right _ (List.mem_singleton_self _), rfl, rfl⟩

theorem safe_processRefund {jobId : Id} {data : RefundRequested}
    (ha : a.call = .processRefund jobId data) (hs : a.call.Serves s) :
    faults.discipline.Safe a (fun _ => Done a) (processRefund gateway data) s := by
  have hp : processes a.call = true := by rw [ha]; rfl
  have hdone : ∀ {s}, a.call.Serves s → Refunded s data.idempotencyKey → Done a s :=
    fun hs h => ⟨hs, by rw [ha]; exact h⟩
  unfold processRefund refundRequestedSchema
  refine safe_perform (o := .db (.paymentFindUnique data.idempotencyKey)) hp hs
    (fun _ _ h => h) fun ch s₁ r r' s₂ ht hs₁ hx hr => ?_
  have hr : r = r' := hr.resolve_right fun h => by cases h
  subst hr
  have hs₂ := hs₁.grows ht.grows
  have hjob : s₂.queues.refund.Has jobId data := by rw [ha] at hs₂; exact hs₂
  obtain ⟨p, hrow, hst⟩ := exists_payment ht.after
    (effective_of_exec ht.keeps ht.issues ht.policy ht.exec) hjob
  cases r with
  | error e => cases hx
  | ok payment =>
    obtain rfl : some p = payment := hrow.symm.trans (find?_of_paymentFindUnique ht.exec)
    by_cases hsucc : p.status ≠ .succeeded
    · simp only [cont_ok, if_pos hsucc, safe_pure]
      have hback := hst.resolve_left hsucc
      have hlog := ht.after.inv.journal.row _ p hrow (by rw [hback]; simp)
      rw [hback] at hlog
      exact hdone hs₂ hlog
    simp only [cont_ok, if_neg hsucc]
    refine safe_perform (o := .provider (.refund data.idempotencyKey)) hp hs₂
      (fun _ _ h => h) fun ch s₃ r r' s₄ ht hs₃ hx hr => ?_
    have hr : r = r' := hr.resolve_right fun h => by cases h
    subst hr
    cases r with
    | error e => cases hx
    | ok u =>
      refine safe_perform (o := .db (.paymentUpdate data.idempotencyKey .refunded)) hp
        (hs₃.grows ht.grows) (fun _ _ h => h) fun ch s₅ r r' s₆ ht' hs₅ hx _ => ?_
      obtain ⟨p', hp', -⟩ := (ht.known.trans ht'.rely.grows).db.payments _ p hrow
      have hd : Done a s₆ := hdone (hs₅.grows ht'.grows) (refunded_of_paymentUpdate hp' hx)
      cases r with
      | error e => exact hd
      | ok u => exact hd

/-! ## Deliveries -/

/-- A job that is handed out is not finished. -/
theorem effective_of_spawned {c : Call} (h : Effective s) (hs : s.spawned c = some s') :
    Effective s' := by
  cases c with
  | processResult id data =>
    obtain ⟨q, hq, rfl⟩ := Option.map_eq_some_iff.mp hs
    obtain ⟨-, rfl⟩ := Queues.deliver_eq_some hq
    exact effective_of_same h { Queues.Same.refl _ with result := Queues.same_take _ _ }
      (fun _ _ hj _ hfin => .inl (JobQueue.finished_of_take hj hfin))
      fun _ j hj hfin => .inl ⟨j, hj, hfin⟩
  | processRefund id data =>
    obtain ⟨q, hq, rfl⟩ := Option.map_eq_some_iff.mp hs
    obtain ⟨-, rfl⟩ := Queues.deliver_eq_some hq
    exact effective_of_same h { Queues.Same.refl _ with refund := Queues.same_take _ _ }
      (fun _ j hj _ hfin => .inl ⟨j, hj, hfin⟩)
      fun _ _ hj hfin => .inl (JobQueue.finished_of_take hj hfin)
  | processCharge id data =>
    obtain ⟨q, hq, rfl⟩ := Option.map_eq_some_iff.mp hs
    obtain ⟨-, rfl⟩ := Queues.deliver_eq_some hq
    exact effective_of_same h { Queues.Same.refl _ with charge := Queues.same_take _ _ }
      (fun _ j hj _ hfin => .inl ⟨j, hj, hfin⟩) fun _ j hj hfin => .inl ⟨j, hj, hfin⟩
  | _ => cases hs; exact h

/-- A processor that returns, or throws, has seen to the effect of its job. -/
theorem effective_of_returned {c : Call} {r : Except Err Reply} (h : Effective s)
    (hs : c.Serves s) (happ : c.accepts = true → c.Applied s) :
    Effective (Store.returned t c r s) := by
  cases c with
  | processResult id data =>
    refine effective_of_same h { Queues.Same.refl _ with result := Queues.same_acknowledge _ _ _ }
      (fun i j' hj' hok hfin => ?_) fun _ j hj hfin => .inl ⟨j, hj, hfin⟩
    rcases finished_of_acknowledge hj' hfin with h | ⟨rfl, hdata⟩
    · exact .inl h
    · rw [hdata data hs] at hok ⊢
      exact .inr (happ hok)
  | processRefund id data =>
    refine effective_of_same h { Queues.Same.refl _ with refund := Queues.same_acknowledge _ _ _ }
      (fun _ j hj _ hfin => .inl ⟨j, hj, hfin⟩) fun i j' hj' hfin => ?_
    rcases finished_of_acknowledge hj' hfin with h | ⟨rfl, hdata⟩
    · exact .inl h
    · rw [hdata data hs]
      exact .inr (happ rfl)
  | processCharge id data =>
    exact effective_of_same h { Queues.Same.refl _ with charge := Queues.same_acknowledge _ _ _ }
      (fun _ j hj _ hfin => .inl ⟨j, hj, hfin⟩) fun _ j hj hfin => .inl ⟨j, hj, hfin⟩
  | _ => exact h

theorem safe_program {ttl : Int} {t : Nat} {c : Call} (hsp : s.spawned c = some s')
    (hg : Grows s s') : faults.discipline.Safe ⟨t, c⟩ (faults.Post ⟨t, c⟩)
      (c.program { holdTtlMs := ttl, provider := gateway }) s' := by
  have hother : c.Serves s' → c.Applied s' → faults.discipline.Safe ⟨t, c⟩ (faults.Post ⟨t, c⟩)
      (c.program { holdTtlMs := ttl, provider := gateway }) s' := fun hs ha =>
    (safe_of_done (a := ⟨t, c⟩) ⟨hs, ha⟩).imp fun _ _ h => ⟨h.1, fun _ => h.2⟩
  cases c with
  | processResult jobId data =>
    have hs : (Call.processResult jobId data).Serves s' :=
      Call.Serves.grows (c := .processResult jobId data) (Seam.has_of_spawned_result hsp) hg
    cases hp : paymentResultSchema data with
    | error e =>
      simp only [Call.program, processPaymentResult, hp]
      exact ⟨hs, fun h => by simp [Call.accepts, hp, Except.isOk, Except.toBool] at h⟩
    | ok data' =>
      cases paymentResultSchema_eq_ok hp
      exact (safe_answer (safe_processResult rfl hs hp)).imp
        fun _ _ h => ⟨h.1, fun _ => h.2⟩
  | processRefund jobId data =>
    obtain ⟨q, hq, -⟩ := Option.map_eq_some_iff.mp hsp
    exact (safe_answer (safe_processRefund rfl
      (Call.Serves.grows (c := .processRefund jobId data) (Queues.deliver_eq_some hq).1 hg))).imp
      fun _ _ h => ⟨h.1, fun _ => h.2⟩
  | _ => exact hother trivial trivial

theorem effective_init (listings : Table Listing) : Effective (Store.init listings) := by
  constructor
  · rintro key ⟨e, he, -⟩
    cases he
  · intro id j hj
    cases hj
  · intro id j hj
    cases hj

theorem valid (ttl : Int) (listings : Table Listing) : faults.Valid ttl listings where
  external := fun _ _ h => h
  start := effective_init listings
  fresh_start := fun _ => trivial
  fresh_stable := fun _ _ _ _ _ => trivial
  post_stable := fun _ _ _ _ hr _ h => ⟨h.1.grows hr.grows, fun ha => (h.2 ha).grows hr.grows⟩
  spawn := fun _ _ _ _ _ hk _ _ hs hq =>
    ⟨effective_of_spawned hk hs, safe_program hs (Grows.of_same hq)⟩
  ret := fun _ _ _ _ _ hk hpost => effective_of_returned hk hpost.1 hpost.2
  kill := fun t _ hk => effective_of_rollback hk t

end Faults

variable {ttl : Int} {listings : Table Listing} {w : World}

theorem effective_of_reaches
    (hr : (system { holdTtlMs := ttl, provider := gateway }).Reaches failsHarmlessly
      (initial listings) w) : Effective w.shared :=
  ((Faults.valid ttl listings).sound.inv hr).2

/-! ## Other providers -/

namespace Faults

section Agrees

variable {s s' : Store} (h : s.Agrees s')

include h

/-- An effect is in the database or in a queue. -/
theorem applied_of_agrees (c : Call) : c.applied s' = c.applied s := by
  obtain ⟨db, queues, provider, redis, metrics⟩ := s'
  obtain ⟨rfl, rfl, -, -⟩ := h
  cases c with
  | processResult id data => cases data <;> rfl
  | _ => rfl

theorem completes_of_agrees (o : Statement) : o.completes s' = o.completes s := by
  obtain ⟨db, queues, provider, redis, metrics⟩ := s'
  obtain ⟨rfl, rfl, -, -⟩ := h
  cases o with
  | db o => cases o <;> rfl
  | queue o => cases o <;> rfl
  | _ => rfl

theorem keepsCaptures_of_agrees (a : Agent) (ch : Choice) (o : Statement) :
    keepsCaptures.op a ch o s' = keepsCaptures.op a ch o s := by
  obtain ⟨db, queues, provider, redis, metrics⟩ := s'
  obtain ⟨rfl, rfl, -, -⟩ := h
  rfl

end Agrees

theorem failsHarmlessly_blind : failsHarmlessly.Blind where
  spawn := fun _ _ _ _ h => h
  op := by
    intro a ch o s s' h hp
    simp only [failsHarmlessly, keepsCaptures_of_agrees h, applied_of_agrees h,
      completes_of_agrees h] at hp ⊢
    exact hp
  kill := fun _ _ _ => rfl

/-- A processor is told no error while its effect is missing. -/
def harmlessAnswers : Reading :=
  { Later := fun s s' => ∀ c : Call, c.Applied s → c.Applied s'
    Given := fun a _ r s => (∃ v, r = .ok v) ∨ processes a.call = false ∨ a.call.Applied s }

/-- A statement of a provider that does not fail answers with a value. -/
theorem exec_ok_of_private {o : Statement} (ho : o.Private) {t : Nat} {ch : Choice} {s s' : Store}
    {r : Except Err o.Resp} (hf : ch.fault = .none) (hx : o.exec t ch s = some (r, s')) :
    ∃ v, r = .ok v := by
  rw [Statement.exec_of_fault_none hf] at hx
  cases o with
  | db o => exact ho.1.elim
  | queue o => exact ho.1.elim
  | provider o => cases o <;> cases hx <;> exact ⟨_, rfl⟩
  | redis o => cases o <;> cases hx <;> exact ⟨_, rfl⟩
  | host o =>
    cases o with
    | mathRandom =>
      simp only [Statement.perform] at hx
      split at hx <;> cases hx
      exact ⟨_, rfl⟩
    | recordAttempt outcome => cases outcome <;> cases hx <;> exact ⟨_, rfl⟩
    | _ => cases hx; exact ⟨_, rfl⟩

/-- A statement of a provider brings no effect about. -/
theorem completes_of_private {o : Statement} (ho : o.Private) (s : Store) :
    o.completes s = false := by
  cases o with
  | db o => exact ho.1.elim
  | queue o => exact ho.1.elim
  | _ => rfl

/-- Where a statement of a provider fails, there is nothing left to do. -/
theorem given_of_error {a : Agent} {o : Statement} (ho : o.Private) {ch : Choice} {s s' : Store}
    {e : Err} (hp : failsHarmlessly.op a ch o s = true)
    (hx : o.exec a.tid ch s = some (.error e, s')) :
    processes a.call = false ∨ a.call.Applied s' := by
  have hkeep : a.call.applied s = a.call.applied s' :=
    applied_of_agrees ((Store.Agrees.refl s).of_private ho hx) a.call
  have hfault : ch.fault ≠ .none := fun hf => by
    obtain ⟨v, hv⟩ := exec_ok_of_private ho hf hx
    cases hv
  simp only [failsHarmlessly, completes_of_private ho, Bool.and_eq_true] at hp
  obtain ⟨t, c⟩ := a
  cases c with
  | processResult jobId data | processRefund jobId data =>
    simp only [Bool.or_eq_true, beq_iff_eq, hfault, false_or, Bool.and_false, Bool.false_eq_true,
      or_false] at hp
    exact .inr (Call.applied_iff.mp (hkeep ▸ hp.2))
  | _ => exact .inl rfl

/-- A refund that fails only where a statement of it does is harmless. -/
theorem ends_refund {ttl : Int} {P : PaymentProvider} {a : Agent} {o : ProviderStatement}
    {p : Async o.Resp} (hp : p.Uses Statement.Private) (hs : p.Succeeds) (s : Store) :
    (harmlessAnswers.projection ttl P failsHarmlessly).Ends a (harmlessAnswers.Given a o) p s := by
  induction p generalizing s with
  | done r => exact .inl hs
  | call o' k ih =>
    refine ⟨hp.1, fun s₁ _ ch r s₂ hpol hx => ?_⟩
    cases r with
    | ok v => exact ih _ (hp.2 _) (hs v) s₂
    | error e =>
      -- Whatever comes of it, the effect is there.
      refine Projection.Ends.of_uses (K := fun s => processes a.call = false ∨ a.call.Applied s)
        (fun s s' hl hk => hk.imp_right (hl a.call)) (fun ch o s r s' ho hk hx => ?_)
        (fun _ _ hk => .inr hk) (hp.2 _) (given_of_error hp.1 hpol hx)
      refine hk.imp_right fun happ => Call.applied_iff.mp ?_
      rw [← applied_of_agrees ((Store.Agrees.refl s).of_private ho hx) a.call]
      exact Call.applied_iff.mpr happ

theorem harmlessAnswers_fits {ttl : Int} {P : PaymentProvider} {listings : Table Listing}
    (hP : P.Unannounced) (hs : ∀ key, (P.refund key).Succeeds) :
    harmlessAnswers.Fits ttl P failsHarmlessly listings where
  blind := failsHarmlessly_blind
  later_refl := fun _ _ h => h
  later_trans := fun _ _ _ h h' c hc => h' c (h c hc)
  later := fun _ _ _ hr hn _ happ => happ.grows (.of_next hr hn)
  given_stable := fun _ _ _ _ _ hl hg => hg.imp_right fun h => h.imp_right (hl _)
  allowed := by
    rintro ⟨t, c⟩ o r s ch hg hf
    have hok : ch.fault = .none ∨ processes c = false ∨ c.applied s = true := by
      rcases hf with hf | ⟨e, rfl⟩
      · exact .inl hf
      · obtain ⟨v, hv⟩ | hdone := hg
        · cases hv
        · exact .inr (hdone.imp_right Call.applied_iff.mpr)
    cases c with
    | processResult jobId data | processRefund jobId data =>
      rcases hok with hf | hf | hf
      · simp [failsHarmlessly, keepsCaptures, hf]
      · cases hf
      · simp [failsHarmlessly, keepsCaptures, hf]
    | _ => rfl
  charge := by
    rintro ⟨t, c⟩ s key amountCents hc
    have hno : processes c = false := by
      cases c with
      | charge | processCharge => rfl
      | _ => cases hc
    exact Projection.Ends.of_uses (K := fun _ => True) (fun _ _ _ _ => trivial)
      (fun _ _ _ _ _ _ _ _ => trivial) (fun _ _ _ => .inr (.inl hno))
      (hP.charge_private key amountCents) trivial
  refund := fun a s key => ends_refund (o := .refund key) (hP.refund_private key) (hs key) s

end Faults

/-- Every success that was sent passes the schema, and so does every decline that gives a
reason. -/
theorem isOk_of_stored {s : Store} (hf : Facts s) {id : ResultJobId}
    {j : Job ResultJobId PaymentResult} (hj : s.queues.result.find? id = some j)
    (hreason : ∀ m, j.data = .failed m → m.reason ≠ "") :
    (paymentResultSchema j.data).isOk = true := by
  have hsent := (hf.inv.result id j hj).2
  cases hd : j.data with
  | succeeded m =>
    rw [hd] at hsent
    rw [(hsent.2.2 rfl).2]
    rfl
  | failed m =>
    rw [paymentResultSchema, if_pos (hreason m hd)]
    rfl

/-- As long as the processors fail harmlessly, every result and every refund is still to
be processed, or its effect is there.  The provider may be any whose refunds fail only
where one of their statements does. -/
theorem jobs_keep_their_effect {P : PaymentProvider} (hP : P.Unannounced)
    (hs : ∀ key, (P.refund key).Succeeds)
    (hr : (system { holdTtlMs := ttl, provider := P }).Reaches failsHarmlessly
      (initial listings) w) :
    (∀ id j, w.shared.queues.result.find? id = some j →
      (∀ m, j.data = .failed m → m.reason ≠ "") →
      j.state.finished = false ∨ (Call.processResult id j.data).Applied w.shared) ∧
    ∀ id j, w.shared.queues.refund.find? id = some j →
      j.state.finished = false ∨ (Call.processRefund id j.data).Applied w.shared := by
  obtain ⟨w', hr', hw⟩ := (Faults.harmlessAnswers_fits hP hs).valid.reaches hr
  have hagr := hw.sim.1
  have hk := effective_of_reaches hr'
  have hf := Saga.facts_of_reaches (P := failsHarmlessly) (fun _ _ h => h) hr'
  have happ : ∀ c : Call, c.Applied w'.shared → c.Applied w.shared := fun c h =>
    Call.applied_iff.mp (Faults.applied_of_agrees hagr c ▸ Call.applied_iff.mpr h)
  rw [← hagr.queues]
  constructor
  · intro id j hj hreason
    cases hfin : j.state.finished with
    | false => exact .inl rfl
    | true => exact .inr (happ _ (hk.result id j hj (isOk_of_stored hf hj hreason) hfin))
  · intro id j hj
    cases hfin : j.state.finished with
    | false => exact .inl rfl
    | true => exact .inr (happ _ (hk.refund id j hj hfin))

section Runs

open Scenario

/-- How many statements of a schedule are made to fail. -/
def faultCount (es : List Event) : Nat :=
  es.countP fun
    | .step _ ch => ch.fault != .none
    | _ => false

/-- The job of the successful payment of reservation `5`. -/
def resultJob (w : World) : Option (Job ResultJobId PaymentResult) :=
  w.shared.queues.result.find? (.paymentSucceeded, 5)

/-- The worker with a mock that declines no card. -/
def withMock : Config :=
  { holdTtlMs := 900000
    provider := mockPaymentProvider { failureRate := 0, transientRate := 0, latencyMs := 0 } }

/-- A reservation is placed, the mock has charged it, and its answer is waiting. -/
def paidToMock : List Event :=
  place 0 stay 5 6 ++ relay 1 ++ .spawn (.processCharge 6 (event 5)) :: steps 2 9 ++ [.ret 2]

def succeededByMock : PaymentResult :=
  .succeeded { reservationId := 5, idempotencyKey := 5, amountCents := 200,
               providerRef := "mock_5", traceContext := none }

/-- The reservation is confirmed, and then its announcement fails. -/
theorem jobs_keep_their_effect_announced :
    ∃ w, (system withMock).Reaches failsHarmlessly (initial Scenario.listings) w ∧
      ∃ j, resultJob w = some j ∧ j.state = .failed ∧
        (Call.processResult (.paymentSucceeded, 5) j.data).Applied w.shared := by
  have hrun : ((system withMock).run failsHarmlessly (initial Scenario.listings)
      (paidToMock ++ .spawn (.processResult (.paymentSucceeded, 5) succeededByMock) :: steps 3 1 ++
        [.step 3 { fault := .before (.other "connection lost") }, .ret 3])).any
      (fun w => (resultJob w).any fun j =>
        j.state == .failed && j.data == succeededByMock) = true := by decide +kernel
  obtain ⟨w, hr, ht⟩ := Machine.exists_reaches_of_run hrun
  obtain ⟨j, hj, ht⟩ := (Option.any_eq_true _ _).mp ht
  rw [Bool.and_eq_true, beq_iff_eq, beq_iff_eq] at ht
  obtain ⟨hst, hd⟩ := ht
  refine ⟨w, hr, j, hj, hst, ?_⟩
  rcases (jobs_keep_their_effect (mockPaymentProvider_unannounced _)
    (mockPaymentProvider_refund_succeeds _) hr).1 _ j hj (by rw [hd]; simp [succeededByMock])
    with h | h
  · rw [hst] at h
    cases h
  · exact h

/-- One fault before the first statement of the processor, and the reservation stays held
with its payment taken. -/
theorem not_jobs_keep_their_effect :
    ¬ ∀ es w, (system Scenario.cfg).run anyRequest (initial Scenario.listings) es = some w →
      faultCount es < chargeAttempts → ∀ id j, w.shared.queues.result.find? id = some j →
      j.state.finished = false ∨ (Call.processResult id j.data).Applied w.shared := by
  intro h
  have hrun : ((system Scenario.cfg).run anyRequest (initial Scenario.listings)
      (paid 5 6 ++ .spawn (.processResult (.paymentSucceeded, 5) (succeeded 5)) ::
        [.step 3 { fault := .before (.other "connection lost") }, .ret 3])).any
      (fun w => (resultJob w).any fun j => j.state.finished &&
        !(Call.processResult (.paymentSucceeded, 5) j.data).applied w.shared) = true := by decide
  obtain ⟨w, hw, ht⟩ := (Option.any_eq_true _ _).mp hrun
  obtain ⟨j, hj, ht⟩ := (Option.any_eq_true _ _).mp ht
  rw [Bool.and_eq_true, Bool.not_eq_true'] at ht
  rcases h _ w hw (by decide) _ j hj with hfin | happ
  · rw [ht.1] at hfin
    cases hfin
  · rw [Call.applied_iff.mpr happ] at ht
    cases ht.2

end Runs

end NoOverlap
