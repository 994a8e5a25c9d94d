import NoOverlap.Payments.Ledger

/-!
# Redelivered charges

A delivery of a charge that finds its payment settled does not charge again.  It
builds its answer from the row, so the answer is only as good as what the row still
says.  A row that is SUCCEEDED or FAILED says what the provider said, and the answer
is the one the first delivery gave.  A row that is REFUNDED no longer does:
`toResult` takes it for a decline.  `replaysUnrefunded` is the condition that no
delivery reads such a row.
-/

namespace NoOverlap

open Relational Concurrency RelyGuarantee

/-- The provider gives a key one answer, and no delivery of a charge reads a payment
that has been refunded. -/
def replaysUnrefunded : Policy :=
  { steadyProvider with
    op := fun a ch o s => steadyProvider.op a ch o s && match o with
      | .db (.paymentFindUnique key) => !a.call.charges || ch.fault != .none ||
          (s.db.payments.find? key).all fun p => p.status != .refunded
      | _ => true }

/-- The message without the trace it travels under. -/
def PaymentResult.untraced : PaymentResult → PaymentResult
  | succeeded m => succeeded { m with traceContext := none }
  | failed m => failed { m with traceContext := none }

/-- The provider has given this answer for the key. -/
def Provider.Answered (p : Provider) (key : IdempotencyKey) (o : ChargeOutcome) : Prop :=
  ∃ c ∈ p.charges, c.key = key ∧ c.outcome = o

@[simp] theorem PaymentResult.untraced_withTrace (tc : TraceContext) (r : PaymentResult) :
    (r.withTrace tc).untraced = r.untraced := by cases r <;> rfl

theorem Provider.Answered.append {p : Provider} {key : IdempotencyKey} {o : ChargeOutcome}
    (h : p.Answered key o) {cs : List Charge} (hc : p.charges ⊆ cs) :
    Answered { p with charges := cs } key o := by
  obtain ⟨c, hm, hk, ho⟩ := h
  exact ⟨c, hc hm, hk, ho⟩

/-- A steady provider has one answer. -/
theorem Provider.Steady.answered_eq {p : Provider} (h : p.Steady) {key : IdempotencyKey}
    {o o' : ChargeOutcome} (ho : p.Answered key o) (ho' : p.Answered key o') : o = o' := by
  obtain ⟨c, hm, hk, rfl⟩ := ho
  obtain ⟨c', hm', hk', rfl⟩ := ho'
  exact h c hm c' hm' (hk.trans hk'.symm)

namespace Replay

/-- The message that reports an answer of the provider. -/
def message (e : BookingHeld) (amountCents : Int) : ChargeOutcome → PaymentResult
  | .succeeded ref => .succeeded
      { reservationId := e.reservationId, idempotencyKey := e.idempotencyKey,
        amountCents := amountCents, providerRef := ref, traceContext := none }
  | .declined reason => .failed
      { reservationId := e.reservationId, idempotencyKey := e.idempotencyKey,
        reason := reason, traceContext := none }

/-- A settled row says what the provider said. -/
structure Records (s : Store) (p : Payment) : Prop where
  succeeded : p.status = .succeeded →
    ∃ ref, p.providerRef = some ref ∧ s.provider.Answered p.idempotencyKey (.succeeded ref)
  failed : p.status = .failed →
    ∃ reason, p.failureReason = some reason ∧ s.provider.Answered p.idempotencyKey (.declined reason)

structure Inv (s : Store) : Prop where
  steady : s.provider.Steady
  records : ∀ p ∈ s.db.payments.rows, Records s p

/-- No payment is lost, none changes its amount, and no answer is forgotten. -/
structure Grows (s s' : Store) : Prop where
  payments : Table.Extends (fun p p' : Payment => p'.amountCents = p.amountCents)
    s.db.payments s'.db.payments
  charges : s.provider.charges ⊆ s'.provider.charges

/-- `r` is the message of the answer that the provider gave for the key of `e`. -/
def Reports (s : Store) (e : BookingHeld) (r : PaymentResult) : Prop :=
  ∃ p o, s.db.payments.find? e.idempotencyKey = some p ∧
    s.provider.Answered e.idempotencyKey o ∧ r = message e p.amountCents o

/-- What a call has to know before it writes a status. -/
def Known (s : Store) (k : IdempotencyKey) : PaymentUpdate → Prop
  | .succeeded ref => s.provider.Answered k (.succeeded ref)
  | .failed reason => s.provider.Answered k (.declined reason)
  | .refunded => True

theorem Grows.refl (s : Store) : Grows s s :=
  ⟨Table.Extends.refl (fun p => Eq.refl p.amountCents) _, fun _ h => h⟩

theorem Grows.trans {s₁ s₂ s₃ : Store} (h : Grows s₁ s₂) (h' : Grows s₂ s₃) : Grows s₁ s₃ :=
  ⟨h.payments.trans (fun _ _ _ h h' => h'.trans h) h'.payments, fun _ hc => h'.charges (h.charges hc)⟩

theorem Grows.answered {s s' : Store} (hg : Grows s s') {k : IdempotencyKey} {o : ChargeOutcome}
    (h : s.provider.Answered k o) : s'.provider.Answered k o := h.append hg.charges

theorem Grows.captured {s s' : Store} (hg : Grows s s') {k : IdempotencyKey}
    (h : s.provider.Captured k) : s'.provider.Captured k := by
  obtain ⟨c, hc, hk⟩ := h
  exact ⟨c, hg.charges hc, hk⟩

theorem Records.grows {s s' : Store} {p : Payment} (h : Records s p) (hg : Grows s s') :
    Records s' p := by
  constructor
  · intro hs
    obtain ⟨ref, hr, ha⟩ := h.succeeded hs
    exact ⟨ref, hr, hg.answered ha⟩
  · intro hs
    obtain ⟨reason, hr, ha⟩ := h.failed hs
    exact ⟨reason, hr, hg.answered ha⟩

theorem Known.grows {s s' : Store} {k : IdempotencyKey} {u : PaymentUpdate} (h : Known s k u)
    (hg : Grows s s') : Known s' k u := by
  cases u with
  | succeeded ref => exact hg.answered h
  | failed reason => exact hg.answered h
  | refunded => trivial

theorem Reports.grows {s s' : Store} {e : BookingHeld} {r : PaymentResult} (h : Reports s e r)
    (hg : Grows s s') : Reports s' e r := by
  obtain ⟨p, o, hp, ho, hr⟩ := h
  obtain ⟨p', hp', ha⟩ := hg.payments _ p hp
  exact ⟨p', o, hp', hg.answered ho, by rw [ha, hr]⟩

/-- A report carries no trace. -/
theorem Reports.untraced {s : Store} {e : BookingHeld} {r : PaymentResult} (h : Reports s e r) :
    r.untraced = r := by
  obtain ⟨p, o, -, -, rfl⟩ := h
  cases o <;> rfl

/-- The row and the answer determine the message. -/
theorem Reports.eq {s : Store} (hi : Inv s) {e e' : BookingHeld} {r r' : PaymentResult}
    (h : Reports s e r) (h' : Reports s e' r') (hk : e.idempotencyKey = e'.idempotencyKey)
    (hid : e.reservationId = e'.reservationId) : r = r' := by
  obtain ⟨p, o, hp, ho, rfl⟩ := h
  obtain ⟨p', o', hp', ho', rfl⟩ := h'
  rw [hk] at hp ho
  have hpp : p = p' := Option.some.inj (hp.symm.trans hp')
  have hoo : o = o' := hi.steady.answered_eq ho ho'
  subst hpp hoo
  cases o with
  | succeeded ref => simp only [message, hk, hid]
  | declined reason => simp only [message, hk, hid]

/-- A captured charge is reported as one. -/
theorem Reports.tag_of_captured {s : Store} (hi : Inv s) {e : BookingHeld} {r : PaymentResult}
    (h : Reports s e r) (hc : s.provider.Captured e.idempotencyKey) :
    r.tag = .paymentSucceeded := by
  obtain ⟨p, o, -, ho, rfl⟩ := h
  obtain ⟨c, hm, hk, ref, hr⟩ := hc
  have hoo : o = .succeeded ref := hi.steady.answered_eq ho ⟨c, hm, hk, hr⟩
  rw [hoo]
  rfl

/-- What a call writes is what it knows. -/
theorem Known.records {s : Store} {p : Payment} {u : PaymentUpdate}
    (h : Known s p.idempotencyKey u) : Records s (u.apply p) := by
  constructor
  · intro hs
    cases u with
    | succeeded ref => exact ⟨ref, rfl, h⟩
    | failed reason => cases hs
    | refunded => cases hs
  · intro hs
    cases u with
    | succeeded ref => cases hs
    | failed reason => exact ⟨reason, rfl, h⟩
    | refunded => cases hs

/-- A row that is not settled has nothing to say. -/
theorem records_of_pending {s : Store} {p : Payment} (hs : p.status = .pending) : Records s p := by
  constructor
  · intro h
    rw [hs] at h
    cases h
  · intro h
    rw [hs] at h
    cases h

/-! ## One statement -/

/-- A statement that touches neither the ledger nor the provider. -/
theorem step_frame {s s' : Store} (hi : Inv s) (hd : s'.db.payments = s.db.payments)
    (hp : s'.provider = s.provider) : Inv s' ∧ Grows s s' := by
  have hg : Grows s s' := by
    constructor
    · rw [hd]
      exact Table.Extends.refl (fun p => Eq.refl p.amountCents) _
    · rw [hp]
      exact fun _ h => h
  refine ⟨⟨by rw [hp]; exact hi.steady, fun p hm => ?_⟩, hg⟩
  rw [hd] at hm
  exact (hi.records p hm).grows hg

/-- A database statement of a call that knows what it writes. -/
theorem step_db {t : Nat} {o : DbStatement} {s : Store} {d : Database} {r : Except Err o.Resp}
    (hi : Inv s) (hx : s.db.Effect t o r d) (hk : ∀ k u, o = .paymentUpdate k u → Known s k u) :
    Inv { s with db := d } ∧ Grows s { s with db := d } := by
  rcases hx.payments with ⟨he, -⟩ | ⟨data, row, -, hs, -, -, -, he, -⟩ | ⟨k, u, p, rfl, hf, he, -⟩
  · exact step_frame hi he rfl
  · have hg : Grows s { s with db := d } := by
      refine ⟨?_, fun _ h => h⟩
      simp only [he]
      exact Table.Extends.insert (fun p => Eq.refl p.amountCents) _ row
    refine ⟨⟨hi.steady, fun p hm => ?_⟩, hg⟩
    have hfind : d.payments.find? p.idempotencyKey = some p := Table.find?_of_mem hm
    rw [he] at hfind
    rcases Table.find?_of_insert hfind with hold | ⟨-, rfl⟩
    · exact (hi.records p (Table.mem_of_find? hold)).grows hg
    · exact records_of_pending hs
  · have hg : Grows s { s with db := d } := by
      refine ⟨?_, fun _ h => h⟩
      simp only [he]
      refine Table.Extends.update u.apply_key fun p' _ => ?_
      split
      · exact u.apply_amountCents p'
      · rfl
    refine ⟨⟨hi.steady, fun p' hm => ?_⟩, hg⟩
    simp only [he] at hm
    obtain ⟨p₀, hm₀, rfl⟩ := Table.mem_update.mp hm
    by_cases hkey : (p₀.idempotencyKey == k) = true
    · rw [if_pos hkey]
      have hk₀ : Known s p₀.idempotencyKey u := by
        rw [beq_iff_eq.mp hkey]
        exact hk k u rfl
      exact (hk₀.grows hg).records
    · rw [if_neg hkey]
      exact (hi.records p₀ hm₀).grows hg

/-- One statement of a call that knows what it writes. -/
theorem step {a : Agent} {ch : Choice} {o : Statement} {s s' : Store} {r : Except Err o.Resp}
    (hi : Inv s) (hp : replaysUnrefunded.op a ch o s = true)
    (hx : o.exec a.tid ch s = some (r, s'))
    (hk : ∀ k u, o = .db (.paymentUpdate k u) → Known s k u) : Inv s' ∧ Grows s s' := by
  have hsteady := steady_of_exec hi.steady (Bool.and_eq_true_iff.mp hp).1 hx
  rcases Statement.exec_cases hx with ⟨rfl, -⟩ | ⟨r', hx, -⟩
  · exact ⟨hi, Grows.refl _⟩
  cases o with
  | db o =>
    obtain ⟨d, hd, rfl⟩ := Statement.perform_db hx
    exact step_db hi (Database.effect_of_perform hd) fun k u h => hk k u (congrArg _ h)
  | queue o => cases hx; exact step_frame hi rfl rfl
  | redis o => cases hx; exact step_frame hi rfl rfl
  | host o =>
    obtain ⟨m, rfl⟩ := Statement.perform_host hx
    exact step_frame hi rfl rfl
  | provider o =>
    have hg : Grows s s' := by
      cases hx
      refine ⟨Table.Extends.refl (fun p => Eq.refl p.amountCents) _, ?_⟩
      cases o with
      | refund key => exact fun _ h => h
      | charge key amountCents => exact fun c hc => List.mem_append_left _ hc
    refine ⟨⟨hsteady, fun p hm => ?_⟩, hg⟩
    cases hx
    exact (hi.records p hm).grows hg

end Replay

/-! ## The programs -/

/-- What a delivery of a charge answers, and what its processor publishes, reports the
answer of the provider. -/
def replay : RelyGuarantee Store Call Statement.Resp Err Reply :=
  { Step := fun a s o r s' => a.call.Issues o ∧
      ∃ ch, replaysUnrefunded.op a ch o s = true ∧ o.exec a.tid ch s = some (r, s')
    Inv := Replay.Inv
    Rely := fun _ => Replay.Grows
    Guar := fun a s o _ s' => Replay.Grows s s' ∧ ∀ jobId e m key,
      a.call = .processCharge jobId e → o = .queue (.resultAdd m key) →
        Replay.Reports s e m.untraced
    Post := fun a r s => ∀ e res, a.call = .charge e → r = .ok (.result res) →
      Replay.Reports s e res
    Fresh := fun _ _ => True
    Lost := fun _ _ => True }

namespace Replay

variable {a : Agent} {s : Store}

/-- Neither a charge recorded nor the result of one published. -/
def Silent (a : Agent) (o : Statement) : Prop :=
  (∀ k u, o = .db (.paymentUpdate k u) → u = .refunded) ∧
    ∀ m key, o = .queue (.resultAdd m key) → a.call.charges = false

theorem Silent.step {ch : Choice} {o : Statement} {s' : Store} {r : Except Err o.Resp}
    (ho : Silent a o) (hi : Inv s) (hp : replaysUnrefunded.op a ch o s = true)
    (hx : o.exec a.tid ch s = some (r, s')) :
    Inv s' ∧ replay.Guar a s o r s' := by
  obtain ⟨hi', hg⟩ := Replay.step hi hp hx fun k u h => by
    rw [ho.1 k u h]
    trivial
  refine ⟨hi', hg, fun jobId e m key hc h => ?_⟩
  have hsilent := ho.2 m key h
  rw [hc] at hsilent
  cases hsilent

theorem safe_of_uses {α : Type} {K : Store → Prop} (hK : ∀ s s', Grows s s' → K s → K s')
    {p : Async α} (hp : p.Uses (Silent a)) (hk : K s) : replay.Safe a (fun _ => K) p s := by
  refine Safe.of_uses hK ?_ hp hk
  rintro s o r s' ho hi hk ⟨-, ch, hpol, hx⟩
  obtain ⟨hi', hg⟩ := ho.step hi hpol hx
  exact ⟨hi', hg, hK s s' hg.1 hk⟩

/-- A silent statement, and the rest. -/
theorem safe_op {γ : Type} {Q : Except Err γ → Store → Prop} {o : Statement}
    {f : o.Resp → Async γ} (ho : Silent a o)
    (h : ∀ s₁, Grows s s₁ → ∀ ch, replaysUnrefunded.op a ch o s₁ = true → ∀ r s₂,
      o.exec a.tid ch s₁ = some (r, s₂) → Inv s₂ → Grows s₁ s₂ → replay.Cont a Q f r s₂) :
    replay.Safe a Q (await o >>= f) s := by
  refine Safe.op_bind fun s₁ hr hi r s₂ hx => ?_
  obtain ⟨-, ch, hpol, hx⟩ := hx
  obtain ⟨hi', hg⟩ := ho.step hi hpol hx
  exact ⟨hi', hg, h s₁ hr ch hpol r s₂ hx hi' hg.1⟩

/-- The result of a settled row reports the answer the row records. -/
theorem safe_toResult {e : BookingHeld} {p : Payment} (hi : Inv s)
    (hp : s.db.payments.find? e.idempotencyKey = some p)
    (hs : p.status = .succeeded ∨ p.status = .failed) :
    replay.Safe a (fun r s' => ∀ res, r = .ok res → Reports s' e res)
      (PaymentService.toResult e p) s := by
  have hr : Records s p := hi.records p (Table.mem_of_find? hp)
  have hk : p.idempotencyKey = e.idempotencyKey := Table.key_of_find? hp
  unfold PaymentService.toResult
  rcases hs with hs | hs
  · obtain ⟨ref, href, ha⟩ := hr.succeeded hs
    rw [if_pos hs, href]
    by_cases hempty : ref = ""
    · simp only [if_pos hempty, safe_throw]
      exact fun res h => by cases h
    · simp only [if_neg hempty, safe_pure]
      intro res h
      cases h
      exact ⟨p, .succeeded ref, hp, hk ▸ ha, rfl⟩
  · obtain ⟨reason, hreason, ha⟩ := hr.failed hs
    have hne : p.status ≠ .succeeded := by rw [hs]; decide
    rw [if_neg hne, hreason, safe_pure]
    intro res h
    cases h
    exact ⟨p, .declined reason, hp, hk ▸ ha, rfl⟩

/-- The first delivery: the answer is on record before the row is written. -/
theorem safe_chargeAndRecord (e : BookingHeld) :
    replay.Safe a (fun r s' => ∀ res, r = .ok res → Reports s' e res)
      (PaymentService.chargeAndRecord gateway e) s := by
  refine safe_op (o := .provider (.charge e.idempotencyKey e.amountCents)) (by simp [Silent])
    fun s₁ _ ch _ r s₂ hx _ _ => ?_
  cases r with
  | error err => exact fun res h => by cases h
  | ok outcome =>
    have hm := mem_charges_of_charge hx
    have hk : Known s₂ e.idempotencyKey (PaymentService.recorded outcome) := by
      cases outcome with
      | succeeded ref => exact ⟨_, hm, rfl, rfl⟩
      | declined reason => exact ⟨_, hm, rfl, rfl⟩
    refine Safe.op_bind fun s₃ hr hi r s₄ hx => ?_
    obtain ⟨-, ch, hpol, hx⟩ := hx
    obtain ⟨hi', hg⟩ := step hi hpol hx fun k u h => by
      cases h
      exact hk.grows hr
    refine ⟨hi', ⟨hg, fun jobId e m key _ h => by cases h⟩, ?_⟩
    cases r with
    | error err => exact fun res h => by cases h
    | ok p =>
      refine safe_toResult hi' (find?_of_paymentUpdate hx) ?_
      rw [status_of_paymentUpdate hx]
      cases outcome with
      | succeeded ref => exact .inl rfl
      | declined reason => exact .inr rfl

theorem not_refunded_of_read {ch : Choice} {key : IdempotencyKey} {p : Payment}
    (hc : a.call.charges = true)
    (hpol : replaysUnrefunded.op a ch (.db (.paymentFindUnique key)) s = true)
    (hf : ch.fault = .none) (hp : s.db.payments.find? key = some p) : p.status ≠ .refunded := by
  simp only [replaysUnrefunded, hc, hf, hp, Bool.and_eq_true] at hpol
  simpa using hpol.2

/-- A delivery that finds the payment settled finds it SUCCEEDED or FAILED. -/
theorem safe_charge (e : BookingHeld) (hc : a.call.charges = true) :
    replay.Safe a (fun r s' => ∀ res, r = .ok res → Reports s' e res)
      (PaymentService.charge gateway e) s := by
  refine safe_op (o := .db (.paymentFindUnique e.idempotencyKey)) (by simp [Silent])
    fun s₁ _ ch hpol r s₂ hx hi _ => ?_
  cases r with
  | error err => exact fun res h => by cases h
  | ok existing =>
    cases existing with
    | some existing =>
      have hp := find?_of_paymentFindUnique hx
      by_cases h : existing.status ≠ .pending
      · simp only [cont_ok, if_pos h]
        refine safe_toResult hi hp ?_
        have hne : existing.status ≠ .refunded := by
          rw [eq_of_paymentFindUnique hx] at hp
          exact not_refunded_of_read hc hpol (Statement.fault_of_exec_ok rfl hx) hp
        cases hs : existing.status with
        | pending => exact (h hs).elim
        | succeeded => exact .inl rfl
        | failed => exact .inr rfl
        | refunded => exact (hne hs).elim
      · simp only [cont_ok, if_neg h]
        exact safe_chargeAndRecord e
    | none =>
      have hclaim : replay.Safe a (fun _ _ => True) (PaymentService.claim e) s₂ :=
        safe_of_uses (fun _ _ _ h => h) (claim_uses e (by simp [Silent])) trivial
      refine Safe.bind (hclaim.imp fun r s₃ _ => ?_)
      cases r with
      | error err => exact fun res h => by cases h
      | ok u => exact safe_chargeAndRecord e

/-- What the processor publishes reports what `charge` has answered. -/
theorem safe_addResult {jobId : Id} {e : BookingHeld} {res : PaymentResult}
    (ha : a.call = .processCharge jobId e) (hr : Reports s e res) :
    replay.Safe a (fun _ _ => True) (addResult e res) s := by
  have hadd : ∀ s₁ m key, Reports s₁ e m.untraced →
      replay.Safe a (fun _ _ => True) (resultQueueAdd m key) s₁ := by
    intro s₁ m key hm s₂ hr hi r s₃ hx
    obtain ⟨-, ch, hpol, hx⟩ := hx
    obtain ⟨hi', hg⟩ := step hi hpol hx fun k u h => by cases h
    refine ⟨hi', ⟨hg, fun jobId' e' m' key' ha' h => ?_⟩, trivial⟩
    rw [ha] at ha'
    cases ha'
    cases h
    exact hm.grows hr
  refine safe_op (o := .host .inject) (by simp [Silent]) fun s₁ hg₁ ch _ r s₂ _ _ hg₂ => ?_
  have hr' : Reports s₂ e res := (hr.grows hg₁).grows hg₂
  cases r with
  | error err => trivial
  | ok trace =>
    cases trace with
    | none =>
      refine hadd s₂ res _ ?_
      rwa [hr'.untraced]
    | some tc =>
      refine hadd s₂ (res.withTrace tc) _ ?_
      rwa [PaymentResult.untraced_withTrace, hr'.untraced]

theorem safe_program (ttl : Int) (c : Call) (t : Nat) :
    replay.Safe ⟨t, c⟩ (replay.Post ⟨t, c⟩)
      (c.program { holdTtlMs := ttl, provider := gateway }) s := by
  by_cases hc : c.charges = true
  · cases c with
    | charge e =>
      refine Safe.bind ((safe_charge e hc).imp fun r s' h => ?_)
      cases r with
      | error err => exact fun e res _ h => by cases h
      | ok res =>
        intro e' res' he hr
        cases he
        cases hr
        exact h res rfl
    | processCharge jobId data =>
      have hother : ∀ r s', True → replay.Post ⟨t, .processCharge jobId data⟩ r s' :=
        fun r s' _ e res he => by cases he
      refine Safe.imp (safe_answer ?_) hother
      unfold processCharge
      cases hp : bookingHeldSchema data with
      | error err => trivial
      | ok event =>
        have hev : event = data := (bookingHeldSchema_eq_ok hp).1
        subst hev
        refine Safe.bind ((safe_charge event hc).imp fun r s' h => ?_)
        cases r with
        | error err => trivial
        | ok res => exact safe_addResult rfl (h res rfl)
    | _ => cases hc
  · have huses : (c.program { holdTtlMs := ttl, provider := gateway }).Uses (Silent ⟨t, c⟩) := by
      refine (program_issues _ c).mono fun o ho => ⟨?_, ?_⟩
      · rintro k u rfl
        cases c with
        | refund e => exact ho.2
        | processRefund jobId e => exact ho.2
        | charge e => exact (hc rfl).elim
        | processCharge jobId e => exact (hc rfl).elim
        | _ => exact ho.elim
      · rintro m key rfl
        exact Bool.eq_false_iff.mpr hc
    have hpost : ∀ r s', True → replay.Post ⟨t, c⟩ r s' := by
      rintro r s' - e res he
      simp only at he
      subst he
      exact (hc rfl).elim
    exact (safe_of_uses (fun _ _ _ h => h) huses trivial).imp hpost

theorem sound (ttl : Int) (listings : Table Listing) :
    Sound replay (system { holdTtlMs := ttl, provider := gateway }) replaysUnrefunded
      (Store.init listings) where
  start := ⟨by simp [Store.init, Provider.Steady], by simp [Store.init]⟩
  fresh_start := fun _ => trivial
  rely_refl := fun _ s => Grows.refl s
  rely_trans := fun _ _ _ _ => Grows.trans
  guar_rely := fun _ _ _ _ _ _ _ h => h.1
  fresh_stable := fun _ _ _ _ _ => trivial
  post_stable := fun _ _ _ _ hg _ h e res he hr => (h e res he hr).grows hg
  lost_stable := fun _ _ _ _ _ => trivial
  step := fun w hr t c o k ch r s' ht hp hx =>
    ⟨hr.uses_head (program_issues _) ht, ch, hp, hx⟩
  spawn := by
    intro t c s s' hi _ _ hs
    obtain ⟨q, rfl⟩ := exists_queues_of_spawned hs
    have h : Replay.Inv { s with queues := q } ∧ Grows s { s with queues := q } :=
      step_frame hi rfl rfl
    exact ⟨h.1, fun _ => h.2, safe_program ttl c t⟩
  ret := by
    intro t c r s hi _
    have he : ((system { holdTtlMs := ttl, provider := gateway }).returned t c r s).provider =
        s.provider := returned_provider t c r s
    obtain ⟨hi', hg⟩ := step_frame hi (congrArg _ (returned_db t c r s)) he
    exact ⟨hi', fun _ => hg⟩
  kill := by
    intro t c p s hi _
    have h : Replay.Inv (Store.killed t c s) ∧ Grows s (Store.killed t c s) :=
      step_frame hi rfl rfl
    exact ⟨h.1, fun _ _ => h.2, trivial⟩

end Replay

/-! ## The answers of a run -/

/-- `charge` has answered `r` for the event, to its caller or to the processor, which
is about to publish it. -/
inductive Answered (w : World) (e : BookingHeld) (r : PaymentResult) : Prop where
  | returned (t : Nat) (ht : w.threads[t]? = some (.returned (.charge e) (.ok (.result r))))
  | published (t : Nat) (jobId : Id) (m : PaymentResult) (key : IdempotencyKey)
      (rest : Except Err Unit → Async Reply)
      (ht : w.threads[t]? =
        some (.running (.processCharge jobId e) (.call (.queue (.resultAdd m key)) rest)))
      (hr : m.untraced = r)

section Claim

open Replay

variable {ttl : Int} {listings : Table Listing} {w w' : World}

theorem Replay.reports_of_answered
    (hr : (system { holdTtlMs := ttl, provider := gateway }).Reaches replaysUnrefunded
      (initial listings) w) {e : BookingHeld} {r : PaymentResult} (h : Answered w e r) :
    Reports w.shared e r := by
  have hsound := Replay.sound ttl listings
  cases h with
  | returned t ht => exact hsound.post hr ht e r rfl rfl
  | published t jobId m key rest ht hm =>
    have hx : (system { holdTtlMs := ttl, provider := gateway }).exec t ({} : Choice)
        (.queue (.resultAdd m key)) w.shared =
        some (.ok (), { w.shared with
          queues := Queues.perform (.resultAdd m key) w.shared.queues }) := rfl
    have hguar := (hsound.guar hr ht rfl hx).2.2 jobId e m key rfl rfl
    rwa [hm] at hguar

/-- If no delivery of a charge reads a payment that has been refunded, then all answers
of a run about one charge are the same message, and a charge that the provider has
captured is never reported as failed. -/
theorem one_charge_one_answer
    (hr : (system { holdTtlMs := ttl, provider := gateway }).Reaches replaysUnrefunded
      (initial listings) w)
    (hr' : (system { holdTtlMs := ttl, provider := gateway }).Reaches replaysUnrefunded w w') :
    (∀ e e' r r', Answered w e r → Answered w' e' r' → e.idempotencyKey = e'.idempotencyKey →
      e.reservationId = e'.reservationId → r = r') ∧
    ∀ e r, Answered w e r → w'.shared.provider.Captured e.idempotencyKey →
      r.tag = .paymentSucceeded := by
  have hsound := Replay.sound ttl listings
  have hg : Grows w.shared w'.shared := hsound.rely_of_reaches hr hr' (Nat.le_refl _)
  have hi := hsound.inv (hr.trans hr')
  constructor
  · intro e e' r r' h h' hk hid
    have hreports := (reports_of_answered hr h).grows hg
    exact hreports.eq hi (reports_of_answered (hr.trans hr') h') hk hid
  · intro e r h hc
    exact ((reports_of_answered hr h).grows hg).tag_of_captured hi hc

section Runs

open Scenario

/-- What thread `t` has answered to a delivery of the charge of `rid`. -/
def Scenario.answerOf (t : Nat) (rid : Id) (w : World) : Option PaymentResult :=
  match w.threads[t]? with
  | some (.returned (.charge e) (.ok (.result r))) => if e = event rid then some r else none
  | _ => none

theorem Scenario.answered_of_answerOf {t : Nat} {rid : Id} {w : World} {r : PaymentResult}
    (h : answerOf t rid w = some r) : Answered w (event rid) r := by
  unfold answerOf at h
  split at h
  · next e r' ht =>
    split at h
    · next he =>
      cases h
      subst he
      exact .returned t ht
    · cases h
  · cases h

/-- A delivery that finds the payment settled. -/
def Scenario.redeliver (t : Nat) (rid : Id) : List Event :=
  .spawn (.charge (event rid)) :: steps t 1 ++ [.ret t]

/-- The refund of a payment. -/
def Scenario.refunded (t : Nat) (rid : Id) : List Event :=
  .spawn (.refund (refund rid)) :: steps t 3 ++ [.ret t]

/-- One delivery charges, one finds the payment settled, and a refund follows. -/
theorem one_charge_one_answer_redelivered :
    ∃ w r r', (system Scenario.cfg).Reaches replaysUnrefunded (initial Scenario.listings) w ∧
      w.shared.paymentOf 5 = some .refunded ∧ Answered w (event 5) r ∧ Answered w (event 5) r' ∧
      r = r' ∧ r.tag = .paymentSucceeded := by
  have hrun : ((system Scenario.cfg).run replaysUnrefunded (initial Scenario.listings)
      (place 0 stay 5 6 ++ .spawn (.charge (event 5)) :: steps 1 4 ++ [.ret 1] ++
        redeliver 2 5 ++ refunded 3 5)).any
      (fun w => w.shared.paymentOf 5 == some .refunded && w.shared.provider.captured 5 &&
        answerOf 1 5 w == some (succeeded 5) && answerOf 2 5 w == some (succeeded 5)) = true := by
    decide
  obtain ⟨w, hr, ht⟩ := Machine.exists_reaches_of_run hrun
  simp only [Bool.and_eq_true, beq_iff_eq] at ht
  obtain ⟨⟨⟨hpay, hcap⟩, h₁⟩, h₂⟩ := ht
  have h₁ := answered_of_answerOf h₁
  have h₂ := answered_of_answerOf h₂
  exact ⟨w, _, _, hr, hpay, h₁, h₂, (one_charge_one_answer hr .refl).1 _ _ _ _ h₁ h₂ rfl rfl,
    (one_charge_one_answer hr .refl).2 _ _ h₁ (Provider.captured_iff.mp hcap)⟩

/-- A delivery that comes after the refund reports a decline. -/
theorem not_one_charge_one_answer :
    (¬ ∀ w, (system Scenario.cfg).Reaches steadyProvider (initial Scenario.listings) w →
      ∀ e r r', Answered w e r → Answered w e r' → r = r') ∧
    ¬ ∀ w, (system Scenario.cfg).Reaches steadyProvider (initial Scenario.listings) w →
      ∀ e r, Answered w e r → w.shared.provider.Captured e.idempotencyKey →
        r.tag = .paymentSucceeded := by
  have hrun : ((system Scenario.cfg).run steadyProvider (initial Scenario.listings)
      (place 0 stay 5 6 ++ .spawn (.charge (event 5)) :: steps 1 4 ++ [.ret 1] ++
        refunded 2 5 ++ redeliver 3 5)).any
      (fun w => w.shared.provider.captured 5 && answerOf 1 5 w == some (succeeded 5) &&
        answerOf 3 5 w == some (Replay.message (event 5) 200 (.declined "Card declined"))) =
      true := by decide
  obtain ⟨w, hr, ht⟩ := Machine.exists_reaches_of_run hrun
  simp only [Bool.and_eq_true, beq_iff_eq] at ht
  obtain ⟨⟨hcap, h₁⟩, h₂⟩ := ht
  have h₁ := answered_of_answerOf h₁
  have h₂ := answered_of_answerOf h₂
  constructor
  · intro h
    have heq := h w hr _ _ _ h₁ h₂
    cases heq
  · intro h
    have htag := h w hr _ _ h₂ (Provider.captured_iff.mp hcap)
    cases htag

end Runs

end Claim

end NoOverlap
