import NoOverlap.Lifecycle.Answers
import NoOverlap.Lifecycle.Rules
import NoOverlap.Lifecycle.History

/-!
# The payments ledger

The final update of a charge is unconditional, so what keeps the ledger moving
forward is not the update but what its author knows: the provider has one answer
per key, a row records no other answer, and a refund is recorded by a call that has
seen the charge succeed.  The one thing a charge cannot know is that its row has
been refunded since, and `refundsLast` is the condition that this does not happen.
-/

namespace NoOverlap

open Relational Concurrency RelyGuarantee

/-! ## The order -/

namespace PaymentStatus

/-- The moves of the ledger. -/
def next : PaymentStatus → List PaymentStatus
  | pending => [succeeded, failed]
  | succeeded => [refunded]
  | failed => []
  | refunded => []

/-- Reachable by such moves. -/
def later : PaymentStatus → PaymentStatus → Bool
  | pending, _ => true
  | succeeded, s => s == succeeded || s == refunded
  | failed, s => s == failed
  | refunded, s => s == refunded

theorem later_of_next {s s' : PaymentStatus} (h : s' = s ∨ s' ∈ s.next) : s.later s' = true := by
  revert h
  cases s <;> cases s' <;> decide

theorem later_refl (s : PaymentStatus) : s.later s = true := by cases s <;> rfl

theorem later_trans {s₁ s₂ s₃ : PaymentStatus} (h : s₁.later s₂ = true)
    (h' : s₂.later s₃ = true) : s₁.later s₃ = true := by
  revert h h'
  cases s₁ <;> cases s₂ <;> cases s₃ <;> decide

theorem took_of_later {s s' : PaymentStatus} (h : s.later s' = true) (hs : s.took = true) :
    s'.took = true := by
  revert h hs
  cases s <;> cases s' <;> decide

end PaymentStatus

/-- The row has kept its status or has made one move. -/
def Payment.Moved (p p' : Payment) : Prop := p'.status = p.status ∨ p'.status ∈ p.status.next

/-- The row later on. -/
def Payment.Forward (p p' : Payment) : Prop := p.status.later p'.status = true

/-! ## The assumptions -/

/-- The provider gives a key one answer. -/
def steadyProvider : Policy :=
  { anything with
    op := fun _ ch o s => match o with
      | .provider (.charge key _) =>
        s.provider.charges.all fun c => c.key != key || c.outcome == ch.outcome
      | _ => true }

/-- What is more, no charge records its answer over a refund. -/
def refundsLast : Policy :=
  { steadyProvider with
    op := fun a ch o s => steadyProvider.op a ch o s && match o with
      | .db (.paymentUpdate key data) =>
        data.status == .refunded || (s.db.payments.find? key).all fun p => p.status != .refunded
      | _ => true }

/-- The provider has not contradicted itself. -/
def Provider.Steady (p : Provider) : Prop :=
  ∀ c ∈ p.charges, ∀ c' ∈ p.charges, c.key = c'.key → c.outcome = c'.outcome

theorem Provider.Steady.append {p : Provider} (h : p.Steady) {x : Charge}
    (hx : ∀ c ∈ p.charges, c.key = x.key → c.outcome = x.outcome) :
    Steady { p with charges := p.charges ++ [x] } := by
  intro c hc c' hc' hk
  rcases List.mem_append.mp hc with hc | hc
  · rcases List.mem_append.mp hc' with hc' | hc'
    · exact h c hc c' hc' hk
    · rw [List.mem_singleton.mp hc'] at hk ⊢
      exact hx c hc hk
  · rcases List.mem_append.mp hc' with hc' | hc'
    · rw [List.mem_singleton.mp hc] at hk ⊢
      exact (hx c' hc' hk.symm).symm
    · rw [List.mem_singleton.mp hc, List.mem_singleton.mp hc']

theorem Provider.Steady.not_declined {p : Provider} (h : p.Steady) {k : IdempotencyKey}
    (hc : p.Captured k) : ¬ p.Declined k := by
  rintro ⟨c, hm, hk, reason, hr⟩
  obtain ⟨c', hm', hk', ref, hr'⟩ := hc
  have := h c hm c' hm' (hk.trans hk'.symm)
  rw [hr, hr'] at this
  cases this

/-- A provider that gives a key one answer stays steady. -/
theorem steady_of_exec {a : Agent} {ch : Choice} {o : Statement} {s s' : Store}
    {r : Except Err o.Resp} (h : s.provider.Steady) (hp : steadyProvider.op a ch o s = true)
    (hx : o.exec a.tid ch s = some (r, s')) : s'.provider.Steady := by
  rcases Statement.exec_provider hx with he | ⟨o, rfl, rfl⟩
  · rwa [he]
  cases o with
  | refund key => exact h
  | charge key amountCents =>
    refine h.append fun c hc hkey => ?_
    have := List.all_eq_true.mp hp c hc
    simpa [show c.key = key from hkey] using this

namespace PaymentLedger

/-- Every row records an answer of the provider, and the provider never
contradicts itself. -/
structure Inv (s : Store) : Prop where
  steady : s.provider.Steady
  captured : ∀ k p, s.db.payments.find? k = some p → p.status.took = true →
    s.provider.Captured k
  declined : ∀ k p, s.db.payments.find? k = some p → p.status = .failed → s.provider.Declined k

/-- The ledger and the answers of the provider have moved forward. -/
structure Grows (rel : Payment → Payment → Prop) (s s' : Store) : Prop where
  payments : Table.Extends rel s.db.payments s'.db.payments
  charges : s.provider.charges ⊆ s'.provider.charges

/-- What a call has to know before it writes a status. -/
def Known (s : Store) (k : IdempotencyKey) : PaymentUpdate → Prop
  | .succeeded _ => s.provider.Captured k
  | .failed _ => s.provider.Declined k
  | .refunded => ∃ p, s.db.payments.find? k = some p ∧ p.status.took = true

theorem Grows.mono {rel rel' : Payment → Payment → Prop} {s s' : Store} (h : Grows rel s s')
    (hrel : ∀ p p', rel p p' → rel' p p') : Grows rel' s s' := by
  refine ⟨fun k p hp => ?_, h.charges⟩
  obtain ⟨p', hp', hr⟩ := h.payments k p hp
  exact ⟨p', hp', hrel p p' hr⟩

theorem Grows.refl {rel : Payment → Payment → Prop} (hrel : ∀ p, rel p p) (s : Store) :
    Grows rel s s := ⟨Table.Extends.refl hrel _, fun _ h => h⟩

theorem Grows.trans {s₁ s₂ s₃ : Store} (h : Grows Payment.Forward s₁ s₂)
    (h' : Grows Payment.Forward s₂ s₃) : Grows Payment.Forward s₁ s₃ :=
  ⟨h.payments.trans (fun _ _ _ => PaymentStatus.later_trans) h'.payments,
    fun _ hc => h'.charges (h.charges hc)⟩

theorem Known.grows {s s' : Store} {k : IdempotencyKey} {u : PaymentUpdate} (h : Known s k u)
    (hg : Grows Payment.Forward s s') : Known s' k u := by
  cases u with
  | succeeded ref =>
    obtain ⟨c, hc, hk⟩ := h
    exact ⟨c, hg.charges hc, hk⟩
  | failed reason =>
    obtain ⟨c, hc, hk⟩ := h
    exact ⟨c, hg.charges hc, hk⟩
  | refunded =>
    obtain ⟨p, hp, ht⟩ := h
    obtain ⟨p', hp', hl⟩ := hg.payments k p hp
    exact ⟨p', hp', PaymentStatus.took_of_later hl ht⟩

theorem Known.took {s : Store} (hi : Inv s) {k : IdempotencyKey} {u : PaymentUpdate}
    (h : Known s k u) (ht : u.status.took = true) : s.provider.Captured k := by
  cases u with
  | succeeded ref => exact h
  | failed reason => cases ht
  | refunded =>
    obtain ⟨p, hp, ht⟩ := h
    exact hi.captured k p hp ht

/-- Rows and answers are only added. -/
theorem Inv.of_find {s s' : Store} (h : Inv s) (hc : s'.provider = s.provider)
    (hp : ∀ k p, s'.db.payments.find? k = some p → s.db.payments.find? k = some p ∨
      p.status = .pending ∨ p.status.took = true ∧ s.provider.Captured k ∨
      p.status = .failed ∧ s.provider.Declined k) : Inv s' := by
  constructor
  · rw [hc]
    exact h.steady
  · intro k p hk ht
    rw [hc]
    rcases hp k p hk with hk | hs | ⟨-, hk⟩ | ⟨hs, -⟩
    · exact h.captured k p hk ht
    · rw [hs] at ht
      cases ht
    · exact hk
    · rw [hs] at ht
      cases ht
  · intro k p hk hs
    rw [hc]
    rcases hp k p hk with hk | hs' | ⟨ht, -⟩ | ⟨-, hk⟩
    · exact h.declined k p hk hs
    · rw [hs] at hs'
      cases hs'
    · rw [hs] at ht
      cases ht
    · exact hk

/-- The update of a call that knows what it writes is a move. -/
theorem moved_of_known {s : Store} (hi : Inv s) {k : IdempotencyKey} {u : PaymentUpdate}
    {p : Payment} (hp : s.db.payments.find? k = some p) (hk : Known s k u)
    (hr : u.status = .refunded ∨ p.status ≠ .refunded) : p.Moved (u.apply p) := by
  rw [Payment.Moved, PaymentUpdate.apply_status]
  cases u with
  | succeeded ref =>
    cases hs : p.status with
    | pending => exact .inr (by simp [PaymentStatus.next, PaymentUpdate.status])
    | succeeded => exact .inl rfl
    | failed => exact (hi.steady.not_declined hk (hi.declined k p hp hs)).elim
    | refunded => exact (hr.elim (by simp [PaymentUpdate.status]) fun h => h hs).elim
  | failed reason =>
    cases hs : p.status with
    | pending => exact .inr (by simp [PaymentStatus.next, PaymentUpdate.status])
    | succeeded => exact (hi.steady.not_declined (hi.captured k p hp (by rw [hs]; rfl)) hk).elim
    | failed => exact .inl rfl
    | refunded => exact (hi.steady.not_declined (hi.captured k p hp (by rw [hs]; rfl)) hk).elim
  | refunded =>
    obtain ⟨p', hp', ht⟩ := hk
    rw [hp] at hp'
    cases hp'
    cases hs : p.status with
    | succeeded => exact .inr (by simp [PaymentStatus.next, PaymentUpdate.status])
    | refunded => exact .inl rfl
    | pending => rw [hs] at ht; cases ht
    | failed => rw [hs] at ht; cases ht

/-- A statement that touches neither the ledger nor the provider. -/
theorem step_frame {rel : Payment → Payment → Prop} (hrel : ∀ p, rel p p) {s s' : Store}
    (hi : Inv s) (hd : s'.db.payments = s.db.payments) (hp : s'.provider = s.provider) :
    Inv s' ∧ Grows rel s s' := by
  refine ⟨hi.of_find hp fun k p h => .inl (by rwa [← hd]), ?_, ?_⟩
  · rw [hd]
    exact Table.Extends.refl hrel _
  · rw [hp]
    exact fun _ h => h

theorem moved_refl (p : Payment) : p.Moved p := .inl rfl

/-- A database statement of a call that knows what it writes. -/
theorem step_db {t : Nat} {c : Call} {ch : Choice} {o : DbStatement} {s : Store} {d : Database}
    {r : Except Err o.Resp} (hi : Inv s) (hp : refundsLast.op ⟨t, c⟩ ch (.db o) s = true)
    (hx : s.db.Effect t o r d) (hk : ∀ k u, o = .paymentUpdate k u → Known s k u) :
    Inv { s with db := d } ∧ Grows Payment.Moved s { s with db := d } := by
  rcases hx.payments with ⟨he, -⟩ | ⟨data, row, -, hs, -, -, -, he, -⟩ | ⟨k, u, p, rfl, hf, he, -⟩
  · exact step_frame moved_refl hi he rfl
  · refine ⟨hi.of_find rfl fun k p h => ?_, ?_, fun _ h => h⟩
    · simp only [he] at h
      rcases Table.find?_of_insert h with h | ⟨-, rfl⟩
      · exact .inl h
      · exact .inr (.inl hs)
    · simp only [he]
      exact Table.Extends.insert moved_refl _ row
  · have hu : u.status = .refunded ∨ p.status ≠ .refunded := by
      simp only [refundsLast, Bool.and_eq_true, Bool.or_eq_true, beq_iff_eq, hf, Option.all_some,
        bne_iff_ne] at hp
      exact hp.2
    have hku := hk k u rfl
    refine ⟨hi.of_find rfl fun k' p' h => ?_, ?_, fun _ h => h⟩
    · simp only [he, Table.find?_update] at h
      obtain ⟨p₀, hp₀, hp'⟩ := Option.map_eq_some_iff.mp h
      split at hp'
      · next hkey =>
        have hk' : k' = k := (Table.key_of_find? hp₀).symm.trans (beq_iff_eq.mp hkey)
        subst hk'
        cases hp'
        rw [PaymentUpdate.apply_status]
        cases u with
        | succeeded ref => exact .inr (.inr (.inl ⟨rfl, hku⟩))
        | failed reason => exact .inr (.inr (.inr ⟨rfl, hku⟩))
        | refunded => exact .inr (.inr (.inl ⟨rfl, Known.took hi hku rfl⟩))
      · cases hp'
        exact .inl hp₀
    · simp only [he]
      refine Table.Extends.update u.apply_key fun p' hp' => ?_
      split
      · next hkey =>
        have : p' = p := Table.eq_of_key_eq hp' (Table.mem_of_find? hf)
          ((beq_iff_eq.mp hkey).trans (Table.key_of_find? hf).symm)
        rw [this]
        exact moved_of_known hi hf hku hu
      · exact moved_refl p'

/-- One statement of a call that knows what it writes. -/
theorem step {t : Nat} {c : Call} {ch : Choice} {o : Statement} {s s' : Store}
    {r : Except Err o.Resp} (hi : Inv s) (hp : refundsLast.op ⟨t, c⟩ ch o s = true)
    (hx : o.exec t ch s = some (r, s'))
    (hk : ∀ k u, o = .db (.paymentUpdate k u) → Known s k u) :
    Inv s' ∧ Grows Payment.Moved s s' := by
  have hsteady := steady_of_exec (a := ⟨t, c⟩) hi.steady (Bool.and_eq_true_iff.mp hp).1 hx
  rcases Statement.exec_cases hx with ⟨rfl, -⟩ | ⟨r', hx, -⟩
  · exact ⟨hi, Grows.refl moved_refl _⟩
  cases o with
  | db o =>
    obtain ⟨d, hd, rfl⟩ := Statement.perform_db hx
    exact step_db hi hp (Database.effect_of_perform hd) fun k u h => hk k u (congrArg _ h)
  | queue o => cases hx; exact step_frame moved_refl hi rfl rfl
  | redis o => cases hx; exact step_frame moved_refl hi rfl rfl
  | host o =>
    obtain ⟨m, rfl⟩ := Statement.perform_host hx
    exact step_frame moved_refl hi rfl rfl
  | provider o =>
    cases hx
    cases o with
    | refund key =>
      exact ⟨⟨hi.steady, hi.captured, hi.declined⟩, Table.Extends.refl moved_refl _, fun _ h => h⟩
    | charge key amountCents =>
      refine ⟨⟨hsteady, fun k p hk ht => ?_, fun k p hk hs => ?_⟩,
        Table.Extends.refl moved_refl _, fun c hc => List.mem_append_left _ hc⟩
      · obtain ⟨c, hc, h⟩ := hi.captured k p hk ht
        exact ⟨c, List.mem_append_left _ hc, h⟩
      · obtain ⟨c, hc, h⟩ := hi.declined k p hk hs
        exact ⟨c, List.mem_append_left _ hc, h⟩

end PaymentLedger

/-! ## The programs -/

/-- What the calls of the worker know while they run. -/
def paymentLedger : RelyGuarantee Store Call Statement.Resp Err Reply :=
  { Step := fun a s o r s' => a.call.Issues o ∧
      ∃ ch, refundsLast.op a ch o s = true ∧ o.exec a.tid ch s = some (r, s')
    Inv := PaymentLedger.Inv
    Rely := fun _ => PaymentLedger.Grows Payment.Forward
    Guar := fun _ s _ _ s' => PaymentLedger.Grows Payment.Moved s s'
    Post := fun _ _ _ => True
    Fresh := fun _ _ => True
    Lost := fun _ _ => True }

namespace PaymentLedger

variable {a : Agent} {s : Store}

theorem forward_of_moved {s s' : Store} (h : Grows Payment.Moved s s') :
    Grows Payment.Forward s s' := h.mono fun _ _ => PaymentStatus.later_of_next

/-- A call that writes no payment. -/
theorem safe_of_uses {α : Type} {p : Async α}
    (hp : p.Uses fun o => ∀ k u, o ≠ .db (.paymentUpdate k u)) :
    paymentLedger.Safe a (fun _ _ => True) p s := by
  refine Safe.of_uses (K := fun _ => True) (fun _ _ _ _ => trivial) ?_ hp trivial
  rintro s o r s' ho hi - ⟨-, ch, hpol, hx⟩
  obtain ⟨hi', hg⟩ := step hi hpol hx fun k u h => (ho k u h).elim
  exact ⟨hi', hg, trivial⟩

/-- A statement that writes no payment, and the rest. -/
theorem safe_op {γ : Type} {Q : Except Err γ → Store → Prop} {o : Statement}
    {f : o.Resp → Async γ} (ho : ∀ k u, o ≠ .db (.paymentUpdate k u))
    (h : ∀ s₁, Grows Payment.Forward s s₁ → ∀ ch r s₂, o.exec a.tid ch s₁ = some (r, s₂) →
      Grows Payment.Forward s₁ s₂ → paymentLedger.Cont a Q f r s₂) :
    paymentLedger.Safe a Q (await o >>= f) s := by
  refine Safe.op_bind fun s₁ hr hi r s₂ hx => ?_
  obtain ⟨-, ch, hpol, hx⟩ := hx
  obtain ⟨hi', hg⟩ := step hi hpol hx fun k u h => (ho k u h).elim
  exact ⟨hi', hg, h s₁ hr ch r s₂ hx (forward_of_moved hg)⟩

/-- A payment update of a call that knows what it writes. -/
theorem safe_update {γ : Type} {Q : Except Err γ → Store → Prop} {k : IdempotencyKey}
    {u : PaymentUpdate} {f : Payment → Async γ} (hk : Known s k u)
    (h : ∀ r s₂, paymentLedger.Cont a Q f r s₂) :
    paymentLedger.Safe a Q (prisma.paymentUpdate k u >>= f) s := by
  refine Safe.op_bind fun s₁ hr hi r s₂ hx => ?_
  obtain ⟨-, ch, hpol, hx⟩ := hx
  obtain ⟨hi', hg⟩ := step hi hpol hx fun k' u' he => by
    cases he
    exact hk.grows hr
  exact ⟨hi', hg, h r s₂⟩

theorem safe_chargeAndRecord (e : BookingHeld) :
    paymentLedger.Safe a (fun _ _ => True) (PaymentService.chargeAndRecord gateway e) s := by
  refine safe_op (o := .provider (.charge e.idempotencyKey e.amountCents)) (by simp)
    fun s₁ _ ch r s₂ hx _ => ?_
  cases r with
  | error err => trivial
  | ok outcome =>
    -- The answer is on record from here on.
    have hk : Known s₂ e.idempotencyKey (PaymentService.recorded outcome) := by
      have hm := mem_charges_of_charge hx
      cases outcome with
      | succeeded ref => exact ⟨_, hm, rfl, ref, rfl⟩
      | declined reason => exact ⟨_, hm, rfl, reason, rfl⟩
    refine safe_update hk fun r s₃ => ?_
    cases r with
    | error err => trivial
    | ok p => exact safe_of_uses (toResult_uses e p)

theorem safe_charge (e : BookingHeld) :
    paymentLedger.Safe a (fun _ _ => True) (PaymentService.charge gateway e) s := by
  refine safe_op (o := .db (.paymentFindUnique e.idempotencyKey)) (by simp)
    fun s₁ _ ch r s₂ _ _ => ?_
  cases r with
  | error err => trivial
  | ok existing =>
    cases existing with
    | some existing =>
      by_cases h : existing.status ≠ .pending
      · simp only [cont_ok, if_pos h]
        exact safe_of_uses (toResult_uses e existing)
      · simp only [cont_ok, if_neg h]
        exact safe_chargeAndRecord e
    | none =>
      exact Safe.seq (safe_of_uses (claim_uses e (by simp))) fun _ _ _ => safe_chargeAndRecord e

/-- The refund of a charge that has been seen to succeed. -/
theorem safe_refund (e : RefundRequested) :
    paymentLedger.Safe a (fun _ _ => True) (PaymentService.refund gateway e) s := by
  refine safe_op (o := .db (.paymentFindUnique e.idempotencyKey)) (by simp)
    fun s₁ _ ch r s₂ hx _ => ?_
  cases r with
  | error err => trivial
  | ok payment =>
    cases payment with
    | none => trivial
    | some payment =>
      by_cases h : payment.status ≠ .succeeded
      · simp only [cont_ok, if_pos h, safe_pure]
      · simp only [cont_ok, if_neg h]
        refine safe_op (o := .provider (.refund e.idempotencyKey)) (by simp)
          fun s₃ hg₃ ch r s₄ _ hg₄ => ?_
        cases r with
        | error err => trivial
        | ok u =>
          have hk : Known s₂ e.idempotencyKey .refunded :=
            ⟨payment, find?_of_paymentFindUnique hx, by rw [not_not.mp h]; rfl⟩
          refine safe_update ((hk.grows hg₃).grows hg₄) fun r s₅ => ?_
          cases r <;> trivial

theorem safe_processCharge (data : BookingHeld) :
    paymentLedger.Safe a (fun _ _ => True) (processCharge gateway data) s := by
  unfold processCharge
  cases hp : bookingHeldSchema data with
  | error e => trivial
  | ok event =>
    exact Safe.seq (safe_charge event) fun result s' _ =>
      safe_of_uses (addResult_uses event result (by simp) (by simp))

theorem safe_program (ttl : Int) (c : Call) :
    paymentLedger.Safe a (fun _ _ => True) (c.program { holdTtlMs := ttl, provider := gateway }) s := by
  by_cases hc : c.ofWorker = true
  · cases c with
    | charge e => exact safe_answer (safe_charge e)
    | refund e => exact safe_answer (safe_refund e)
    | processCharge jobId data => exact safe_answer (safe_processCharge data)
    | processRefund jobId data => exact safe_answer (safe_refund data)
    | _ => cases hc
  · refine safe_of_uses ((program_issues _ c).mono ?_)
    rintro o ho k u rfl
    exact hc (Call.Records.ofWorker ho)

theorem sound (ttl : Int) (listings : Table Listing) :
    Sound paymentLedger (system { holdTtlMs := ttl, provider := gateway }) refundsLast
      (Store.init listings) where
  start := ⟨by simp [Store.init, Provider.Steady], by simp [Store.init], by simp [Store.init]⟩
  fresh_start := fun _ => trivial
  rely_refl := fun _ s => Grows.refl (fun p => p.status.later_refl) s
  rely_trans := fun _ _ _ _ => Grows.trans
  guar_rely := fun _ _ _ _ _ _ _ => forward_of_moved
  fresh_stable := fun _ _ _ _ _ => trivial
  post_stable := fun _ _ _ _ _ _ _ => trivial
  lost_stable := fun _ _ _ _ _ => trivial
  step := fun w hr t c o k ch r s' ht hp hx =>
    ⟨hr.uses_head (program_issues _) ht, ch, hp, hx⟩
  spawn := by
    intro t c s s' hi _ _ hs
    obtain ⟨q, rfl⟩ := exists_queues_of_spawned hs
    have h : PaymentLedger.Inv { s with queues := q } ∧
        Grows Payment.Moved s { s with queues := q } := step_frame moved_refl hi rfl rfl
    exact ⟨h.1, fun _ => forward_of_moved h.2, safe_program ttl c⟩
  ret := by
    intro t c r s hi _
    have he : ((system { holdTtlMs := ttl, provider := gateway }).returned t c r s).provider =
        s.provider := returned_provider t c r s
    obtain ⟨hi', hg⟩ := step_frame moved_refl hi (congrArg _ (returned_db t c r s)) he
    exact ⟨hi', fun _ => forward_of_moved hg⟩
  kill := by
    intro t c p s hi _
    have h : PaymentLedger.Inv (Store.killed t c s) ∧ Grows Payment.Moved s (Store.killed t c s) :=
      step_frame moved_refl hi rfl rfl
    exact ⟨h.1, fun _ _ => forward_of_moved h.2, trivial⟩

variable {ttl : Int} {listings : Table Listing} {w w' : World}

theorem moved_of_next {e : Event}
    (hr : (system { holdTtlMs := ttl, provider := gateway }).Reaches refundsLast
      (initial listings) w)
    (hn : (system { holdTtlMs := ttl, provider := gateway }).next refundsLast w e = some w') :
    Table.Extends Payment.Moved w.shared.db.payments w'.shared.db.payments := by
  cases Machine.next_moves _ _ hn with
  | spawn hp hs =>
    rw [spawned_db hs]
    exact Table.Extends.refl moved_refl _
  | step ht hp hx => exact ((sound ttl listings).guar hr ht hp hx).2.payments
  | @ret t c r ht =>
    have he : ((system { holdTtlMs := ttl, provider := gateway }).returned t c r w.shared).db =
        w.shared.db := returned_db t c r _
    simp only [he]
    exact Table.Extends.refl moved_refl _
  | kill ht hp => exact Table.Extends.refl moved_refl _

end PaymentLedger

section Claim

open PaymentLedger

variable {ttl : Int} {listings : Table Listing} {w w' : World}

theorem forward_of_reaches
    (hr : (system { holdTtlMs := ttl, provider := gateway }).Reaches refundsLast
      (initial listings) w)
    (hr' : (system { holdTtlMs := ttl, provider := gateway }).Reaches refundsLast w w') :
    Table.Extends Payment.Forward w.shared.db.payments w'.shared.db.payments := by
  induction hr' with
  | refl => exact Table.Extends.refl (fun p => p.status.later_refl) _
  | tail e h hn ih =>
    refine ih.trans (fun _ _ _ => PaymentStatus.later_trans) fun k p hp => ?_
    obtain ⟨p', hp', hm⟩ := moved_of_next (hr.trans h) hn k p hp
    exact ⟨p', hp', PaymentStatus.later_of_next hm⟩

/-- The row of a key moves along `next` only, and a refund stays a refund. -/
theorem payments_move_forward
    (hr : (system { holdTtlMs := ttl, provider := gateway }).Reaches refundsLast
      (initial listings) w) :
    (∀ w' e, (system { holdTtlMs := ttl, provider := gateway }).next refundsLast w e = some w' →
      ∀ k s, w.shared.paymentOf k = some s →
        ∃ s', w'.shared.paymentOf k = some s' ∧ (s' = s ∨ s' ∈ s.next)) ∧
    ∀ w', (system { holdTtlMs := ttl, provider := gateway }).Reaches refundsLast w w' →
      ∀ k, w.shared.paymentOf k = some .refunded → w'.shared.paymentOf k = some .refunded := by
  constructor
  · intro w' e hn k s hs
    obtain ⟨p, hp, rfl⟩ := Option.map_eq_some_iff.mp hs
    obtain ⟨p', hp', hm⟩ := moved_of_next hr hn k p hp
    exact ⟨p'.status, Option.map_eq_some_iff.mpr ⟨p', hp', rfl⟩, hm⟩
  · intro w' hr' k hs
    obtain ⟨p, hp, hst⟩ := Option.map_eq_some_iff.mp hs
    obtain ⟨p', hp', hl⟩ := forward_of_reaches hr hr' k p hp
    rw [Payment.Forward, hst] at hl
    refine Option.map_eq_some_iff.mpr ⟨p', hp', ?_⟩
    simpa [PaymentStatus.later] using hl

section Runs

open Scenario

/-- One delivery charges, and the payment is refunded. -/
theorem payments_move_forward_refunded :
    ∃ w, (system Scenario.cfg).Reaches refundsLast (initial Scenario.listings) w ∧
      w.shared.paymentOf 5 = some .refunded ∧
      ∀ w', (system Scenario.cfg).Reaches refundsLast w w' →
        w'.shared.paymentOf 5 = some .refunded := by
  have hrun : ((system Scenario.cfg).run refundsLast (initial Scenario.listings)
      (place 0 stay 5 6 ++ .spawn (.charge (event 5)) :: steps 1 4 ++ [.ret 1] ++
        .spawn (.refund (refund 5)) :: steps 2 3 ++ [.ret 2])).any
      (fun w => w.shared.paymentOf 5 == some .refunded) = true := by decide
  obtain ⟨w, hr, ht⟩ := Machine.exists_reaches_of_run hrun
  exact ⟨w, hr, beq_iff_eq.mp ht, fun w' hr' =>
    (payments_move_forward hr).2 w' hr' 5 (beq_iff_eq.mp ht)⟩

/-- Two deliveries overlap.  One settles the payment, the refund follows, and the
other records the same answer of the provider over it. -/
theorem not_payments_move_forward :
    ¬ ∀ w, (system Scenario.cfg).Reaches steadyProvider (initial Scenario.listings) w → ∀ w' e,
      (system Scenario.cfg).next steadyProvider w e = some w' → ∀ k s,
      w.shared.paymentOf k = some s →
      ∃ s', w'.shared.paymentOf k = some s' ∧ (s' = s ∨ s' ∈ s.next) := by
  intro h
  have hrun : ((system Scenario.cfg).run steadyProvider (initial Scenario.listings)
      (place 0 stay 5 6 ++ [.spawn (.charge (event 5)), .spawn (.charge (event 5))] ++
        steps 1 2 ++ steps 2 3 ++ steps 1 1 ++ [.ret 2] ++
        .spawn (.refund (refund 5)) :: steps 3 3 ++ [.ret 3])).any
      (fun w => ((system Scenario.cfg).next steadyProvider w (.step 1 {})).any fun w' =>
        w.shared.paymentOf 5 == some .refunded && w'.shared.paymentOf 5 == some .succeeded) =
      true := by decide
  obtain ⟨w, w', hr, hn, ht⟩ := Machine.exists_next_of_run hrun
  simp only [Bool.and_eq_true, beq_iff_eq] at ht
  obtain ⟨s', hs', hm⟩ := h w hr w' _ hn 5 _ ht.1
  rw [ht.2] at hs'
  cases hs'
  simp [PaymentStatus.next] at hm

end Runs

end Claim

end NoOverlap
