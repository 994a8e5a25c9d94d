import NoOverlap.Lifecycle.Rules
import NoOverlap.Lifecycle.Effect

/-!
# The mock provider decides once

The provider reads its ledger, waits, draws twice and writes.  Two calls that both
miss both decide, and the payments row does not stop them: a delivery that finds
it PENDING goes on to the provider.  `decidesOnce` is the condition that no call
writes a ledger another call has written since, and under it the ledger holds the
one outcome of every key.

The calls that are counted are those of the provider: `settled` has an entry for each
`charge` or `refund` of it that has decided an outcome or has replayed one.
-/

namespace NoOverlap

open Relational Concurrency RelyGuarantee

/-- No other write of a key lies between a call's read of the ledger and its own write.  A call
writes only what it has looked up in vain, so an outcome that its write finds is another's. -/
def decidesOnce : Policy :=
  { anything with
    op := fun _ _ o s => match o with
      | .redis (.setCharge key _) => (s.redis.charges.entry key).isNone
      | .redis (.setRefund key) => (s.redis.refunds.entry key).isNone
      | _ => true }

namespace Ledger

variable {ω : Type} {l l' l'' : Ledger ω} {key : IdempotencyKey} {v : ω}

/-- Every answer is the entry of its key, and was decided at most once. -/
structure Once (l : Ledger ω) : Prop where
  recorded : ∀ e ∈ l.settled, l.entry e.key = some e.outcome
  fresh : ((l.settled.filter (·.fresh)).map (·.key)).Nodup

/-- No entry is lost or changed. -/
def Keeps (l l' : Ledger ω) : Prop := ∀ k v, l.entry k = some v → l'.entry k = some v

theorem Keeps.refl (l : Ledger ω) : l.Keeps l := fun _ _ h => h

theorem Keeps.trans (h : l.Keeps l') (h' : l'.Keeps l'') : l.Keeps l'' :=
  fun k v hv => h' k v (h k v hv)

theorem once_empty : (empty : Ledger ω).Once := ⟨by simp [empty], by simp [empty]⟩

theorem get_some (h : (l.get key).1 = some v) : (l.get key).2.entry key = some v := by
  unfold get at h ⊢
  split at h
  · next hv => cases h; exact hv
  · cases h

theorem Once.get (h : l.Once) (key : IdempotencyKey) :
    (l.get key).2.Once ∧ l.Keeps (l.get key).2 := by
  unfold Ledger.get
  split
  · next v hv =>
    refine ⟨⟨fun e he => ?_, ?_⟩, Keeps.refl l⟩
    · rcases List.mem_append.mp he with he | he
      · exact h.recorded e he
      · rw [List.mem_singleton.mp he]
        exact hv
    · simpa [List.filter_append] using h.fresh
  · exact ⟨h, Keeps.refl l⟩

theorem Once.set (h : l.Once) (hn : l.entry key = none) (v : ω) :
    (l.set key v).Once ∧ l.Keeps (l.set key v) := by
  have hk : l.Keeps (l.set key v) := by
    intro k v' hv
    have hne : k ≠ key := by
      rintro rfl
      rw [hn] at hv
      cases hv
    simpa only [Ledger.set, Function.update_of_ne hne] using hv
  refine ⟨⟨fun e he => ?_, ?_⟩, hk⟩
  · rcases List.mem_append.mp he with he | he
    · exact hk _ _ (h.recorded e he)
    · rw [List.mem_singleton.mp he]
      exact Function.update_self _ _ _
  · simp only [Ledger.set, List.filter_append, List.map_append]
    refine h.fresh.append (List.nodup_singleton _) ?_
    intro k hk₁ hk₂
    obtain ⟨e, he, rfl⟩ := List.mem_map.mp hk₁
    have hkey : e.key = key := by simpa using hk₂
    have := h.recorded e (List.mem_filter.mp he).1
    rw [hkey, hn] at this
    cases this

theorem set_entry : (l.set key v).entry key = some v := Function.update_self _ _ _

end Ledger

namespace MockLedger

/-- Both ledgers have one outcome for every key. -/
structure Inv (s : Store) : Prop where
  charges : s.redis.charges.Once
  refunds : s.redis.refunds.Once

/-- The outcomes of charges stay. -/
def Grows (s s' : Store) : Prop := s.redis.charges.Keeps s'.redis.charges

/-- One statement of any call. -/
theorem step {t : Nat} {c : Call} {ch : Choice} {o : Statement} {s s' : Store}
    {r : Except Err o.Resp} (hi : Inv s) (hp : decidesOnce.op ⟨t, c⟩ ch o s = true)
    (hx : o.exec t ch s = some (r, s')) : Inv s' ∧ Grows s s' := by
  rcases Statement.exec_cases hx with ⟨rfl, -⟩ | ⟨r', hx, -⟩
  · exact ⟨hi, Ledger.Keeps.refl _⟩
  cases o with
  | db o =>
    obtain ⟨d, -, rfl⟩ := Statement.perform_db hx
    exact ⟨⟨hi.charges, hi.refunds⟩, Ledger.Keeps.refl _⟩
  | queue o => cases hx; exact ⟨⟨hi.charges, hi.refunds⟩, Ledger.Keeps.refl _⟩
  | provider o => cases hx; exact ⟨⟨hi.charges, hi.refunds⟩, Ledger.Keeps.refl _⟩
  | host o =>
    obtain ⟨m, rfl⟩ := Statement.perform_host hx
    exact ⟨⟨hi.charges, hi.refunds⟩, Ledger.Keeps.refl _⟩
  | redis o =>
    cases hx
    cases o with
    | incr listingId => exact ⟨⟨hi.charges, hi.refunds⟩, Ledger.Keeps.refl _⟩
    | emit event => exact ⟨⟨hi.charges, hi.refunds⟩, Ledger.Keeps.refl _⟩
    | getCharge key =>
      obtain ⟨h, hk⟩ := hi.charges.get key
      exact ⟨⟨h, hi.refunds⟩, hk⟩
    | setCharge key outcome =>
      obtain ⟨h, hk⟩ := hi.charges.set (Option.isNone_iff_eq_none.mp hp) outcome
      exact ⟨⟨h, hi.refunds⟩, hk⟩
    | getRefund key => exact ⟨⟨hi.charges, (hi.refunds.get key).1⟩, Ledger.Keeps.refl _⟩
    | setRefund key =>
      exact ⟨⟨hi.charges, (hi.refunds.set (Option.isNone_iff_eq_none.mp hp) ()).1⟩,
        Ledger.Keeps.refl _⟩

end MockLedger

/-- A charge call records what the ledger says. -/
def mockLedger : RelyGuarantee Store Call Statement.Resp Err Reply :=
  { Step := fun a s o r s' => a.call.Issues o ∧
      ∃ ch, decidesOnce.op a ch o s = true ∧ o.exec a.tid ch s = some (r, s')
    Inv := MockLedger.Inv
    Rely := fun _ => MockLedger.Grows
    Guar := fun _ s o _ s' => MockLedger.Grows s s' ∧ ∀ k u, o = .db (.paymentUpdate k u) →
      u = .refunded ∨ ∃ v, s.redis.charges.entry k = some v ∧ u = PaymentService.recorded v
    Post := fun _ _ _ => True
    Fresh := fun _ _ => True
    Lost := fun _ _ => True }

namespace MockLedger

variable {a : Agent} {s : Store}

theorem safe_of_uses {α : Type} {p : Async α}
    (hp : p.Uses fun o => ∀ k u, o = .db (.paymentUpdate k u) → u = .refunded) :
    mockLedger.Safe a (fun _ _ => True) p s := by
  refine Safe.of_uses (K := fun _ => True) (fun _ _ _ _ => trivial) ?_ hp trivial
  rintro s o r s' ho hi - ⟨-, ch, hpol, hx⟩
  obtain ⟨hi', hg⟩ := step hi hpol hx
  exact ⟨hi', ⟨hg, fun k u h => .inl (ho k u h)⟩, trivial⟩

/-- A statement that records no charge, and the rest. -/
theorem safe_op {γ : Type} {Q : Except Err γ → Store → Prop} {o : Statement}
    {f : o.Resp → Async γ} (ho : ∀ k u, o = .db (.paymentUpdate k u) → u = .refunded)
    (h : ∀ s₁, Grows s s₁ → ∀ ch r s₂, o.exec a.tid ch s₁ = some (r, s₂) →
      Grows s₁ s₂ → mockLedger.Cont a Q f r s₂) :
    mockLedger.Safe a Q (await o >>= f) s := by
  refine Safe.op_bind fun s₁ hr hi r s₂ hx => ?_
  obtain ⟨-, ch, hpol, hx⟩ := hx
  obtain ⟨hi', hg⟩ := step hi hpol hx
  exact ⟨hi', ⟨hg, fun k u h => .inl (ho k u h)⟩, h s₁ hr ch r s₂ hx hg⟩

/-- What the provider returns is the entry of the key. -/
theorem safe_provider (cfg : MockConfig) (key : IdempotencyKey) (amountCents : Int) :
    mockLedger.Safe a (fun r s' => ∀ v, r = .ok v → s'.redis.charges.entry key = some v)
      (MockPaymentProvider.charge cfg key amountCents) s := by
  refine safe_op (o := .redis (.getCharge key)) (by simp) fun s₁ _ ch r s₂ hx _ => ?_
  cases r with
  | error e => exact fun v h => by cases h
  | ok prior =>
    cases prior with
    | some v =>
      have hv : s₂.redis.charges.entry key = some v := by
        have hp := Statement.perform_of_exec_ok hx
        simp only [Statement.perform, Redis.perform, Option.some.injEq, Prod.mk.injEq,
          Except.ok.injEq] at hp
        obtain ⟨hv, rfl⟩ := hp
        exact Ledger.get_some hv
      exact fun v' h => by cases h; exact hv
    | none =>
      refine Safe.bind (Safe.imp (safe_of_uses ?_) fun r s₃ _ => ?_)
      · exact Prog.uses_ite (fun _ => Prog.uses_op (by simp)) fun _ => Prog.uses_pure ()
      cases r with
      | error e => exact fun v h => by cases h
      | ok u =>
        refine safe_op (o := .host .mathRandom) (by simp) fun s₄ _ ch r s₅ _ _ => ?_
        cases r with
        | error e => exact fun v h => by cases h
        | ok x =>
          by_cases hx : x < cfg.transientRate
          · simp only [cont_ok, if_pos hx, safe_throw]
            exact fun v h => by cases h
          · simp only [cont_ok, if_neg hx]
            refine safe_op (o := .host .mathRandom) (by simp) fun s₆ _ ch r s₇ _ _ => ?_
            cases r with
            | error e => exact fun v h => by cases h
            | ok y =>
              refine safe_op (o := .redis (.setCharge key _)) (by simp)
                fun s₈ _ ch r s₉ hx _ => ?_
              cases r with
              | error e => exact fun v h => by cases h
              | ok u =>
                have hp := Statement.perform_of_exec_ok hx
                cases hp
                intro v h
                cases h
                exact Ledger.set_entry

theorem safe_chargeAndRecord (cfg : MockConfig) (e : BookingHeld) :
    mockLedger.Safe a (fun _ _ => True)
      (PaymentService.chargeAndRecord (mockPaymentProvider cfg) e) s := by
  refine Safe.bind ((safe_provider cfg e.idempotencyKey e.amountCents).imp fun r s' hv => ?_)
  cases r with
  | error err => trivial
  | ok outcome =>
    refine Safe.op_bind fun s₁ hr hi r s₂ hx => ?_
    obtain ⟨-, ch, hpol, hx⟩ := hx
    obtain ⟨hi', hg⟩ := step hi hpol hx
    refine ⟨hi', ⟨hg, fun k u h => ?_⟩, ?_⟩
    · cases h
      exact .inr ⟨outcome, hr _ _ (hv outcome rfl), rfl⟩
    · cases r with
      | error err => trivial
      | ok p => exact safe_of_uses (toResult_uses e p)

theorem safe_charge (cfg : MockConfig) (e : BookingHeld) :
    mockLedger.Safe a (fun _ _ => True)
      (PaymentService.charge (mockPaymentProvider cfg) e) s := by
  refine safe_op (o := .db (.paymentFindUnique e.idempotencyKey)) (by simp)
    fun s₁ _ ch r s₂ _ _ => ?_
  cases r with
  | error err => trivial
  | ok existing =>
    cases existing with
    | some existing =>
      by_cases h : existing.status ≠ .pending
      · simp only [cont_ok, if_pos h]
        exact safe_of_uses (toResult_uses e existing)
      · simp only [cont_ok, if_neg h]
        exact safe_chargeAndRecord cfg e
    | none =>
      exact Safe.seq (safe_of_uses (claim_uses e (by simp))) fun _ _ _ => safe_chargeAndRecord cfg e

theorem safe_program (ttl : Int) (cfg : MockConfig) (c : Call) :
    mockLedger.Safe a (fun _ _ => True)
      (c.program { holdTtlMs := ttl, provider := mockPaymentProvider cfg }) s := by
  have hother : (∀ k u, c.Records k u → u = .refunded) → mockLedger.Safe a (fun _ _ => True)
      (c.program { holdTtlMs := ttl, provider := mockPaymentProvider cfg }) s := by
    intro h
    refine safe_of_uses ((program_issues _ c).mono ?_)
    rintro o ho k u rfl
    exact h k u ho
  cases c with
  | charge e => exact safe_answer (safe_charge cfg e)
  | processCharge jobId data =>
    refine safe_answer ?_
    unfold processCharge
    cases hp : bookingHeldSchema data with
    | error e => trivial
    | ok event =>
      exact Safe.seq (safe_charge cfg event) fun result s' _ =>
        safe_of_uses (addResult_uses event result (by simp) (by simp))
  | refund e => exact hother fun k u h => h.2
  | processRefund jobId e => exact hother fun k u h => h.2
  | _ => exact hother fun k u h => h.elim

theorem of_redis_eq {s s' : Store} (hi : Inv s) (h : s'.redis = s.redis) :
    Inv s' ∧ Grows s s' := by
  refine ⟨⟨?_, ?_⟩, ?_⟩
  · rw [h]; exact hi.charges
  · rw [h]; exact hi.refunds
  · rw [Grows, h]; exact Ledger.Keeps.refl _

theorem sound (ttl : Int) (cfg : MockConfig) (listings : Table Listing) :
    Sound mockLedger (system { holdTtlMs := ttl, provider := mockPaymentProvider cfg })
      decidesOnce (Store.init listings) where
  start := ⟨Ledger.once_empty, Ledger.once_empty⟩
  fresh_start := fun _ => trivial
  rely_refl := fun _ _ => Ledger.Keeps.refl _
  rely_trans := fun _ _ _ _ => Ledger.Keeps.trans
  guar_rely := fun _ _ _ _ _ _ _ h => h.1
  fresh_stable := fun _ _ _ _ _ => trivial
  post_stable := fun _ _ _ _ _ _ _ => trivial
  lost_stable := fun _ _ _ _ _ => trivial
  step := fun w hr t c o k ch r s' ht hp hx =>
    ⟨hr.uses_head (program_issues _) ht, ch, hp, hx⟩
  spawn := by
    intro t c s s' hi _ _ hs
    obtain ⟨q, rfl⟩ := exists_queues_of_spawned hs
    exact ⟨⟨hi.charges, hi.refunds⟩, fun _ => Ledger.Keeps.refl _, safe_program ttl cfg c⟩
  ret := by
    intro t c r s hi _
    obtain ⟨hi', hg⟩ := of_redis_eq hi (returned_redis t c r s)
    exact ⟨hi', fun _ => hg⟩
  kill := by
    intro t c p s hi _
    exact ⟨⟨hi.charges, hi.refunds⟩, fun _ _ => Ledger.Keeps.refl _, trivial⟩

end MockLedger

variable {ttl : Int} {cfg : MockConfig} {listings : Table Listing} {w : World}

/-- If no other write lies between a call's read of the ledger and its write, then the
provider decides a key once: all answers that its calls give for the key agree, one of
these calls at most moved money, the same goes for refunds, and what a delivery is about
to record is the entry of the key. -/
theorem charged_once
    (hr : (system { holdTtlMs := ttl, provider := mockPaymentProvider cfg }).Reaches decidesOnce
      (initial listings) w) :
    (∀ e ∈ w.shared.redis.charges.settled, ∀ e' ∈ w.shared.redis.charges.settled,
      e.key = e'.key → e.outcome = e'.outcome) ∧
    ((w.shared.redis.charges.settled.filter (·.fresh)).map (·.key)).Nodup ∧
    ((w.shared.redis.refunds.settled.filter (·.fresh)).map (·.key)).Nodup ∧
    ∀ (t : Nat) c k u rest,
      w.threads[t]? = some (.running c (.call (.db (.paymentUpdate k u)) rest)) → u = .refunded ∨
        ∃ v, w.shared.redis.charges.entry k = some v ∧ u = PaymentService.recorded v := by
  have hi := (MockLedger.sound ttl cfg listings).inv hr
  refine ⟨fun e he e' he' hk => ?_, hi.charges.fresh, hi.refunds.fresh, fun t c k u rest ht => ?_⟩
  · have h := hi.charges.recorded e he
    rw [hk, hi.charges.recorded e' he'] at h
    exact (Option.some.inj h).symm
  · have hx : (system { holdTtlMs := ttl, provider := mockPaymentProvider cfg }).exec t
        ({} : Choice) (.db (.paymentUpdate k u)) w.shared =
        some ((w.shared.db.paymentUpdate k u).1,
          { w.shared with db := (w.shared.db.paymentUpdate k u).2 }) := rfl
    exact ((MockLedger.sound ttl cfg listings).guar hr ht rfl hx).2.2 k u rfl

section Runs

open Scenario

/-- A provider that declines half of its cards at random. -/
def coin : Config :=
  { holdTtlMs := 900000
    provider := mockPaymentProvider { failureRate := 1 / 2, transientRate := 0, latencyMs := 0 } }

/-- One delivery of a charge, up to its answer. -/
def undisturbed : List Event :=
  place 0 stay 5 6 ++ .spawn (.charge (event 5)) :: steps 1 4 ++
    [.step 1 { random := 3 / 4 }, .step 1 {}, .step 1 {}, .ret 1]

theorem charged_once_undisturbed :
    ∃ w, (system coin).Reaches decidesOnce (initial Scenario.listings) w ∧
      w.shared.redis.charges.settled.map (·.fresh) = [true] ∧
      ∀ e ∈ w.shared.redis.charges.settled, ∀ e' ∈ w.shared.redis.charges.settled,
        e.key = e'.key → e.outcome = e'.outcome := by
  have hrun : ((system coin).run decidesOnce (initial Scenario.listings) undisturbed).any
      (fun w => w.shared.redis.charges.settled.map (·.fresh) == [true]) = true := by
    decide +kernel
  obtain ⟨w, hr, ht⟩ := Machine.exists_reaches_of_run hrun
  exact ⟨w, hr, beq_iff_eq.mp ht, (charged_once hr).1⟩

/-- Two deliveries both miss; one draws a success, the other a decline. -/
def overlapping : List Event :=
  place 0 stay 5 6 ++ [.spawn (.charge (event 5)), .spawn (.charge (event 5))] ++ steps 1 3 ++
    steps 2 2 ++ [.step 1 {}, .step 1 { random := 3 / 4 }] ++ steps 1 1 ++ steps 2 3

theorem not_charged_once :
    ¬ ∀ w, (system coin).Reaches anything (initial Scenario.listings) w →
      (∀ e ∈ w.shared.redis.charges.settled, ∀ e' ∈ w.shared.redis.charges.settled,
        e.key = e'.key → e.outcome = e'.outcome) ∧
      ((w.shared.redis.charges.settled.filter (·.fresh)).map (·.key)).Nodup := by
  intro h
  have hrun : ((system coin).run anything (initial Scenario.listings) overlapping).any
      (fun w => w.shared.redis.charges.settled ==
        [⟨5, .succeeded "mock_5", true⟩, ⟨5, .declined "Card declined", true⟩]) = true := by
    decide +kernel
  obtain ⟨w, hr, ht⟩ := Machine.exists_reaches_of_run hrun
  have hs := (h w hr).1
  rw [beq_iff_eq.mp ht] at hs
  have := hs _ (List.mem_cons_self) _ (List.mem_cons_of_mem _ (List.mem_cons_self)) rfl
  cases this

end Runs

end NoOverlap
