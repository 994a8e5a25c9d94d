import NoOverlap.Concurrency.Projection
import NoOverlap.Realtime.Publishers

/-!
# Every provider seen as a gateway

The gateway answers a charge in one statement.  Another provider may need several, as the
mock does for its ledger, with other threads in between and a crash in the middle.  The
rest of the system sees nothing of them but the answer, so every run with such a provider is a
run with the gateway, as far as the database, the queues, the announcements and the
answers of the calls go.  What has been shown of the gateway about these holds of every
provider.

A `Reading` says what is to be known of an answer when the gateway gives it.
-/

namespace NoOverlap

open Relational Concurrency
open Concurrency.Prog

namespace Statement

/-- A statement that a provider can issue and nobody else sees. -/
def Private (o : Statement) : Prop := o.Isolated ∧ o.Unannounced

/-- A statement that means the same whatever the provider. -/
def Common : Statement → Prop
  | .provider _ | .redis (.getCharge _) | .redis (.setCharge _ _) | .redis (.getRefund _)
  | .redis (.setRefund _) => False
  | _ => True

/-- The calls of the API do not talk to the provider. -/
theorem common_of_issues {c : Call} (hc : c.ofWorker = false) {o : Statement} (h : c.Issues o) :
    o.Common := by
  have hno : c.ofWorker ≠ true := by rw [hc]; exact Bool.false_ne_true
  cases o with
  | provider o => exact hno h
  | redis o =>
    cases o with
    | incr | emit => trivial
    | _ => exact hno h
  | _ => trivial

end Statement

/-! ## Stores that agree -/

/-- The stores differ at most in what belongs to the provider and in the counters. -/
structure Store.Agrees (s s' : Store) : Prop where
  db : s'.db = s.db
  queues : s'.queues = s.queues
  seq : s'.redis.seq = s.redis.seq
  emitted : s'.redis.emitted = s.redis.emitted

namespace Store.Agrees

variable {s s' s₁ : Store} {t : Nat} {ch : Choice}

theorem refl (s : Store) : s.Agrees s := ⟨rfl, rfl, rfl, rfl⟩

/-- A common statement does the same to both, and leaves the record of the provider alone. -/
theorem perform {o : Statement} (h : s.Agrees s') (ho : o.Common) {r : Except Err o.Resp}
    (hx : o.perform t ch s = some (r, s₁)) :
    ∃ s₁', o.perform t ch s' = some (r, s₁') ∧ s₁.Agrees s₁' ∧ s₁'.provider = s'.provider := by
  obtain ⟨db, queues, provider, ⟨seq, emitted, charges, refunds⟩, metrics⟩ := s'
  obtain ⟨rfl, rfl, rfl, rfl⟩ := h
  cases o with
  | db o =>
    obtain ⟨d, hd, rfl⟩ := Statement.perform_db hx
    exact ⟨_, Option.map_eq_some_iff.mpr ⟨(r, d), hd, rfl⟩, ⟨rfl, rfl, rfl, rfl⟩, rfl⟩
  | queue o => cases hx; exact ⟨_, rfl, ⟨rfl, rfl, rfl, rfl⟩, rfl⟩
  | provider o => exact ho.elim
  | redis o =>
    cases o with
    | incr | emit => cases hx; exact ⟨_, rfl, ⟨rfl, rfl, rfl, rfl⟩, rfl⟩
    | _ => exact ho.elim
  | host o =>
    cases o with
    | mathRandom =>
      simp only [Statement.perform] at hx
      split at hx
      · next hd =>
        cases hx
        exact ⟨_, if_pos hd, ⟨rfl, rfl, rfl, rfl⟩, rfl⟩
      · cases hx
    | recordAttempt outcome =>
      cases outcome <;> cases hx <;> exact ⟨_, rfl, ⟨rfl, rfl, rfl, rfl⟩, rfl⟩
    | _ => cases hx; exact ⟨_, rfl, ⟨rfl, rfl, rfl, rfl⟩, rfl⟩

theorem exec {o : Statement} (h : s.Agrees s') (ho : o.Common) {r : Except Err o.Resp}
    (hx : o.exec t ch s = some (r, s₁)) :
    ∃ s₁', o.exec t ch s' = some (r, s₁') ∧ s₁.Agrees s₁' ∧ s₁'.provider = s'.provider := by
  cases hfall : o.fallible with
  | false =>
    rw [Statement.exec_of_not_fallible hfall] at hx ⊢
    exact h.perform ho hx
  | true =>
    cases hf : ch.fault with
    | none =>
      rw [Statement.exec_of_fault_none hf] at hx ⊢
      exact h.perform ho hx
    | before e =>
      simp only [Statement.exec, hf, hfall] at hx ⊢
      cases hx
      exact ⟨s', rfl, h, rfl⟩
    | after e =>
      simp only [Statement.exec, hf, hfall] at hx ⊢
      obtain ⟨⟨r', s₂⟩, hp, he⟩ := Option.map_eq_some_iff.mp hx
      cases he
      obtain ⟨s₂', hp', hs, hprov⟩ := h.perform ho hp
      exact ⟨s₂', by rw [hp', Option.map_some], hs, hprov⟩

/-- A private statement does nothing that the other store would notice. -/
theorem of_private {o : Statement} (h : s.Agrees s') (ho : o.Private) {r : Except Err o.Resp}
    (hx : o.exec t ch s = some (r, s₁)) : s₁.Agrees s' := by
  rcases Statement.exec_cases hx with ⟨rfl, -⟩ | ⟨r', hx, -⟩
  · exact h
  cases o with
  | db o => exact ho.1.elim
  | queue o => exact ho.1.elim
  | provider o => cases hx; exact ⟨h.db, h.queues, h.seq, h.emitted⟩
  | redis o =>
    cases o with
    | incr | emit => exact ho.2.elim
    | _ => cases hx; exact ⟨h.db, h.queues, h.seq, h.emitted⟩
  | host o =>
    obtain ⟨m, rfl⟩ := Statement.perform_host hx
    exact ⟨h.db, h.queues, h.seq, h.emitted⟩

theorem spawned {c : Call} (h : s.Agrees s') (hs : s.spawned c = some s₁) :
    ∃ s₁', s'.spawned c = some s₁' ∧ s₁.Agrees s₁' ∧ s₁'.provider = s'.provider := by
  obtain ⟨db, queues, provider, ⟨seq, emitted, charges, refunds⟩, metrics⟩ := s'
  obtain ⟨rfl, rfl, rfl, rfl⟩ := h
  cases c with
  | processCharge id data | processResult id data | processRefund id data =>
    obtain ⟨q, hq, rfl⟩ := Option.map_eq_some_iff.mp hs
    exact ⟨_, Option.map_eq_some_iff.mpr ⟨q, hq, rfl⟩, ⟨rfl, rfl, rfl, rfl⟩, rfl⟩
  | _ => cases hs; exact ⟨_, rfl, ⟨rfl, rfl, rfl, rfl⟩, rfl⟩

theorem returned (h : s.Agrees s') (t : Nat) (c : Call) (r : Except Err Reply) :
    (s.returned t c r).Agrees (s'.returned t c r) := by
  obtain ⟨db, queues, provider, ⟨seq, emitted, charges, refunds⟩, metrics⟩ := s'
  obtain ⟨rfl, rfl, rfl, rfl⟩ := h
  cases c <;> exact ⟨rfl, rfl, rfl, rfl⟩

theorem killed (h : s.Agrees s') (t : Nat) (c : Call) :
    (s.killed t c).Agrees (s'.killed t c) :=
  ⟨congrArg (·.rollback t) h.db, h.queues, h.seq, h.emitted⟩

end Store.Agrees

/-! ## Readings -/

/-- A policy that looks at nothing that belongs to a provider, and lets every thread die. -/
structure Policy.Blind (P : Policy) : Prop where
  spawn : ∀ c s s', s.Agrees s' → P.spawn c s = true → P.spawn c s' = true
  op : ∀ a ch o s s', s.Agrees s' → P.op a ch o s = true → P.op a ch o s' = true
  kill : ∀ a p s, P.kill a p s = true

/-- What is known of the answers of a provider: `Given a o r s` when the thread of `a` has the
answer `r` to the request `o`, and `Later` of what has happened since. -/
structure Reading where
  Later : Store → Store → Prop
  Given : Agent → (o : ProviderStatement) → Except Err o.Resp → Store → Prop

namespace Reading

/-- The answer of the gateway to a request, by what a section has answered. -/
def Answers (R : Reading) (a : Agent) : (o : Statement) → Except Err o.Resp → Store → Prop
  | .provider o, r, s => R.Given a o r s
  | _, _, _ => False

def projection (R : Reading) (ttl : Int) (P : PaymentProvider) (pol : Policy) :
    Projection Store Call Choice Statement.Resp Err Reply :=
  { fine := system { holdTtlMs := ttl, provider := P }
    coarse := system { holdTtlMs := ttl, provider := gateway }
    finePolicy := pol
    coarsePolicy := pol
    Sim := fun s s' => s.Agrees s' ∧ ∀ c ∈ s'.provider.charges,
      ∃ a, R.Given a (.charge c.key c.amountCents) (.ok c.outcome) s
    Later := R.Later
    Shared := Statement.Common
    Inside := Statement.Private
    Answers := R.Answers }

variable {R : Reading} {ttl : Int} {P : PaymentProvider} {pol : Policy} {listings : Table Listing}

/-- What a reading needs. -/
structure Fits (R : Reading) (ttl : Int) (P : PaymentProvider) (pol : Policy)
    (listings : Table Listing) : Prop where
  blind : pol.Blind
  later_refl : ∀ s, R.Later s s
  later_trans : ∀ s₁ s₂ s₃, R.Later s₁ s₂ → R.Later s₂ s₃ → R.Later s₁ s₃
  later : ∀ (w w' : World) e, (system { holdTtlMs := ttl, provider := P }).Reaches pol
      (initial listings) w →
    (system { holdTtlMs := ttl, provider := P }).next pol w e = some w' →
    R.Later w.shared w'.shared
  given_stable : ∀ a o r s s', R.Later s s' → R.Given a o r s → R.Given a o r s'
  /-- The gateway may give the answer. -/
  allowed : ∀ a o r s ch, R.Given a o r s → (ch.fault = .none ∨ ∃ e, r = .error e) →
    pol.op a ch (.provider o) s = true
  charge : ∀ a s key amountCents, a.call.charges = true →
    (R.projection ttl P pol).Ends a (R.Given a (.charge key amountCents))
      (P.charge key amountCents) s
  refund : ∀ a s key, (R.projection ttl P pol).Ends a (R.Given a (.refund key)) (P.refund key) s

section Programs

variable {a : Agent} {s : Store} (h : R.Fits ttl P pol listings)

include h

theorem refines_chargeAndRecord (ha : a.call.charges = true) (e : BookingHeld) :
    (R.projection ttl P pol).Refines a s (PaymentService.chargeAndRecord P e)
      (PaymentService.chargeAndRecord gateway e) := by
  refine .inside (o := Statement.provider (.charge e.idempotencyKey e.amountCents))
    (h.charge a s _ _ ha) fun outcome s' => .of_uses ?_
  exact Uses.bind (uses_op trivial) fun p => toResult_uses e p

theorem refines_charge (ha : a.call.charges = true) (e : BookingHeld) :
    (R.projection ttl P pol).Refines a s (PaymentService.charge P e)
      (PaymentService.charge gateway e) := by
  refine .bind (.of_uses (uses_op trivial)) fun existing s' => ?_
  cases existing with
  | none =>
    exact .bind (.of_uses (claim_uses e fun _ => trivial)) fun _ _ =>
      refines_chargeAndRecord h ha e
  | some existing =>
    by_cases hp : existing.status ≠ .pending
    · simp only [if_pos hp]
      exact .of_uses (toResult_uses e existing)
    · simp only [if_neg hp]
      exact refines_chargeAndRecord h ha e

theorem refines_refund (e : RefundRequested) :
    (R.projection ttl P pol).Refines a s (PaymentService.refund P e)
      (PaymentService.refund gateway e) := by
  refine .bind (.of_uses (uses_op trivial)) fun payment s' => ?_
  cases payment with
  | none => exact .of_uses (uses_pure ())
  | some payment =>
    by_cases hp : payment.status ≠ .succeeded
    · simp only [if_pos hp]
      exact .of_uses (uses_pure ())
    · simp only [if_neg hp]
      exact .inside (o := Statement.provider (.refund e.idempotencyKey)) (h.refund a s' _)
        fun _ _ => .of_uses <| Uses.bind (uses_op (o := Statement.db (.paymentUpdate _ .refunded)) trivial)
          fun _ => uses_pure ()

theorem refines_processCharge (ha : a.call.charges = true) (data : BookingHeld) :
    (R.projection ttl P pol).Refines a s (processCharge P data) (processCharge gateway data) := by
  unfold processCharge
  cases bookingHeldSchema data with
  | error e => exact .done (.error e)
  | ok event =>
    exact .bind (refines_charge h ha event) fun result _ =>
      .of_uses (addResult_uses event result trivial fun _ _ => trivial)

omit h in
theorem refines_answer {α : Type} {p q : Async α} {f : α → Reply}
    (hp : (R.projection ttl P pol).Refines a s p q) :
    (R.projection ttl P pol).Refines a s (answer p f) (answer q f) :=
  hp.bind fun _ _ => .of_uses (uses_pure _)

/-- Only the worker talks to the provider. -/
theorem refines_program :
    (R.projection ttl P pol).Refines a s (a.call.program { holdTtlMs := ttl, provider := P })
      (a.call.program { holdTtlMs := ttl, provider := gateway }) := by
  obtain ⟨t, c⟩ := a
  have hapi : c.ofWorker = false → (c.program { holdTtlMs := ttl, provider := P }).Uses
      Statement.Common := fun hc =>
    (program_issues { holdTtlMs := ttl, provider := P } c).mono fun _ =>
      Statement.common_of_issues hc
  cases c with
  | charge e => exact refines_answer (refines_charge h rfl e)
  | refund e => exact refines_answer (refines_refund h e)
  | processCharge id data => exact refines_answer (refines_processCharge h rfl data)
  | processRefund id data => exact refines_answer (refines_refund h data)
  | _ => exact .of_uses (hapi rfl)

end Programs

/-- The gateway can give any answer, and records what it has been asked to charge. -/
theorem exec_provider_ok {G : (o : ProviderStatement) → Except Err o.Resp → Prop}
    {o : ProviderStatement} {v : o.Resp} (hv : G o (.ok v)) (t : Nat) (s : Store) :
    ∃ (ch : Choice) (p : Provider), ch.fault = .none ∧
      (Statement.provider o).exec t ch s = some (.ok v, { s with provider := p }) ∧
      ∀ c ∈ p.charges,
        c ∈ s.provider.charges ∨ G (.charge c.key c.amountCents) (.ok c.outcome) := by
  cases o with
  | charge key amountCents =>
    refine ⟨{ outcome := v }, _, rfl, rfl, fun c hc => ?_⟩
    rcases List.mem_append.mp hc with hc | hc
    · exact .inl hc
    · cases List.mem_singleton.mp hc
      exact .inr hv
  | refund key => exact ⟨{}, _, rfl, rfl, fun c hc => .inl hc⟩

theorem Fits.valid (h : R.Fits ttl P pol listings) :
    (R.projection ttl P pol).Valid (Store.init listings) (Store.init listings) where
  start := ⟨.refl _, fun c hc => (List.not_mem_nil hc).elim⟩
  later_refl := h.later_refl
  later_trans := h.later_trans
  later := h.later
  answers_stable := by
    intro a o r s s' hl hr
    cases o with
    | provider o => exact h.given_stable a o r s s' hl hr
    | _ => exact hr.elim
  program := fun a s => refines_program h
  shared := by
    intro a ch o s s' r s₁ ho hs hl hp hx
    obtain ⟨s₁', hx', hagr, hprov⟩ := hs.1.exec ho hx
    refine ⟨h.blind.op a ch o s s' hs.1 hp, s₁', hx', hagr, fun c hc => ?_⟩
    obtain ⟨b, hb⟩ := hs.2 c (hprov ▸ hc)
    exact ⟨b, h.given_stable _ _ _ _ _ hl hb⟩
  inside := by
    intro t ch o s s' r s₁ ho hs hl hx
    refine ⟨hs.1.of_private ho hx, fun c hc => ?_⟩
    obtain ⟨b, hb⟩ := hs.2 c hc
    exact ⟨b, h.given_stable _ _ _ _ _ hl hb⟩
  answer := by
    intro a o r s s' hs hr
    cases o with
    | provider o =>
      cases r with
      | ok v =>
        obtain ⟨ch, p, hf, hx, hp⟩ := exec_provider_ok (G := fun o r => R.Given a o r s)
          (v := v) hr a.tid s'
        refine ⟨ch, _, ?_, hx, ⟨hs.1.db, hs.1.queues, hs.1.seq, hs.1.emitted⟩, fun c hc => ?_⟩
        · exact h.blind.op a ch _ s s' hs.1 (h.allowed a o _ s ch hr (.inl hf))
        · exact (hp c hc).elim (hs.2 c) fun hg => ⟨a, hg⟩
      | error e =>
        refine ⟨{ fault := .before e }, s', ?_, rfl, hs⟩
        exact h.blind.op a _ _ s s' hs.1 (h.allowed a o _ s _ hr (.inr ⟨e, rfl⟩))
    | _ => exact hr.elim
  spawn := by
    intro c s s' s₁ hs hl hp hx
    obtain ⟨s₁', hx', hagr, hprov⟩ := hs.1.spawned hx
    refine ⟨h.blind.spawn c s s' hs.1 hp, s₁', hx', hagr, fun c hc => ?_⟩
    obtain ⟨b, hb⟩ := hs.2 c (hprov ▸ hc)
    exact ⟨b, h.given_stable _ _ _ _ _ hl hb⟩
  ret := by
    intro t c r s s' hs hl
    refine ⟨hs.1.returned t c r, fun x hx => ?_⟩
    obtain ⟨b, hb⟩ := hs.2 x (returned_provider t c r s' ▸ hx)
    exact ⟨b, h.given_stable _ _ _ _ _ hl hb⟩
  kill := by
    intro a p q s s' hs hl _
    refine ⟨h.blind.kill a q s', hs.1.killed a.tid a.call, fun c hc => ?_⟩
    obtain ⟨b, hb⟩ := hs.2 c hc
    exact ⟨b, h.given_stable _ _ _ _ _ hl hb⟩

end Reading

/-! ## Any answer -/

theorem PaymentProvider.Unannounced.charge_private {P : PaymentProvider} (hP : P.Unannounced)
    (key : IdempotencyKey) (amountCents : Int) :
    (P.charge key amountCents).Uses Statement.Private :=
  (P.charge_isolated key amountCents).and (hP.charge key amountCents)

theorem PaymentProvider.Unannounced.refund_private {P : PaymentProvider} (hP : P.Unannounced)
    (key : IdempotencyKey) : (P.refund key).Uses Statement.Private :=
  (P.refund_isolated key).and (hP.refund key)

/-- The mock refuses no refund. -/
theorem mockPaymentProvider_refund_succeeds (cfg : MockConfig) (key : IdempotencyKey) :
    ((mockPaymentProvider cfg).refund key).Succeeds := by
  refine Succeeds.bind (succeeds_op _) fun prior => ?_
  cases prior with
  | some prior => exact succeeds_pure prior
  | none =>
    refine Succeeds.bind ?_ fun _ => succeeds_op _
    unfold MockPaymentProvider.delay
    split
    · exact succeeds_op _
    · exact succeeds_pure ()

/-- Nothing is known of an answer. -/
def anyAnswer : Reading := { Later := fun _ _ => True, Given := fun _ _ _ _ => True }

variable {ttl : Int} {P : PaymentProvider} {pol : Policy} {listings : Table Listing} {w : World}

theorem anyAnswer_fits (hP : P.Unannounced) (hb : pol.Blind)
    (ho : ∀ a ch o s, pol.op a ch (.provider o) s = true) :
    anyAnswer.Fits ttl P pol listings where
  blind := hb
  later_refl := fun _ => trivial
  later_trans := fun _ _ _ _ _ => trivial
  later := fun _ _ _ _ _ => trivial
  given_stable := fun _ _ _ _ _ _ _ => trivial
  allowed := fun a o _ s ch _ _ => ho a ch o s
  charge := fun _ _ key amountCents _ => Projection.Ends.of_uses (K := fun _ => True)
    (fun _ _ _ _ => trivial) (fun _ _ _ _ _ _ _ _ => trivial) (fun _ _ _ => trivial)
    (hP.charge_private key amountCents) trivial
  refund := fun _ _ key => Projection.Ends.of_uses (K := fun _ => True)
    (fun _ _ _ _ => trivial) (fun _ _ _ _ _ _ _ _ => trivial) (fun _ _ _ => trivial)
    (hP.refund_private key) trivial

/-- Under a policy that lets providers answer as they like, every run is a run with the
gateway. -/
theorem gateway_of_reaches (hP : P.Unannounced) (hb : pol.Blind)
    (ho : ∀ a ch o s, pol.op a ch (.provider o) s = true)
    (hr : (system { holdTtlMs := ttl, provider := P }).Reaches pol (initial listings) w) :
    ∃ w' : World, (system { holdTtlMs := ttl, provider := gateway }).Reaches pol
        (initial listings) w' ∧ w.shared.Agrees w'.shared ∧
      ∀ (t : Nat) c r, w.threads[t]? = some (.returned c r) →
        w'.threads[t]? = some (.returned c r) := by
  obtain ⟨w', hr', hw⟩ := (anyAnswer_fits hP hb ho).valid.reaches hr
  exact ⟨w', hr', hw.sim.1, fun _ _ _ ht => hw.returned ht⟩

theorem anyRequest_blind : anyRequest.Blind where
  spawn := fun _ _ _ _ h => h
  op := fun _ _ _ _ _ _ _ => rfl
  kill := fun _ _ _ => rfl

/-! ## The mock provider -/

namespace Ledger

variable {ω : Type} {l : Ledger ω} {key : IdempotencyKey} {v : ω}

theorem settled_get : ∀ e ∈ l.settled, e ∈ (l.get key).2.settled := by
  intro e he
  unfold get
  split
  · exact List.mem_append_left _ he
  · exact he

/-- What a call is told is noted. -/
theorem mem_settled_of_get (h : (l.get key).1 = some v) :
    ∃ e ∈ (l.get key).2.settled, e.key = key ∧ e.outcome = v := by
  unfold get at h ⊢
  split at h
  · cases h
    exact ⟨_, List.mem_append_right _ (List.mem_singleton_self _), rfl, rfl⟩
  · cases h

theorem mem_settled_set : ∃ e ∈ (l.set key v).settled, e.key = key ∧ e.outcome = v :=
  ⟨_, List.mem_append_right _ (List.mem_singleton_self _), rfl, rfl⟩

end Ledger

theorem settled_of_exec {t : Nat} {ch : Choice} {o : Statement} {s s' : Store}
    {r : Except Err o.Resp} (hx : o.exec t ch s = some (r, s')) :
    ∀ e ∈ s.redis.charges.settled, e ∈ s'.redis.charges.settled := by
  rcases Statement.exec_cases hx with ⟨rfl, -⟩ | ⟨r', hx, -⟩
  · exact fun _ he => he
  cases o with
  | db o =>
    obtain ⟨d, -, rfl⟩ := Statement.perform_db hx
    exact fun _ he => he
  | redis o =>
    cases o with
    | getCharge key => cases hx; exact Ledger.settled_get
    | setCharge key outcome => cases hx; exact fun _ he => List.mem_append_left _ he
    | _ => cases hx; exact fun _ he => he
  | host o =>
    obtain ⟨m, rfl⟩ := Statement.perform_host hx
    exact fun _ he => he
  | _ => cases hx; exact fun _ he => he

/-- The ledger of the mock has every answer to a charge. -/
def settledAnswers : Reading :=
  { Later := fun s s' => ∀ e ∈ s.redis.charges.settled, e ∈ s'.redis.charges.settled
    Given := fun _ o r s => match o, r with
      | .charge key _, .ok v => ∃ e ∈ s.redis.charges.settled, e.key = key ∧ e.outcome = v
      | _, _ => True }

theorem settledAnswers_later {cfg : Config} {w w' : World} {e : Event}
    (hn : (system cfg).next pol w e = some w') : settledAnswers.Later w.shared w'.shared := by
  cases Machine.next_moves _ _ hn with
  | spawn hp hs =>
    obtain ⟨q, rfl⟩ := exists_queues_of_spawned hs
    exact fun _ he => he
  | step ht hp hx => exact settled_of_exec hx
  | @ret t c r ht =>
    intro e he
    change e ∈ (Store.returned t c r w.shared).redis.charges.settled
    rw [returned_redis]
    exact he
  | kill ht hp => exact fun _ he => he

/-- However a charge of the mock ends, the ledger has what it answers. -/
theorem settledAnswers_charge {cfg : MockConfig} {a : Agent} {s : Store} (key : IdempotencyKey)
    (amountCents : Int) :
    (settledAnswers.projection ttl (mockPaymentProvider cfg) pol).Ends a
      (settledAnswers.Given a (.charge key amountCents))
      (MockPaymentProvider.charge cfg key amountCents) s := by
  have herr : ∀ e s, settledAnswers.Given a (.charge key amountCents) (.error e) s :=
    fun _ _ => trivial
  refine Projection.Ends.op_bind (o := Statement.redis (.getCharge key)) ⟨trivial, trivial⟩ herr
    fun s₁ ch prior s₂ hx => ?_
  have hp := Statement.perform_of_exec_ok hx
  simp only [Statement.perform, Redis.perform, Option.some.injEq, Prod.mk.injEq,
    Except.ok.injEq] at hp
  obtain ⟨hprior, rfl⟩ := hp
  cases prior with
  | some prior => exact Ledger.mem_settled_of_get hprior
  | none =>
    refine Projection.Ends.bind
      (uses_ite (fun _ => uses_op ⟨trivial, trivial⟩) fun _ => uses_pure ()) herr fun _ s₃ => ?_
    refine Projection.Ends.op_bind (o := Statement.host .mathRandom) ⟨trivial, trivial⟩ herr
      fun s₄ ch x s₅ _ => ?_
    by_cases hlt : x < cfg.transientRate
    · simp only [if_pos hlt]
      exact herr .transient s₅
    simp only [if_neg hlt]
    refine Projection.Ends.op_bind (o := Statement.host .mathRandom) ⟨trivial, trivial⟩ herr
      fun s₆ ch y s₇ _ => ?_
    refine Projection.Ends.op_bind (o := Statement.redis (.setCharge key _)) ⟨trivial, trivial⟩ herr
      fun s₈ ch u s₉ hx => ?_
    cases Statement.perform_of_exec_ok hx
    exact Ledger.mem_settled_set

theorem settledAnswers_fits (cfg : MockConfig) :
    settledAnswers.Fits ttl (mockPaymentProvider cfg) anyRequest listings where
  blind := anyRequest_blind
  later_refl := fun _ _ he => he
  later_trans := fun _ _ _ h h' e he => h' e (h e he)
  later := fun _ _ _ _ hn => settledAnswers_later hn
  given_stable := by
    intro a o r s s' hl hg
    cases o with
    | charge key amountCents =>
      cases r with
      | ok v =>
        obtain ⟨e, he, hk⟩ := hg
        exact ⟨e, hl e he, hk⟩
      | error e => trivial
    | refund key => trivial
  allowed := fun _ _ _ _ _ _ _ => rfl
  charge := fun _ _ key amountCents _ => settledAnswers_charge key amountCents
  refund := fun a s key => Projection.Ends.of_uses (K := fun _ => True)
    (fun _ _ _ _ => trivial) (fun _ _ _ _ _ _ _ _ => trivial) (fun _ _ _ => trivial)
    ((mockPaymentProvider_unannounced cfg).refund_private key) trivial

/-- A run with the mock is a run with the gateway, which has asked for nothing that the
ledger of the mock has not answered. -/
theorem gateway_of_mock {cfg : MockConfig}
    (hr : (system { holdTtlMs := ttl, provider := mockPaymentProvider cfg }).Reaches anyRequest
      (initial listings) w) :
    ∃ w' : World, (system { holdTtlMs := ttl, provider := gateway }).Reaches anyRequest
        (initial listings) w' ∧ w.shared.Agrees w'.shared ∧
      ∀ c ∈ w'.shared.provider.charges, ∃ e ∈ w.shared.redis.charges.settled,
        e.key = c.key ∧ e.outcome = c.outcome := by
  obtain ⟨w', hr', hw⟩ := (settledAnswers_fits cfg).valid.reaches hr
  refine ⟨w', hr', hw.sim.1, fun c hc => ?_⟩
  obtain ⟨a, he⟩ := hw.sim.2 c hc
  exact he

end NoOverlap
