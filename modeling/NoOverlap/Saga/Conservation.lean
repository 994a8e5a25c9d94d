import NoOverlap.Saga.Faults
import NoOverlap.Saga.Redelivery

/-!
# Where the money is

When nothing is left to be done, a captured charge belongs to a reservation that is
confirmed or completed, or it has been given back.  Three things break this without any
fault: a cancel that has read a hold writes over the confirmation and asks for no
refund, a settlement takes a completed stay for a released one, and a second delivery of
the charge that was declined writes FAILED over the captured payment, which the refund
then takes for one that has nothing to give back.  `conserving` excludes them.

The charge and the cancel of a run are followed by their thread: a charge that was
captured is reported on the result queue before its thread returns, and a confirmed
reservation that was cancelled has its refund asked for.
-/

namespace NoOverlap

open Relational Concurrency RelyGuarantee
open Concurrency.Prog

/-- Nothing fails, nothing dies, and the provider gives a reference where it takes the
money. -/
def faultless : Policy :=
  { anyRequest with
    op := fun _ ch o _ => ch.fault == .none && match o with
      | .provider (.charge _ _) => ch.outcome != .succeeded ""
      | _ => true
    kill := fun _ _ _ => false }

/-- The provider captures at most once per key: when it says yes again, it repeats itself. -/
def capturesOnce : Policy :=
  { faultless with
    op := fun a ch o s => faultless.op a ch o s && match o, ch.outcome with
      | .provider (.charge key _), .succeeded ref =>
        s.provider.charges.all fun c => c.key != key || match c.outcome with
          | .succeeded ref' => ref' == ref
          | .declined _ => true
      | _, _ => true }

/-- No settlement finds the stay completed, no charge records a decline over a capture, and
no cancel that has read a hold writes over a settled reservation. -/
def conserving : Policy :=
  { faultless with
    op := fun a ch o s => faultless.op a ch o s && settlesInTime.op a ch o s &&
      keepsCaptures.op a ch o s && match o with
      | .db (.reservationUpdate id _ .held) => (s.statusOf id).all (!·.settled)
      | _ => true }

/-! ## What a thread owes -/

/-- The result of a captured charge is on its queue. -/
def Reported (s : Store) (key : IdempotencyKey) : Prop :=
  ∃ j, s.queues.result.find? (.paymentSucceeded, key) = some j

theorem Reported.grows {s s' : Store} {key : IdempotencyKey} (h : Reported s key)
    (hg : Grows s s') : Reported s' key := by
  obtain ⟨j, hj⟩ := h
  obtain ⟨j', hj', -⟩ := hg.result _ j hj
  exact ⟨j', hj'⟩

/-- Thread `t` has followed up on everything it has done: on every charge it captured,
except for `key`, and on every paid booking it cancelled, except for `id`. -/
structure Cleared (t : Nat) (key : Option IdempotencyKey) (id : Option Id) (s : Store) : Prop where
  charges : ∀ c ∈ s.provider.charges, c.tid = t → ∀ ref, c.outcome = .succeeded ref →
    key = some c.key ∨ Reported s c.key
  cancels : ∀ e ∈ s.db.statusLog, e.tid = t → e.old.settled = true → e.new = .cancelled →
    id = some e.id ∨ Requested s e.id

namespace Cleared

variable {t : Nat} {key : Option IdempotencyKey} {id : Option Id} {s s' : Store}

theorem rely (h : Cleared t key id s) (hr : Saga.Rely t s s') : Cleared t key id s' where
  charges := fun c hc ht ref ho =>
    (h.charges c (hr.charges c hc ht) ht ref ho).imp_right (·.grows hr.grows)
  cancels := fun e he ht hs hn =>
    (h.cancels e (hr.log e he ht) ht hs hn).imp_right (·.grows hr.grows)

theorem reported {k : IdempotencyKey} (h : Cleared t (some k) id s) (hr : Reported s k) :
    Cleared t none id s where
  charges := by
    intro c hc ht ref ho
    rcases h.charges c hc ht ref ho with hk | hc
    · cases hk
      exact .inr hr
    · exact .inr hc
  cancels := h.cancels

theorem requested {i : Id} (h : Cleared t key (some i) s) (hr : Requested s i) :
    Cleared t key none s where
  charges := h.charges
  cancels := by
    intro e he ht hs hn
    rcases h.cancels e he ht hs hn with hi | hc
    · cases hi
      exact .inr hr
    · exact .inr hc

/-- A bulk write to CANCELLED starts from a hold. -/
theorem held_of_moves {c : Call} {filter : ReservationWhere}
    (h : c.Moves filter .cancelled) : filter.status = .held := by
  cases c with
  | applyPaymentSucceeded i => cases h.2
  | applyPaymentFailed i => obtain ⟨rfl, -⟩ := h; rfl
  | processResult jobId data =>
    cases data with
    | succeeded m => cases h.2
    | failed m => obtain ⟨rfl, -⟩ := h; rfl
  | sweepExpiredHolds => obtain ⟨now, -, h⟩ := h; cases h
  | sweepCompletedStays => obtain ⟨now, -, h⟩ := h; cases h
  | _ => exact h.elim

/-- The statements that leave something to follow up on. -/
def owing : Statement → Bool
  | .provider (.charge _ _) | .db (.reservationUpdate _ _ _) => true
  | _ => false

theorem charges_of_exec {ch : Choice} {o : Statement} {r : Except Err o.Resp}
    (hx : o.exec t ch s = some (r, s')) (ho : owing o = false) :
    s'.provider.charges = s.provider.charges := by
  rcases Statement.exec_provider hx with he | ⟨o, rfl, rfl⟩
  · rw [he]
  cases o with
  | charge k amountCents => cases ho
  | refund k => rfl

theorem exec {c : Call} {ch : Choice} {o : Statement} {r : Except Err o.Resp}
    (h : Cleared t key id s) (hi : c.Issues o) (hx : o.exec t ch s = some (r, s'))
    (ho : owing o = false) : Cleared t key id s' := by
  have hg := Grows.of_exec hi hx
  constructor
  · intro x hmem ht ref hout
    rw [charges_of_exec hx ho] at hmem
    exact (h.charges x hmem ht ref hout).imp_right (·.grows hg)
  · intro e hmem ht hset hn
    have hold : e ∈ s.db.statusLog := by
      rcases Statement.exec_db hx with he | ⟨o, rfl, r', hp⟩
      · exact he ▸ hmem
      rcases (Database.effect_of_perform hp).reservations with ⟨-, hl⟩ | ⟨tx, -, -, he⟩ | hw
      · exact hl ▸ hmem
      · rw [he] at hmem
        exact hmem
      rcases (hw.log e).mp hmem with he | ⟨-, row, -, hrow, hwrites⟩
      · exact he
      cases o with
      | reservationUpdate i status seen => cases ho
      | reservationUpdateMany filter status =>
        simp only [DbStatement.writes, Option.ite_none_right_eq_some, Option.some.injEq] at hwrites
        obtain ⟨hmatch, rfl⟩ := hwrites
        have hi : c.Moves filter e.new := hi
        rw [hn] at hi
        rw [hrow, ReservationWhere.status_eq hmatch, held_of_moves hi] at hset
        cases hset
      | _ => cases hwrites
    exact (h.cancels e hold ht hset hn).imp_right (·.grows hg)

/-- A charge is owed its result, unless the card was declined. -/
theorem charge {ch : Choice} {k : IdempotencyKey} {amountCents : Int}
    {r : Except Err ChargeOutcome} (h : Cleared t none id s)
    (hx : (Statement.provider (.charge k amountCents)).perform t ch s = some (r, s')) :
    r = .ok ch.outcome ∧ Cleared t (some k) id s' ∧
      ((∀ ref, ch.outcome ≠ .succeeded ref) → Cleared t none id s') := by
  cases hx
  have hmem : ∀ c ∈ s.provider.charges ++ [⟨t, k, amountCents, ch.outcome⟩],
      c ∈ s.provider.charges ∨ c.key = k ∧ c.outcome = ch.outcome := by
    intro c hc
    rcases List.mem_append.mp hc with hc | hc
    · exact .inl hc
    · rw [List.mem_singleton.mp hc]
      exact .inr ⟨rfl, rfl⟩
  refine ⟨rfl, ⟨fun c hc ht ref ho => ?_, h.cancels⟩, fun hd => ⟨fun c hc ht ref ho => ?_, h.cancels⟩⟩
  · rcases hmem c hc with hc | ⟨rfl, -⟩
    · exact .inr ((h.charges c hc ht ref ho).resolve_left (by simp))
    · exact .inl rfl
  · rcases hmem c hc with hc | ⟨-, hout⟩
    · exact h.charges c hc ht ref ho
    · exact (hd ref (hout ▸ ho)).elim

/-- A cancel is owed the refund, unless it found the reservation unpaid. -/
theorem update {ch : Choice} {i : Id} {seen : ReservationStatus} {r : Reservation}
    (h : Cleared t key none s) (hg : Grows s s')
    (hx : (Statement.db (.reservationUpdate i .cancelled seen)).exec t ch s = some (.ok r, s')) :
    Cleared t key (some i) s' ∧
      ((s.statusOf i).all (!·.settled) = true → Cleared t key none s') := by
  obtain ⟨-, old, hold, hlog⟩ := of_reservationUpdate hx
  have hp : s'.provider = s.provider := by
    obtain ⟨d, -, rfl⟩ := Statement.perform_db (Statement.perform_of_exec_ok hx)
    rfl
  have hcharges : ∀ c ∈ s'.provider.charges, c.tid = t → ∀ ref, c.outcome = .succeeded ref →
      key = some c.key ∨ Reported s' c.key := by
    rw [hp]
    exact fun c hc ht ref ho => (h.charges c hc ht ref ho).imp_right (·.grows hg)
  refine ⟨⟨hcharges, fun e he ht hs hn => ?_⟩, fun hu => ⟨hcharges, fun e he ht hs hn => ?_⟩⟩
  · rcases (hlog e).mp he with he | rfl
    · exact .inr (((h.cancels e he ht hs hn).resolve_left (by simp)).grows hg)
    · exact .inl rfl
  · rcases (hlog e).mp he with he | rfl
    · exact (h.cancels e he ht hs hn).imp_right (·.grows hg)
    · rw [hold, Option.all_some, hs] at hu
      cases hu

end Cleared

def conservation : Saga :=
  { policy := conserving
    Keeps := fun _ => True
    Fresh := fun t s => (∀ e ∈ s.db.statusLog, e.tid ≠ t) ∧ ∀ c ∈ s.provider.charges, c.tid ≠ t
    Post := fun a _ s => Cleared a.tid none none s }

namespace Conservation

open Cleared (owing)

variable {a : Agent} {s s' : Store} {key : Option IdempotencyKey} {id : Option Id}

/-! ## Rules -/

theorem perform_of_turn {ch : Choice} {o : Statement} {r : Except Err o.Resp} {s₁ s₂ : Store}
    (ht : Saga.Turn conservation a s ch o s₁ r s₂) : o.perform a.tid ch s₁ = some (r, s₂) := by
  have hp := ht.policy
  simp only [conservation, conserving, faultless, Bool.and_eq_true, beq_iff_eq] at hp
  exact (Statement.exec_of_fault_none hp.1.1.1.1).symm.trans ht.exec

/-- A program that leaves nothing new to follow up on. -/
theorem safe_of_uses {α : Type} {p : Async α} (hp : p.Uses fun o => owing o = false)
    (h : Cleared a.tid key id s) :
    conservation.discipline.Safe a (fun _ => Cleared a.tid key id) p s :=
  Saga.safe_of_uses (K := Cleared a.tid key id) hp h (fun _ _ hr h => h.rely hr)
    fun _ _ _ _ _ ho h ht => ⟨trivial, h.exec ht.issues ht.exec ho⟩

/-- The same for one statement, and the rest. -/
theorem safe_op {γ : Type} {Q : Except Err γ → Store → Prop} {o : Statement}
    {f : o.Resp → Async γ} (ho : owing o = false) (h : Cleared a.tid key id s)
    (hc : ∀ ch s₁ r s₂, Saga.Turn conservation a s ch o s₁ r s₂ → Cleared a.tid key id s₂ →
      conservation.discipline.Cont a Q f r s₂) :
    conservation.discipline.Safe a Q (await o >>= f) s :=
  Saga.safe_op fun ch s₁ r s₂ ht =>
    ⟨trivial, hc ch s₁ r s₂ ht ((h.rely ht.rely).exec ht.issues ht.exec ho)⟩

/-! ## Cancel -/

theorem safe_compensate {i : Id} {wasPaid : Bool} {r : Reservation}
    (h : Cleared a.tid none (if wasPaid then some i else none) s) :
    conservation.discipline.Safe a (fun _ => Cleared a.tid none none) (compensate i wasPaid r) s := by
  have hrest : (do
      publishReservationChanged r.listingId r.id .cancelled
      pure r : Async Reservation).Uses fun o => owing o = false :=
    Uses.bind (publishReservationChanged_uses _ _ _ rfl fun _ => rfl) fun _ => uses_pure r
  cases wasPaid with
  | false => exact safe_of_uses hrest h
  | true =>
    refine safe_op (o := .queue (.refundAdd { reservationId := i, idempotencyKey := i })) rfl h
      fun ch s₁ res s₂ ht h => ?_
    have hx := perform_of_turn ht
    have hreq : Requested s₂ i := requested_of_refundAdd hx
    cases res with
    | error e => cases hx
    | ok u => exact safe_of_uses hrest (h.requested hreq)

theorem eq_of_update_error {t : Nat} {ch : Choice} {i : Id} {status seen : ReservationStatus}
    {e : Err} (hx : (Statement.db (.reservationUpdate i status seen)).perform t ch s =
      some (.error e, s')) : s' = s := by
  obtain ⟨d, hd, rfl⟩ := Statement.perform_db hx
  simp only [Database.perform, Database.reservationUpdate, Option.some.injEq] at hd
  split at hd
  · cases hd
    rfl
  · cases hd

theorem safe_cancelWrite {i : Id} {seen : ReservationStatus} (hs : seen = .held ∨ seen = .confirmed)
    (h : Cleared a.tid none none s) :
    conservation.discipline.Safe a (fun _ => Cleared a.tid none none)
      (prisma.reservationUpdate i .cancelled seen >>= compensate i (seen == .confirmed)) s := by
  refine Saga.safe_op (o := .db (.reservationUpdate i .cancelled seen))
    fun ch s₁ r s₂ ht => ⟨trivial, ?_⟩
  have h₁ := h.rely ht.rely
  cases r with
  | error e => rwa [eq_of_update_error (perform_of_turn ht)]
  | ok cancelled =>
    obtain ⟨howed, hclear⟩ := h₁.update ht.grows ht.exec
    refine safe_compensate ?_
    rcases hs with rfl | rfl
    · have hp := ht.policy
      simp only [conservation, conserving, Bool.and_eq_true] at hp
      exact hclear hp.2
    · exact howed

theorem safe_cancel (guestId i : Id) (h : Cleared a.tid none none s) :
    conservation.discipline.Safe a (fun _ => Cleared a.tid none none) (cancel guestId i) s :=
  Safe.bind (safe_op (o := .db (.reservationFindFirst i guestId)) rfl h fun _ _ _ _ _ h =>
    cont_cancel (fun _ => h) (fun _ _ _ => h) fun _ _ hs => safe_cancelWrite hs h)

/-! ## Charges -/

/-- The payment row is there. -/
def Opened (s : Store) (k : IdempotencyKey) : Prop := ∃ p, s.db.payments.find? k = some p

theorem Opened.grows {k : IdempotencyKey} (h : Opened s k) (hg : Grows s s') : Opened s' k := by
  obtain ⟨p, hp⟩ := h
  obtain ⟨p', hp', -⟩ := hg.db.payments k p hp
  exact ⟨p', hp'⟩

/-- What has been recorded is what was answered. -/
theorem eq_of_paymentUpdate {t : Nat} {ch : Choice} {k : IdempotencyKey} {u : PaymentUpdate}
    {r : Except Err Payment} (ho : Opened s k)
    (hx : (Statement.db (.paymentUpdate k u)).perform t ch s = some (r, s')) :
    ∃ p, r = .ok (u.apply p) := by
  obtain ⟨p, hp⟩ := ho
  obtain ⟨d, hd, rfl⟩ := Statement.perform_db hx
  simp only [Database.perform, Database.paymentUpdate, hp, Option.some.injEq, Prod.mk.injEq] at hd
  exact ⟨p, hd.1.symm⟩

theorem toResult_eq_succeeded (e : BookingHeld) (p : Payment) (ref : String) (h : ref ≠ "") :
    ∃ m, PaymentService.toResult e ((PaymentUpdate.succeeded ref).apply p) =
      pure (.succeeded m) := by
  refine ⟨{ reservationId := e.reservationId, idempotencyKey := e.idempotencyKey,
            amountCents := p.amountCents, providerRef := ref, traceContext := none }, ?_⟩
  simp only [PaymentService.toResult, PaymentUpdate.apply, if_true, if_neg h]

/-- A charge that has returned owes nothing, or it hands back a success that has to be
sent. -/
def Handed (e : BookingHeld) (t : Nat) (r : Except Err PaymentResult) (s : Store) : Prop :=
  Cleared t none none s ∨
    Cleared t (some e.idempotencyKey) none s ∧ ∃ m, r = .ok (.succeeded m)

theorem safe_chargeAndRecord (e : BookingHeld) (h : Cleared a.tid none none s)
    (ho : Opened s e.idempotencyKey) : conservation.discipline.Safe a (Handed e a.tid)
      (PaymentService.chargeAndRecord gateway e) s := by
  refine Saga.safe_op (o := .provider (.charge e.idempotencyKey e.amountCents))
    fun ch s₁ r s₂ ht => ⟨trivial, ?_⟩
  have ho := ho.grows ht.known
  obtain ⟨rfl, howed, hclear⟩ := (h.rely ht.rely).charge (perform_of_turn ht)
  have href : ch.outcome ≠ .succeeded "" := by
    have hp := ht.policy
    simp only [conservation, conserving, faultless, Bool.and_eq_true, bne_iff_ne] at hp
    exact hp.1.1.1.2
  cases hout : ch.outcome with
  | declined reason =>
    refine (safe_of_uses ?_ (hclear (by rw [hout]; simp))).imp fun _ _ h => .inl h
    exact Uses.bind (uses_op rfl) fun p => toResult_uses e p
  | succeeded ref =>
    rw [hout] at href
    refine safe_op (o := .db (.paymentUpdate e.idempotencyKey (.succeeded ref))) rfl howed
      fun ch s₃ r s₄ ht h => ?_
    obtain ⟨p, rfl⟩ := eq_of_paymentUpdate (ho.grows ht.rely.grows) (perform_of_turn ht)
    obtain ⟨m, hm⟩ := toResult_eq_succeeded e p ref fun he => href (by rw [he])
    rw [cont_ok, hm, safe_pure]
    exact .inr ⟨h, m, rfl⟩

theorem safe_claim (e : BookingHeld) (h : Cleared a.tid none none s) :
    conservation.discipline.Safe a (fun r s => Cleared a.tid none none s ∧
      ∀ u, r = .ok u → Opened s e.idempotencyKey) (PaymentService.claim e) s := by
  refine Safe.tryCatch (Saga.safe_last fun ch s₁ r s₂ ht => ⟨trivial, ?_⟩)
  have hx := perform_of_turn ht
  have h := (h.rely ht.rely).exec ht.issues ht.exec rfl
  cases r with
  | ok u => exact ⟨h, fun _ _ => opened_of_create hx fun _ he => by cases he⟩
  | error err =>
    by_cases hu : err.isUniqueViolation = true
    · simp only [caught_error, hu, Bool.not_true, Bool.false_eq_true, if_false, safe_pure]
      exact ⟨h, fun _ _ => opened_of_create hx fun _ he => by cases he; exact hu⟩
    · simp only [caught_error, hu, Bool.not_false, if_true, safe_throw]
      exact ⟨h, fun _ he => by cases he⟩

theorem safe_charge (e : BookingHeld) (h : Cleared a.tid none none s) :
    conservation.discipline.Safe a (Handed e a.tid) (PaymentService.charge gateway e) s := by
  refine safe_op (o := .db (.paymentFindUnique e.idempotencyKey)) rfl h fun ch s₁ r s₂ ht h => ?_
  cases r with
  | error err => exact .inl h
  | ok existing =>
    cases existing with
    | some existing =>
      by_cases hst : existing.status ≠ .pending
      · simp only [cont_ok, if_pos hst]
        exact (safe_of_uses (toResult_uses e existing) h).imp fun _ _ h => .inl h
      · simp only [cont_ok, if_neg hst]
        exact safe_chargeAndRecord e h ⟨_, find?_of_paymentFindUnique ht.exec⟩
    | none =>
      refine Safe.bind ((safe_claim e h).imp fun r s₃ hc => ?_)
      obtain ⟨h, ho⟩ := hc
      cases r with
      | error err => exact .inl h
      | ok u => exact safe_chargeAndRecord e h (ho u rfl)

theorem reported_of_resultAdd {t : Nat} {ch : Choice} {m : PaymentResult} {k : IdempotencyKey}
    {r : Except Err Unit} (hm : m.tag = .paymentSucceeded)
    (hx : (Statement.queue (.resultAdd m k)).perform t ch s = some (r, s')) : Reported s' k := by
  cases hx
  rw [Reported, ← hm]
  exact JobQueue.add_find?_isSome _ _ _ _

theorem safe_addResult {e : BookingHeld} {m : PaymentResult}
    (h : Cleared a.tid none none s ∨
      Cleared a.tid (some e.idempotencyKey) none s ∧ m.tag = .paymentSucceeded) :
    conservation.discipline.Safe a (fun _ => Cleared a.tid none none) (addResult e m) s := by
  rcases h with h | ⟨h, hm⟩
  · refine safe_of_uses (Uses.bind (uses_op rfl) fun trace => ?_) h
    cases trace with
    | none => exact uses_op rfl
    | some tc => exact uses_op rfl
  refine safe_op (o := .host .inject) rfl h fun ch s₁ r s₂ ht h => ?_
  have hsend : ∀ m : PaymentResult, m.tag = .paymentSucceeded →
      conservation.discipline.Safe a (fun _ => Cleared a.tid none none)
        (resultQueueAdd m e.idempotencyKey) s₂ := fun m hm =>
    Saga.safe_last fun ch s₃ r s₄ ht => ⟨trivial,
      ((h.rely ht.rely).exec ht.issues ht.exec rfl).reported
        (reported_of_resultAdd hm (perform_of_turn ht))⟩
  have hx := perform_of_turn ht
  cases r with
  | error err => cases hx
  | ok trace =>
    cases trace with
    | none => exact hsend m hm
    | some tc => exact hsend _ (by rw [PaymentResult.tag_withTrace, hm])

theorem safe_processCharge (data : BookingHeld) (h : Cleared a.tid none none s) :
    conservation.discipline.Safe a (fun _ => Cleared a.tid none none)
      (processCharge gateway data) s := by
  unfold processCharge
  cases hp : bookingHeldSchema data with
  | error e => exact h
  | ok event =>
    refine Safe.bind ((safe_charge event h).imp fun r s₁ hh => ?_)
    rcases hh with h | ⟨h, m, rfl⟩
    · cases r with
      | error e => exact h
      | ok m => exact safe_addResult (.inl h)
    · exact safe_addResult (.inr ⟨h, rfl⟩)

theorem processRefund_uses (data : RefundRequested) :
    (processRefund gateway data).Uses fun o => owing o = false := by
  unfold processRefund refundRequestedSchema
  refine Uses.bind (uses_op rfl) fun payment => ?_
  cases payment with
  | none => exact uses_pure _
  | some payment =>
    exact uses_ite (fun _ => uses_pure _) fun _ => Uses.bind (uses_op rfl) fun _ =>
      Uses.bind (uses_op rfl) fun _ => uses_pure _

/-- A call of the API other than a cancel. -/
theorem owing_eq_false {c : Call} {o : Statement} (hi : c.Issues o) (hw : c.ofWorker = false)
    (hc : ∀ guestId i, c ≠ .cancel guestId i) : owing o = false := by
  cases o with
  | db o =>
    cases o with
    | reservationUpdate i status seen =>
      obtain ⟨⟨guestId, rfl⟩, -⟩ := hi
      exact (hc guestId i rfl).elim
    | _ => rfl
  | provider o => rw [show c.ofWorker = true from hi] at hw; cases hw
  | _ => rfl

theorem safe_program {ttl : Int} {t : Nat} {c : Call} (hext : c.external = true)
    (h : Cleared t none none s) : conservation.discipline.Safe ⟨t, c⟩ (conservation.Post ⟨t, c⟩)
      (c.program { holdTtlMs := ttl, provider := gateway }) s := by
  have hapi : c.ofWorker = false → (∀ guestId i, c ≠ .cancel guestId i) →
      conservation.discipline.Safe ⟨t, c⟩ (conservation.Post ⟨t, c⟩)
        (c.program { holdTtlMs := ttl, provider := gateway }) s := fun hw hc =>
    safe_of_uses (a := ⟨t, c⟩) ((program_issues _ c).mono fun _ hi => owing_eq_false hi hw hc) h
  cases c with
  | cancel guestId i => exact safe_answer (safe_cancel guestId i h)
  | processCharge jobId data => exact safe_answer (safe_processCharge data h)
  | processRefund jobId data =>
    exact safe_answer (safe_of_uses (a := ⟨t, _⟩) (processRefund_uses data) h)
  | charge e => cases hext
  | refund e => cases hext
  | _ => exact hapi rfl fun _ _ h => by cases h

theorem valid (ttl : Int) (listings : Table Listing) : conservation.Valid ttl listings where
  external := fun _ _ h => h
  start := trivial
  fresh_start := fun _ => ⟨fun _ h => (nomatch h), fun _ h => (nomatch h)⟩
  fresh_stable := fun _ _ _ hr h =>
    ⟨fun e he ht => h.1 e (hr.log e he ht) ht, fun c hc ht => h.2 c (hr.charges c hc ht) ht⟩
  post_stable := fun _ _ _ _ hr _ h => Cleared.rely h hr
  spawn := fun _ _ _ _ _ _ hfresh hext _ _ => ⟨trivial, safe_program hext
    { charges := fun c hc ht => (hfresh.2 c hc ht).elim
      cancels := fun e he ht => (hfresh.1 e he ht).elim }⟩
  ret := fun _ _ _ _ _ _ _ => trivial
  kill := fun _ _ _ => trivial

end Conservation

variable {ttl : Int} {listings : Table Listing} {w : World}

theorem settlesInTime_of_conserving
    (hr : (system { holdTtlMs := ttl, provider := gateway }).Reaches conserving
      (initial listings) w) :
    (system { holdTtlMs := ttl, provider := gateway }).Reaches settlesInTime
      (initial listings) w := by
  refine hr.relax (P := conserving) (Q := settlesInTime) (fun _ _ h => h)
    (fun a ch o s h => ?_) fun _ _ _ _ => rfl
  simp only [conserving, Bool.and_eq_true] at h
  exact h.1.1.2

theorem failsHarmlessly_of_conserving
    (hr : (system { holdTtlMs := ttl, provider := gateway }).Reaches conserving
      (initial listings) w) :
    (system { holdTtlMs := ttl, provider := gateway }).Reaches failsHarmlessly
      (initial listings) w := by
  refine hr.relax (P := conserving) (Q := failsHarmlessly) (fun _ _ h => h) (fun a ch o s h => ?_)
    fun _ _ _ _ => rfl
  simp only [conserving, faultless, Bool.and_eq_true] at h
  simp only [failsHarmlessly, Bool.and_eq_true]
  refine ⟨h.1.2, ?_⟩
  split
  · simp only [h.1.1.1.1, Bool.true_or]
  · simp only [h.1.1.1.1, Bool.true_or]
  · rfl

/-- When no call is in progress, every thread has followed up on what it did. -/
theorem cleared_of_quiet
    (hr : (system { holdTtlMs := ttl, provider := gateway }).Reaches conserving
      (initial listings) w) (hq : w.Quiet) (t : Nat) : Cleared t none none w.shared := by
  have hw := (Conservation.valid ttl listings).sound.holds hr
  cases ht : w.threads[t]? with
  | none =>
    have hfresh := hw.2.2 t (List.getElem?_eq_none_iff.mp ht)
    exact { charges := fun c hc hct => (hfresh.2 c hc hct).elim
            cancels := fun e he het => (hfresh.1 e he het).elim }
  | some th =>
    cases th with
    | running c p => exact (hq t c p ht).elim
    | returned c r => exact hw.2.1 t _ ht
    | killed c => exact (hr.not_killed (fun _ _ _ => rfl) ht).elim

/-- Every event is published, and every job has been processed. -/
structure Drained (s : Store) : Prop where
  outbox : ∀ o ∈ s.db.outbox.rows, o.publishedAt.isSome = true
  charge : ∀ id j, s.queues.charge.find? id = some j → j.state.finished = true
  result : ∀ id j, s.queues.result.find? id = some j → j.state.finished = true
  refund : ∀ id j, s.queues.refund.find? id = some j → j.state.finished = true

/-- A captured charge that has been reported and processed has confirmed its
reservation, or its refund has been asked for. -/
theorem confirmed_or_requested {s : Store} (hf : Facts s) (hk : Effective s) (hd : Drained s)
    {id : Id} (h : Reported s id) : Confirmed s id ∨ Requested s id := by
  obtain ⟨j, hj⟩ := h
  obtain ⟨hid, hsent⟩ := hf.inv.result _ j hj
  have happ := hk.result _ j hj
  cases hdata : j.data with
  | failed m =>
    rw [hdata] at hid
    cases hid
  | succeeded m =>
    rw [hdata] at hid hsent happ
    obtain rfl : id = m.reservationId := (Prod.mk.inj hid).2.trans hsent.1
    exact happ (by rw [(hsent.2.2 rfl).2]; rfl) (hd.result _ j hj)

/-- A refund that has been asked for and processed has been made, of a reservation that
is released. -/
theorem refunded_of_requested {s : Store} (hf : Facts s) (hk : Effective s)
    (hrel : RefundsReleased s) (hd : Drained s) {id : Id} (h : Requested s id) :
    Released s id ∧ id ∈ s.provider.refunds := by
  refine ⟨hrel id h, ?_⟩
  obtain ⟨j, hj⟩ := h
  obtain ⟨e, he, hkey, hnew⟩ := hk.refund id j hj (hd.refund id j hj)
  have hid : e.key = id := hkey.trans (by rw [(hf.inv.refund id j hj).1])
  exact hid ▸ hf.inv.journal.provider e he hnew

/-- If no cancel and no settlement mistakes what it finds, and no decline is recorded over a
capture, then a captured charge is that of a confirmed or completed reservation and has been
kept, or it is that of an expired or cancelled one and has been given back. -/
theorem money_conserved
    (hr : (system { holdTtlMs := ttl, provider := gateway }).Reaches conserving
      (initial listings) w) (hq : w.Quiet) (hd : Drained w.shared) {id : Id}
    (hc : w.shared.provider.Captured id) :
    ∃ status, w.shared.statusOf id = some status ∧
      ((status = .confirmed ∨ status = .completed) ∧ id ∉ w.shared.provider.refunds ∨
        (status = .cancelled ∨ status = .expired) ∧ id ∈ w.shared.provider.refunds) := by
  have hf := Saga.facts_of_reaches (P := conserving) (fun _ _ h => h) hr
  have hk := effective_of_reaches (failsHarmlessly_of_conserving hr)
  have hrel := refundsReleased_of_reaches gateway_unannounced (settlesInTime_of_conserving hr)
  have hclear := cleared_of_quiet hr hq
  have hback : Requested w.shared id → ∃ status, w.shared.statusOf id = some status ∧
      ((status = .confirmed ∨ status = .completed) ∧ id ∉ w.shared.provider.refunds ∨
        (status = .cancelled ∨ status = .expired) ∧ id ∈ w.shared.provider.refunds) := by
    intro h
    obtain ⟨⟨status, hs, hreleased⟩, hmem⟩ := refunded_of_requested hf hk hrel hd h
    refine ⟨status, hs, .inr ⟨?_, hmem⟩⟩
    cases status <;> simp [ReservationStatus.released] at hreleased ⊢
  obtain ⟨c, hmem, rfl, ref, hout⟩ := hc
  rcases confirmed_or_requested hf hk hd
    (((hclear c.tid).charges c hmem rfl ref hout).resolve_left (by simp)) with hconf | hreq
  · obtain ⟨status, hs, hset | rfl⟩ := settled_or_cancelled hf.logged hconf
    · refine ⟨status, hs, .inl ⟨?_, fun hback => ?_⟩⟩
      · cases status <;> simp [ReservationStatus.settled] at hset ⊢
      · obtain ⟨status', hs', hreleased⟩ := hrel _ (hf.inv.returned _ hback)
        cases hs.symm.trans hs'
        cases status <;> simp [ReservationStatus.settled, ReservationStatus.released] at hset hreleased
    · -- The cancel that came after the confirmation has asked for the refund.
      obtain ⟨e, he, hid, hnew⟩ := hconf
      obtain ⟨r, hrow, hst⟩ := statusOf_eq_some.mp hs
      obtain ⟨e', he', hid', hold', hnew'⟩ := hf.logged.cancelled e he hnew r (hid ▸ hrow) hst
      have hreq := ((hclear e'.tid).cancels e' he' rfl hold' hnew').resolve_left (by simp)
      exact hback (by rw [← hid, ← hid']; exact hreq)
  · exact hback hreq

section Runs

open Scenario

/-- No call is in progress, and every queue is drained. -/
def quiescent (w : World) : Bool :=
  (w.threads.all fun
    | .running _ _ => false
    | _ => true) &&
  (w.shared.db.outbox.rows.all (·.publishedAt.isSome)) &&
  (w.shared.queues.charge.rows.all (·.state.finished)) &&
  (w.shared.queues.result.rows.all (·.state.finished)) &&
  w.shared.queues.refund.rows.all (·.state.finished)

theorem of_quiescent (h : quiescent w = true) : w.Quiet ∧ Drained w.shared := by
  simp only [quiescent, Bool.and_eq_true, List.all_eq_true] at h
  obtain ⟨⟨⟨⟨hq, ho⟩, hc⟩, hr⟩, hf⟩ := h
  refine ⟨fun t c p ht => ?_, ho, fun id j hj => hc j (Table.mem_of_find? hj),
    fun id j hj => hr j (Table.mem_of_find? hj), fun id j hj => hf j (Table.mem_of_find? hj)⟩
  cases hq _ (List.mem_of_getElem? ht)

/-- A guest cancels a paid booking, and the money goes back. -/
theorem money_conserved_cancelled :
    ∃ w, (system Scenario.cfg).Reaches conserving (initial Scenario.listings) w ∧
      w.shared.statusOf 5 = some .cancelled ∧ 5 ∈ w.shared.provider.refunds := by
  have hrun : ((system Scenario.cfg).run conserving (initial Scenario.listings)
      (paid 5 6 ++ confirm 3 5 ++ .spawn (.cancel 1 5) :: steps 4 5 ++ [.ret 4] ++
        .spawn (.processRefund 5 (refund 5)) :: steps 5 3 ++ [.ret 5])).any
      (fun w => quiescent w && w.shared.provider.captured 5 &&
        w.shared.statusOf 5 == some .cancelled) = true := by decide
  obtain ⟨w, hr, ht⟩ := Machine.exists_reaches_of_run hrun
  simp only [Bool.and_eq_true, beq_iff_eq] at ht
  obtain ⟨hq, hd⟩ := of_quiescent ht.1.1
  obtain ⟨status, hs, h⟩ := money_conserved hr hq hd (Provider.captured_iff.mp ht.1.2)
  refine ⟨w, hr, ht.2, ?_⟩
  cases ht.2.symm.trans hs
  rcases h with ⟨h, -⟩ | ⟨-, h⟩
  · simp at h
  · exact h

/-- A cancel reads the hold, the payment is confirmed, and then the cancel writes. -/
theorem not_money_conserved :
    ¬ ∀ w, (system Scenario.cfg).Reaches capturesOnce (initial Scenario.listings) w → w.Quiet →
      Drained w.shared → ∀ id, w.shared.provider.Captured id →
      ∃ status, w.shared.statusOf id = some status ∧
        ((status = .confirmed ∨ status = .completed) ∧ id ∉ w.shared.provider.refunds ∨
          (status = .cancelled ∨ status = .expired) ∧ id ∈ w.shared.provider.refunds) := by
  intro h
  have hrun : ((system Scenario.cfg).run capturesOnce (initial Scenario.listings)
      (paid 5 6 ++ .spawn (.cancel 1 5) :: steps 3 1 ++ confirm 4 5 ++ steps 3 3 ++ [.ret 3])).any
      (fun w => quiescent w && w.shared.provider.captured 5 &&
        w.shared.statusOf 5 == some .cancelled && !w.shared.provider.refunds.contains 5) =
      true := by decide
  obtain ⟨w, hr, ht⟩ := Machine.exists_reaches_of_run hrun
  simp only [Bool.and_eq_true, beq_iff_eq, Bool.not_eq_true', List.contains_eq_mem,
    decide_eq_false_iff_not] at ht
  obtain ⟨hq, hd⟩ := of_quiescent ht.1.1.1
  obtain ⟨status, hs, h⟩ := h w hr hq hd 5 (Provider.captured_iff.mp ht.1.1.2)
  cases ht.1.2.symm.trans hs
  rcases h with ⟨h, -⟩ | ⟨-, h⟩
  · simp at h
  · exact ht.2 h

end Runs

end NoOverlap
