import NoOverlap.Saga.Discipline

/-!
# Redelivered results

The processor of a successful payment asks for a refund when it finds neither a hold
to confirm nor a confirmed reservation.  Nothing but an expired or a cancelled one is
left then, unless the stay is over: a reservation that has been completed reads the
same to it.  `settlesInTime` is the condition that this does not happen.
-/

namespace NoOverlap

open Relational Concurrency RelyGuarantee
open Concurrency.Prog

/-- No settlement of a successful payment finds the stay completed. -/
def settlesInTime : Policy :=
  { anyRequest with
    op := fun a _ o s => match a.call, o with
      | .processResult _ (.succeeded _), .db (.reservationFindStatus id) =>
        s.statusOf id != some .completed
      | _, _ => true }

/-- Refunds are asked for released reservations only. -/
def RefundsReleased (s : Store) : Prop := ∀ id, Requested s id → Released s id

def redelivery : Saga :=
  { policy := settlesInTime
    Keeps := RefundsReleased
    Fresh := fun _ _ => True
    Post := fun _ _ _ => True }

namespace Redelivery

variable {a : Agent} {s s' : Store} {t : Nat}

theorem keeps_of_exec {c : Call} {ch : Choice} {o : Statement} {r : Except Err o.Resp}
    (h : RefundsReleased s) (hi : c.Issues o) (hx : o.exec t ch s = some (r, s'))
    (hr : ∀ m, o = .queue (.refundAdd m) → Released s m.reservationId) : RefundsReleased s' := by
  have hg := Grows.of_exec hi hx
  rintro id ⟨j, hj⟩
  rcases refund_of_exec hx with he | ⟨m, rfl, rfl⟩
  · rw [he] at hj
    exact (h id ⟨j, hj⟩).grows hg
  · rcases JobQueue.find?_add hj with hj | ⟨rfl, -⟩
    · exact (h id ⟨j, hj⟩).grows hg
    · exact (hr m rfl).grows hg

theorem keeps_of_same {q : Queues} (h : RefundsReleased s) (hq : s.queues.Same q) :
    RefundsReleased { s with queues := q } := by
  rintro id ⟨j', hj'⟩
  obtain ⟨j, hj, -⟩ := hq.refund.2 id j' hj'
  exact h id ⟨j, hj⟩

/-- A program that asks for no refund. -/
theorem safe_of_uses {α : Type} {p : Async α}
    (hp : p.Uses fun o => ∀ m, o ≠ .queue (.refundAdd m)) :
    redelivery.discipline.Safe a (fun _ _ => True) p s :=
  Saga.safe_of_uses (K := fun _ => True) hp trivial (fun _ _ _ _ => trivial)
    fun _ _ _ _ _ ho _ ht => ⟨keeps_of_exec ht.keeps ht.issues ht.exec fun m h => (ho m h).elim, trivial⟩

/-- A program that asks for the refund of a released reservation. -/
theorem safe_of_released {α : Type} (id : Id) {p : Async α}
    (hp : p.Uses fun o => ∀ m, o = .queue (.refundAdd m) → m.reservationId = id)
    (hr : Released s id) : redelivery.discipline.Safe a (fun _ _ => True) p s := by
  refine (Saga.safe_of_uses (K := fun s => Released s id) hp hr
    (fun _ _ hr h => h.grows hr.grows) ?_).imp fun _ _ _ => trivial
  intro ch o s₁ r s₂ ho hk ht
  exact ⟨keeps_of_exec ht.keeps ht.issues ht.exec fun m h => by rw [ho m h]; exact hk,
    hk.grows ht.grows⟩

/-- A statement that is no request for a refund, and the rest. -/
theorem safe_op {γ : Type} {Q : Except Err γ → Store → Prop} {o : Statement}
    {f : o.Resp → Async γ} (ho : ∀ m, o ≠ .queue (.refundAdd m))
    (h : ∀ ch s₁ r s₂, Saga.Turn redelivery a s ch o s₁ r s₂ →
      redelivery.discipline.Cont a Q f r s₂) :
    redelivery.discipline.Safe a Q (await o >>= f) s :=
  Saga.safe_op fun ch s₁ r s₂ ht =>
    ⟨keeps_of_exec ht.keeps ht.issues ht.exec fun m hm => (ho m hm).elim, h ch s₁ r s₂ ht⟩

theorem safe_cancel (guestId id : Id) :
    redelivery.discipline.Safe a (fun _ _ => True) (cancel guestId id) s := by
  refine Safe.bind (safe_op (o := .db (.reservationFindFirst id guestId)) (by simp)
    fun ch s₁ r s₂ _ => cont_cancel (fun _ => trivial) (fun _ _ _ => trivial) fun current _ _ => ?_)
  refine safe_op (o := .db (.reservationUpdate id .cancelled current.status)) (by simp)
    fun ch s₃ r s₄ ht => ?_
  cases r with
  | error e => trivial
  | ok cancelled =>
    exact safe_of_released id
      (compensate_uses (fun _ m hm => by cases hm; rfl) (by simp) (by simp))
      ⟨_, (of_reservationUpdate ht.exec).1, rfl⟩

/-- A refund is found to be required where the slot has been given back. -/
theorem safe_applyPaymentSucceeded {jobId : ResultJobId} {m : PaymentSucceeded}
    (ha : a.call = .processResult jobId (.succeeded m)) {id : Id}
    (hrow : ∃ status, s.statusOf id = some status) :
    redelivery.discipline.Safe a
      (fun r s => ∀ status, r = .ok (.refundRequired status) → Released s id)
      (applyPaymentSucceeded id) s := by
  refine safe_op (o := .db (.reservationUpdateMany (heldById id) .confirmed)) (by simp)
    fun ch s₁ r s₂ ht => ?_
  cases r with
  | error e => exact fun status h => by cases h
  | ok count =>
    by_cases hc : count = 1
    · simp only [cont_ok, if_pos hc]
      refine Safe.bind (Safe.imp (safe_of_uses (announce_uses id .confirmed (by simp) (by simp)
        (by simp))) fun r s₃ _ => ?_)
      cases r with
      | error e => exact fun status h => by cases h
      | ok u => exact fun status h => by cases h
    simp only [cont_ok, if_neg hc]
    have hmoved : Moved s₂ id := by
      rcases of_updateMany_heldById (Statement.perform_of_exec_ok ht.exec) with
        ⟨-, h, -⟩ | ⟨hn, -, rfl⟩
      · cases h
        exact (hc rfl).elim
      · obtain ⟨status, hs⟩ := hrow
        obtain ⟨status', hs', -⟩ := ht.rely.grows.statusOf hs
        exact ⟨status', hs', fun h => hn (h ▸ hs')⟩
    refine safe_op (o := .db (.reservationFindStatus id)) (by simp) fun ch s₃ r s₄ ht => ?_
    cases r with
    | error e => exact fun status h => by cases h
    | ok status =>
      obtain ⟨rfl, hst⟩ := of_reservationFindStatus ht.exec
      cases status with
      | none => exact fun status h => by cases h
      | some status =>
        by_cases hcf : status = .confirmed
        · simp only [cont_ok, if_pos hcf, safe_pure]
          exact fun status h => by cases h
        simp only [cont_ok, if_neg hcf, safe_pure]
        intro status' h
        cases h
        obtain ⟨status', hs', hheld⟩ := hmoved.grows ht.rely.grows
        have hcomp : s₄.statusOf id ≠ some .completed := by
          have hp := ht.policy
          simp only [redelivery, settlesInTime, ha, bne_iff_ne] at hp
          exact hp
        rw [hst] at hs' hcomp
        cases hs'
        refine ⟨status, hst, ?_⟩
        cases status with
        | held => exact (hheld rfl).elim
        | confirmed => exact (hcf rfl).elim
        | completed => exact (hcomp rfl).elim
        | expired => rfl
        | cancelled => rfl

theorem safe_processResult {jobId : ResultJobId} {data : PaymentResult}
    (ha : a.call = .processResult jobId data)
    (hrow : ∃ status, s.statusOf data.reservationId = some status) :
    redelivery.discipline.Safe a (fun _ _ => True) (processPaymentResult data) s := by
  cases data with
  | failed m =>
    refine safe_of_uses ((processPaymentResult_uses jobId (.failed m)).mono ?_)
    rintro o ho m' rfl
    exact ho
  | succeeded m =>
    unfold processPaymentResult
    cases hp : paymentResultSchema (.succeeded m) with
    | error e => trivial
    | ok result =>
      cases paymentResultSchema_eq_ok hp
      refine Safe.bind ((safe_applyPaymentSucceeded ha hrow).imp fun r s₁ hr => ?_)
      cases r with
      | error e => trivial
      | ok outcome =>
        cases outcome with
        | refundRequired status =>
          exact safe_of_released _ (uses_op fun m' h => by cases h; rfl) (hr status rfl)
        | _ => trivial

theorem safe_program {ttl : Int} {t : Nat} {c : Call} (hf : Facts s)
    (hsp : s.spawned c = some s') (hg : Grows s s') :
    redelivery.discipline.Safe ⟨t, c⟩ (fun _ _ => True)
      (c.program { holdTtlMs := ttl, provider := gateway }) s' := by
  have hother : (∀ m, ¬ c.Refunds m) → redelivery.discipline.Safe ⟨t, c⟩ (fun _ _ => True)
      (c.program { holdTtlMs := ttl, provider := gateway }) s' := by
    intro h
    refine safe_of_uses ((program_issues _ c).mono ?_)
    rintro o ho m rfl
    exact h m ho
  cases c with
  | cancel guestId id => exact safe_answer (safe_cancel guestId id)
  | processResult jobId data =>
    obtain ⟨r, hr⟩ := (Seam.sent_of_has hf.inv (Seam.has_of_spawned_result hsp)).2.1
    obtain ⟨status, hs, -⟩ := hg.statusOf (statusOf_eq_some.mpr ⟨r, hr, rfl⟩)
    exact safe_answer (safe_processResult rfl ⟨status, hs⟩)
  | _ => exact hother fun m h => h

theorem valid (ttl : Int) (listings : Table Listing) : redelivery.Valid ttl listings where
  external := fun _ _ h => h
  start := by rintro id ⟨j, hj⟩; cases hj
  fresh_start := fun _ => trivial
  fresh_stable := fun _ _ _ _ _ => trivial
  post_stable := fun _ _ _ _ _ _ _ => trivial
  spawn := fun t c s q hf hk _ _ hs hq =>
    ⟨keeps_of_same hk hq, safe_program hf hs (Grows.of_same hq)⟩
  ret := by
    intro t c r s _ hk _
    obtain ⟨q, he, hq⟩ := same_of_returned t c r s
    rw [he]
    exact keeps_of_same hk hq
  kill := fun t s hk => hk

end Redelivery

variable {ttl : Int} {P : PaymentProvider} {listings : Table Listing} {w w' : World}

theorem settlesInTime_blind : settlesInTime.Blind where
  spawn := fun _ _ _ _ h => h
  op := by
    rintro a ch o s ⟨db, queues, provider, redis, metrics⟩ ⟨rfl, rfl, -, -⟩ hp
    exact hp
  kill := fun _ _ _ => rfl

theorem refundsReleased_of_reaches (hP : P.Unannounced)
    (hr : (system { holdTtlMs := ttl, provider := P }).Reaches settlesInTime
      (initial listings) w) : RefundsReleased w.shared := by
  have hopen : ∀ a ch o s, settlesInTime.op a ch (.provider o) s = true := by
    rintro ⟨t, c⟩ ch o s
    cases c with
    | processResult jobId data => cases data <;> rfl
    | _ => rfl
  obtain ⟨w', hr', hagr, -⟩ := gateway_of_reaches hP settlesInTime_blind hopen hr
  have hrel : RefundsReleased w'.shared := ((Redelivery.valid ttl listings).sound.inv hr').2
  simpa only [RefundsReleased, Requested, Released, Store.statusOf, hagr.db, hagr.queues] using hrel

/-- Who was confirmed is settled, or has been cancelled. -/
theorem settled_or_cancelled {s : Store} (h : Logged s.db) {id : Id}
    (hlog : ∃ e ∈ s.db.statusLog, e.id = id ∧ e.new = .confirmed) :
    ∃ status, s.statusOf id = some status ∧ (status.settled = true ∨ status = .cancelled) := by
  obtain ⟨e, he, rfl, hc⟩ := hlog
  obtain ⟨r, hr⟩ := h.exists_row e he
  exact ⟨r.status, statusOf_eq_some.mpr ⟨r, hr, rfl⟩, h.settled e he hc r hr⟩

/-- A settlement writes the reservation only while it is held. -/
theorem reservations_eq_of_exec {jobId : ResultJobId} {m : PaymentSucceeded} {t : Nat}
    {ch : Choice} {o : Statement} {s s' : Store} {r : Except Err o.Resp}
    (hi : (Call.processResult jobId (.succeeded m)).Issues o)
    (hx : o.exec t ch s = some (r, s')) (hn : s.statusOf m.reservationId ≠ some .held) :
    s'.db.reservations = s.db.reservations := by
  rcases Statement.exec_cases hx with ⟨rfl, -⟩ | ⟨r', hx, -⟩
  · rfl
  cases o with
  | db o =>
    obtain ⟨d, hd, rfl⟩ := Statement.perform_db hx
    cases Database.effect_of_perform hd with
    | commit | rollback => cases hi
    | reservationUpdate id status seen r hr =>
      obtain ⟨guestId, h⟩ := hi.1
      cases h
    | reservationUpdateMany filter status =>
      obtain ⟨rfl, rfl⟩ := hi
      rcases of_updateMany_heldById hx with ⟨hh, -⟩ | ⟨-, -, he⟩
      · exact (hn hh).elim
      · rw [he]
    | paymentUpdate key data p hp => simp only [Database.paymentUpdate, hp]
    | _ => rfl
  | queue o => cases hx; rfl
  | provider o => cases hx; rfl
  | redis o => cases hx; rfl
  | host o =>
    obtain ⟨m, rfl⟩ := Statement.perform_host hx
    rfl

/-- As long as no settlement finds a stay completed, a result that is delivered again
after it has confirmed the reservation changes no reservation and asks for no refund,
unless the booking has been cancelled; and the processor asks for refunds of expired
and cancelled reservations only.  The provider may be any. -/
theorem redelivered_results_harmless (hP : P.Unannounced)
    (hr : (system { holdTtlMs := ttl, provider := P }).Reaches settlesInTime
      (initial listings) w) :
    (∀ (t : Nat) jobId m p, w.threads[t]? = some (.running (.processResult jobId (.succeeded m)) p) →
      (∃ e ∈ w.shared.db.statusLog, e.id = m.reservationId ∧ e.new = .confirmed) →
      w.shared.statusOf m.reservationId ≠ some .cancelled → ∀ ch w',
      (system { holdTtlMs := ttl, provider := P }).next settlesInTime w (.step t ch) = some w' →
      w'.shared.db.reservations = w.shared.db.reservations ∧
        w'.shared.queues.refund = w.shared.queues.refund) ∧
    ∀ (t : Nat) jobId data m rest,
      w.threads[t]? = some (.running (.processResult jobId data) (.call (.queue (.refundAdd m)) rest)) →
      w.shared.statusOf m.reservationId = some .expired ∨
        w.shared.statusOf m.reservationId = some .cancelled := by
  have hlogged : Logged w.shared.db := logged_of_reaches
    (hr.relax (fun _ _ _ => rfl) (fun _ _ _ _ _ => rfl) fun _ _ _ _ => rfl)
  constructor
  · intro t jobId m p ht hlog hnc ch w' hn
    obtain ⟨status, hs, hset⟩ := settled_or_cancelled hlogged hlog
    have hset : status.settled = true := hset.resolve_right fun h => hnc (h ▸ hs)
    cases Machine.next_moves _ _ hn with
    | step ht' hp hx =>
      rw [ht] at ht'
      cases ht'
      have hi := hr.uses_head (program_issues _) ht
      refine ⟨reservations_eq_of_exec hi hx ?_, ?_⟩
      · rw [hs]
        rintro h
        cases h
        cases hset
      · rcases refund_of_exec hx with he | ⟨m', rfl, rfl⟩
        · exact he
        -- A request would be for a released reservation, and this one is not.
        have hrel := refundsReleased_of_reaches hP (hr.step ht hp hx) m'.reservationId
          (JobQueue.add_find?_isSome _ _ _ _)
        obtain ⟨status', hs', hr'⟩ := hrel
        rw [show m'.reservationId = m.reservationId by rw [show m' = _ from hi]] at hs'
        cases hs.symm.trans hs'
        cases status <;> simp [ReservationStatus.settled, ReservationStatus.released] at hset hr'
  · intro t jobId data m rest ht
    have hp : settlesInTime.op ⟨t, .processResult jobId data⟩ {} (.queue (.refundAdd m)) w.shared =
        true := by cases data <;> rfl
    obtain ⟨status, hs, hrel⟩ := refundsReleased_of_reaches hP (hr.step ht hp rfl) m.reservationId
      (JobQueue.add_find?_isSome _ _ _ _)
    have hs : w.shared.statusOf m.reservationId = some status := hs
    rw [hs]
    cases status <;> simp [ReservationStatus.released] at hrel ⊢

section Runs

open Scenario

/-- Thread `t` settles the successful payment of a reservation that has been confirmed. -/
def redelivers (t : Nat) (w : World) : Bool :=
  match w.threads[t]? with
  | some (.running (.processResult _ (.succeeded m)) _) =>
    w.shared.db.statusLog.any fun e => e.id == m.reservationId && e.new == .confirmed
  | _ => false

theorem of_redelivers {t : Nat} (h : redelivers t w = true) :
    ∃ jobId m p, w.threads[t]? = some (.running (.processResult jobId (.succeeded m)) p) ∧
      ∃ e ∈ w.shared.db.statusLog, e.id = m.reservationId ∧ e.new = .confirmed := by
  unfold redelivers at h
  split at h
  · next jobId m p ht =>
    obtain ⟨e, he, hc⟩ := List.any_eq_true.mp h
    rw [Bool.and_eq_true, beq_iff_eq, beq_iff_eq] at hc
    exact ⟨jobId, m, p, ht, e, he, hc⟩
  · cases h

/-- The stay is over when the result is delivered once more. -/
def afterTheStay : List Event :=
  paid 5 6 ++ confirm 3 5 ++
    .spawn .sweepCompletedStays :: List.replicate 6 (.step 4 { now := 2000000000 }) ++ [.ret 4] ++
    .spawn (.processResult (.paymentSucceeded, 5) (succeeded 5)) :: steps 5 2

/-- The result of a confirmed booking is delivered once more. -/
theorem redelivered_results_harmless_confirmed :
    ∃ w w', (system Scenario.cfg).Reaches settlesInTime (initial Scenario.listings) w ∧
      (system Scenario.cfg).next settlesInTime w (.step 4 {}) = some w' ∧
      w.shared.statusOf 5 = some .confirmed ∧
      w'.shared.db.reservations = w.shared.db.reservations ∧
      w'.shared.queues.refund = w.shared.queues.refund := by
  have hrun : ((system Scenario.cfg).run settlesInTime (initial Scenario.listings)
      (paid 5 6 ++ confirm 3 5 ++ [.spawn (.processResult (.paymentSucceeded, 5) (succeeded 5))])).any
      (fun w => ((system Scenario.cfg).next settlesInTime w (.step 4 {})).any fun _ =>
        redelivers 4 w && w.shared.statusOf 5 == some .confirmed &&
          w.shared.db.reservations.rows.all (·.status != .cancelled)) = true := by decide
  obtain ⟨w, w', hr, hn, ht⟩ := Machine.exists_next_of_run hrun
  simp only [Bool.and_eq_true, beq_iff_eq, List.all_eq_true, bne_iff_ne] at ht
  obtain ⟨jobId, m, p, hth, hlog⟩ := of_redelivers ht.1.1
  refine ⟨w, w', hr, hn, ht.1.2,
    (redelivered_results_harmless gateway_unannounced hr).1 4 jobId m p hth hlog ?_ {} w' hn⟩
  rintro hs
  obtain ⟨r, hf, hc⟩ := statusOf_eq_some.mp hs
  exact ht.2 r (Table.mem_of_find? hf) hc

/-- Delivered after the stay, the result of a confirmed booking asks for a refund. -/
theorem not_redelivered_results_harmless :
    ¬ ∀ w, (system Scenario.cfg).Reaches anyRequest (initial Scenario.listings) w →
      ∀ (t : Nat) jobId m p, w.threads[t]? = some (.running (.processResult jobId (.succeeded m)) p) →
      (∃ e ∈ w.shared.db.statusLog, e.id = m.reservationId ∧ e.new = .confirmed) →
      w.shared.statusOf m.reservationId ≠ some .cancelled → ∀ ch w',
      (system Scenario.cfg).next anyRequest w (.step t ch) = some w' →
      w'.shared.db.reservations = w.shared.db.reservations ∧
        w'.shared.queues.refund = w.shared.queues.refund := by
  intro h
  have hrun : ((system Scenario.cfg).run anyRequest (initial Scenario.listings) afterTheStay).any
      (fun w => ((system Scenario.cfg).next anyRequest w (.step 5 {})).any fun w' =>
        redelivers 5 w && w.shared.db.reservations.rows.all (·.status != .cancelled) &&
          (w.shared.queues.refund.rows.length == 0 && w'.shared.queues.refund.rows.length == 1)) =
      true := by decide
  obtain ⟨w, w', hr, hn, ht⟩ := Machine.exists_next_of_run hrun
  simp only [Bool.and_eq_true, beq_iff_eq, List.all_eq_true, bne_iff_ne] at ht
  obtain ⟨jobId, m, p, hth, hlog⟩ := of_redelivers ht.1.1
  have heq := (h w hr 5 jobId m p hth hlog (fun hs => by
    obtain ⟨r, hf, hc⟩ := statusOf_eq_some.mp hs
    exact ht.1.2 r (Table.mem_of_find? hf) hc) {} w' hn).2
  rw [heq, ht.2.1] at ht
  cases ht.2.2

end Runs

end NoOverlap
