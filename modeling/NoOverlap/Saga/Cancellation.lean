import NoOverlap.Saga.Discipline

/-!
# Cancellations and their refunds

A cancel writes the status first and asks for the refund after, so a failure in
between leaves a refund owed.  The next cancel finds the reservation cancelled and
returns, and a cancel that has read a hold never asks.  `cancelsSquarely` is the
condition that no cancel of the guest reads while a refund is owed, and none writes on the
strength of a hold that has been confirmed since.  A statement that fails restricts nothing,
and neither does a cancel of somebody else, who is told that there is no such reservation.
-/

namespace NoOverlap

open Relational Concurrency RelyGuarantee
open Concurrency.Prog

/-- A confirmed reservation has been cancelled. -/
def Withdrawn (s : Store) (id : Id) : Prop :=
  ∃ e ∈ s.db.statusLog, e.id = id ∧ e.old = .confirmed ∧ e.new = .cancelled

/-- It has, and nobody has asked for the refund yet. -/
def refundOwed (s : Store) (id : Id) : Bool :=
  (s.db.statusLog.any fun e => e.id == id && e.old == .confirmed && e.new == .cancelled) &&
    (s.queues.refund.find? id).isNone

theorem requested_of_not_owed {s : Store} {id : Id} (h : refundOwed s id = false)
    (hw : Withdrawn s id) : Requested s id := by
  obtain ⟨e, he, rfl, ho, hn⟩ := hw
  have hany : (s.db.statusLog.any fun e' =>
      e'.id == e.id && e'.old == .confirmed && e'.new == .cancelled) = true :=
    List.any_eq_true.mpr ⟨e, he, by simp [ho, hn]⟩
  rw [refundOwed, hany, Bool.true_and, Option.isNone_eq_false_iff] at h
  exact Option.isSome_iff_exists.mp h

/-- No cancel finds the reservation of its guest while a refund is owed.  None that has read a hold
writes while a refund is owed, or over a confirmation. -/
def cancelsSquarely : Policy :=
  { anyRequest with
    op := fun _ ch o s => match o with
      | .db (.reservationFindFirst id guestId) =>
        decide (ch.fault ≠ .none) ||
          !((s.db.reservations.find? id).any (·.guestId == guestId) && refundOwed s id)
      | .db (.reservationUpdate id _ .held) =>
        decide (ch.fault ≠ .none) || !refundOwed s id && s.statusOf id != some .confirmed
      | _ => true }

/-- A reservation is cancelled, and its refund asked for if it had been confirmed. -/
structure Squared (id : Id) (s : Store) : Prop where
  cancelled : s.statusOf id = some .cancelled
  requested : Withdrawn s id → Requested s id

/-- Once a reservation is cancelled, no confirmation can be withdrawn any more. -/
theorem Withdrawn.of_grows {s s' : Store} {id : Id} (h : Withdrawn s' id) (hg : Grows s s')
    (hc : s.statusOf id = some .cancelled) : Withdrawn s id := by
  obtain ⟨e, he, rfl, ho, hn⟩ := h
  rcases hg.db.newStatus e he with he | hnew
  · exact ⟨e, he, rfl, ho, hn⟩
  · obtain ⟨r, hr, hs⟩ := statusOf_eq_some.mp hc
    have hl := hnew r hr
    rw [hs, ho] at hl
    cases hl

theorem Squared.grows {s s' : Store} {id : Id} (h : Squared id s) (hg : Grows s s') :
    Squared id s' :=
  ⟨hg.cancelled h.cancelled, fun hw => (h.requested (hw.of_grows hg h.cancelled)).grows hg⟩

/-- What a cancel promises when it returns. -/
def cancellation : Saga :=
  { policy := cancelsSquarely
    Keeps := fun _ => True
    Fresh := fun _ _ => True
    Post := fun a r s => ∀ guestId id v, a.call = .cancel guestId id → r = .ok v → Squared id s }

theorem not_exists_ok {α : Type} {e : Err} :
    ¬ ∃ v : α, (Except.error e : Except Err α) = .ok v := by
  rintro ⟨v, h⟩
  cases h

namespace Saga

variable {S : Saga} {a : Agent} {s : Store}

/-- A cancel that goes on after its write has asked for the refund of a paid booking. -/
theorem safe_compensate (hS : ∀ s, S.Keeps s) {K : Store → Prop}
    (hK : ∀ s s', Rely a.tid s s' → K s → K s') (hk : K s) (id : Id) (wasPaid : Bool)
    (r : Reservation) :
    S.discipline.Safe a (fun res s' => K s' ∧
      ((∃ v, res = .ok v) → wasPaid = true → Requested s' id)) (compensate id wasPaid r) s := by
  have hrest : ∀ {L : Store → Prop} {s₁ : Store}, (∀ s s', Rely a.tid s s' → L s → L s') →
      L s₁ → S.discipline.Safe a (fun _ => L) (do
        publishReservationChanged r.listingId r.id .cancelled
        pure r : Async Reservation) s₁ := by
    intro L s₁ hL hk'
    refine Saga.safe_of_uses (A := fun o => silent o = true) (Uses.bind
      (publishReservationChanged_uses _ _ _ rfl fun _ => rfl) fun _ => uses_pure r) hk' hL ?_
    exact fun ch o s₁ r s₂ ho hk ht => ⟨hS s₂, hL _ _ (rely_of_silent ht.issues ho ht.exec) hk⟩
  cases wasPaid with
  | false => exact (hrest hK hk).imp fun res s' hk => ⟨hk, fun _ h => by cases h⟩
  | true =>
    refine safe_op (o := .queue (.refundAdd { reservationId := id, idempotencyKey := id }))
      fun ch s₁ res s₂ ht => ⟨hS s₂, ?_⟩
    have hk₂ := hK _ _ (rely_of_silent ht.issues rfl ht.exec) (hK _ _ ht.rely hk)
    cases res with
    | error e => exact ⟨hk₂, fun h => (not_exists_ok h).elim⟩
    | ok u =>
      have hreq : Requested s₂ id := requested_of_refundAdd (Statement.perform_of_exec_ok ht.exec)
      exact (hrest (L := fun s => K s ∧ Requested s id)
        (fun s s' hr h => ⟨hK s s' hr h.1, h.2.grows hr.grows⟩) ⟨hk₂, hreq⟩).imp
        fun res s' h => ⟨h.1, fun _ _ => h.2⟩

end Saga

namespace Cancellation

variable {a : Agent} {s : Store} {t : Nat}

/-- A write over a hold that nobody has confirmed withdraws nothing. -/
theorem squared_of_held {ch : Choice} {id : Id} {r : Reservation} {s₃ s₄ : Store}
    (ht : Saga.Turn cancellation a s ch (.db (.reservationUpdate id .cancelled .held)) s₃ (.ok r) s₄) :
    Squared id s₄ := by
  obtain ⟨hcan, old, hold, hlog⟩ := of_reservationUpdate ht.exec
  have hfault : ch.fault = .none := Statement.fault_of_exec_ok rfl ht.exec
  have hp : refundOwed s₃ id = false ∧ s₃.statusOf id ≠ some .confirmed := by
    simpa [cancellation, cancelsSquarely, hfault] using ht.policy
  refine ⟨hcan, ?_⟩
  rintro ⟨e, he, hid, ho, hn⟩
  rcases (hlog e).mp he with he | rfl
  · exact (requested_of_not_owed hp.1 ⟨e, he, hid, ho, hn⟩).grows ht.grows
  · simp only at ho
    rw [ho] at hold
    exact (hp.2 hold).elim

theorem safe_cancelWrite {id : Id} {seen : ReservationStatus}
    (hs : seen = .held ∨ seen = .confirmed) :
    cancellation.discipline.Safe a (fun r s' => (∃ v, r = .ok v) → Squared id s')
      (prisma.reservationUpdate id .cancelled seen >>= compensate id (seen == .confirmed)) s := by
  refine Saga.safe_op (o := .db (.reservationUpdate id .cancelled seen))
    fun ch s₃ r s₄ ht => ⟨trivial, ?_⟩
  cases r with
  | error e => exact fun h => (not_exists_ok h).elim
  | ok cancelled =>
    rcases hs with rfl | rfl
    · exact (Saga.safe_compensate (fun _ => trivial) (K := Squared id)
        (fun _ _ hr h => h.grows hr.grows) (squared_of_held ht) id _ cancelled).imp
        fun _ _ h _ => h.1
    · exact (Saga.safe_compensate (fun _ => trivial) (K := fun s => s.statusOf id = some .cancelled)
        (fun _ _ hr h => hr.grows.cancelled h) (of_reservationUpdate ht.exec).1 id _ cancelled).imp
        fun _ _ h hok => ⟨h.1, fun _ => h.2 hok rfl⟩

theorem safe_cancel (guestId id : Id) :
    cancellation.discipline.Safe a (fun r s' => (∃ v, r = .ok v) → Squared id s')
      (cancel guestId id) s := by
  refine Safe.bind (Saga.safe_op (o := .db (.reservationFindFirst id guestId))
    fun ch s₁ r s₂ ht => ⟨trivial, ?_⟩)
  refine cont_cancel (fun _ h => (not_exists_ok h).elim) ?_ fun _ _ => safe_cancelWrite
  rintro current rfl hc -
  obtain ⟨rfl, hst⟩ := of_reservationFindFirst ht.exec
  obtain ⟨-, hfind, hguest⟩ := find?_of_reservationFindFirst ht.exec
  have hfault : ch.fault = .none := Statement.fault_of_exec_ok rfl ht.exec
  have howed : refundOwed s₂ id = false := by
    simpa [cancellation, cancelsSquarely, hfault, hfind, hguest] using ht.policy
  exact ⟨hc ▸ hst, requested_of_not_owed howed⟩

theorem safe_program {ttl : Int} {t : Nat} (c : Call) :
    cancellation.discipline.Safe ⟨t, c⟩ (cancellation.Post ⟨t, c⟩)
      (c.program { holdTtlMs := ttl, provider := gateway }) s := by
  have hother : (∀ guestId id, c ≠ .cancel guestId id) →
      cancellation.discipline.Safe ⟨t, c⟩ (cancellation.Post ⟨t, c⟩)
        (c.program { holdTtlMs := ttl, provider := gateway }) s := by
    intro h
    exact (Saga.safe_of_uses (K := fun _ => True) (program_issues _ c) trivial
      (fun _ _ _ _ => trivial) fun _ _ _ _ _ _ _ _ => ⟨trivial, trivial⟩).imp
      fun _ _ _ guestId id _ hc => (h guestId id hc).elim
  cases c with
  | cancel guestId id =>
    refine Safe.bind ((safe_cancel guestId id).imp fun r s' h => ?_)
    cases r with
    | error e => exact fun _ _ _ _ h => by cases h
    | ok v =>
      intro guestId' id' v' hc _
      cases hc
      exact h ⟨v, rfl⟩
  | _ => exact hother fun _ _ h => by cases h

theorem valid (ttl : Int) (listings : Table Listing) : cancellation.Valid ttl listings where
  external := fun _ _ h => h
  start := trivial
  fresh_start := fun _ => trivial
  fresh_stable := fun _ _ _ _ _ => trivial
  post_stable := fun _ _ _ _ hr _ h guestId id v hc hv => (h guestId id v hc hv).grows hr.grows
  spawn := fun _ c _ _ _ _ _ _ _ _ => ⟨trivial, safe_program c⟩
  ret := fun _ _ _ _ _ _ _ => trivial
  kill := fun _ _ _ => trivial

end Cancellation

variable {ttl : Int} {P : PaymentProvider} {listings : Table Listing} {w : World}

theorem cancelsSquarely_blind : cancelsSquarely.Blind where
  spawn := fun _ _ _ _ h => h
  op := by
    rintro a ch o s ⟨db, queues, provider, redis, metrics⟩ ⟨rfl, rfl, -, -⟩ hp
    exact hp
  kill := fun _ _ _ => rfl

/-- If cancels are square, then a cancel that has returned leaves no refund owed, whatever the
provider. -/
theorem cancelled_refund_requested (hP : P.Unannounced)
    (hr : (system { holdTtlMs := ttl, provider := P }).Reaches cancelsSquarely
      (initial listings) w) {t : Nat} {guestId id : Id} {v : Reply}
    (ht : w.threads[t]? = some (.returned (.cancel guestId id) (.ok v)))
    (he : ∃ e ∈ w.shared.db.statusLog, e.id = id ∧ e.old = .confirmed ∧ e.new = .cancelled) :
    ∃ j, w.shared.queues.refund.find? id = some j ∧
      j.data = { reservationId := id, idempotencyKey := id } := by
  obtain ⟨w', hr', hagr, hret⟩ := gateway_of_reaches hP cancelsSquarely_blind
    (fun _ _ _ _ => rfl) hr
  rw [← hagr.db] at he
  rw [← hagr.queues]
  obtain ⟨j, hj⟩ := ((Cancellation.valid ttl listings).sound.post hr' (hret _ _ _ ht) guestId id v
    rfl rfl).requested he
  have hf := Saga.facts_of_reaches (P := cancelsSquarely) (fun _ _ h => h) hr'
  exact ⟨j, hj, (hf.inv.refund id j hj).1⟩

section Runs

open Scenario

/-- Thread `t` is a cancel of `id` that has returned. -/
def cancelReturned (t : Nat) (id : Id) (w : World) : Bool :=
  match w.threads[t]? with
  | some (.returned (.cancel _ id') (.ok _)) => id' == id
  | _ => false

theorem of_cancelReturned {t : Nat} {id : Id} (h : cancelReturned t id w = true) :
    ∃ guestId v, w.threads[t]? = some (.returned (.cancel guestId id) (.ok v)) := by
  unfold cancelReturned at h
  split at h
  · next guestId id' v ht =>
    cases beq_iff_eq.mp h
    exact ⟨guestId, v, ht⟩
  · cases h

def withdrawn (id : Id) (w : World) : Bool :=
  w.shared.db.statusLog.any fun e => e.id == id && e.old == .confirmed && e.new == .cancelled

theorem of_withdrawn {id : Id} (h : withdrawn id w = true) :
    ∃ e ∈ w.shared.db.statusLog, e.id = id ∧ e.old = .confirmed ∧ e.new = .cancelled := by
  obtain ⟨e, he, hc⟩ := List.any_eq_true.mp h
  simp only [Bool.and_eq_true, beq_iff_eq] at hc
  exact ⟨e, he, hc.1.1, hc.1.2, hc.2⟩

/-- A guest cancels a paid booking. -/
theorem cancelled_refund_requested_paid :
    ∃ w, (system Scenario.cfg).Reaches cancelsSquarely (initial Scenario.listings) w ∧
      w.shared.statusOf 5 = some .cancelled ∧
      ∃ j, w.shared.queues.refund.find? 5 = some j ∧ j.data = refund 5 := by
  have hrun : ((system Scenario.cfg).run cancelsSquarely (initial Scenario.listings)
      (paid 5 6 ++ confirm 3 5 ++ .spawn (.cancel 1 5) :: steps 4 5 ++ [.ret 4])).any
      (fun w => cancelReturned 4 5 w && withdrawn 5 w && w.shared.statusOf 5 == some .cancelled) =
      true := by decide
  obtain ⟨w, hr, ht⟩ := Machine.exists_reaches_of_run hrun
  simp only [Bool.and_eq_true, beq_iff_eq] at ht
  obtain ⟨guestId, v, hth⟩ := of_cancelReturned ht.1.1
  exact ⟨w, hr, ht.2, cancelled_refund_requested gateway_unannounced hr hth
    (of_withdrawn ht.1.2)⟩

/-- The request for the refund fails, and the guest cancels again. -/
theorem not_cancelled_refund_requested :
    ¬ ∀ w, (system Scenario.cfg).Reaches anyRequest (initial Scenario.listings) w →
      ∀ (t : Nat) guestId id v, w.threads[t]? = some (.returned (.cancel guestId id) (.ok v)) →
      (∃ e ∈ w.shared.db.statusLog, e.id = id ∧ e.old = .confirmed ∧ e.new = .cancelled) →
      ∃ j, w.shared.queues.refund.find? id = some j := by
  intro h
  have hrun : ((system Scenario.cfg).run anyRequest (initial Scenario.listings)
      (paid 5 6 ++ confirm 3 5 ++ .spawn (.cancel 1 5) :: steps 4 2 ++
        [.step 4 { fault := .before (.other "connection lost") }, .ret 4] ++
        .spawn (.cancel 1 5) :: steps 5 1 ++ [.ret 5])).any
      (fun w => cancelReturned 5 5 w && withdrawn 5 w &&
        (w.shared.queues.refund.find? 5).isNone) = true := by decide
  obtain ⟨w, hr, ht⟩ := Machine.exists_reaches_of_run hrun
  simp only [Bool.and_eq_true, Option.isNone_iff_eq_none] at ht
  obtain ⟨guestId, v, hth⟩ := of_cancelReturned ht.1.1
  obtain ⟨j, hj⟩ := h w hr 5 guestId 5 v hth (of_withdrawn ht.1.2)
  rw [ht.2] at hj
  cases hj

end Runs

end NoOverlap
