import Mathlib.Data.Finset.Order
import NoOverlap.Recovery.Relay

/-!
# The timers bring everything to rest

Whatever has failed and whoever has been killed, the system is never stuck.  The calls that are
still in progress come to an end, the relay hands on what was left in the outbox, and the sweep
of the holds ends every reservation that nobody has paid for.  Nothing but the timers is needed
for it: no request, no delivery of a job, no repair by hand.
-/

namespace NoOverlap

open Relational Concurrency
open Concurrency.Prog
open Seam (Idle)

namespace Recovery

variable {cfg : Config} {listings : Table Listing} {w w' : World}

/-- Every call has come to its end, and none has left a transaction behind. -/
structure Resting (w : World) : Prop where
  ended : ∀ (t : Nat) th, w.threads[t]? = some th → th.over = true
  idle : w.shared.db.transactions.rows = []

/-- No transaction outlives the calls. -/
theorem resting_of_over (hr : (system cfg).Reaches anything (initial listings) w)
    (hover : ∀ (t : Nat) th, w.threads[t]? = some th → th.over = true) : Resting w := by
  refine ⟨hover, List.eq_nil_iff_forall_not_mem.mpr fun tx htx => ?_⟩
  have hidle : Idle tx.tid w.shared := idle_of_over hr fun c p hrunning => by
    cases hover _ _ hrunning
  have hnone := hidle.symm.trans (Table.find?_of_mem htx)
  cases hnone

theorem Resting.snoc (h : Resting w) {c : Call} {r : Except Err Reply} {s : Store}
    (hs : s.db.transactions.rows = []) :
    Resting { shared := s, threads := w.threads ++ [.returned c r] } := by
  refine ⟨fun t th hth => ?_, hs⟩
  rcases getElem?_of_append hth with ⟨-, rfl⟩ | hold
  · rfl
  · exact h.ended t th hold

/-- To hand a result on does nothing. -/
theorem completes_answer {α : Type} {t : Nat} {C : Choice → Prop}
    {Q : Except Err Reply → Store → Prop} {p : Async α} {f : α → Reply} {s : Store}
    (h : Completes (Statement.exec t) C (fun r s' => Q (r.map f) s') p s) :
    Completes (Statement.exec t) C Q (answer p f) s := by
  refine Completes.bind (h.imp fun r s' hq => ?_)
  cases r with
  | ok v => exact hq
  | error e => exact hq

/-- The answer to a call that has nothing to say. -/
theorem completes_answer_none {t : Nat} {C : Choice → Prop} {Q : Store → Prop} {p : Async Unit}
    {s : Store} (h : Completes (Statement.exec t) C (fun r s' => r = .ok () ∧ Q s') p s) :
    Completes (Statement.exec t) C (fun r s' => r = .ok .none ∧ Q s')
      (answer p fun _ => .none) s :=
  completes_answer (h.imp fun _ _ hq => ⟨by rw [hq.1]; rfl, hq.2⟩)

/-! ## The relay -/

/-- `n` passes of the timer. -/
theorem reaches_drained (cfg : Config) {P : Policy} (hspawn : ∀ s, P.spawn .relayTick s = true)
    (hop : ∀ a ch o s, Unfailing ch → P.op a ch o s = true) (hrest : Resting w) (n : Nat) :
    ∃ (w' : World) (nows : List Int), (system cfg).Reaches P w w' ∧ Resting w' ∧
      nows.length = n ∧
      w'.threads = w.threads ++ List.replicate n (.returned .relayTick (.ok .none)) ∧
      w'.shared = nows.foldl passed w.shared := by
  induction n with
  | zero => exact ⟨w, [], .refl, hrest, rfl, by simp, rfl⟩
  | succ n ih =>
    obtain ⟨w', nows, hr, hrest', hlen, hthreads, hshared⟩ := ih
    have hpass : Completes ((system cfg).exec w'.threads.length) Unfailing
        (fun r s' => r = .ok .none ∧ ∃ now, s' = passed w'.shared now)
        ((system cfg).program .relayTick) w'.shared :=
      completes_answer_none (completes_relayTick hrest'.idle)
    obtain ⟨r, s', ⟨rfl, now, rfl⟩, hr'⟩ := hr.call (hspawn _) rfl hpass
      ⟨{}, rfl, fun o s => hop _ _ _ _ rfl⟩
    refine ⟨_, nows ++ [now], hr', hrest'.snoc hrest'.idle, by simp [hlen], ?_, ?_⟩
    · rw [hthreads, List.append_assoc, List.replicate_succ']
    · rw [List.foldl_append, ← hshared]
      rfl

/-- As many passes as there are events are more than enough. -/
theorem Drained.forwarded {s s' : Store} {nows : List Int} (h : Drained s nows s')
    (hlen : nows.length = s.db.backlog.length) :
    ∀ o ∈ s'.db.outbox.rows, o.publishedAt.isSome = true := by
  intro o ho
  have hempty : s'.db.backlog = [] := by
    rw [h.backlog, hlen]
    refine List.drop_eq_nil_of_le ?_
    exact Nat.le_mul_of_pos_left _ (by decide)
  by_cases hp : o.publishedAt.isSome = true
  · exact hp
  · have hpending : o.publishedAt.isNone = true := by simpa using hp
    have hin : o ∈ s'.db.backlog := Table.mem_backlog.mpr ⟨ho, hpending⟩
    rw [hempty] at hin
    cases hin

/-! ## The sweep -/

variable {s : Store} {t : Nat} {late : Int}

/-- Nothing fails, and the clock shows `late`. -/
def At (late : Int) (ch : Choice) : Prop := Unfailing ch ∧ ch.now = late

/-- To announce the reservations leaves the database as it is. -/
theorem completes_announcements (rs : List Reservation) (status : ReservationStatus) :
    Completes (Statement.exec t) (At late) (fun _ s' => s'.db = s.db)
      (rs.forM fun r => publishReservationChanged r.listingId r.id status) s := by
  refine completes_of_uses (A := fun o => ∃ o', o = .redis o') ?_ ?_ rfl
  · rintro ch _ s₁ hch ⟨o, rfl⟩ hdb
    exact ⟨_, _, Statement.exec_of_fault_none hch.1, hdb⟩
  · exact Prog.uses_forM fun r =>
      publishReservationChanged_uses _ _ _ ⟨_, rfl⟩ fun _ => ⟨_, rfl⟩

/-- A sweep so late that every hold has run out. -/
theorem completes_sweepExpiredHolds
    (hlate : ∀ r ∈ s.db.reservations.rows, r.holdExpiresAt < late) :
    Completes (Statement.exec t) (At late) (fun _ s' =>
      (∀ r ∈ s'.db.reservations.rows, r.status ≠ .held) ∧
        s'.db.transactions = s.db.transactions ∧ s'.db.outbox = s.db.outbox)
      sweepExpiredHolds s := by
  refine Completes.op_bind fun ch₁ hch₁ => ⟨.ok ch₁.now, s, Statement.exec_of_fault_none hch₁.1, ?_⟩
  refine Completes.op_bind fun ch₂ hch₂ => ⟨_, _, Statement.exec_of_fault_none hch₂.1, ?_⟩
  refine Completes.op_bind fun ch₃ hch₃ => ⟨.ok ch₃.now, s, Statement.exec_of_fault_none hch₃.1, ?_⟩
  refine Completes.op_bind fun ch₄ hch₄ => ⟨_, _, Statement.exec_of_fault_none hch₄.1, ?_⟩
  refine Completes.bind ((completes_announcements _ _).imp fun r s' h => ?_)
  have hend : (∀ r ∈ s'.db.reservations.rows, r.status ≠ .held) ∧
      s'.db.transactions = s.db.transactions ∧ s'.db.outbox = s.db.outbox := by
    rw [h, hch₃.2]
    refine ⟨fun r hr => ?_, rfl, rfl⟩
    obtain ⟨r₀, hr₀, rfl⟩ := List.mem_map.mp hr
    by_cases hm : (expiredHolds late).matches r₀ = true
    · rw [if_pos hm]
      exact fun h => by cases h
    · rw [if_neg hm]
      intro hheld
      refine hm ?_
      simp [ReservationWhere.matches, expiredHolds, hheld, hlate r₀ hr₀]
  cases r with
  | ok v => exact hend
  | error e => exact hend

/-! ## At rest -/

/-- The timers have nothing left to do, whatever time it is. -/
structure AtRest (w : World) : Prop extends Resting w where
  forwarded : ∀ o ∈ w.shared.db.outbox.rows,
    o.publishedAt.isSome = true ∧ HasJob w.shared o.id
  settled : ∀ r ∈ w.shared.db.reservations.rows, r.status ≠ .held

theorem reaches_swept (cfg : Config) (hrest : Resting w) :
    ∃ w' : World, (system cfg).Reaches calm w w' ∧ Resting w' ∧
      (∀ r ∈ w'.shared.db.reservations.rows, r.status ≠ .held) ∧
      w'.shared.db.outbox = w.shared.db.outbox := by
  obtain ⟨last, hlast⟩ := (w.shared.db.reservations.rows.map (·.holdExpiresAt)).toFinset.exists_le
  have hlate : ∀ r ∈ w.shared.db.reservations.rows, r.holdExpiresAt < last + 1 := by
    intro r hr
    have hle := hlast r.holdExpiresAt (List.mem_toFinset.mpr (List.mem_map_of_mem hr))
    omega
  have hsweep : Completes ((system cfg).exec w.threads.length) (At (last + 1)) (fun _ s' =>
      (∀ r ∈ s'.db.reservations.rows, r.status ≠ .held) ∧
        s'.db.transactions = w.shared.db.transactions ∧ s'.db.outbox = w.shared.db.outbox)
      ((system cfg).program .sweepExpiredHolds) w.shared :=
    completes_answer (completes_sweepExpiredHolds hlate)
  obtain ⟨r, s', ⟨hsettled, htx, houtbox⟩, hr'⟩ := Machine.Reaches.refl.call (P := calm) rfl rfl
    hsweep ⟨{ now := last + 1 }, ⟨rfl, rfl⟩, fun _ _ => rfl⟩
  have hidle : s'.db.transactions.rows = [] := by
    rw [htx]
    exact hrest.idle
  exact ⟨_, hr', hrest.snoc hidle, hsettled, houtbox⟩

/-- From every world that the system can get into, whatever has failed on the way and whoever has
been killed, it comes to rest, without a further request and without a further failure. -/
theorem recovers (hr : (system cfg).Reaches anything (initial listings) w) :
    ∃ w' : World, (system cfg).Reaches calm w w' ∧ AtRest w' := by
  obtain ⟨w₁, hr₁, -, hover⟩ := reaches_over hr
  have hrest₁ := resting_of_over (hr.trans (reaches_anything hr₁)) hover
  obtain ⟨w₂, nows, hr₂, hrest₂, hlen, -, hshared⟩ := reaches_drained cfg (P := calm)
    (fun _ => rfl) (fun _ _ _ _ hch => decide_eq_true hch) hrest₁ w₁.shared.db.backlog.length
  obtain ⟨w₃, hr₃, hrest₃, hsettled, houtbox⟩ := reaches_swept cfg hrest₂
  have hcalm := (hr₁.trans hr₂).trans hr₃
  have hjobs := forwarded_of_reaches (hr.trans (reaches_anything hcalm))
  refine ⟨w₃, hcalm, hrest₃, fun o ho => ?_, hsettled⟩
  have hd : Drained w₁.shared nows w₂.shared := hshared ▸ drained_passes w₁.shared nows
  have hp : o.publishedAt.isSome = true := hd.forwarded hlen o (by rw [← houtbox]; exact ho)
  exact ⟨hp, hjobs.published o ho hp⟩

/-- A hold has been placed, the pass that was to hand its event on was killed with the job in the
queue, and another hold is in the middle of its transaction. -/
def disturbed : List Event :=
  Scenario.place 0 Scenario.stay 1 1 ++ (.spawn .relayTick :: Scenario.steps 1 3) ++ [.kill 1] ++
    .spawn (.hold 2 Scenario.nextStay) :: Scenario.steps 2 4 ++ [.step 2 { id := 2 }]

theorem recovers_disturbed : ∃ w w' : World,
    (system Scenario.cfg).Reaches anything (initial Scenario.listings) w ∧
      outboxUnpublishedRows w.shared.db = 1 ∧ w.shared.db.transactions.rows.length = 1 ∧
      (system Scenario.cfg).Reaches calm w w' ∧ AtRest w' := by
  have hrun : ((system Scenario.cfg).run anything (initial Scenario.listings) disturbed).any
      (fun w => outboxUnpublishedRows w.shared.db == 1 &&
        w.shared.db.transactions.rows.length == 1) = true := by
    decide
  obtain ⟨w, hr, hw⟩ := Machine.exists_reaches_of_run hrun
  obtain ⟨hrows, htx⟩ := Bool.and_eq_true_iff.mp hw
  obtain ⟨w', hcalm, hrest⟩ := recovers hr
  exact ⟨w, w', hr, beq_iff_eq.mp hrows, beq_iff_eq.mp htx, hcalm, hrest⟩

end Recovery

end NoOverlap
