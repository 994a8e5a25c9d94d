import Mathlib.Data.Fintype.EquivFin
import NoOverlap.Concurrency.Progress
import NoOverlap.Recovery.Turns

/-!
# Every call comes to an end

Without a failure, and without killing anybody.  A statement waits only where it inserts a
reservation in whose way another transaction has inserted one.  So the scheduler first lets
every thread run until its transaction has inserted nothing: such a thread does not insert on
the way, so it never waits.  From then on nobody waits for anybody, and the threads can be run
to their answers one by one.
-/

namespace NoOverlap

open Relational Concurrency
open Seam (Idle)

/-- No request, no failure and no crash: what has begun goes on, and the timers fire. -/
def calm : Policy :=
  { spawn := fun c _ => match c with
      | .relayTick | .sweepExpiredHolds | .sweepCompletedStays => true
      | _ => false
    op := fun _ ch _ _ => ch.fault = .none
    kill := fun _ _ _ => false }

namespace Recovery

/-! ## Statements that need not wait -/

theorem exists_not_mem (L : List Id) : ∃ id, id ∉ L := by
  obtain ⟨id, hid⟩ := Infinite.exists_notMem_finset L.toFinset
  exact ⟨id, by simpa using hid⟩

theorem exists_freshReservationId (d : Database) : ∃ id, d.freshReservationId id = true := by
  obtain ⟨id, hid⟩ := exists_not_mem
    (d.reservations.rows.map (·.id) ++
      (d.transactions.rows.flatMap (·.reservations)).map (·.id))
  simp only [List.mem_append, List.mem_map, List.mem_flatMap, not_or, not_exists, not_and] at hid
  refine ⟨id, Bool.and_eq_true_iff.mpr ⟨?_, List.all_eq_true.mpr fun tx htx => ?_⟩⟩
  · rw [Option.isNone_iff_eq_none]
    exact Table.find?_eq_none.mpr hid.1
  · refine List.all_eq_true.mpr fun r hr => ?_
    simpa using hid.2 r ⟨tx, htx, hr⟩

theorem exists_freshOutboxId (d : Database) : ∃ id, d.freshOutboxId id = true := by
  obtain ⟨id, hid⟩ := exists_not_mem
    (d.outbox.rows.map (·.id) ++ (d.transactions.rows.flatMap (·.outbox)).map (·.id))
  simp only [List.mem_append, List.mem_map, List.mem_flatMap, not_or, not_exists, not_and] at hid
  refine ⟨id, Bool.and_eq_true_iff.mpr ⟨?_, List.all_eq_true.mpr fun tx htx => ?_⟩⟩
  · rw [Option.isNone_iff_eq_none]
    exact Table.find?_eq_none.mpr hid.1
  · refine List.all_eq_true.mpr fun o ho => ?_
    simpa using hid.2 o ⟨tx, htx, ho⟩

/-- No other transaction has inserted anything. -/
def Unopposed (t : Nat) (d : Database) : Prop := ∀ u, u ≠ t → Blank u d

theorem reservationCreate_unopposed {d : Database} {t : Nat} (h : Unopposed t d) (now : Int)
    (data : ReservationData) : ∃ id res, d.reservationCreate t id now data = some res := by
  obtain ⟨id, hid⟩ := exists_freshReservationId d
  refine ⟨id, ?_⟩
  unfold Database.reservationCreate
  split
  · next tx checkIn checkOut price holdExpiresAt _ _ _ _ _ =>
    have hnobody : ∀ row : Reservation, (d.transactions.rows.any fun tx' =>
        tx'.tid != t && tx'.reservations.any row.conflicts) = false := by
      intro row
      refine List.any_eq_false.mpr fun tx' htx' hboth => ?_
      obtain ⟨hne, hany⟩ := Bool.and_eq_true_iff.mp hboth
      have hempty : tx'.reservations = [] :=
        h tx'.tid (by simpa using hne) tx' (Table.find?_of_mem htx')
      rw [hempty] at hany
      cases hany
    simp only [hnobody, hid, Bool.not_true, Bool.false_eq_true, if_false]
    split_ifs <;> exact ⟨_, rfl⟩
  · exact ⟨_, rfl⟩

theorem outboxCreate_fresh (d : Database) (t : Nat) (now : Int) (aggregateId : Id)
    (payload : BookingHeld) : ∃ id res, d.outboxCreate t id now aggregateId payload = some res := by
  obtain ⟨id, hid⟩ := exists_freshOutboxId d
  refine ⟨id, ?_⟩
  unfold Database.outboxCreate
  split
  · exact ⟨_, rfl⟩
  · exact ⟨_, by rw [hid]; rfl⟩

/-- Only an insert can have to wait. -/
theorem exists_choice {t : Nat} {o : Statement} {s : Store}
    (h : Inserts o → Unopposed t s.db) :
    ∃ ch r s', ch.fault = .none ∧ o.exec t ch s = some (r, s') := by
  have hok : ∀ (ch : Choice) {r s'}, ch.fault = .none → o.perform t ch s = some (r, s') →
      ∃ ch r s', ch.fault = .none ∧ o.exec t ch s = some (r, s') := by
    intro ch r s' hf hp
    exact ⟨ch, r, s', hf, (Statement.exec_of_fault_none hf).trans hp⟩
  cases o with
  | db o =>
    have hdb : (∃ id res, Database.perform t id 0 o s.db = some res) →
        ∃ ch r s', ch.fault = .none ∧ (Statement.db o).exec t ch s = some (r, s') := by
      rintro ⟨id, res, hres⟩
      refine hok { id := id } rfl (?_ : _ = some (res.1, { s with db := res.2 }))
      simp only [Statement.perform, hres, Option.map_some]
    cases o with
    | reservationCreate data => exact hdb (reservationCreate_unopposed (h trivial) 0 data)
    | outboxCreate aggregateId payload =>
      exact hdb (outboxCreate_fresh s.db t 0 aggregateId payload)
    | _ => exact hdb ⟨0, _, rfl⟩
  | host o =>
    cases o with
    | mathRandom =>
      have hdraw : (Statement.host .mathRandom).perform t {} s = some (.ok 0, s) := by
        simp [Statement.perform]
      exact hok {} rfl hdraw
    | recordAttempt outcome => cases outcome <;> exact hok {} rfl rfl
    | _ => exact hok {} rfl rfl
  | _ => exact hok {} rfl rfl

/-! ## The schedule -/

variable {cfg : Config} {listings : Table Listing} {w w' : World}

theorem reaches_anything (h : (system cfg).Reaches calm w w') :
    (system cfg).Reaches anything w w' :=
  Machine.Reaches.relax (fun _ _ _ => rfl) (fun _ _ _ _ _ => rfl) (fun _ _ _ _ => rfl) h

theorem blank_of_idle {t : Nat} {s : Store} (h : Idle t s) : Blank t s.db := by
  intro tx ht
  rw [h] at ht
  cases ht

theorem blank_of_exec {t u : Nat} {ch : Choice} {o : Statement} {r : Except Err o.Resp}
    {s s' : Store} (hx : o.exec t ch s = some (r, s')) (hu : u ≠ t) (h : Blank u s.db) :
    Blank u s'.db := by
  intro tx ht
  rw [Seam.transaction_ne (a := ⟨t, .relayTick⟩) hx hu] at ht
  exact h tx ht

/-- The threads run until their transactions have inserted nothing. -/
theorem reaches_blank (hr : (system cfg).Reaches anything (initial listings) w) :
    ∃ w' : World, (system cfg).Reaches calm w w' ∧ w'.threads.length = w.threads.length ∧
      ∀ u, Blank u w'.shared.db := by
  have hstep : ∀ (t : Nat) (w₁ : World), t < w.threads.length → (system cfg).Reaches calm w w₁ →
      w₁.threads.length = w.threads.length → (∀ u, u < t → Blank u w₁.shared.db) →
      ∃ w' : World, (system cfg).Reaches calm w w' ∧ w'.threads.length = w.threads.length ∧
        ∀ u, u < t + 1 → Blank u w'.shared.db := by
    intro t w₁ ht hr₁ hlen hblank
    have hreach := hr.trans (reaches_anything hr₁)
    have hth : w₁.threads[t]? = some w₁.threads[t] := List.getElem?_eq_getElem (by omega)
    generalize w₁.threads[t] = th at hth
    by_cases hover : th.over = true
    · refine ⟨w₁, hr₁, hlen, fun u hu => ?_⟩
      by_cases hut : u = t
      · subst hut
        refine blank_of_idle (idle_of_over hreach fun c p hrunning => ?_)
        rw [hth] at hrunning
        cases hrunning
        cases hover
      · exact hblank u (by omega)
    · cases th with
      | returned | killed => exact (hover rfl).elim
      | running c p =>
        obtain ⟨p', s', hr', hk, hend⟩ := hr₁.until (S := fun s => Blank t s.db)
          (K := fun s => ∀ u, u < t → Blank u s.db) (by
            intro w₂ o k hr₂ ht₂ hk hstop
            have hno : ¬Inserts o := fun ho =>
              hstop (blank_of_insert (hr.trans (reaches_anything hr₂)) ht₂ ho)
            obtain ⟨ch, r, s', hfault, hx⟩ := exists_choice (t := t) (s := w₂.shared)
              fun ho => (hno ho).elim
            refine ⟨ch, r, s', by simp [calm, hfault], hx, fun u hu => ?_⟩
            exact blank_of_exec hx (by omega) (hk u hu)) hth hblank
        refine ⟨_, hr', by simp [hlen], fun u hu => ?_⟩
        by_cases hut : u = t
        · subst hut
          rcases hend with hstop | ⟨r, rfl⟩
          · exact hstop
          · have hlt : u < w₁.threads.length := by omega
            exact blank_of_idle (idle_of_done (hr.trans (reaches_anything hr'))
              (List.getElem?_set_self hlt))
        · exact hk u (by omega)
  obtain ⟨w', hr', hlen, hblank⟩ := Machine.reaches_each
    (A := fun t (w₁ : World) => ∀ u, u < t → Blank u w₁.shared.db) (fun u hu => by omega) hstep rfl
  refine ⟨w', hr', hlen, fun u => ?_⟩
  by_cases hu : u < w.threads.length
  · exact hblank u hu
  · refine blank_of_idle (idle_of_over (hr.trans (reaches_anything hr')) fun c p hrunning => ?_)
    have hlt := (List.getElem?_eq_some_iff.mp hrunning).1
    omega

/-- From any reachable world the calls in progress can all be brought to their end. -/
theorem reaches_over (hr : (system cfg).Reaches anything (initial listings) w) :
    ∃ w' : World, (system cfg).Reaches calm w w' ∧ w'.threads.length = w.threads.length ∧
      ∀ (t : Nat) th, w'.threads[t]? = some th → th.over = true := by
  obtain ⟨w₀, hr₀, hlen₀, hblank₀⟩ := reaches_blank hr
  have hreach₀ := hr.trans (reaches_anything hr₀)
  have hstep : ∀ (t : Nat) (w₁ : World), t < w₀.threads.length → (system cfg).Reaches calm w₀ w₁ →
      w₁.threads.length = w₀.threads.length → ((∀ u, Blank u w₁.shared.db) ∧
        ∀ (u : Nat) th, u < t → w₁.threads[u]? = some th → th.over = true) →
      ∃ w' : World, (system cfg).Reaches calm w₀ w' ∧ w'.threads.length = w₀.threads.length ∧
        (∀ u, Blank u w'.shared.db) ∧
          ∀ (u : Nat) th, u < t + 1 → w'.threads[u]? = some th → th.over = true := by
    rintro t w₁ ht hr₁ hlen ⟨hblank, hover⟩
    have hth : w₁.threads[t]? = some w₁.threads[t] := List.getElem?_eq_getElem (by omega)
    generalize w₁.threads[t] = th at hth
    by_cases hdone : th.over = true
    · refine ⟨w₁, hr₁, hlen, hblank, fun u thu hu hthu => ?_⟩
      by_cases hut : u = t
      · subst hut
        rw [hth] at hthu
        cases hthu
        exact hdone
      · exact hover u thu (by omega) hthu
    · cases th with
      | returned | killed => exact (hdone rfl).elim
      | running c p =>
        obtain ⟨r, s', hr', hk⟩ := hr₁.finish (K := fun s => Unopposed t s.db) (by
            intro w₂ o k hr₂ ht₂ hk
            obtain ⟨ch, r, s', hfault, hx⟩ := exists_choice (o := o) fun _ => hk
            refine ⟨ch, r, s', by simp [calm, hfault], hx, fun u hu => ?_⟩
            exact blank_of_exec hx hu (hk u hu)) (fun r s hk => by
            have hdb : ((system cfg).returned t c r s).db = s.db := returned_db t c r s
            rw [hdb]
            exact hk) hth (fun u _ => hblank u)
        have hself : (w₁.threads.set t (.returned c r))[t]? = some (.returned c r) :=
          List.getElem?_set_self (by omega)
        refine ⟨_, hr', by simp [hlen], fun u => ?_, fun u thu hu hthu => ?_⟩
        · by_cases hut : u = t
          · subst hut
            have hreach := hreach₀.trans (reaches_anything hr')
            refine blank_of_idle (idle_of_over hreach fun c p hp => ?_)
            cases hself.symm.trans hp
          · exact hk u hut
        · by_cases hut : u = t
          · subst hut
            cases hself.symm.trans hthu
            rfl
          · refine hover u thu (by omega) ?_
            exact (List.getElem?_set_ne (Ne.symm hut)).symm.trans hthu
  obtain ⟨w', hr', hlen, -, hover⟩ := Machine.reaches_each
    (A := fun t (w₁ : World) => (∀ u, Blank u w₁.shared.db) ∧
      ∀ (u : Nat) th, u < t → w₁.threads[u]? = some th → th.over = true)
    ⟨hblank₀, fun u th hu => by omega⟩ hstep rfl
  refine ⟨w', hr₀.trans hr', hlen.trans hlen₀, fun t th ht => hover t th ?_ ht⟩
  have hlt := (List.getElem?_eq_some_iff.mp ht).1
  omega

end Recovery

end NoOverlap
