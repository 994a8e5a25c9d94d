import Mathlib
import NoOverlap.Lifecycle.Apart

/-!
# No double booking

The stays of the active reservations of a listing, as sets of instants.
-/

namespace NoOverlap

open Relational Concurrency

theorem Reservation.disjoint_of_separate {r r' : Reservation} (h : r.Separate r')
    (hl : r.listingId = r'.listingId) (ha : r.status.active = true)
    (ha' : r'.status.active = true) :
    Disjoint (Set.Ico r.checkIn r.checkOut) (Set.Ico r'.checkIn r'.checkOut) := by
  have hc := h.2
  simp only [conflicts, ha, ha', hl, beq_self_eq_true, Bool.true_and, Bool.and_self,
    rangesIntersect, decide_eq_false_iff_not, not_lt] at hc
  exact Set.Ico_disjoint_Ico.mpr hc

variable {cfg : Config} {listings : Table Listing} {w : World}

/-- In every reachable state, the stays of two active reservations of one
listing are disjoint. -/
theorem no_overlapping_active_reservations
    (hr : (system cfg).Reaches anything (initial listings) w) :
    ∀ r ∈ w.shared.db.reservations.rows, ∀ r' ∈ w.shared.db.reservations.rows, r ≠ r' →
      r.listingId = r'.listingId → r.status.active = true → r'.status.active = true →
      Disjoint (Set.Ico r.checkIn r.checkOut) (Set.Ico r'.checkIn r'.checkOut) := by
  intro r hm r' hm' hne hl ha ha'
  have h := (List.pairwise_append.mp (apart_of_reaches hr).reservations).1
  exact Reservation.disjoint_of_separate (h.forall hm hm' hne) hl ha ha'

/-- Two stays of one listing, back to back. -/
theorem no_overlapping_active_reservations_adjacent :
    ∃ w, (system Scenario.cfg).Reaches anything (initial Scenario.listings) w ∧
      (w.shared.db.reservations.rows.filter (·.status.active)).map (·.id) = [5, 8] ∧
      ∀ r ∈ w.shared.db.reservations.rows, ∀ r' ∈ w.shared.db.reservations.rows, r ≠ r' →
        r.listingId = r'.listingId → r.status.active = true → r'.status.active = true →
        Disjoint (Set.Ico r.checkIn r.checkOut) (Set.Ico r'.checkIn r'.checkOut) := by
  have hrun : ((system Scenario.cfg).run anything (initial Scenario.listings)
      (Scenario.place 0 Scenario.stay 5 6 ++ Scenario.place 1 Scenario.nextStay 8 9)).any
      (fun w => (w.shared.db.reservations.rows.filter (·.status.active)).map (·.id) ==
        [5, 8]) = true := by decide
  obtain ⟨w, hr, ht⟩ := Machine.exists_reaches_of_run hrun
  exact ⟨w, hr, beq_iff_eq.mp ht, no_overlapping_active_reservations hr⟩

end NoOverlap
