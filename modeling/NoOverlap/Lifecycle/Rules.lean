import NoOverlap.Concurrency.RelyGuarantee
import NoOverlap.Lifecycle.Footprint

/-!
# How the programs are walked

Rules for the parts of the programs that every discipline meets: the reply of a call,
and the decisions of `cancel` between its read and its write.
-/

namespace NoOverlap

open Concurrency RelyGuarantee

variable {D : RelyGuarantee Store Call Statement.Resp Err Reply} {a : Agent} {s : Store}

/-- A promise about the store, not about the reply. -/
theorem safe_answer {α : Type} {K : Store → Prop} {p : Async α} {f : α → Reply}
    (hp : D.Safe a (fun _ => K) p s) : D.Safe a (fun _ => K) (answer p f) s :=
  Safe.seq hp fun _ _ h => h

/-- A cancel writes if it has seen a hold or a confirmation. -/
theorem safe_cancelSeen {Q : Except Err Reservation → Store → Prop} {id : Id}
    {seen : ReservationStatus} (herr : ∀ e, Q (.error e) s)
    (hwrite : seen = .held ∨ seen = .confirmed → D.Safe a Q
      (prisma.reservationUpdate id .cancelled seen >>= compensate id (seen == .confirmed)) s) :
    D.Safe a Q (cancelSeen id seen) s := by
  unfold cancelSeen assertTransition
  by_cases hl : ReservationStatus.cancelled ∈ allowedTransitions seen
  · rw [if_pos hl]
    exact hwrite (held_or_confirmed_of_cancel hl)
  · rw [if_neg hl]
    exact herr _

/-- What follows the read of a cancel. -/
theorem cont_cancel {Q : Except Err Reservation → Store → Prop} {id : Id}
    {r : Except Err (Option Reservation)} (herr : ∀ e, Q (.error e) s)
    (hdone : ∀ current, r = .ok (some current) → current.status = .cancelled → Q (.ok current) s)
    (hwrite : ∀ current, r = .ok (some current) →
      current.status = .held ∨ current.status = .confirmed → D.Safe a Q
        (prisma.reservationUpdate id .cancelled current.status >>=
          compensate id (current.status == .confirmed)) s) :
    D.Cont a (D.Cont a Q fun current =>
        if current.status = .cancelled then pure current else cancelSeen id current.status)
      (fun r => match r with
        | none => throw (.app .notFound none)
        | some r => pure r) r s := by
  cases r with
  | error e => exact herr e
  | ok r =>
    cases r with
    | none => exact herr _
    | some current =>
      simp only [cont_ok, safe_pure]
      by_cases hc : current.status = .cancelled
      · rw [if_pos hc]
        exact hdone current rfl hc
      · rw [if_neg hc]
        exact safe_cancelSeen herr (hwrite current rfl)

end NoOverlap
