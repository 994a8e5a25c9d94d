import NoOverlap.Lifecycle.Atomic

/-!
# Every run is a history of the desk

`bookings_are_atomic` cuts a run in two.  What was asked of the desk up to the cut, and what was
asked after it, is one history of the roster, which shows the database at the cut and at the
end.  A call that had answered by the cut asks nothing after it, and one that had not started
has asked nothing before it: each call takes its effect between its start and its answer.
-/

namespace NoOverlap

open Relational Concurrency

namespace Desk

variable {cfg : Config} {listings : Table Listing} {w w' : World}

namespace Again

/-- A hold is placed, and a second one is refused. -/
def first : List Event :=
  Scenario.place 0 Scenario.stay 5 6 ++ .spawn (.hold 2 Scenario.stay) :: Scenario.steps 1 7 ++
    [.ret 1]

/-- The hold runs out, and the stay is booked by somebody else. -/
def second : List Event := Scenario.expire 2 ++ Scenario.place 3 Scenario.stay 8 9

def refused (w : World) : Bool :=
  match w.threads[(1 : Nat)]? with
  | some (.returned _ (.error e)) => e == Holds.slotTaken
  | _ => false

def booked (w : World) : Bool :=
  match w.threads[(3 : Nat)]? with
  | some (.returned _ (.ok (.reservation v))) => v.id == 8
  | _ => false

end Again

end Desk

end NoOverlap
