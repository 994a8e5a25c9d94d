import NoOverlap.Stays.Shown

/-!
# The dates that are offered

`DateRangeField` offers every day that is not before today, and its today is the local day of the
browser.  `hold` refuses a check-in whose UTC midnight has passed.  The two agree only where the
local day is ahead of the day in UTC: everywhere else today is offered and refused, and west of
UTC in the evening tomorrow as well.
-/

namespace NoOverlap

namespace Stays

open Calendar Concurrency

/-! ## DateRangeField -/

def startOfToday (z : TimeZone) (now : Int) : Int := z.midnight (z.day now)

/-- The matcher `{ before }` of the day picker. -/
def isBefore (z : TimeZone) (before date : Int) : Bool :=
  (differenceInCalendarDays z (some before) (some date)).any fun n => decide (0 < n)

/-- `disabled={{ before: startOfToday() }}`. -/
def disabled (z : TimeZone) (now date : Int) : Bool := isBefore z (startOfToday z now) date

/-- What a selection hands over: nothing for a date that is not picked. -/
def onSelect (z : TimeZone) (checkIn checkOut : Option Int) : String × String :=
  ((checkIn.map (toDateParam z)).getD "", (checkOut.map (toDateParam z)).getD "")

/-- The body of the hold for what was selected. -/
def request (listingId : Id) (range : String × String) : CreateReservationDto :=
  { listingId := listingId, checkIn := dateParse range.1, checkOut := dateParse range.2 }

/-- The year of a date has the four digits of `yyyy-MM-dd`. -/
structure Formed (z : TimeZone) (date : Int) : Prop where
  pos : 1 ≤ (civilFromDays (z.day date)).year
  le : (civilFromDays (z.day date)).year ≤ 9999

instance (z : TimeZone) (date : Int) : Decidable (Formed z date) :=
  decidable_of_iff
    (1 ≤ (civilFromDays (z.day date)).year ∧ (civilFromDays (z.day date)).year ≤ 9999)
    ⟨fun h => ⟨h.1, h.2⟩, fun h => ⟨h.1, h.2⟩⟩

/-- Two days that can be picked at this instant. -/
structure Offered (z : TimeZone) (now checkIn checkOut : Int) : Prop where
  openIn : disabled z now checkIn = false
  openOut : disabled z now checkOut = false
  ordered : z.day checkIn < z.day checkOut
  formedIn : Formed z checkIn
  formedOut : Formed z checkOut

/-! ## The time checks of hold -/

/-- A program whose first answer is the time. -/
def atInstant {α : Type} (now : Int) : Async α → Async α
  | .call (.host .newDate) k => k (.ok now)
  | p => p

/-- It goes on to the listing. -/
def PassesTimeChecks (holdTtlMs : Int) (guestId : Id) (dto : CreateReservationDto) (now : Int) :
    Prop :=
  ∃ k, atInstant now (hold holdTtlMs guestId dto) = .call (.db (.listingFindUnique dto.listingId)) k

/-- It ends there. -/
def RefusedAs (message : String) (holdTtlMs : Int) (guestId : Id) (dto : CreateReservationDto)
    (now : Int) : Prop :=
  atInstant now (hold holdTtlMs guestId dto) =
    .done (.error (.app .validationFailed (some message)))

section Checks

variable {ttl now : Int} {guestId : Id} {dto : CreateReservationDto}

theorem passes_of_checks (ho : dto.checkOut.le dto.checkIn = false)
    (hi : dto.checkIn.lt (some now) = false) : PassesTimeChecks ttl guestId dto now := by
  refine ⟨?_, ?_⟩
  rotate_left
  · change (if dto.checkOut.le dto.checkIn then _ else _ : Async Reservation) = _
    rw [ho, hi]
    rfl

theorem refused_of_checks (ho : dto.checkOut.le dto.checkIn = false)
    (hi : dto.checkIn.lt (some now) = true) :
    RefusedAs "checkIn must be in the future." ttl guestId dto now := by
  change (if dto.checkOut.le dto.checkIn then _ else _ : Async Reservation) = _
  rw [ho, hi]
  rfl

theorem not_passes_of_refused {message : String} (h : RefusedAs message ttl guestId dto now) :
    ¬PassesTimeChecks ttl guestId dto now := by
  rintro ⟨k, hk⟩
  rw [RefusedAs, hk] at h
  cases h

end Checks

/-! ## What is offered and accepted -/

variable {z : TimeZone} {now i o : Int}

theorem day_startOfToday (z : TimeZone) (now : Int) : z.day (startOfToday z now) = z.day now :=
  z.day_midnight' ⟨now, rfl⟩

theorem disabled_eq_false (date : Int) : disabled z now date = false ↔ z.day now ≤ z.day date := by
  simp only [disabled, isBefore, differenceInCalendarDays, Option.any_some, day_startOfToday,
    decide_eq_false_iff_not]
  omega

theorem dateParse_toDateParam (h : Formed z i) :
    dateParse (toDateParam z i) = some (z.day i * msPerDay) := by
  have hwritten : (civilFromDays (z.day i)).Written := ⟨by have := h.pos; omega, h.le⟩
  rw [toDateParam, dateParse_isoDate (valid_civilFromDays _) hwritten, daysFromCivil_civilFromDays]

/-- The dates that reach the server are the UTC midnights of the days that were picked. -/
theorem request_of_offered (h : Offered z now i o) (listingId : Id) :
    request listingId (onSelect z (some i) (some o)) =
      { listingId := listingId, checkIn := some (z.day i * msPerDay),
        checkOut := some (z.day o * msPerDay) } := by
  simp only [request, onSelect, Option.map_some, Option.getD_some,
    dateParse_toDateParam h.formedIn, dateParse_toDateParam h.formedOut]

/-- The check-out is the later midnight. -/
theorem out_not_le (h : z.day i < z.day o) :
    JsDate.le (some (z.day o * msPerDay)) (some (z.day i * msPerDay)) = false := by
  refine decide_eq_false ?_
  unfold msPerDay
  omega

/-- The day of the server's comparison is the one in UTC. -/
theorem accepted_iff (h : Offered z now i o) (ttl : Int) (guestId listingId : Id) :
    PassesTimeChecks ttl guestId (request listingId (onSelect z (some i) (some o))) now ↔
      now ≤ z.day i * msPerDay := by
  have hout := out_not_le h.ordered
  rw [request_of_offered h]
  by_cases hpast : z.day i * msPerDay < now
  · refine iff_of_false (not_passes_of_refused (refused_of_checks hout ?_)) (by omega)
    exact decide_eq_true hpast
  · refine iff_of_true (passes_of_checks hout ?_) (by omega)
    exact decide_eq_false hpast

theorem refused_of_past (h : Offered z now i o) (hpast : z.day i * msPerDay < now) (ttl : Int)
    (guestId listingId : Id) : RefusedAs "checkIn must be in the future." ttl guestId
      (request listingId (onSelect z (some i) (some o))) now := by
  rw [request_of_offered h]
  exact refused_of_checks (out_not_le h.ordered) (decide_eq_true hpast)

/-- The local day is ahead of the day in UTC, or both begin at this instant. -/
def Ahead (z : TimeZone) (now : Int) : Prop :=
  msPerDay ≤ now % msPerDay + z.offset now ∨ now % msPerDay = 0 ∧ 0 ≤ z.offset now

theorem ahead_iff (z : TimeZone) (now : Int) : Ahead z now ↔ now ≤ z.day now * msPerDay := by
  unfold Ahead TimeZone.day msPerDay
  omega

/-- Every stay that is offered passes the checks of `hold` at the same instant. -/
def Accepted (z : TimeZone) (now : Int) : Prop :=
  ∀ i o, Offered z now i o → ∀ ttl guestId listingId,
    PassesTimeChecks ttl guestId (request listingId (onSelect z (some i) (some o))) now

/-- A stay passes, and is not refused, where the UTC midnight of its first day has not passed.
Where a stay from today is offered at all, all pass where the local day is ahead of UTC. -/
theorem offered_is_accepted_iff (z : TimeZone) (now : Int) :
    (∀ i o, Offered z now i o → ∀ ttl guestId listingId,
      (PassesTimeChecks ttl guestId (request listingId (onSelect z (some i) (some o))) now ↔
        now ≤ z.day i * msPerDay)) ∧
    ((∃ o, Offered z now (startOfToday z now) o) → (Accepted z now ↔ Ahead z now)) := by
  refine ⟨fun i o h => accepted_iff h, ?_⟩
  rintro ⟨o, htoday⟩
  rw [ahead_iff]
  constructor
  · intro hall
    have hpass := (accepted_iff htoday 0 0 0).mp (hall _ o htoday 0 0 0)
    rwa [day_startOfToday] at hpass
  · intro hahead i o' h ttl guestId listingId
    have hlater : z.day now ≤ z.day i := (disabled_eq_false i).mp h.openIn
    refine (accepted_iff h ttl guestId listingId).mpr ?_
    unfold msPerDay at hahead ⊢
    omega

/-- There is a stay to offer where tomorrow is a date of the form. -/
theorem exists_offered (now : Int) (hz : ∀ d, ∃ t, z.day t = d)
    (htoday : 1 ≤ (civilFromDays (z.day now)).year) (hle : (civilFromDays (z.day now)).year ≤ 9999)
    (htomorrow : 1 ≤ (civilFromDays (z.day now + 1)).year)
    (hle' : (civilFromDays (z.day now + 1)).year ≤ 9999) :
    ∃ o, Offered z now (startOfToday z now) o := by
  have hday : z.day (z.midnight (z.day now + 1)) = z.day now + 1 := z.day_midnight' (hz _)
  have hstart := day_startOfToday z now
  refine ⟨z.midnight (z.day now + 1), ?_, ?_, ?_, ?_, ?_⟩
  · rw [disabled_eq_false, hstart]
  · rw [disabled_eq_false, hday]
    omega
  · rw [hstart, hday]
    omega
  · exact ⟨by rwa [hstart], by rwa [hstart]⟩
  · exact ⟨by rwa [hday], by rwa [hday]⟩

namespace Scenario

/-- Nothing ahead of UTC. -/
def utc : TimeZone :=
  { offset := fun _ => 0, midnight := fun d => d * msPerDay,
    day_midnight := fun d _ => by rw [Int.add_zero]; exact midnight_div d }

/-- The stay that begins `n` days after today, for two nights. -/
def fromToday (z : TimeZone) (now n : Int) : Int × Int :=
  (z.midnight (z.day now + n), z.midnight (z.day now + n + 2))

end Scenario

/-- In Tokyo, at eight in the morning of the first of August, it is still July in UTC. -/
theorem offered_is_accepted_tokyo : Accepted Scenario.tokyo 1785538800000 := by
  have hdays : ∀ d, ∃ t, Scenario.tokyo.day t = d := fun d => ⟨_, Scenario.tokyo_day d⟩
  have hsome := exists_offered 1785538800000 hdays (by decide) (by decide) (by decide) (by decide)
  exact ((offered_is_accepted_iff Scenario.tokyo 1785538800000).2 hsome).mpr (.inl (by decide))

/-- At noon in UTC on the first of August 2026 today is offered and refused; in New York at nine in
the evening before, which is past midnight in UTC, tomorrow is. -/
theorem not_offered_is_accepted :
    (∃ i o, Offered Scenario.utc 1785585600000 i o ∧
      onSelect Scenario.utc (some i) (some o) = ("2026-08-01", "2026-08-03") ∧
      RefusedAs "checkIn must be in the future." 900000 1
        (request 7 (onSelect Scenario.utc (some i) (some o))) 1785585600000) ∧
    ¬Accepted Scenario.utc 1785585600000 ∧
    ∃ i o, Offered Scenario.newYork 1785546000000 i o ∧
      Scenario.newYork.day 1785546000000 < Scenario.newYork.day i ∧
      onSelect Scenario.newYork (some i) (some o) = ("2026-08-01", "2026-08-03") ∧
      RefusedAs "checkIn must be in the future." 900000 1
        (request 7 (onSelect Scenario.newYork (some i) (some o))) 1785546000000 := by
  have hutc : Offered Scenario.utc 1785585600000 (Scenario.fromToday Scenario.utc 1785585600000 0).1
      (Scenario.fromToday Scenario.utc 1785585600000 0).2 :=
    ⟨by decide, by decide, by decide, by decide, by decide⟩
  have hnewYork : Offered Scenario.newYork 1785546000000
      (Scenario.fromToday Scenario.newYork 1785546000000 1).1
      (Scenario.fromToday Scenario.newYork 1785546000000 1).2 :=
    ⟨by decide, by decide, by decide, by decide, by decide⟩
  have hrefused := refused_of_past hutc (by decide) 900000 1 7
  have hrefused' := refused_of_past hnewYork (by decide) 900000 1 7
  refine ⟨⟨_, _, hutc, by decide, hrefused⟩, fun hall => ?_, _, _, hnewYork, by decide, by decide,
    hrefused'⟩
  exact not_passes_of_refused hrefused (hall _ _ hutc 900000 1 7)

end Stays

end NoOverlap
