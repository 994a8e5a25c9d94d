import NoOverlap.Data.Dates
import NoOverlap.Model.Booking

/-!
# Dates in the browser

`format.ts` with the two functions of date-fns it rests on, `parseISO` and
`differenceInCalendarDays`, on the two forms in which a date reaches the screens: the
`yyyy-MM-dd` of a picker or a URL, and the timestamp of a reservation.  A `TimeZone` is any
rule that says how far the local clock is ahead of UTC.
-/

namespace NoOverlap

open Calendar

instance (c : Civil) : Decidable c.Valid :=
  decidable_of_iff (1 ≤ c.month ∧ c.month ≤ 12 ∧ 1 ≤ c.day ∧ c.day ≤ daysInMonth c.year c.month)
    ⟨fun h => ⟨h.1, h.2.1, h.2.2.1, h.2.2.2⟩, fun h => ⟨h.1, h.2, h.3, h.4⟩⟩

/-! ## Time zones -/

structure TimeZone where
  /-- The milliseconds by which the local clock is ahead of UTC at an instant. -/
  offset : Int → Int
  /-- The instant that a local date stands for: its midnight, or the nearest to it where the
  clocks skip that. -/
  midnight : Int → Int
  /-- It lies on the day itself, unless there is no such day. -/
  day_midnight : ∀ d, (∃ t, (t + offset t) / msPerDay = d) →
    (midnight d + offset (midnight d)) / msPerDay = d

namespace TimeZone

/-- The local calendar day of an instant. -/
def day (z : TimeZone) (t : Int) : Int := (t + z.offset t) / msPerDay

theorem day_midnight' (z : TimeZone) {d : Int} (h : ∃ t, z.day t = d) : z.day (z.midnight d) = d :=
  z.day_midnight d h

end TimeZone

namespace Stays

/-! ## Reading -/

/-- `new Date(text)` where dates are in UTC. -/
def dateParse (text : String) : JsDate :=
  match scanDate.whole text, scanTimestamp.whole text with
  | some c, _ =>
    if 1 ≤ c.month ∧ c.month ≤ 12 ∧ 1 ≤ c.day ∧ c.day ≤ 31 then some (daysFromCivil c * msPerDay)
    else none
  | none, some (c, ms) =>
    if 1 ≤ c.month ∧ c.month ≤ 12 ∧ 1 ≤ c.day ∧ c.day ≤ 31 then
      some (daysFromCivil c * msPerDay + ms)
    else none
  | none, none => none

/-- A date alone is read as local midnight, a timestamp as the instant it names. -/
def parseISO (z : TimeZone) (iso : String) : JsDate :=
  match scanDate.whole iso, scanTimestamp.whole iso with
  | some c, _ => if c.Valid then some (z.midnight (daysFromCivil c)) else none
  | none, some (c, ms) => if c.Valid then some (daysFromCivil c * msPerDay + ms) else none
  | none, none => none

/-! ## format.ts -/

def weekdayName (d : Int) : String :=
  ["Sun", "Mon", "Tue", "Wed", "Thu", "Fri", "Sat"].getD ((d + 4) % 7).toNat ""

def monthName (month : Int) : String :=
  ["Jan", "Feb", "Mar", "Apr", "May", "Jun", "Jul", "Aug", "Sep", "Oct", "Nov", "Dec"].getD
    (month - 1).toNat ""

/-- `EEE d MMM` of a day. -/
def shortDate (d : Int) : String :=
  let c := civilFromDays d
  weekdayName d ++ " " ++ toString c.day ++ " " ++ monthName c.month

def formatDate (z : TimeZone) (iso : String) : Option String :=
  (parseISO z iso).map fun t => shortDate (z.day t)

def toDateParam (z : TimeZone) (date : Int) : String := isoDate (civilFromDays (z.day date))

def differenceInCalendarDays (z : TimeZone) (later earlier : JsDate) : Option Int :=
  match later, earlier with
  | some b, some a => some (z.day b - z.day a)
  | _, _ => none

def nightsBetween (z : TimeZone) (checkIn checkOut : String) : Option Int :=
  differenceInCalendarDays z (parseISO z checkOut) (parseISO z checkIn)

/-- The total that the page of a listing shows: nothing before both dates are picked. -/
def totalCents (z : TimeZone) (checkIn checkOut : String) (nightlyPriceCents : Int) : Option Int :=
  let nights := if checkIn ≠ "" ∧ checkOut ≠ "" then nightsBetween z checkIn checkOut else some 0
  nights.map fun n => n * nightlyPriceCents

example : shortDate 20666 = "Sat 1 Aug" := by decide

/-! ## What is written is read back -/

variable {z : TimeZone} {c : Civil} {t : Int}

theorem dateParse_isoDate (hc : c.Valid) (hw : c.Written) :
    dateParse (isoDate c) = some (daysFromCivil c * msPerDay) := by
  have hday : c.day ≤ 31 := by
    have hle := hc.day_le_of_month
    omega
  simp only [dateParse, readDate_isoDate hc hw]
  rw [if_pos ⟨hc.month_pos, hc.month_le, hc.day_pos, hday⟩]

theorem parseISO_isoDate (hc : c.Valid) (hw : c.Written) :
    parseISO z (isoDate c) = some (z.midnight (daysFromCivil c)) := by
  simp only [parseISO, readDate_isoDate hc hw]
  rw [if_pos hc]

/-- A timestamp does not end with its date. -/
theorem readDate_toISOString (hw : (civil t).Written) : scanDate.whole (toISOString t) = none := by
  have hvalid : (civil t).Valid := valid_civilFromDays _
  rw [Scanner.whole, toISOString, String.toList_ofList, scan_dateChars hvalid hw]

theorem parseISO_toISOString (hw : (civil t).Written) : parseISO z (toISOString t) = some t := by
  have hvalid : (civil t).Valid := valid_civilFromDays _
  have hdays : daysFromCivil (civil t) = t / msPerDay := daysFromCivil_civilFromDays _
  have hms : (((t % msPerDay).toNat : Nat) : Int) = t % msPerDay :=
    Int.toNat_of_nonneg (Int.emod_nonneg t (by decide))
  simp only [parseISO, readDate_toISOString hw, readTimestamp_toISOString hw]
  rw [if_pos hvalid, hdays, hms, Int.mul_comm, Int.mul_ediv_add_emod]

/-- The day that a date stands for in the zone, where the zone has it. -/
theorem day_of_isoDate (hc : c.Valid) (hw : c.Written) (hz : ∃ t, z.day t = daysFromCivil c) :
    ∃ a, parseISO z (isoDate c) = some a ∧ z.day a = daysFromCivil c :=
  ⟨_, parseISO_isoDate hc hw, z.day_midnight' hz⟩

theorem isoDate_ne_empty (c : Civil) : isoDate c ≠ "" := by
  intro h
  have hlist : dateChars c = [] := by
    have htext := congrArg String.toList h
    rwa [isoDate, String.toList_ofList] at htext
  exact List.append_ne_nil_of_right_ne_nil _ (List.cons_ne_nil _ _) hlist

end Stays

end NoOverlap
