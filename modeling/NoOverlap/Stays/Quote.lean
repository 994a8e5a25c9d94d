import NoOverlap.Stays.Format
import NoOverlap.Stays.Nights

/-!
# The quote is the price

The server counts the UTC midnights of a stay, the browser the local calendar days between two
dates.  A date alone names the same day to both: to the one its UTC midnight, to the other some
instant of that day in its own zone.
-/

namespace NoOverlap

namespace Stays

open Calendar

/-- How the server counts the nights from one instant to another. -/
structure Counts (a b : Int) : Prop where
  midnights : nights a b = (midnights a b).card
  nonneg : 0 ≤ nights a b
  extended : ∀ a' b', 0 ≤ a' → a' ≤ a → b ≤ b' → nights a b ≤ nights a' b'
  split : ∀ m, a ≤ m → m ≤ b → nights a m + nights m b = nights a b

theorem counts {a b : Int} (ha : 0 ≤ a) (hab : a < b) : Counts a b where
  midnights := nights_eq_card ha hab
  nonneg := nights_nonneg ha hab
  extended := fun _ _ ha' hin hout => nights_mono ha' hin hab hout
  split := fun m _ _ => nights_add a m b

/-- The nights that the browser shows for two dates are those of the stay that the server makes
of them, and so is the total.  From the year 100 on the `Date.UTC` of the server is that of the
calendar. -/
structure Agrees (z : TimeZone) (c c' : Civil) : Prop where
  nights : ∃ a b, dateParse (isoDate c) = some a ∧ dateParse (isoDate c') = some b ∧
    nightsBetween z (isoDate c) (isoDate c') = some (nightsBy prolepticUTC a b) ∧
    (∀ rate, totalCents z (isoDate c) (isoDate c') rate =
      some (nightsBy prolepticUTC a b * rate)) ∧
    (99 < c.year → 99 < c'.year → nightsBy prolepticUTC a b = NoOverlap.nights a b ∧
      ∀ rate, totalCents z (isoDate c) (isoDate c') rate = priceTotal (some a) (some b) rate)

variable {z : TimeZone} {c c' : Civil}

theorem midnight_div (d : Int) : d * msPerDay / msPerDay = d :=
  Int.mul_ediv_cancel d (by decide)

theorem civil_midnight (hc : c.Valid) : civil (daysFromCivil c * msPerDay) = c := by
  rw [civil, midnight_div, civilFromDays_daysFromCivil hc]

/-- The browser counts the days between two dates of its zone. -/
theorem nightsBetween_isoDate (hc : c.Valid) (hw : c.Written) (hc' : c'.Valid) (hw' : c'.Written)
    (hz : ∃ t, z.day t = daysFromCivil c) (hz' : ∃ t, z.day t = daysFromCivil c') :
    nightsBetween z (isoDate c) (isoDate c') = some (daysFromCivil c' - daysFromCivil c) := by
  obtain ⟨a, ha, hday⟩ := day_of_isoDate hc hw hz
  obtain ⟨b, hb, hday'⟩ := day_of_isoDate hc' hw' hz'
  rw [nightsBetween, ha, hb, differenceInCalendarDays, hday, hday']

theorem agrees (hz : ∀ d, ∃ t, z.day t = d) (hc : c.Valid) (hw : c.Written) (hc' : c'.Valid)
    (hw' : c'.Written) : Agrees z c c' := by
  have hshown := nightsBetween_isoDate hc hw hc' hw' (hz _) (hz _)
  have hcount : nightsBy prolepticUTC (daysFromCivil c * msPerDay) (daysFromCivil c' * msPerDay) =
      daysFromCivil c' - daysFromCivil c := by
    rw [nightsBy_proleptic, midnight_div, midnight_div]
  have htotal : ∀ rate, totalCents z (isoDate c) (isoDate c') rate =
      some ((daysFromCivil c' - daysFromCivil c) * rate) := fun rate => by
    simp only [totalCents]
    rw [if_pos ⟨isoDate_ne_empty c, isoDate_ne_empty c'⟩, hshown]
    rfl
  refine ⟨_, _, dateParse_isoDate hc hw, dateParse_isoDate hc' hw', ?_, ?_, fun hy hy' => ?_⟩
  · rw [hcount, hshown]
  · rw [hcount]
    exact htotal
  · have hsame := nights_eq_proleptic (a := daysFromCivil c * msPerDay)
      (b := daysFromCivil c' * msPerDay) (by rw [civil_midnight hc]; exact hy)
      (by rw [civil_midnight hc']; exact hy')
    refine ⟨hsame.symm, fun rate => ?_⟩
    rw [htotal, priceTotal, hsame, hcount]

/-- On any calendar dates, in any zone that skips no day. -/
theorem quote_is_price {a b : Int} (ha : 0 ≤ a) (hab : a < b) (hz : ∀ d, ∃ t, z.day t = d)
    (hc : c.Valid) (hw : c.Written) (hc' : c'.Valid) (hw' : c'.Written)
    (_ : daysFromCivil c < daysFromCivil c') : Counts a b ∧ Agrees z c c' :=
  ⟨counts ha hab, agrees hz hc hw hc' hw'⟩

namespace Scenario

/-- New York in 2026: four hours behind UTC from the eighth of March to the first of November. -/
def newYorkOffset (t : Int) : Int :=
  if 1772953200000 ≤ t ∧ t < 1793512800000 then -14400000 else -18000000

def newYorkMidnight (d : Int) : Int :=
  if 1772953200000 ≤ d * msPerDay + 14400000 ∧ d * msPerDay + 14400000 < 1793512800000 then
    d * msPerDay + 14400000
  else d * msPerDay + 18000000

theorem newYork_day (d : Int) :
    (newYorkMidnight d + newYorkOffset (newYorkMidnight d)) / msPerDay = d := by
  unfold newYorkMidnight newYorkOffset msPerDay
  split_ifs <;> omega

def newYork : TimeZone :=
  { offset := newYorkOffset, midnight := newYorkMidnight, day_midnight := fun d _ => newYork_day d }

end Scenario

/-- Two nights in New York, of which one is an hour short. -/
theorem quote_is_price_new_york :
    Counts 1772841600000 1773014400000 ∧
      Agrees Scenario.newYork ⟨2026, 3, 7⟩ ⟨2026, 3, 9⟩ :=
  quote_is_price (by decide) (by decide) (fun d => ⟨_, Scenario.newYork_day d⟩) (by decide)
    ⟨by decide, by decide⟩ (by decide) ⟨by decide, by decide⟩ (by decide)

end Stays

end NoOverlap
