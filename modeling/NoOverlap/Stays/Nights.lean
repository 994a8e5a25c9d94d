import Mathlib
import NoOverlap.Model.Booking

/-!
# The nights of a stay

`hold` takes the UTC dates of two instants apart, puts them together with `Date.UTC`, and counts
the days between.  `Date.UTC` reads the years 0 to 99 as those of the twentieth century;
`prolepticUTC` does not, and from the year 100 on the two are one.
-/

namespace NoOverlap

open Calendar

/-- The days between two dates, as `Date.UTC` reads them. -/
theorem nights_eq_readDay (a b : Int) : nights a b = readDay b - readDay a := by
  have hsub : readDay b * msPerDay - readDay a * msPerDay = (readDay b - readDay a) * msPerDay := by
    ring
  rw [nights, dateUTC_civil, dateUTC_civil, hsub]
  exact mathRound_mul _ (by decide)

theorem nights_eq {checkIn checkOut : Int} (h : 0 ≤ checkIn) (h' : 0 ≤ checkOut) :
    nights checkIn checkOut = checkOut / msPerDay - checkIn / msPerDay := by
  rw [nights_eq_readDay, readDay_of_nonneg h, readDay_of_nonneg h']

namespace Stays

/-! ## Without the quirk -/

/-- `Date.UTC` on the proleptic Gregorian calendar, the month counting from zero. -/
def prolepticUTC (year month day : Int) : Int :=
  daysFromCivil { year := year, month := month + 1, day := day } * msPerDay

/-- The count of `hold`, by a function that puts dates together. -/
def nightsBy (utc : Int → Int → Int → Int) (checkIn checkOut : Int) : Int :=
  mathRound
    (utc (getUTCFullYear checkOut) (getUTCMonth checkOut) (getUTCDate checkOut) -
      utc (getUTCFullYear checkIn) (getUTCMonth checkIn) (getUTCDate checkIn))
    msPerDay

theorem nights_eq_nightsBy (a b : Int) : nights a b = nightsBy dateUTC a b := rfl

theorem prolepticUTC_civil (t : Int) :
    prolepticUTC (getUTCFullYear t) (getUTCMonth t) (getUTCDate t) = t / msPerDay * msPerDay := by
  have hback : daysFromCivil (civil t) = t / msPerDay := daysFromCivil_civilFromDays _
  change prolepticUTC (civil t).year ((civil t).month - 1) (civil t).day = _
  rw [prolepticUTC, Int.sub_add_cancel, ← hback]

theorem nightsBy_proleptic (a b : Int) :
    nightsBy prolepticUTC a b = b / msPerDay - a / msPerDay := by
  have hsub : b / msPerDay * msPerDay - a / msPerDay * msPerDay =
      (b / msPerDay - a / msPerDay) * msPerDay := by ring
  rw [nightsBy, prolepticUTC_civil, prolepticUTC_civil, hsub]
  exact mathRound_mul _ (by decide)

theorem nights_eq_proleptic {a b : Int} (ha : 99 < (civil a).year) (hb : 99 < (civil b).year) :
    nights a b = nightsBy prolepticUTC a b := by
  have hread : ∀ {t : Int}, 99 < (civil t).year → readDay t = t / msPerDay := fun {t} ht => by
    rw [readDay, if_neg (by omega)]
  rw [nights_eq_readDay, nightsBy_proleptic, hread ha, hread hb]

/-! ## Midnights -/

/-- The UTC midnights after the one instant and up to the other. -/
noncomputable def midnights (a b : Int) : Finset Int := (Finset.Ioc a b).filter fun t => msPerDay ∣ t

theorem card_midnights {a b : Int} (h : a ≤ b) :
    ((midnights a b).card : Int) = b / msPerDay - a / msPerDay := by
  have hle : a / msPerDay ≤ b / msPerDay := Int.ediv_le_ediv (by decide) h
  have hfloor : ∀ t : Int, ⌊(t : ℚ) / ((msPerDay : Int) : ℚ)⌋ = t / msPerDay := fun t =>
    Rat.floor_intCast_div_natCast t 86400000
  rw [midnights, Int.Ioc_filter_dvd_card a b (by decide), hfloor, hfloor, max_eq_left (by omega)]

variable {a b : Int}

theorem nights_eq_card (ha : 0 ≤ a) (hab : a < b) : nights a b = (midnights a b).card := by
  rw [nights_eq ha (by omega), card_midnights hab.le]

theorem nights_nonneg (ha : 0 ≤ a) (hab : a < b) : 0 ≤ nights a b := by
  rw [nights_eq_card ha hab]
  exact Int.natCast_nonneg _

/-- A stay that is extended at either end has no fewer nights. -/
theorem nights_mono {a' b' : Int} (ha' : 0 ≤ a') (ha : a' ≤ a) (hab : a < b) (hb : b ≤ b') :
    nights a b ≤ nights a' b' := by
  have hin : a' / msPerDay ≤ a / msPerDay := Int.ediv_le_ediv (by decide) ha
  have hout : b / msPerDay ≤ b' / msPerDay := Int.ediv_le_ediv (by decide) hb
  rw [nights_eq (by omega) (by omega), nights_eq ha' (by omega)]
  omega

/-- The nights of two parts are those of the whole, wherever it is split. -/
theorem nights_add (a m b : Int) : nights a m + nights m b = nights a b := by
  rw [nights_eq_readDay, nights_eq_readDay, nights_eq_readDay]
  omega

end Stays

end NoOverlap
