import NoOverlap.Holds.Total
import NoOverlap.Stays.Quote

/-!
# A stay on the screens

A reservation keeps the UTC midnights of the two dates that were picked, and a list of bookings
shows the local days of these two instants.  East of UTC, and on it, these are the days that
were picked; west of it the evening before.
-/

namespace NoOverlap

namespace Stays

open Calendar Concurrency Concurrency.RelyGuarantee

/-! ## The reservation -/

/-- The stay that was asked for, at some rate. -/
def Made (dto : CreateReservationDto) (v : Reservation) : Prop :=
  ∃ rate, Holds.RowOf dto (priceTotal dto.checkIn dto.checkOut rate) v

theorem Made.dates {dto : CreateReservationDto} {v : Reservation} (h : Made dto v) :
    dto.checkIn = some v.checkIn ∧ dto.checkOut = some v.checkOut := by
  obtain ⟨rate, hrow⟩ := h
  exact ⟨hrow.checkIn, hrow.checkOut⟩

/-- What the answers of the statements come to. -/
def answering : RelyGuarantee Store Call Statement.Resp Err Reply :=
  { Step := fun a s o r s' => ∃ ch, o.exec a.tid ch s = some (r, s')
    Inv := fun _ => True
    Rely := fun _ _ _ => True
    Guar := fun _ _ _ _ _ => True
    Post := fun a r _ => ∀ guestId dto, a.call = .hold guestId dto → ∀ v,
      r = .ok (.reservation v) → Made dto v
    Fresh := fun _ _ => True
    Lost := fun _ _ => True }

variable {a : Agent} {s : Store} {dto : CreateReservationDto} {price : Option Int}

/-- The value is such, if there is one. -/
def Gives {β : Type} (P : β → Prop) : Except Err β → Store → Prop
  | .ok b, _ => P b
  | .error _, _ => True

theorem safe_answer {β : Type} {Q : Except Err β → Store → Prop} {o : Statement}
    {f : o.Resp → Async β}
    (h : ∀ ch s r s', o.exec a.tid ch s = some (r, s') → answering.Cont a Q f r s') :
    answering.Safe a Q (Prog.op o >>= f) s := by
  refine Safe.op_bind fun s₁ _ _ r s₂ hs => ?_
  obtain ⟨ch, hx⟩ := hs
  exact ⟨trivial, trivial, h ch s₁ r s₂ hx⟩

/-- A statement of which only the failure matters, and that does not. -/
theorem safe_any {β : Type} {P : β → Prop} {o : Statement} {f : o.Resp → Async β}
    (h : ∀ v s, answering.Safe a (Gives P) (f v) s) :
    answering.Safe a (Gives P) (Prog.op o >>= f) s := by
  refine safe_answer fun ch s₁ r s₂ _ => ?_
  cases r with
  | ok v => exact h v s₂
  | error e => exact trivial

theorem safe_anything {β : Type} (p : Async β) : answering.Safe a (fun _ _ => True) p s := by
  induction p generalizing s with
  | done r => exact trivial
  | call o k ih => exact fun _ _ _ r _ _ => ⟨trivial, trivial, ih r⟩

theorem rowOf_of_exec {data : ReservationData} {ch : Choice} {s s' : Store} {v : Reservation}
    (hin : data.checkIn = dto.checkIn) (hout : data.checkOut = dto.checkOut)
    (hprice : data.priceTotalCents = price)
    (hx : (Statement.db (.reservationCreate data)).exec a.tid ch s = some (.ok v, s')) :
    Holds.RowOf dto price v := by
  obtain ⟨d, hd, -⟩ := Statement.perform_db (Statement.perform_of_exec_ok hx)
  have hrow := Database.inserted_of_reservationCreate hd
  exact ⟨hin ▸ hrow.checkIn, hout ▸ hrow.checkOut, hprice ▸ hrow.price⟩

theorem safe_claimSlot (ttl : Int) (guestId : Id) :
    answering.Safe a (Gives (Holds.RowOf dto price)) (claimSlot ttl guestId dto price) s := by
  have hback : ∀ e s, answering.Safe a (Gives (Holds.RowOf dto price))
      (do tx.rollback; throw e) s := fun e s => safe_any fun _ _ => trivial
  refine Safe.tryCatch (safe_answer fun _ _ r₁ s₁ _ => ?_)
  cases r₁ with
  | error e => exact hback e s₁
  | ok u =>
  refine Safe.bind (safe_answer fun _ _ r₂ s₂ _ => ?_)
  cases r₂ with
  | error e => exact hback e s₂
  | ok now =>
  refine safe_answer fun ch _ r₃ s₃ hx => ?_
  cases r₃ with
  | error e => exact hback e s₃
  | ok v =>
  have hrow : Holds.RowOf dto price v := rowOf_of_exec rfl rfl rfl hx
  refine safe_answer fun _ _ r₄ s₄ _ => ?_
  cases r₄ with
  | error e => exact hback e s₄
  | ok trace =>
  refine safe_answer fun _ _ r₅ s₅ _ => ?_
  cases r₅ with
  | error e => exact hback e s₅
  | ok u =>
  refine safe_answer fun _ _ r₆ s₆ _ => ?_
  cases r₆ with
  | error e => exact hback e s₆
  | ok u => exact hrow

theorem safe_claimWithRetry (ttl : Int) (guestId : Id) :
    answering.Safe a (Gives (Holds.RowOf dto price)) (claimWithRetry ttl guestId dto price) s := by
  refine Safe.tryCatch (Safe.imp (Q := Gives (Holds.RowOf dto price))
    (Safe.tryCatch ((safe_claimSlot ttl guestId).imp fun r s₁ h => ?_)) fun r s₁ h => ?_)
  · cases r with
    | ok v => exact h
    | error e =>
      rw [caught_error]
      split
      · exact trivial
      · exact safe_any fun _ s₂ => safe_claimSlot ttl guestId
  · cases r with
    | ok v => exact h
    | error e =>
      rw [caught_error]
      split
      · exact safe_any fun _ _ => trivial
      · exact trivial

theorem safe_hold (ttl : Int) (guestId : Id) (dto : CreateReservationDto) :
    answering.Safe a (Gives (Made dto)) (hold ttl guestId dto) s := by
  refine safe_any fun now s₁ => ?_
  split
  · exact trivial
  · split
    · exact trivial
    · refine safe_any fun l s₂ => ?_
      cases l with
      | none => exact trivial
      | some listing =>
        simp only
        split
        · exact trivial
        · refine Safe.bind ((safe_claimWithRetry ttl guestId).imp fun r s₃ h => ?_)
          cases r with
          | error e => exact trivial
          | ok v =>
            have hmade : Made dto v := ⟨_, h⟩
            refine safe_any fun _ s₄ => Safe.bind ((safe_anything _).imp fun r s₅ _ => ?_)
            cases r with
            | ok u => exact hmade
            | error e => exact trivial

theorem safe_program (cfg : Config) {c : Call} (hcall : a.call = c) :
    answering.Safe a (answering.Post a) (c.program cfg) s := by
  by_cases hhold : ∃ guestId dto, c = .hold guestId dto
  · obtain ⟨guestId, dto, rfl⟩ := hhold
    refine Safe.bind ((safe_hold cfg.holdTtlMs guestId dto).imp fun r s₁ h => ?_)
    have hsame : ∀ guestId' dto', a.call = .hold guestId' dto' → dto' = dto := fun _ _ hc => by
      cases hcall.symm.trans hc
      rfl
    cases r with
    | ok v =>
      intro guestId' dto' hc v' hv
      cases hv
      rw [hsame guestId' dto' hc]
      exact h
    | error e => exact fun _ _ _ v' hv => by cases hv
  · exact (safe_anything _).imp fun _ _ _ guestId dto hc =>
      (hhold ⟨guestId, dto, hcall.symm.trans hc⟩).elim

theorem sound (cfg : Config) (s₀ : Store) : Sound answering (system cfg) anything s₀ where
  start := trivial
  fresh_start := fun _ => trivial
  rely_refl := fun _ _ => trivial
  rely_trans := fun _ _ _ _ _ _ => trivial
  guar_rely := fun _ _ _ _ _ _ _ _ => trivial
  fresh_stable := fun _ _ _ _ _ => trivial
  post_stable := fun _ _ _ _ _ _ h => h
  lost_stable := fun _ _ _ _ _ => trivial
  step := fun _ _ _ _ _ _ ch _ _ _ _ hx => ⟨ch, hx⟩
  spawn := fun _ _ _ _ _ _ _ _ => ⟨trivial, fun _ => trivial, safe_program cfg rfl⟩
  ret := fun _ _ _ _ _ _ => ⟨trivial, fun _ => trivial⟩
  kill := fun _ _ _ _ _ _ => ⟨trivial, fun _ _ => trivial, trivial⟩

/-- Whatever else runs, a hold returns the stay it was asked for. -/
theorem made_of_reaches {cfg : Config} {s₀ : Store} {w : World}
    (hr : (system cfg).Reaches anything (World.start s₀) w) {t : Nat} {guestId : Id}
    {v : Reservation}
    (ht : w.threads[t]? = some (.returned (.hold guestId dto) (.ok (.reservation v)))) :
    Made dto v := (sound cfg s₀).post hr ht guestId dto rfl v rfl

/-! ## The days that are shown -/

/-- A date that the picker has handed over, as the local day of an instant.  It offers none
before today. -/
structure Picked (z : TimeZone) (date : Int) (c : Civil) : Prop where
  valid : c.Valid
  written : c.Written
  later : 0 ≤ daysFromCivil c
  day : z.day date = daysFromCivil c

/-- The body of the hold for two dates of the picker. -/
def asked (z : TimeZone) (listingId : Id) (checkIn checkOut : Int) : CreateReservationDto :=
  { listingId := listingId, checkIn := dateParse (toDateParam z checkIn),
    checkOut := dateParse (toDateParam z checkOut) }

/-- What the row of a reservation says of its dates. -/
structure Row where
  checkIn : Option String
  checkOut : Option String
  nights : Option Int
  deriving DecidableEq

def stayRow (z : TimeZone) (reservation : Reservation) : Row :=
  let checkIn := toISOString reservation.checkIn
  let checkOut := toISOString reservation.checkOut
  { checkIn := formatDate z checkIn, checkOut := formatDate z checkOut,
    nights := nightsBetween z checkIn checkOut }

/-- `TripRow`, on the list of the guest. -/
def tripRow (z : TimeZone) (reservation : Reservation) : Row := stayRow z reservation

/-- `BookingRow`, on the list of the host. -/
def bookingRow (z : TimeZone) (reservation : Reservation) : Row := stayRow z reservation

/-- The row shows the dates that were picked, and the nights that were priced. -/
structure Shown (z : TimeZone) (checkIn checkOut : Int) (v : Reservation) (row : Row) : Prop where
  checkIn : row.checkIn = formatDate z (toDateParam z checkIn)
  checkOut : row.checkOut = formatDate z (toDateParam z checkOut)
  nights : row.nights = some (nights v.checkIn v.checkOut)

variable {z : TimeZone} {date : Int} {c c' : Civil}

theorem toDateParam_of_picked (h : Picked z date c) : toDateParam z date = isoDate c := by
  rw [toDateParam, h.day, civilFromDays_daysFromCivil h.valid]

/-- The names of the weekdays differ. -/
theorem weekdayName_ne (d : Int) : weekdayName d ≠ weekdayName (d - 1) := by
  have hprev : (d - 1 + 4) % 7 = ((d + 4) % 7 + 6) % 7 := by omega
  obtain ⟨r, hr⟩ : ∃ r, r = (d + 4) % 7 := ⟨_, rfl⟩
  have h0 : 0 ≤ r := by omega
  have h7 : r < 7 := by omega
  rw [weekdayName, weekdayName, hprev, ← hr]
  interval_cases r <;> decide

theorem length_weekdayName (d : Int) : (weekdayName d).toList.length = 3 := by
  obtain ⟨r, hr⟩ : ∃ r, r = (d + 4) % 7 := ⟨_, rfl⟩
  have h0 : 0 ≤ r := by omega
  have h7 : r < 7 := by omega
  rw [weekdayName, ← hr]
  interval_cases r <;> rfl

/-- A text begins with its weekday. -/
theorem take_shortDate (d : Int) : (shortDate d).toList.take 3 = (weekdayName d).toList := by
  simp only [shortDate, String.toList_append, List.append_assoc]
  rw [List.take_append_of_le_length (length_weekdayName d).ge,
    List.take_of_length_le (length_weekdayName d).le]

theorem shortDate_ne (d : Int) : shortDate d ≠ shortDate (d - 1) := by
  intro h
  have hweekday : (weekdayName d).toList = (weekdayName (d - 1)).toList := by
    rw [← take_shortDate, ← take_shortDate, h]
  exact weekdayName_ne d (String.toList_inj.mp hweekday)

theorem formatDate_picked (h : Picked z date c) :
    formatDate z (toDateParam z date) = some (shortDate (daysFromCivil c)) := by
  obtain ⟨a, ha, hday⟩ := day_of_isoDate h.valid h.written ⟨date, h.day⟩
  rw [formatDate, toDateParam_of_picked h, ha, Option.map_some, hday]

/-- The local day of the UTC midnight of a date. -/
theorem day_midnight_of_offset (hz : ∀ t, -msPerDay < z.offset t ∧ z.offset t < msPerDay)
    (d : Int) :
    z.day (d * msPerDay) = if 0 ≤ z.offset (d * msPerDay) then d else d - 1 := by
  obtain ⟨hlow, hhigh⟩ := hz (d * msPerDay)
  unfold TimeZone.day msPerDay at *
  split_ifs <;> omega

theorem written_midnight (h : Picked z date c) : (civil (daysFromCivil c * msPerDay)).Written := by
  rw [civil_midnight h.valid]
  exact h.written

theorem formatDate_midnight (hz : ∀ t, -msPerDay < z.offset t ∧ z.offset t < msPerDay)
    (h : Picked z date c) :
    formatDate z (toISOString (daysFromCivil c * msPerDay)) =
        formatDate z (toDateParam z date) ↔
      0 ≤ z.offset (daysFromCivil c * msPerDay) := by
  rw [formatDate_picked h, formatDate, parseISO_toISOString (written_midnight h), Option.map_some,
    day_midnight_of_offset hz]
  split_ifs with hoffset
  · exact iff_of_true rfl hoffset
  · refine iff_of_false (fun he => ?_) hoffset
    exact shortDate_ne _ (Option.some.inj he).symm

/-- The reservation of two dates that were picked holds their UTC midnights. -/
theorem midnights_of_made {i o : Int} (hi : Picked z i c) (ho : Picked z o c') {listingId : Id}
    {v : Reservation} (h : Made (asked z listingId i o) v) :
    v.checkIn = daysFromCivil c * msPerDay ∧ v.checkOut = daysFromCivil c' * msPerDay := by
  have hasked : ∀ {date : Int} {c : Civil}, Picked z date c →
      dateParse (toDateParam z date) = some (daysFromCivil c * msPerDay) := fun hp => by
    rw [toDateParam_of_picked hp, dateParse_isoDate hp.valid hp.written]
  obtain ⟨hin, hout⟩ := h.dates
  rw [asked, hasked hi] at hin
  rw [asked, hasked ho] at hout
  exact ⟨(Option.some.inj hin).symm, (Option.some.inj hout).symm⟩

theorem shown_iff (hz : ∀ t, -msPerDay < z.offset t ∧ z.offset t < msPerDay) {i o : Int}
    (hi : Picked z i c) (ho : Picked z o c') {v : Reservation}
    (hin : v.checkIn = daysFromCivil c * msPerDay) (hout : v.checkOut = daysFromCivil c' * msPerDay) :
    Shown z i o v (stayRow z v) ↔ 0 ≤ z.offset (daysFromCivil c * msPerDay) ∧
      0 ≤ z.offset (daysFromCivil c' * msPerDay) := by
  have hshownIn := formatDate_midnight hz hi
  have hshownOut := formatDate_midnight hz ho
  constructor
  · intro h
    have hleft := h.checkIn
    have hright := h.checkOut
    simp only [stayRow, hin, hout] at hleft hright
    exact ⟨hshownIn.mp hleft, hshownOut.mp hright⟩
  · rintro ⟨hwest, hwest'⟩
    refine ⟨?_, ?_, ?_⟩
    · simp only [stayRow, hin]
      exact hshownIn.mpr hwest
    · simp only [stayRow, hout]
      exact hshownOut.mpr hwest'
    · have hpos : ∀ {d : Int}, 0 ≤ d → 0 ≤ d * msPerDay := fun hd =>
        Int.mul_nonneg hd (by decide)
      simp only [stayRow, hin, hout, nightsBetween]
      rw [parseISO_toISOString (written_midnight hi), parseISO_toISOString (written_midnight ho),
        differenceInCalendarDays, day_midnight_of_offset hz, day_midnight_of_offset hz, if_pos hwest,
        if_pos hwest', nights_eq (hpos hi.later) (hpos ho.later), midnight_div, midnight_div]

/-- A reservation of two dates of the picker, whatever else has run. -/
theorem stay_is_shown_as_picked {cfg : Config} {s₀ : Store} {w : World}
    (hr : (system cfg).Reaches anything (World.start s₀) w) {t : Nat} {guestId listingId : Id}
    {i o : Int} {v : Reservation}
    (ht : w.threads[t]? =
      some (.returned (.hold guestId (asked z listingId i o)) (.ok (.reservation v))))
    (hz : ∀ t, -msPerDay < z.offset t ∧ z.offset t < msPerDay) (hi : Picked z i c)
    (ho : Picked z o c') :
    Shown z i o v (tripRow z v) ∧ Shown z i o v (bookingRow z v) ↔
      0 ≤ z.offset (daysFromCivil c * msPerDay) ∧ 0 ≤ z.offset (daysFromCivil c' * msPerDay) := by
  obtain ⟨hin, hout⟩ := midnights_of_made hi ho (made_of_reaches hr ht)
  have hiff := shown_iff hz hi ho hin hout
  exact ⟨fun h => hiff.mp h.1, fun h => ⟨hiff.mpr h, hiff.mpr h⟩⟩

namespace Scenario

theorem tokyo_day (d : Int) : (d * msPerDay - 32400000 + 32400000) / msPerDay = d := by
  unfold msPerDay
  omega

/-- Nine hours ahead of UTC. -/
def tokyo : TimeZone :=
  { offset := fun _ => 32400000, midnight := fun d => d * msPerDay - 32400000,
    day_midnight := fun d _ => tokyo_day d }

theorem tokyo_offset (t : Int) : -msPerDay < tokyo.offset t ∧ tokyo.offset t < msPerDay :=
  ⟨show (-86400000 : Int) < 32400000 by decide, show (32400000 : Int) < 86400000 by decide⟩

/-- The Azores in 2026: an hour behind UTC but for the summer, when the clocks agree. -/
def azoresOffset (t : Int) : Int :=
  if 1774746000000 ≤ t ∧ t < 1792890000000 then 0 else -3600000

/-- The last Sunday of March has no midnight. -/
def azoresMidnight (d : Int) : Int :=
  if 1774746000000 ≤ d * msPerDay ∧ d * msPerDay < 1792890000000 then d * msPerDay
  else d * msPerDay + 3600000

theorem azores_day (d : Int) :
    (azoresMidnight d + azoresOffset (azoresMidnight d)) / msPerDay = d := by
  unfold azoresMidnight azoresOffset msPerDay
  split_ifs <;> omega

def azores : TimeZone :=
  { offset := azoresOffset, midnight := azoresMidnight, day_midnight := fun d _ => azores_day d }

/-- From the first of August, or the 28th of March, for two nights. -/
def august : Civil × Civil := (⟨2026, 8, 1⟩, ⟨2026, 8, 3⟩)

def march : Civil × Civil := (⟨2026, 3, 28⟩, ⟨2026, 3, 30⟩)

/-- What the picker hands over for a date. -/
def pick (z : TimeZone) (c : Civil) : Int := z.midnight (daysFromCivil c)

/-- Both dates of a stay have been picked. -/
def PickedStay (z : TimeZone) (dates : Civil × Civil) : Prop :=
  Picked z (pick z dates.1) dates.1 ∧ Picked z (pick z dates.2) dates.2

theorem picked_august {z : TimeZone} (hz : ∀ d, z.day (z.midnight d) = d) : PickedStay z august :=
  ⟨⟨by decide, ⟨by decide, by decide⟩, by decide, hz _⟩,
    by decide, ⟨by decide, by decide⟩, by decide, hz _⟩

theorem picked_march {z : TimeZone} (hz : ∀ d, z.day (z.midnight d) = d) : PickedStay z march :=
  ⟨⟨by decide, ⟨by decide, by decide⟩, by decide, hz _⟩,
    by decide, ⟨by decide, by decide⟩, by decide, hz _⟩

/-- The body of the hold. -/
def stay (z : TimeZone) (dates : Civil × Civil) : CreateReservationDto :=
  asked z 7 (pick z dates.1) (pick z dates.2)

/-- The hold of this stay has returned a reservation. -/
def booked (dto : CreateReservationDto) (w : World) : Bool :=
  match w.threads[(0 : Nat)]? with
  | some (.returned (.hold guestId dto') (.ok (.reservation _))) =>
    guestId == 1 && dto'.listingId == dto.listingId && dto'.checkIn == dto.checkIn &&
      dto'.checkOut == dto.checkOut
  | _ => false

theorem exists_booked (dto : CreateReservationDto)
    (h : ((system NoOverlap.Scenario.cfg).run anything
      (World.start (Store.init NoOverlap.Scenario.listings))
      (NoOverlap.Scenario.place 0 dto 10 11)).any (booked dto) = true) :
    ∃ w v, (system NoOverlap.Scenario.cfg).Reaches anything
        (World.start (Store.init NoOverlap.Scenario.listings)) w ∧
      w.threads[(0 : Nat)]? = some (.returned (.hold 1 dto) (.ok (.reservation v))) := by
  obtain ⟨w, hr, hb⟩ := Machine.exists_reaches_of_run h
  simp only [booked] at hb
  split at hb
  · next guestId dto' v ht =>
    obtain ⟨lid, checkIn, checkOut⟩ := dto
    obtain ⟨lid', checkIn', checkOut'⟩ := dto'
    simp only [Bool.and_eq_true, beq_iff_eq] at hb
    obtain ⟨⟨⟨rfl, rfl⟩, rfl⟩, rfl⟩ := hb
    exact ⟨w, v, hr, ht⟩
  · cases hb

/-- The row of this reservation shows the stay as it was picked. -/
def Right (z : TimeZone) (dates : Civil × Civil) (v : Reservation) (row : Row) : Prop :=
  Shown z (pick z dates.1) (pick z dates.2) v row

end Scenario

/-- In Tokyo. -/
theorem stay_is_shown_as_picked_tokyo :
    ∃ v, Scenario.Right Scenario.tokyo Scenario.august v (tripRow Scenario.tokyo v) ∧
      Scenario.Right Scenario.tokyo Scenario.august v (bookingRow Scenario.tokyo v) := by
  obtain ⟨w, v, hr, ht⟩ := Scenario.exists_booked (Scenario.stay Scenario.tokyo Scenario.august)
    (by decide +kernel)
  obtain ⟨hi, ho⟩ := Scenario.picked_august (z := Scenario.tokyo) Scenario.tokyo_day
  exact ⟨v, (stay_is_shown_as_picked hr ht Scenario.tokyo_offset hi ho).mpr
    ⟨by decide, by decide⟩⟩

/-- In New York the two dates are shown as the days before, and on the Azores two nights in
which the clocks go forward as three. -/
theorem not_stay_is_shown_as_picked :
    (∃ w v, (system NoOverlap.Scenario.cfg).Reaches anything
        (World.start (Store.init NoOverlap.Scenario.listings)) w ∧
      w.threads[(0 : Nat)]? = some (.returned
        (.hold 1 (Scenario.stay Scenario.newYork Scenario.august)) (.ok (.reservation v))) ∧
      formatDate Scenario.newYork (toDateParam Scenario.newYork
        (Scenario.pick Scenario.newYork Scenario.august.1)) = some "Sat 1 Aug" ∧
      tripRow Scenario.newYork v = ⟨some "Fri 31 Jul", some "Sun 2 Aug", some 2⟩) ∧
    ∃ w v, (system NoOverlap.Scenario.cfg).Reaches anything
        (World.start (Store.init NoOverlap.Scenario.listings)) w ∧
      w.threads[(0 : Nat)]? = some (.returned
        (.hold 1 (Scenario.stay Scenario.azores Scenario.march)) (.ok (.reservation v))) ∧
      nights v.checkIn v.checkOut = 2 ∧ (tripRow Scenario.azores v).nights = some 3 := by
  constructor
  · obtain ⟨w, v, hr, ht⟩ := Scenario.exists_booked (Scenario.stay Scenario.newYork Scenario.august)
      (by decide +kernel)
    obtain ⟨hi, ho⟩ := Scenario.picked_august (z := Scenario.newYork) Scenario.newYork_day
    obtain ⟨hin, hout⟩ := midnights_of_made hi ho (made_of_reaches hr ht)
    refine ⟨w, v, hr, ht, by decide +kernel, ?_⟩
    simp only [tripRow, stayRow, hin, hout]
    decide +kernel
  · obtain ⟨w, v, hr, ht⟩ := Scenario.exists_booked (Scenario.stay Scenario.azores Scenario.march)
      (by decide +kernel)
    obtain ⟨hi, ho⟩ := Scenario.picked_march (z := Scenario.azores) Scenario.azores_day
    obtain ⟨hin, hout⟩ := midnights_of_made hi ho (made_of_reaches hr ht)
    refine ⟨w, v, hr, ht, ?_, ?_⟩
    · rw [hin, hout]
      decide
    · simp only [tripRow, stayRow, hin, hout]
      decide +kernel

end Stays

end NoOverlap
