import NoOverlap.Data.Calendar

/-!
# Dates as text

`yyyy-MM-dd`, and the timestamp that `toISOString` writes.  Years have four digits.  A scanner
reads from the front of a text and leaves the rest; every field that is written at a fixed width
is read back by `digits`, and with the fields the date and the timestamp.
-/

namespace Calendar

/-! ## Digits -/

/-- The last `k` decimal digits of `n`. -/
def pad : Nat → Nat → List Char
  | 0, _ => []
  | k + 1, n => pad k (n / 10) ++ [Nat.digitChar (n % 10)]

def digitValue (c : Char) : Option Nat := if c.isDigit then some (c.toNat - '0'.toNat) else none

def number (cs : List Char) : Option Nat :=
  cs.foldl (fun acc c => acc.bind fun n => (digitValue c).map fun d => 10 * n + d) (some 0)

theorem digitValue_digitChar {d : Nat} (h : d < 10) : digitValue (Nat.digitChar d) = some d := by
  interval_cases d <;> rfl

theorem number_append_digit (cs : List Char) (c : Char) :
    number (cs ++ [c]) = (number cs).bind fun n => (digitValue c).map fun d => 10 * n + d := by
  simp only [number, List.foldl_append, List.foldl_cons, List.foldl_nil]

theorem length_pad (k n : Nat) : (pad k n).length = k := by
  induction k generalizing n with
  | zero => rfl
  | succ k ih => simp [pad, ih]

theorem number_pad {k n : Nat} (h : n < 10 ^ k) : number (pad k n) = some n := by
  induction k generalizing n with
  | zero =>
    have hzero : n = 0 := by simpa using h
    rw [hzero]
    rfl
  | succ k ih =>
    have hdigit : n % 10 < 10 := Nat.mod_lt n (by decide)
    have hrest : n / 10 < 10 ^ k := by
      rw [pow_succ] at h
      omega
    rw [pad, number_append_digit, ih hrest, digitValue_digitChar hdigit]
    show some (10 * (n / 10) + n % 10) = some n
    rw [Nat.div_add_mod]

/-! ## Scanners -/

abbrev Scanner := StateT (List Char) Option

/-- The next `k` characters, which are digits. -/
def digits (k : Nat) : Scanner Nat := fun cs =>
  if k ≤ cs.length then (number (cs.take k)).map fun n => (n, cs.drop k) else none

def literal (c : Char) : Scanner Unit := fun cs =>
  match cs with
  | c' :: cs => if c' = c then some ((), cs) else none
  | [] => none

/-- The whole of a text. -/
def Scanner.whole {α : Type} (p : Scanner α) (text : String) : Option α :=
  match p text.toList with
  | some (a, []) => some a
  | _ => none

variable {α β : Type} {p : Scanner α} {cs cs' : List Char}

theorem digits_pad {k n : Nat} (h : n < 10 ^ k) (cs : List Char) :
    digits k (pad k n ++ cs) = some (n, cs) := by
  have hle : k ≤ (pad k n ++ cs).length := by rw [List.length_append, length_pad]; omega
  have htake : (pad k n ++ cs).take k = pad k n := by
    rw [List.take_append_of_le_length (length_pad k n).ge, List.take_of_length_le (length_pad k n).le]
  have hdrop : (pad k n ++ cs).drop k = cs := by
    have hd : (pad k n ++ cs).drop (pad k n).length = cs := List.drop_left
    rwa [length_pad] at hd
  rw [digits, if_pos hle, htake, hdrop, number_pad h]
  rfl

theorem literal_cons (c : Char) (cs : List Char) : literal c (c :: cs) = some ((), cs) :=
  if_pos rfl

theorem scan_bind {f : α → Scanner β} {a : α} (h : p cs = some (a, cs')) :
    (p >>= f) cs = f a cs' := by
  show (p cs).bind _ = _
  rw [h]
  rfl

theorem whole_ofList {a : α} (h : p cs = some (a, [])) : p.whole (String.ofList cs) = some a := by
  rw [Scanner.whole, String.toList_ofList, h]

/-! ## Dates -/

/-- The year has four digits. -/
def Civil.Written (c : Civil) : Prop := 0 ≤ c.year ∧ c.year ≤ 9999

def dateChars (c : Civil) : List Char :=
  pad 4 c.year.toNat ++ '-' :: (pad 2 c.month.toNat ++ '-' :: pad 2 c.day.toNat)

/-- `yyyy-MM-dd`. -/
def isoDate (c : Civil) : String := String.ofList (dateChars c)

def scanDate : Scanner Civil := do
  let year ← digits 4
  literal '-'
  let month ← digits 2
  literal '-'
  let day ← digits 2
  pure { year := year, month := month, day := day }

theorem scan_dateChars {c : Civil} (hc : c.Valid) (hw : c.Written) (cs : List Char) :
    scanDate (dateChars c ++ cs) = some (c, cs) := by
  have hmonth := hc.month_pos
  have hmonth' := hc.month_le
  have hday := hc.day_pos
  have hday' : c.day ≤ 31 := by
    have hle := hc.day_le_of_month
    omega
  obtain ⟨hy, hy'⟩ := hw
  obtain ⟨y, m, d⟩ := c
  dsimp only at hmonth hmonth' hday hday' hy hy'
  lift y to Nat using hy
  lift m to Nat using by omega
  lift d to Nat using by omega
  simp only [dateChars, Int.toNat_natCast, List.append_assoc, List.cons_append]
  unfold scanDate
  rw [scan_bind (digits_pad (by omega) _), scan_bind (literal_cons '-' _),
    scan_bind (digits_pad (by omega) _), scan_bind (literal_cons '-' _),
    scan_bind (digits_pad (by omega) _)]
  rfl

/-- A date is read back as it was written. -/
theorem readDate_isoDate {c : Civil} (hc : c.Valid) (hw : c.Written) :
    scanDate.whole (isoDate c) = some c := by
  have hscan := scan_dateChars hc hw []
  rw [List.append_nil] at hscan
  exact whole_ofList hscan

/-! ## Timestamps -/

/-- `HH:mm:ss.sssZ`, from the milliseconds of the day. -/
def timeChars (ms : Nat) : List Char :=
  pad 2 (ms / 3600000) ++ ':' :: (pad 2 (ms / 60000 % 60) ++ ':' :: (pad 2 (ms / 1000 % 60) ++
    '.' :: (pad 3 (ms % 1000) ++ ['Z'])))

def scanTime : Scanner Nat := do
  let hours ← digits 2
  literal ':'
  let minutes ← digits 2
  literal ':'
  let seconds ← digits 2
  literal '.'
  let ms ← digits 3
  literal 'Z'
  if hours < 24 ∧ minutes < 60 ∧ seconds < 60 then
    pure (((hours * 60 + minutes) * 60 + seconds) * 1000 + ms)
  else failure

theorem scan_timeChars {ms : Nat} (h : ms < 86400000) (cs : List Char) :
    scanTime (timeChars ms ++ cs) = some (ms, cs) := by
  simp only [timeChars, List.append_assoc, List.cons_append, List.nil_append]
  unfold scanTime
  rw [scan_bind (digits_pad (by omega) _), scan_bind (literal_cons ':' _),
    scan_bind (digits_pad (by omega) _), scan_bind (literal_cons ':' _),
    scan_bind (digits_pad (by omega) _), scan_bind (literal_cons '.' _),
    scan_bind (digits_pad (by omega) _), scan_bind (literal_cons 'Z' _)]
  have hsum : ((ms / 3600000 * 60 + ms / 60000 % 60) * 60 + ms / 1000 % 60) * 1000 +
      ms % 1000 = ms := by omega
  rw [if_pos (by omega), hsum]
  rfl

def toISOString (t : Int) : String :=
  String.ofList (dateChars (civil t) ++ 'T' :: timeChars (t % msPerDay).toNat)

/-- The day and the milliseconds of a timestamp. -/
def scanTimestamp : Scanner (Civil × Nat) := do
  let date ← scanDate
  literal 'T'
  let ms ← scanTime
  pure (date, ms)

theorem readTimestamp_toISOString {t : Int} (hw : (civil t).Written) :
    scanTimestamp.whole (toISOString t) = some (civil t, (t % msPerDay).toNat) := by
  have hms : (t % msPerDay).toNat < 86400000 := by
    unfold msPerDay
    omega
  have htime := scan_timeChars hms []
  rw [List.append_nil] at htime
  refine whole_ofList ?_
  have hvalid : (civil t).Valid := valid_civilFromDays _
  unfold scanTimestamp
  rw [scan_bind (scan_dateChars hvalid hw _), scan_bind (literal_cons 'T' _),
    scan_bind htime]
  rfl

end Calendar
