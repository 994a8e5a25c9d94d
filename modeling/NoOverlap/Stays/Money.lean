import Mathlib.Data.List.TakeWhile
import NoOverlap.Data.Binary64
import NoOverlap.Data.Dates

/-!
# Money in the browser

`toCents`, which reads the price that a host has typed, and `formatMoney`, which shows one.  Both
compute with doubles, so neither is exact on the way; but for every amount up to `2 ^ 50` cents the
cents that come out are those that were meant.
-/

namespace NoOverlap

namespace Stays

open Calendar

/-! ## Numbers as text -/

/-- The integer after the `e` of a number. -/
def readInteger : List Char → Option ℤ
  | '-' :: cs => if cs = [] then none else (number cs).map fun n => -(n : ℤ)
  | '+' :: cs => if cs = [] then none else (number cs).map fun n => (n : ℤ)
  | cs => if cs = [] then none else (number cs).map fun n => (n : ℤ)

def readExponent : List Char → Option ℤ
  | [] => some 0
  | c :: cs => if c = 'e' ∨ c = 'E' then readInteger cs else none

/-- The digits behind the point, and what follows them. -/
def readFraction : List Char → List Char × List Char
  | '.' :: cs => (cs.takeWhile Char.isDigit, cs.dropWhile Char.isDigit)
  | cs => ([], cs)

def readUnsigned (cs : List Char) : Option ℚ :=
  let whole := cs.takeWhile Char.isDigit
  let (fraction, rest) := readFraction (cs.dropWhile Char.isDigit)
  if whole ++ fraction = [] then none
  else
    (number (whole ++ fraction)).bind fun n => (readExponent rest).map fun e =>
      (n : ℚ) / 10 ^ fraction.length * 10 ^ e

/-- The value that the text of a number field stands for.  The browser keeps a field of another
text empty, and the empty text is zero. -/
def numberValue (text : String) : Option ℚ :=
  match text.toList with
  | [] => some 0
  | '-' :: cs => (readUnsigned cs).map fun q => -q
  | cs => readUnsigned cs

/-- `Math.round(Number(price) * 100)`; the literal becomes a double, and so does the product. -/
def toCents (price : String) : Option ℤ :=
  (numberValue price).map fun q =>
    Binary64.mathRound (Binary64.round (Binary64.round q * 100))

/-! ## `Intl.NumberFormat` -/

/-- A comma before every three digits, from the right; the digits come in reverse. -/
def separate : List Char → List Char
  | a :: b :: c :: d :: cs => a :: b :: c :: ',' :: separate (d :: cs)
  | cs => cs

def grouped (n : ℕ) : List Char := (separate (Nat.toDigits 10 n).reverse).reverse

/-- A number of hundredths, with its sign. -/
def moneyChars (negative : Bool) (n : ℕ) : List Char :=
  (if negative then ['-', '$'] else ['$']) ++ grouped (n / 100) ++ '.' :: pad 2 (n % 100)

/-- The nearest number of hundredths, a half away from zero. -/
def hundredths (q : ℚ) : ℕ := ⌊|q| * 100 + 1 / 2⌋.toNat

/-- `money.format`, in dollars of the United States. -/
def money (q : ℚ) : String := String.ofList (moneyChars (decide (q < 0)) (hundredths q))

/-- `Intl` rounds the shortest decimal that reads as the number, and here it is the number itself
that is rounded: up to `2 ^ 50` cents the two are the same text. -/
def formatMoney (cents : ℤ) : String := money (Binary64.round (cents / 100))

/-! ## What is typed is what is meant -/

theorem toCents_eq {price : String} {cents : ℤ}
    (hprice : numberValue price = some ((cents : ℚ) / 100)) (hcents : |cents| ≤ 2 ^ 50) :
    toCents price = some cents := by
  rw [toCents, hprice, Option.map_some,
    Binary64.mathRound_eq (Binary64.abs_round_mul_hundred hcents)]

/-! ## What is shown is what is stored -/

theorem round_hundredth_neg_iff (cents : ℤ) :
    Binary64.round (cents / 100) < 0 ↔ cents < 0 := by
  have herror := abs_le.mp (Binary64.abs_round_hundredths cents)
  by_cases hneg : cents < 0
  · have hcents : (cents : ℚ) ≤ -1 := by exact_mod_cast Int.le_sub_one_iff.mpr hneg
    have habs : |(cents : ℚ)| = -cents := abs_of_neg (by linarith)
    rw [habs] at herror
    have hround : Binary64.round (cents / 100) < 0 := by
      norm_num at herror
      linarith
    exact iff_of_true hround hneg
  · have hcents : (0 : ℚ) ≤ cents := by exact_mod_cast not_lt.mp hneg
    rw [abs_of_nonneg hcents] at herror
    have hround : 0 ≤ Binary64.round (cents / 100) := by
      norm_num at herror
      linarith
    exact iff_of_false (not_lt.mpr hround) hneg

theorem hundredths_round {cents : ℤ} (hcents : |cents| ≤ 2 ^ 50) :
    hundredths (Binary64.round (cents / 100)) = cents.natAbs := by
  let x := Binary64.round ((cents : ℚ) / 100)
  have hle : |(cents : ℚ)| ≤ 2 ^ 50 := by exact_mod_cast hcents
  have herror : |x - cents / 100| ≤ |(cents : ℚ)| / 100 / 2 ^ 53 :=
    Binary64.abs_round_hundredths cents
  have hdiff : |(|x| - |(cents : ℚ)| / 100)| ≤ |(cents : ℚ)| / 100 / 2 ^ 53 := by
    have habs : |(cents : ℚ) / 100| = |(cents : ℚ)| / 100 := by rw [abs_div]; norm_num
    rw [← habs]
    exact (abs_abs_sub_abs_le_abs_sub _ _).trans (herror.trans_eq (by rw [habs]))
  have hclose : |(|x| * 100) - (|cents| : ℤ)| < 1 / 2 := by
    have hscale : |x| * 100 - ((|cents| : ℤ) : ℚ) = (|x| - |(cents : ℚ)| / 100) * 100 := by
      push_cast
      ring
    rw [hscale, abs_mul]
    norm_num at hdiff hle ⊢
    linarith
  have hfloor : ⌊|x| * 100 + 1 / 2⌋ = |cents| := Binary64.mathRound_eq hclose
  rw [hundredths, hfloor, Int.abs_eq_natAbs, Int.toNat_natCast]

/-- An amount is shown to the cent. -/
theorem formatMoney_eq {cents : ℤ} (hcents : |cents| ≤ 2 ^ 50) :
    formatMoney cents = String.ofList (moneyChars (decide (cents < 0)) cents.natAbs) := by
  rw [formatMoney, money, hundredths_round hcents,
    decide_eq_decide.mpr (round_hundredth_neg_iff cents)]

/-! ## What is shown can be typed again -/

/-- Without the currency and the commas. -/
def isPlain (c : Char) : Bool := c ≠ '$' && c ≠ ','

def plain (text : String) : String := String.ofList (text.toList.filter isPlain)

theorem filter_separate (cs : List Char) : (separate cs).filter isPlain = cs.filter isPlain := by
  induction cs using separate.induct with
  | case1 a b c d cs ih =>
    have hcomma : isPlain ',' = false := by decide
    simp only [separate, List.filter_cons, ih, hcomma, Bool.false_eq_true, if_false]
  | case2 cs h => rw [separate.eq_2 cs h]

theorem isPlain_of_isDigit {c : Char} (h : c.isDigit = true) : isPlain c = true := by
  by_cases hdollar : c = '$'
  · subst hdollar
    cases h
  · by_cases hcomma : c = ','
    · subst hcomma
      cases h
    · simp [isPlain, hdollar, hcomma]

theorem isDigit_toDigits {n : ℕ} : ∀ c ∈ Nat.toDigits 10 n, c.isDigit = true :=
  fun _ hc => Nat.isDigit_of_mem_toDigits (by decide) (by decide) hc

theorem isDigit_pad (k n : ℕ) : ∀ c ∈ pad k n, c.isDigit = true := by
  induction k generalizing n with
  | zero => simp [pad]
  | succ k ih =>
    intro c hc
    rcases List.mem_append.mp hc with hold | hnew
    · exact ih _ c hold
    · rw [List.mem_singleton.mp hnew]
      have hlt : n % 10 < 10 := Nat.mod_lt n (by decide)
      interval_cases n % 10 <;> rfl

theorem filter_grouped (n : ℕ) : (grouped n).filter isPlain = Nat.toDigits 10 n := by
  rw [grouped, List.filter_reverse, filter_separate, List.filter_reverse, List.reverse_reverse]
  exact List.filter_eq_self.mpr fun c hc => isPlain_of_isDigit (isDigit_toDigits c hc)

theorem number_toDigits (n : ℕ) : number (Nat.toDigits 10 n) = some n := by
  induction n using Nat.strong_induction_on with
  | _ n ih =>
    by_cases hn : n < 10
    · rw [Nat.toDigits_of_lt_base hn]
      interval_cases n <;> rfl
    · have hsmaller : n / 10 < n := by omega
      have hdigit : n % 10 < 10 := Nat.mod_lt n (by decide)
      rw [Nat.toDigits_of_base_le (by decide) (by omega), number_append_digit, ih _ hsmaller,
        digitValue_digitChar hdigit]
      show some (10 * (n / 10) + n % 10) = some n
      rw [Nat.div_add_mod]

/-- Digits with two more behind them. -/
theorem number_append_pad {cs : List Char} {m k : ℕ} (hm : number cs = some m) (hk : k < 100) :
    number (cs ++ pad 2 k) = some (100 * m + k) := by
  have hpad : pad 2 k = [Nat.digitChar (k / 10 % 10)] ++ [Nat.digitChar (k % 10)] := rfl
  rw [hpad, ← List.append_assoc, number_append_digit, number_append_digit, hm,
    digitValue_digitChar (Nat.mod_lt _ (by decide)),
    digitValue_digitChar (Nat.mod_lt _ (by decide))]
  show some (10 * (10 * m + k / 10 % 10) + k % 10) = some (100 * m + k)
  congr 1
  omega

theorem takeWhile_digits {cs : List Char} (hcs : ∀ c ∈ cs, c.isDigit = true) (rest : List Char) :
    (cs ++ '.' :: rest).takeWhile Char.isDigit = cs ∧
      (cs ++ '.' :: rest).dropWhile Char.isDigit = '.' :: rest := by
  have hpoint : Char.isDigit '.' = false := by decide
  refine ⟨?_, ?_⟩
  · rw [List.takeWhile_append_of_pos hcs, List.takeWhile_cons, hpoint]
    simp
  · rw [List.dropWhile_append_of_pos hcs, List.dropWhile_cons, hpoint]
    simp

theorem readUnsigned_hundredths (n : ℕ) :
    readUnsigned (Nat.toDigits 10 (n / 100) ++ '.' :: pad 2 (n % 100)) = some ((n : ℚ) / 100) := by
  obtain ⟨htake, hdrop⟩ := takeWhile_digits (isDigit_toDigits (n := n / 100)) (pad 2 (n % 100))
  have hfraction : readFraction ('.' :: pad 2 (n % 100)) = (pad 2 (n % 100), []) := by
    simp only [readFraction]
    rw [List.takeWhile_eq_self_iff.mpr (isDigit_pad 2 _),
      List.dropWhile_eq_nil_iff.mpr (isDigit_pad 2 _)]
  have hne : Nat.toDigits 10 (n / 100) ++ pad 2 (n % 100) ≠ [] := by
    simp [Nat.toDigits_ne_nil]
  have hnumber := number_append_pad (number_toDigits (n / 100)) (Nat.mod_lt n (by decide))
  rw [Nat.div_add_mod] at hnumber
  simp only [readUnsigned, htake, hdrop, hfraction, if_neg hne, hnumber, length_pad]
  norm_num [readExponent]

theorem plain_moneyChars (negative : Bool) (n : ℕ) :
    plain (String.ofList (moneyChars negative n)) =
      String.ofList ((if negative then ['-'] else []) ++
        (Nat.toDigits 10 (n / 100) ++ '.' :: pad 2 (n % 100))) := by
  have hpad : (pad 2 (n % 100)).filter isPlain = pad 2 (n % 100) :=
    List.filter_eq_self.mpr fun c hc => isPlain_of_isDigit (isDigit_pad 2 _ c hc)
  have hpoint : isPlain '.' = true := by decide
  rw [plain, String.toList_ofList, moneyChars, List.filter_append, List.filter_append,
    filter_grouped, List.filter_cons, hpoint, if_pos rfl, hpad, List.append_assoc]
  cases negative <;> rfl

theorem numberValue_digits {cs : List Char} {n : ℕ} (hcs : cs = Nat.toDigits 10 n)
    (rest : List Char) : numberValue (String.ofList (cs ++ rest)) = readUnsigned (cs ++ rest) := by
  obtain ⟨c, cs', hcons⟩ := List.exists_cons_of_ne_nil (Nat.toDigits_ne_nil (n := n) (b := 10))
  have hdigit : c.isDigit = true := isDigit_toDigits (n := n) c (by rw [hcons]; simp)
  have hminus : c ≠ '-' := by
    rintro rfl
    cases hdigit
  rw [hcs, hcons, numberValue, String.toList_ofList, List.cons_append]
  split
  · next heq => cases heq
  · next heq =>
    obtain ⟨rfl, -⟩ := List.cons.inj heq
    exact (hminus rfl).elim
  · rfl

/-- What the page shows, typed into a price field, is the amount that was stored. -/
theorem numberValue_formatMoney {cents : ℤ} (hcents : |cents| ≤ 2 ^ 50) :
    numberValue (plain (formatMoney cents)) = some ((cents : ℚ) / 100) := by
  rw [formatMoney_eq hcents, plain_moneyChars]
  by_cases hneg : cents < 0
  · have habs : ((cents.natAbs : ℕ) : ℚ) = -cents := by
      rw [Nat.cast_natAbs, abs_of_neg hneg, Int.cast_neg]
    rw [decide_eq_true hneg, if_pos rfl, numberValue, String.toList_ofList]
    show (readUnsigned (Nat.toDigits 10 (cents.natAbs / 100) ++
      '.' :: pad 2 (cents.natAbs % 100))).map (fun q => -q) = _
    rw [readUnsigned_hundredths, Option.map_some, habs, neg_div, neg_neg]
  · have habs : ((cents.natAbs : ℕ) : ℚ) = cents := by
      rw [Nat.cast_natAbs, abs_of_nonneg (not_lt.mp hneg)]
    rw [decide_eq_false hneg, if_neg (by decide), List.nil_append, numberValue_digits rfl,
      readUnsigned_hundredths, habs]

/-- Every way to write an amount of whole cents is read as these cents, however many digits and
whatever exponent it has; the page shows them to the cent; and what it shows can be typed again. -/
theorem prices_are_exact (price : String) (cents : ℤ)
    (hprice : numberValue price = some ((cents : ℚ) / 100)) (hcents : |cents| ≤ 2 ^ 50) :
    toCents price = some cents ∧
    formatMoney cents = String.ofList (moneyChars (decide (cents < 0)) cents.natAbs) ∧
    toCents (plain (formatMoney cents)) = some cents :=
  ⟨toCents_eq hprice hcents, formatMoney_eq hcents,
    toCents_eq (numberValue_formatMoney hcents) hcents⟩

theorem prices_are_exact_8995 : toCents "89.95" = some 8995 ∧
    formatMoney 8995 = String.ofList (moneyChars false 8995) ∧
    toCents (plain (formatMoney 8995)) = some 8995 :=
  prices_are_exact "89.95" 8995 (by decide +kernel) (by decide)

example : formatMoney 1234567 = "$12,345.67" := by decide +kernel

end Stays

end NoOverlap
