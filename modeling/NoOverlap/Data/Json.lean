import Mathlib.Data.List.Basic

/-!
# Messages and their schemas

A message is a JavaScript value, sent as the text that `JSON.stringify` makes of it and read
by `JSON.parse`.  What the receiver gets is `v.json`: the fields that are `undefined` are
gone, and everything else is as it was.

A schema takes a value and gives what it stands for, or nothing.  The combinators are
those of a validator that refuses a value of another type, and passes over fields it does
not know.  Numbers here are integers.
-/

namespace Json

inductive Value where
  | undefined
  | null
  | bool (b : Bool)
  | number (n : Int)
  | string (s : String)
  | object (fields : List (String × Value))

namespace Value

mutual

/-- `JSON.parse(JSON.stringify(v))`. -/
def json : Value → Value
  | object fields => object (jsonFields fields)
  | v => v

def jsonFields : List (String × Value) → List (String × Value)
  | [] => []
  | (_, undefined) :: fields => jsonFields fields
  | (k, v) :: fields => (k, v.json) :: jsonFields fields

end

/-- A property, `undefined` where it is missing. -/
def get (v : Value) (k : String) : Value :=
  match v with
  | object fields => ((fields.find? fun f => f.1 == k).map (·.2)).getD undefined
  | _ => undefined

/-- A field that is there is sent. -/
theorem jsonFields_cons {k : String} {v : Value} {fields : List (String × Value)}
    (h : v ≠ undefined) : jsonFields ((k, v) :: fields) = (k, v.json) :: jsonFields fields := by
  cases v <;> first | exact (h rfl).elim | simp only [jsonFields]

mutual

/-- A value that has been sent once arrives unchanged when it is sent again. -/
theorem json_json (v : Value) : v.json.json = v.json := by
  cases v with
  | object fields => simp only [json, jsonFields_jsonFields fields]
  | _ => simp only [json]

theorem jsonFields_jsonFields (fields : List (String × Value)) :
    jsonFields (jsonFields fields) = jsonFields fields := by
  cases fields with
  | nil => simp only [jsonFields]
  | cons f fields =>
    obtain ⟨k, v⟩ := f
    have ih := jsonFields_jsonFields fields
    by_cases hv : v = undefined
    · subst hv
      simp only [jsonFields, ih]
    · have hjson : v.json ≠ undefined := by
        cases v <;> first | exact (hv rfl).elim | simp [json]
      rw [jsonFields_cons hv, jsonFields_cons hjson, json_json v, ih]

end

end Value

/-! ## Schemas -/

abbrev Schema (α : Type) := Value → Option α

namespace Schema

def string : Schema String
  | .string s => some s
  | _ => none

def literal (s : String) : Schema Unit
  | .string s' => if s' = s then some () else none
  | _ => none

def literalNumber (n : Int) : Schema Unit
  | .number n' => if n' = n then some () else none
  | _ => none

/-- A schema with a further check. -/
def refine {α : Type} (sch : Schema α) (check : α → Bool) : Schema α :=
  fun v => (sch v).filter check

/-- `z.string().min(1)`. -/
def nonempty : Schema String := string.refine fun s => s != ""

/-- `z.number().int()`, of safe integers only. -/
def int : Schema Int
  | .number n => if -9007199254740991 ≤ n ∧ n ≤ 9007199254740991 then some n else none
  | _ => none

/-- `typeof v === 'number' && Number.isInteger(v)`. -/
def integer : Schema Int
  | .number n => some n
  | _ => none

/-- `z.number().int().positive()`. -/
def positive : Schema Int := int.refine fun n => decide (0 < n)

def optional {α : Type} (sch : Schema α) : Schema (Option α)
  | .undefined => some none
  | v => (sch v).map some

/-- `z.object`, of which `fields` reads the properties. -/
def object {α : Type} (fields : (String → Value) → Option α) : Schema α
  | .object fs => fields (Value.object fs).get
  | _ => none

/-- The text of a UUID: five groups of hexadecimal digits, a version from 1 to 8 and the
variant of the standard, or the nil or the max UUID. -/
def isHex (c : Char) : Bool :=
  ('0' ≤ c && c ≤ '9') || ('a' ≤ c && c ≤ 'f') || ('A' ≤ c && c ≤ 'F')

/-- The digits at the places of a UUID's text. -/
def uuidPlaces : List (Char → Bool) :=
  let hex := List.replicate 4 isHex
  let dash := [fun c : Char => c == '-']
  hex ++ hex ++ dash ++ hex ++ dash ++ ((fun c => '1' ≤ c && c ≤ '8') :: List.replicate 3 isHex) ++
    dash ++ ((fun c => c == '8' || c == '9' || c == 'a' || c == 'b' || c == 'A' || c == 'B') ::
      List.replicate 3 isHex) ++ dash ++ hex ++ hex ++ hex

def isUuid (s : String) : Bool :=
  (s.length == uuidPlaces.length && (List.zipWith (fun p c => p c) uuidPlaces s.toList).all id) ||
    s == "00000000-0000-0000-0000-000000000000" || s == "ffffffff-ffff-ffff-ffff-ffffffffffff"

/-- `z.uuid()`. -/
def uuid : Schema String := string.refine isUuid

theorem uuid_string {s : String} (h : isUuid s = true) : uuid (.string s) = some s := by
  simp only [uuid, refine, string, Option.filter_some, h, if_true]

/-- The text of a UUID is not empty. -/
theorem ne_of_isUuid {s : String} (h : isUuid s = true) : s ≠ "" := by
  rintro rfl
  exact absurd h (by decide)

theorem nonempty_string {s : String} : nonempty (.string s) = if s ≠ "" then some s else none := by
  by_cases h : s = "" <;> simp [nonempty, refine, string, h]

end Schema

end Json
