import Mathlib.Data.List.Basic

/-!
# Documents

What `JSON.parse` can return.  The text of a document is what `String` makes of it, and there is
none where the conversion throws: an object whose own `toString` is data cannot be called.

A `Record` is a plain object that has been filled by name, so that the names which every object
inherits never count as missing.  Numbers here are integers.
-/

inductive Document where
  | null
  | bool (b : Bool)
  | number (n : Int)
  | string (s : String)
  | array (ds : List Document)
  | object (fields : List (String × Document))

namespace Document

/-- A property, where there is one. -/
def get (d : Document) (k : String) : Option Document :=
  match d with
  | object fields => (fields.find? fun f => f.1 == k).map (·.2)
  | _ => none

/-- `d ?? d'`, where `none` is `undefined`. -/
def orElse : Option Document → Option Document → Option Document
  | none, d' | some null, d' => d'
  | some d, _ => some d

/-- `typeof d === 'string'`. -/
def isString : Option Document → Bool
  | some (string _) => true
  | _ => false

/-- `typeof d === 'number'`. -/
def isNumber : Option Document → Bool
  | some (number _) => true
  | _ => false

mutual

/-- `String(d)`. -/
def text : Document → Option String
  | null => some "null"
  | bool b => some (if b then "true" else "false")
  | number n => some (toString n)
  | string s => some s
  | array ds => (texts ds).map (String.intercalate ",")
  | object fields =>
    if fields.any (fun f => f.1 == "toString") then none else some "[object Object]"

/-- The elements of an array, of which `join` leaves out `null`. -/
def texts : List Document → Option (List String)
  | [] => some []
  | null :: ds => (texts ds).map ("" :: ·)
  | d :: ds => (text d).bind fun s => (texts ds).map (s :: ·)

end

end Document

/-! ## Records -/

namespace Record

/-- The properties of `Object.prototype`. -/
def inherited : List String :=
  ["constructor", "__defineGetter__", "__defineSetter__", "hasOwnProperty", "__lookupGetter__",
    "__lookupSetter__", "isPrototypeOf", "propertyIsEnumerable", "toString", "valueOf",
    "__proto__", "toLocaleString"]

variable {α : Type}

/-- `out[k] ??= v`, for values that are not nullish. -/
def assign (out : List (String × α)) (k : String) (v : α) : List (String × α) :=
  if inherited.contains k || (out.lookup k).isSome then out else out ++ [(k, v)]

theorem lookup_assign (out : List (String × α)) (k k' : String) (v : α) :
    (assign out k v).lookup k' =
      (out.lookup k').or (if k' = k ∧ k ∉ inherited then some v else none) := by
  by_cases hin : k ∈ inherited
  · simp [assign, hin]
  · cases hk : out.lookup k with
    | some w =>
      by_cases hkk : k' = k
      · subst hkk
        simp [assign, hk]
      · simp [assign, hk, hkk]
    | none =>
      have hassign : assign out k v = out ++ [(k, v)] := by simp [assign, hin, hk]
      rw [hassign, List.lookup_append]
      by_cases hkk : k' = k
      · simp [hkk, hin]
      · have hb : (k' == k) = false := beq_eq_false_iff_ne.mpr hkk
        simp [hkk, List.lookup_cons, hb]

/-- Filled from a list, a record holds the first value for each name that nothing inherits. -/
theorem lookup_foldl_assign (l : List (String × α)) (out : List (String × α)) (k : String) :
    (l.foldl (fun out f => assign out f.1 f.2) out).lookup k =
      (out.lookup k).or (if k ∈ inherited then none else l.lookup k) := by
  induction l generalizing out with
  | nil => simp
  | cons f l ih =>
    obtain ⟨k', v⟩ := f
    rw [List.foldl_cons, ih, lookup_assign]
    by_cases hin : k ∈ inherited
    · by_cases hkk : k = k'
      · subst hkk
        simp [hin]
      · simp [hin, hkk]
    · by_cases hkk : k = k'
      · subst hkk
        cases out.lookup k <;> simp [hin]
      · have hb : (k == k') = false := beq_eq_false_iff_ne.mpr hkk
        simp [hin, hkk, List.lookup_cons, hb]

end Record
