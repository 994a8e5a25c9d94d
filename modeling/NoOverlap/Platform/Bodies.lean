import NoOverlap.Data.Json
import NoOverlap.Platform.Tables

/-!
# Request bodies

What a controller receives is the body behind the global `ValidationPipe`: an object that
has kept the properties its DTO declares, each of which has passed the checks declared for
it.  The services hand that object to Prisma as it is, and Prisma writes every column it has
a property for.  `write` and `insert` say so, over all columns.

`UpdateListingDto.read` and `CreateListingDto.read` are what comes out for a body that has
been through the pipe: neither the host nor the id of a listing can be written.
-/

namespace NoOverlap

namespace Platform

open Json

/-! ## ValidationPipe -/

/-- The decorators of one property, taken together. -/
abbrev Check := Value → Bool

/-- `@IsOptional()` passes over `undefined` and `null`. -/
def isOptional (check : Check) : Check
  | .undefined | .null => true
  | v => check v

/-- `@IsString()` with `@MinLength(1)` and `@MaxLength(120)`. -/
def isText (isLength : Nat → Nat → String → Bool) : Check
  | .string s => isLength 1 120 s
  | _ => false

/-- `@IsInt()` with bounds. -/
def isInt (within : Int → Bool) : Check
  | .number n => within n
  | _ => false

def isBoolean : Check
  | .bool _ => true
  | _ => false

/-- The declared properties of a DTO and their checks. -/
abbrev Declared := List (String × Check)

/-- `PartialType`. -/
def Declared.partialType (dto : Declared) : Declared := dto.map fun p => (p.1, isOptional p.2)

/-- `whitelist: true`. -/
def whitelist (dto : Declared) (fields : List (String × Value)) : List (String × Value) :=
  fields.filter fun f => (dto.map (·.1)).contains f.1

def pipe (dto : Declared) : Value → Option Value
  | .object fields =>
    let data := Value.object (whitelist dto fields)
    if dto.all fun p => p.2 (data.get p.1) then some data else none
  | _ => none

theorem get_object {fields : List (String × Value)} {k : String} :
    (Value.object fields).get k =
      ((fields.find? fun f => f.1 == k).map (·.2)).getD .undefined := rfl

/-- A property that the DTO does not declare is gone. -/
theorem get_of_pipe {dto : Declared} {body data : Value} (h : pipe dto body = some data)
    {k : String} (hk : k ∉ dto.map (·.1)) : data.get k = .undefined := by
  cases body with
  | object fields =>
    simp only [pipe] at h
    split_ifs at h
    cases h
    have hnone : (whitelist dto fields).find? (fun f => f.1 == k) = none := by
      refine List.find?_eq_none.mpr fun f hf hfk => hk ?_
      have hdeclared := (List.mem_filter.mp hf).2
      rw [beq_iff_eq.mp hfk] at hdeclared
      exact List.contains_iff_mem.mp hdeclared
    rw [get_object, hnone]
    rfl
  | _ => cases h

/-- Every property has passed its check. -/
theorem check_of_pipe {dto : Declared} {body data : Value} (h : pipe dto body = some data)
    {p : String × Check} (hp : p ∈ dto) : p.2 (data.get p.1) = true := by
  cases body with
  | object fields =>
    simp only [pipe] at h
    split_ifs at h with hall
    cases h
    exact List.all_eq_true.mp hall p hp
  | _ => cases h

/-! ## Columns -/

/-- A column that `data` has no property for keeps its value. -/
def column {α : Type} (sch : Schema α) (current : α) : Schema α
  | .undefined => some current
  | v => sch v

def boolean : Schema Bool
  | .bool b => some b
  | _ => none

/-- A text that stands for something else, an id or a time. -/
def text {α : Type} (read : String → Option α) : Schema α := fun v => (Schema.string v).bind read

theorem column_eq {α : Type} (sch : Schema α) (current : α) (v : Value) :
    column sch current v = (Schema.optional sch v).map fun x => x.getD current := by
  cases v <;> simp [column, Schema.optional]

section Columns

variable (ofId : String → Option Id) (ofDate : String → Option Int)

/-- `listing.update`: the row with every column that `data` has a property for written. -/
def write (data : Value) (l : ListingRow) : Option ListingRow := do
  let id ← column (text ofId) l.id (data.get "id")
  let hostId ← column (text ofId) l.hostId (data.get "hostId")
  let title ← column Schema.string l.title (data.get "title")
  let city ← column Schema.string l.city (data.get "city")
  let nightlyPriceCents ← column Schema.integer l.nightlyPriceCents (data.get "nightlyPriceCents")
  let maxGuests ← column Schema.integer l.maxGuests (data.get "maxGuests")
  let active ← column boolean l.active (data.get "active")
  let createdAt ← column (text ofDate) l.createdAt (data.get "createdAt")
  pure { id := id, hostId := hostId, title := title, city := city,
         nightlyPriceCents := nightlyPriceCents, maxGuests := maxGuests, active := active,
         createdAt := createdAt }

/-- `listing.create`, with the defaults of the schema. -/
def insert (id : Id) (now : Int) (data : Value) : Option ListingRow := do
  let id ← column (text ofId) id (data.get "id")
  let hostId ← text ofId (data.get "hostId")
  let title ← Schema.string (data.get "title")
  let city ← Schema.string (data.get "city")
  let nightlyPriceCents ← Schema.integer (data.get "nightlyPriceCents")
  let maxGuests ← Schema.integer (data.get "maxGuests")
  let active ← column boolean true (data.get "active")
  let createdAt ← column (text ofDate) now (data.get "createdAt")
  pure { id := id, hostId := hostId, title := title, city := city,
         nightlyPriceCents := nightlyPriceCents, maxGuests := maxGuests, active := active,
         createdAt := createdAt }

end Columns

/-- `{ ...data, k: v }`. -/
def spread (data : Value) (k : String) (v : Value) : Value :=
  match data with
  | .object fields => .object ((k, v) :: fields.filter fun f => f.1 != k)
  | _ => .object [(k, v)]

theorem get_spread_self (data : Value) (k : String) (v : Value) : (spread data k v).get k = v := by
  cases data <;> simp [spread, get_object]

theorem get_spread_ne {fields : List (String × Value)} {k k' : String} (hk : k ≠ k') (v : Value) :
    (spread (.object fields) k v).get k' = (Value.object fields).get k' := by
  have hfind : (fields.filter fun f => f.1 != k).find? (fun f => f.1 == k') =
      fields.find? fun f => f.1 == k' := by
    rw [List.find?_filter]
    congr 1
    funext f
    by_cases hf : f.1 = k'
    · simp [hf, Ne.symm hk]
    · simp [hf]
  simp [spread, get_object, hk, hfind]

/-! ## The DTOs of a listing -/

/-- The decorators of `CreateListingDto`. -/
def CreateListingDto.declared (isLength : Nat → Nat → String → Bool) : Declared :=
  [("title", isText isLength), ("city", isText isLength),
    ("nightlyPriceCents", isInt fun n => decide (0 ≤ n)),
    ("maxGuests", isInt fun n => decide (1 ≤ n ∧ n ≤ 64)), ("active", isOptional isBoolean)]

/-- `PartialType(CreateListingDto)`. -/
def UpdateListingDto.declared (isLength : Nat → Nat → String → Bool) : Declared :=
  (CreateListingDto.declared isLength).partialType

/-- The data of an update.  Prisma refuses a `null`. -/
def UpdateListingDto.read (data : Value) : Option UpdateListingDto := do
  let title ← Schema.optional Schema.string (data.get "title")
  let city ← Schema.optional Schema.string (data.get "city")
  let nightlyPriceCents ← Schema.optional Schema.integer (data.get "nightlyPriceCents")
  let maxGuests ← Schema.optional Schema.integer (data.get "maxGuests")
  let active ← Schema.optional boolean (data.get "active")
  pure { title := title, city := city, nightlyPriceCents := nightlyPriceCents,
         maxGuests := maxGuests, active := active }

def CreateListingDto.read (data : Value) : Option CreateListingDto := do
  let title ← Schema.string (data.get "title")
  let city ← Schema.string (data.get "city")
  let nightlyPriceCents ← Schema.integer (data.get "nightlyPriceCents")
  let maxGuests ← Schema.integer (data.get "maxGuests")
  let active ← Schema.optional boolean (data.get "active")
  pure { title := title, city := city, nightlyPriceCents := nightlyPriceCents,
         maxGuests := maxGuests, active := active }

/-- The row that `create` inserts. -/
def CreateListingDto.row (dto : CreateListingDto) (id hostId : Id) (now : Int) : ListingRow :=
  { id := id, hostId := hostId, title := dto.title, city := dto.city,
    nightlyPriceCents := dto.nightlyPriceCents, maxGuests := dto.maxGuests,
    active := dto.active.getD true, createdAt := now }

variable {isLength : Nat → Nat → String → Bool} {ofId : String → Option Id}
  {ofDate : String → Option Int} {body data : Value}

theorem CreateListingDto.names :
    (CreateListingDto.declared isLength).map (·.1) =
      ["title", "city", "nightlyPriceCents", "maxGuests", "active"] := rfl

theorem UpdateListingDto.names :
    (UpdateListingDto.declared isLength).map (·.1) =
      ["title", "city", "nightlyPriceCents", "maxGuests", "active"] := rfl

/-- A body that has been through the pipe writes the declared columns and no other. -/
theorem write_of_pipe (h : pipe (UpdateListingDto.declared isLength) body = some data)
    (l : ListingRow) :
    write ofId ofDate data l = (UpdateListingDto.read data).map fun dto => dto.apply l := by
  have hid : data.get "id" = .undefined := get_of_pipe h (by simp [UpdateListingDto.names])
  have hhost : data.get "hostId" = .undefined := get_of_pipe h (by simp [UpdateListingDto.names])
  have hcreated : data.get "createdAt" = .undefined :=
    get_of_pipe h (by simp [UpdateListingDto.names])
  have habsent : ∀ {α : Type} (sch : Schema α) (current : α),
      column sch current .undefined = some current := fun _ _ => rfl
  simp only [write, UpdateListingDto.read, hid, hhost, hcreated, habsent, column_eq]
  cases Schema.optional Schema.string (data.get "title") <;>
    cases Schema.optional Schema.string (data.get "city") <;>
    cases Schema.optional Schema.integer (data.get "nightlyPriceCents") <;>
    cases Schema.optional Schema.integer (data.get "maxGuests") <;>
    cases Schema.optional boolean (data.get "active") <;> rfl

/-- A new listing belongs to the host that `create` names, whatever the body says. -/
theorem insert_of_pipe (h : pipe (CreateListingDto.declared isLength) body = some data)
    {host : String} {hostId : Id} (hhost : ofId host = some hostId) (id : Id) (now : Int) :
    insert ofId ofDate id now (spread data "hostId" (.string host)) =
      (CreateListingDto.read data).map fun dto => dto.row id hostId now := by
  have hid : data.get "id" = .undefined := get_of_pipe h (by simp [CreateListingDto.names])
  have hcreated : data.get "createdAt" = .undefined :=
    get_of_pipe h (by simp [CreateListingDto.names])
  have habsent : ∀ {α : Type} (sch : Schema α) (current : α),
      column sch current .undefined = some current := fun _ _ => rfl
  have hspread : ∀ k, "hostId" ≠ k → (spread data "hostId" (.string host)).get k = data.get k := by
    intro k hk
    cases data with
    | object fields => exact get_spread_ne hk _
    | _ => simp [spread, hk, Value.get]
  have howner : text ofId (.string host) = some hostId := hhost
  simp only [insert, CreateListingDto.read, get_spread_self, howner, hspread "id" (by decide),
    hspread "title" (by decide), hspread "city" (by decide),
    hspread "nightlyPriceCents" (by decide), hspread "maxGuests" (by decide),
    hspread "active" (by decide), hspread "createdAt" (by decide), hid, hcreated, habsent, column_eq]
  cases Schema.string (data.get "title") <;> cases Schema.string (data.get "city") <;>
    cases Schema.integer (data.get "nightlyPriceCents") <;>
    cases Schema.integer (data.get "maxGuests") <;>
    cases Schema.optional boolean (data.get "active") <;> rfl

end Platform

end NoOverlap
