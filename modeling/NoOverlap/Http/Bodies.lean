import NoOverlap.Holds.Total
import NoOverlap.Identity.Accounts

/-!
# What the pipes let through

The decorators of the request bodies beside those of a listing, and what a controller is
handed once the global `ValidationPipe` has passed a body.  A body that passes can be read:
after the pipe there is no second failure.
-/

namespace NoOverlap

namespace Http

open Json Platform
open Identity (LoginDto Role)
open Identity.Accounts (RegisterDto)

/-- The validators that the decorators name, and what a text of a request stands for. -/
structure Validators where
  /-- `isLength` with a least and a greatest length. -/
  isLength : Nat → Nat → String → Bool
  isEmail : String → Bool
  isUUID : String → Bool
  isDateString : String → Bool
  /-- The test of `ParseUUIDPipe`. -/
  isUUIDParam : String → Bool
  ofId : String → Id
  /-- `new Date(…)`. -/
  ofDate : String → JsDate

/-! ## Enumerations -/

def Role.ofName : String → Option Role
  | "GUEST" => some .guest
  | "HOST" => some .host
  | _ => none

def AvailabilityKind.ofName : String → Option AvailabilityKind
  | "OPEN" => some .opened
  | "CLOSED" => some .closed
  | _ => none

/-- `@IsEnum(…)`. -/
def isEnum {α : Type} (ofName : String → Option α) : Check :=
  isStringOf fun s => (ofName s).isSome

/-! ## The decorators -/

variable (v : Validators)

def RegisterDto.declared : Declared :=
  [("email", isStringOf v.isEmail), ("password", isStringOf (v.isLength 12 128)),
    ("role", isEnum Role.ofName)]

/-- The length of a password is nobody's business at a login. -/
def LoginDto.declared : Declared :=
  [("email", isStringOf v.isEmail), ("password", isStringOf fun _ => true)]

def CreateAvailabilityDto.declared : Declared :=
  [("startsAt", isStringOf v.isDateString), ("endsAt", isStringOf v.isDateString),
    ("kind", isEnum AvailabilityKind.ofName)]

def CreateReviewDto.declared : Declared :=
  [("reservationId", isStringOf v.isUUID), ("rating", isInt fun n => decide (1 ≤ n ∧ n ≤ 5)),
    ("body", isOptional (isStringOf (v.isLength 0 2000)))]

/-! ## What a controller is handed -/

/-- A value of an enumeration. -/
def enum {α : Type} (ofName : String → Option α) : Schema α :=
  fun x => (Schema.string x).bind ofName

/-- A property that may be missing, or `null`. -/
def nullable {α : Type} (sch : Schema α) : Schema (Option α)
  | .undefined | .null => some none
  | x => (sch x).map some

def RegisterDto.read (data : Value) : Option RegisterDto := do
  let email ← Schema.string (data.get "email")
  let password ← Schema.string (data.get "password")
  let role ← enum Role.ofName (data.get "role")
  pure { email := email, password := password, role := role }

def LoginDto.read (data : Value) : Option LoginDto := do
  let email ← Schema.string (data.get "email")
  let password ← Schema.string (data.get "password")
  pure { email := email, password := password }

def CreateAvailabilityDto.read (data : Value) : Option CreateAvailabilityDto := do
  let startsAt ← Schema.string (data.get "startsAt")
  let endsAt ← Schema.string (data.get "endsAt")
  let kind ← enum AvailabilityKind.ofName (data.get "kind")
  pure { startsAt := v.ofDate startsAt, endsAt := v.ofDate endsAt, kind := kind }

def CreateReviewDto.read (data : Value) : Option CreateReviewDto := do
  let reservationId ← Schema.string (data.get "reservationId")
  let rating ← Schema.integer (data.get "rating")
  let body ← nullable Schema.string (data.get "body")
  pure { reservationId := v.ofId reservationId, rating := rating, body := body }

/-- `buildValidationException`, but for the fields it lists. -/
def validationFailed : Err := .app .validationFailed (some "One or more fields are invalid.")

/-- `@Body()`. -/
def receive {α : Type} (declared : Declared) (read : Value → Option α) (body : Value) :
    Except Err α :=
  match pipe declared body with
  | none => .error validationFailed
  | some data =>
    match read data with
    | none => .error (.other "invalid value")
    | some dto => .ok dto

/-! ## What has passed can be read -/

section Read

variable {v} {body data : Value}

theorem enum_of_check {α : Type} {ofName : String → Option α} {x : Value}
    (h : isEnum ofName x = true) : ∃ a, enum ofName x = some a := by
  obtain ⟨s, rfl⟩ := string_of_check h
  exact Option.isSome_iff_exists.mp h

theorem int_of_check {within : Int → Bool} {x : Value} (h : isInt within x = true) :
    ∃ n, x = .number n ∧ within n = true := by
  cases x with
  | number n => exact ⟨n, rfl, h⟩
  | _ => cases h

/-- A text that may be missing, and has passed if it is there. -/
theorem nullable_of_check {check : String → Bool} {x : Value}
    (h : isOptional (isStringOf check) x = true) :
    ∃ b, nullable Schema.string x = some b ∧ b.all check = true := by
  cases x with
  | undefined => exact ⟨none, rfl, rfl⟩
  | null => exact ⟨none, rfl, rfl⟩
  | string s => exact ⟨some s, rfl, h⟩
  | _ => cases h

/-- The property that the `n`-th decorator is on. -/
theorem check_at {dto : Declared} (h : pipe dto body = some data) (n : Nat) {p : String × Check}
    (hp : dto[n]? = some p) : p.2 (data.get p.1) = true :=
  check_of_pipe h (List.mem_of_getElem? hp)

theorem RegisterDto.read_of_pipe (h : pipe (RegisterDto.declared v) body = some data) :
    ∃ dto, RegisterDto.read data = some dto ∧ v.isEmail dto.email = true ∧
      v.isLength 12 128 dto.password = true := by
  have hemail := check_at h 0 rfl
  have hpassword := check_at h 1 rfl
  obtain ⟨role, hrole⟩ := enum_of_check (check_at h 2 rfl)
  obtain ⟨e, he⟩ := string_of_check hemail
  obtain ⟨p, hp⟩ := string_of_check hpassword
  simp only [he] at hemail
  simp only [hp] at hpassword
  refine ⟨{ email := e, password := p, role := role }, ?_, hemail, hpassword⟩
  simp only [RegisterDto.read, he, hp, hrole]
  rfl

theorem LoginDto.read_of_pipe (h : pipe (LoginDto.declared v) body = some data) :
    ∃ dto, LoginDto.read data = some dto := by
  obtain ⟨e, he⟩ := string_of_check (check_at h 0 rfl)
  obtain ⟨p, hp⟩ := string_of_check (check_at h 1 rfl)
  refine ⟨{ email := e, password := p }, ?_⟩
  simp only [LoginDto.read, he, hp]
  rfl

theorem CreateAvailabilityDto.read_of_pipe
    (h : pipe (CreateAvailabilityDto.declared v) body = some data) :
    ∃ dto, CreateAvailabilityDto.read v data = some dto := by
  obtain ⟨a, ha⟩ := string_of_check (check_at h 0 rfl)
  obtain ⟨b, hb⟩ := string_of_check (check_at h 1 rfl)
  obtain ⟨kind, hkind⟩ := enum_of_check (check_at h 2 rfl)
  refine ⟨{ startsAt := v.ofDate a, endsAt := v.ofDate b, kind := kind }, ?_⟩
  simp only [CreateAvailabilityDto.read, ha, hb, hkind]
  rfl

/-- A review within its bounds. -/
def Reviewable (v : Validators) (rating : Int) (body : Option String) : Prop :=
  1 ≤ rating ∧ rating ≤ 5 ∧ body.all (v.isLength 0 2000) = true

instance (rating : Int) (body : Option String) : Decidable (Reviewable v rating body) :=
  inferInstanceAs (Decidable (_ ∧ _ ∧ _))

theorem CreateReviewDto.read_of_pipe (h : pipe (CreateReviewDto.declared v) body = some data) :
    ∃ dto, CreateReviewDto.read v data = some dto ∧ Reviewable v dto.rating dto.body := by
  obtain ⟨r, hr⟩ := string_of_check (check_at h 0 rfl)
  obtain ⟨n, hn, hwithin⟩ := int_of_check (check_at h 1 rfl)
  obtain ⟨b, hb, hlength⟩ := nullable_of_check (check_at h 2 rfl)
  have hbounds : 1 ≤ n ∧ n ≤ 5 := of_decide_eq_true hwithin
  refine ⟨{ reservationId := v.ofId r, rating := n, body := b }, ?_, hbounds.1, hbounds.2, hlength⟩
  simp only [CreateReviewDto.read, hr, hn, hb]
  rfl

/-- A handler that is handed something has been handed what the pipe let through. -/
theorem receive_eq_ok {α : Type} {declared : Declared} {read : Value → Option α} {dto : α}
    (h : receive declared read body = .ok dto) :
    ∃ data, pipe declared body = some data ∧ read data = some dto := by
  unfold receive at h
  cases hp : pipe declared body with
  | none => simp [hp] at h
  | some data =>
    cases hr : read data with
    | none => simp [hp, hr] at h
    | some dto' =>
      simp only [hp, hr, Except.ok.injEq] at h
      exact ⟨data, rfl, h ▸ hr⟩

/-- The pipe is the only thing that refuses a body. -/
theorem receive_error {α : Type} {declared : Declared} {read : Value → Option α} {e : Err}
    (hread : ∀ data, pipe declared body = some data → ∃ dto, read data = some dto)
    (h : receive declared read body = .error e) : e = validationFailed := by
  unfold receive at h
  cases hp : pipe declared body with
  | none =>
    simp only [hp, Except.error.injEq] at h
    exact h.symm
  | some data =>
    obtain ⟨dto, hr⟩ := hread data hp
    simp [hp, hr] at h

/-- Whatever a body was to be, if it is refused it has failed validation. -/
theorem refused_bodies {e : Err} :
    (receive (RegisterDto.declared v) RegisterDto.read body = .error e → e = validationFailed) ∧
    (receive (LoginDto.declared v) LoginDto.read body = .error e → e = validationFailed) ∧
    (receive (CreateAvailabilityDto.declared v) (CreateAvailabilityDto.read v) body = .error e →
      e = validationFailed) ∧
    (receive (CreateReviewDto.declared v) (CreateReviewDto.read v) body = .error e →
      e = validationFailed) := by
  refine ⟨receive_error fun data h => ?_, receive_error fun data h => LoginDto.read_of_pipe h,
    receive_error fun data h => CreateAvailabilityDto.read_of_pipe h,
    receive_error fun data h => ?_⟩
  · obtain ⟨dto, hread, -⟩ := RegisterDto.read_of_pipe h
    exact ⟨dto, hread⟩
  · obtain ⟨dto, hread, -⟩ := CreateReviewDto.read_of_pipe h
    exact ⟨dto, hread⟩

end Read

end Http

end NoOverlap
