import NoOverlap.Data.Document
import NoOverlap.Model.Schema

/-!
# Problems, as the API tells them

The error catalogue, the exceptions that name a code of it, and the one filter that renders
whatever a handler has thrown.  A code is told by the last segment of a URI, in lower case and
with dashes; `slug` is that transformation on any text.
-/

namespace NoOverlap

namespace Problems

/-! ## The catalogue -/

/-- The keys of `ERROR_CATALOG`. -/
inductive Code where
  | validationFailed
  | unauthenticated
  | forbidden
  | notFound
  | emailAlreadyExists
  | reservationSlotTaken
  | rateLimited
  | internal
  | invalidCredentials
  | invalidStateTransition
  | listingHasBookings
  | reviewStayNotFinished
  | reviewAlreadyExists
  deriving DecidableEq, Repr

def Code.key : Code → String
  | validationFailed => "VALIDATION_FAILED"
  | unauthenticated => "UNAUTHENTICATED"
  | forbidden => "FORBIDDEN"
  | notFound => "NOT_FOUND"
  | emailAlreadyExists => "EMAIL_ALREADY_EXISTS"
  | reservationSlotTaken => "RESERVATION_SLOT_TAKEN"
  | rateLimited => "RATE_LIMITED"
  | internal => "INTERNAL"
  | invalidCredentials => "INVALID_CREDENTIALS"
  | invalidStateTransition => "INVALID_STATE_TRANSITION"
  | listingHasBookings => "LISTING_HAS_BOOKINGS"
  | reviewStayNotFinished => "REVIEW_STAY_NOT_FINISHED"
  | reviewAlreadyExists => "REVIEW_ALREADY_EXISTS"

structure Entry where
  status : Nat
  title : String

def errorCatalog : Code → Entry
  | .validationFailed => ⟨400, "Validation failed"⟩
  | .unauthenticated => ⟨401, "Authentication required"⟩
  | .forbidden => ⟨403, "Forbidden"⟩
  | .notFound => ⟨404, "Resource not found"⟩
  | .emailAlreadyExists => ⟨409, "Email already registered"⟩
  | .reservationSlotTaken => ⟨409, "Reservation slot no longer available"⟩
  | .rateLimited => ⟨429, "Too many requests"⟩
  | .internal => ⟨500, "Internal server error"⟩
  | .invalidCredentials => ⟨401, "Invalid credentials"⟩
  | .invalidStateTransition => ⟨409, "Reservation cannot change to that state"⟩
  | .listingHasBookings => ⟨409, "Listing has bookings and cannot be deleted"⟩
  | .reviewStayNotFinished => ⟨409, "Stay has not finished"⟩
  | .reviewAlreadyExists => ⟨409, "Reservation already reviewed"⟩

def problemBaseUri : String := "https://nooverlap.ashfak.dev/problems"

/-- `code.toLowerCase().replace(/_/g, '-')`. -/
def slug (code : List Char) : List Char := code.map fun c => if c = '_' then '-' else c.toLower

def problemTypeUri (code : Code) : String :=
  problemBaseUri ++ "/" ++ String.ofList (slug code.key.toList)

/-! ## Exceptions -/

structure FieldError where
  field : String
  message : String
  deriving DecidableEq

structure AppException where
  code : Code
  detail : Option String
  errors : Option (List FieldError)

def AppException.status (e : AppException) : Nat := (errorCatalog e.code).status

def AppException.title (e : AppException) : String := (errorCatalog e.code).title

/-- What class-validator reports.  The constraints are the values of its object, in order. -/
inductive ValidationError where
  | mk (property : String) (constraints : Option (List String)) (children : List ValidationError)

/-- `parent ? ... : ...`: the empty text is as good as none. -/
def joinPath (parent property : String) : String :=
  if parent = "" then property else parent ++ "." ++ property

mutual

/-- `flatten`, one error after the other. -/
def flatten (parent : String) : List ValidationError → List FieldError
  | [] => []
  | err :: errors => flattenOne parent err ++ flatten parent errors

/-- The body of its loop. -/
def flattenOne (parent : String) : ValidationError → List FieldError
  | ⟨property, constraints, children⟩ =>
    let field := joinPath parent property
    ((constraints.getD []).map fun message => { field := field, message := message }) ++
      flatten field children

end

def buildValidationException (errors : List ValidationError) : AppException :=
  { code := .validationFailed
    detail := some "One or more fields are invalid."
    errors := some (flatten "" errors) }

/-- `exception.getResponse()`: a text, or an object whose `message`, if that is truthy, prints as
`message`. -/
inductive HttpResponse where
  | text (s : String)
  | body (message : Option String)

structure HttpException where
  name : String
  status : Nat
  response : HttpResponse
  message : String

/-- What a handler throws: one of ours, one of the framework, or anything else, of which the
filter sees no more than the stack it logs. -/
inductive Thrown where
  | app (e : AppException)
  | http (e : HttpException)
  | other (stack : String)

/-! ## The filter -/

structure ProblemDetails where
  type : String
  title : String
  status : Nat
  detail : Option String
  instance' : String
  errors : Option (List FieldError)

def toProblem (exception : Thrown) (instance' : String) : ProblemDetails :=
  match exception with
  | .app e =>
    { type := problemTypeUri e.code, title := e.title, status := e.status, detail := e.detail
      instance' := instance', errors := e.errors }
  | .http e =>
    let detail := match e.response with
      | .text s => s
      | .body (some message) => message
      | .body none => e.message
    { type := "about:blank", title := e.name, status := e.status, detail := some detail
      instance' := instance', errors := none }
  | .other _ =>
    { type := problemTypeUri .internal, title := (errorCatalog .internal).title, status := 500
      detail := none, instance' := instance', errors := none }

def FieldError.document (e : FieldError) : Document :=
  .object [("field", .string e.field), ("message", .string e.message)]

/-- `res.json(problem)`, which leaves out what is `undefined`. -/
def ProblemDetails.document (p : ProblemDetails) : Document :=
  .object ([("type", .string p.type), ("title", .string p.title), ("status", .number p.status)] ++
    (p.detail.map fun d => ("detail", .string d)).toList ++ [("instance", .string p.instance')] ++
    (p.errors.map fun es => ("errors", .array (es.map FieldError.document))).toList)

structure Answer where
  status : Nat
  contentType : String
  body : Document
  /-- What is logged as an error. -/
  logged : Option String

/-- `catch`, for a request with this `x-request-id`. -/
def ProblemDetailsFilter.answer (exception : Thrown) (requestId : Option String)
    (randomUUID : String) : Answer :=
  let instance' := requestId.getD randomUUID
  let problem := toProblem exception instance'
  { status := problem.status
    contentType := "application/problem+json"
    body := problem.document
    logged := if 500 ≤ problem.status then
        some (toString problem.status ++ " " ++ problem.title ++ " [" ++ instance' ++ "]")
      else none }

/-! ## What the services throw -/

end Problems

open Problems

def ErrorCode.code : ErrorCode → Problems.Code
  | validationFailed => .validationFailed
  | unauthenticated => .unauthenticated
  | invalidCredentials => .invalidCredentials
  | forbidden => .forbidden
  | notFound => .notFound
  | reservationSlotTaken => .reservationSlotTaken
  | invalidStateTransition => .invalidStateTransition
  | listingHasBookings => .listingHasBookings
  | reviewStayNotFinished => .reviewStayNotFinished
  | reviewAlreadyExists => .reviewAlreadyExists

/-- A failure of a modelled call, as the filter sees it.  Whatever a driver, a client or a provider
throws is none of our exceptions. -/
def Err.thrown : Err → Thrown
  | app code detail => .app { code := code.code, detail := detail, errors := none }
  | driver code originalCode => .other (toString (originalCode.or code))
  | known code => .other code
  | transient => .other "transient"
  | other message => .other message

/-- The status an error is answered with. -/
def Err.httpStatus : Err → Nat
  | app code _ => (errorCatalog code.code).status
  | _ => 500

theorem Err.status_toProblem (e : Err) (instance' : String) :
    (toProblem e.thrown instance').status = e.httpStatus := by
  cases e <;> rfl

namespace Problems

/-! ## Paths -/

mutual

/-- The nodes of a tree of errors in the order in which they are visited, each with the names that
lead to it. -/
def nodes (path : List String) : List ValidationError → List (List String × List String)
  | [] => []
  | err :: errors => nodesOne path err ++ nodes path errors

def nodesOne (path : List String) : ValidationError → List (List String × List String)
  | ⟨property, constraints, children⟩ =>
    (path ++ [property], constraints.getD []) :: nodes (path ++ [property]) children

end

/-- The names of a path, with dots between them. -/
def dotted (path : List String) : String := path.foldl joinPath ""

theorem dotted_snoc (path : List String) (property : String) :
    dotted (path ++ [property]) = joinPath (dotted path) property := by
  simp [dotted]

/-- What is said of one node. -/
def Says (node : List String × List String) : List FieldError :=
  node.2.map fun message => { field := dotted node.1, message := message }

mutual

/-- The list has one entry for every message of every node, under the dotted path of the node. -/
theorem flatten_eq (path : List String) (errors : List ValidationError) :
    flatten (dotted path) errors = (nodes path errors).flatMap Says := by
  cases errors with
  | nil => simp only [flatten, nodes, List.flatMap_nil]
  | cons err errors =>
    rw [flatten, nodes, flattenOne_eq path err, flatten_eq path errors, List.flatMap_append]

theorem flattenOne_eq (path : List String) (err : ValidationError) :
    flattenOne (dotted path) err = (nodesOne path err).flatMap Says := by
  cases err with
  | mk property constraints children =>
    have hchildren := flatten_eq (path ++ [property]) children
    rw [dotted_snoc] at hchildren
    rw [flattenOne, nodesOne, List.flatMap_cons, hchildren, Says, dotted_snoc]

end

end Problems

end NoOverlap
