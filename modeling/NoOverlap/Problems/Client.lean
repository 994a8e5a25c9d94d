import NoOverlap.Browser.ApiClient
import NoOverlap.Data.Document

/-!
# Problems, as the browser reads them

`problem.ts`, and what `apiFetch` makes of the responses to its requests.  The body of a response
is whatever a server or a gateway has sent, so nothing is known of its fields: `none` where it is
not JSON at all.  `ApiClient.apiFetch` is the same function, taken apart into its statements.
-/

namespace NoOverlap

namespace Problems

/-- `type.split('/').pop()`. -/
def lastSegment (type : List Char) : List Char :=
  (type.reverse.takeWhile fun c => c ≠ '/').reverse

/-- `slug.toUpperCase()`, on the letters of a URI, and with underscores for the dashes. -/
def unslug (slug : List Char) : List Char := slug.map fun c => if c = '-' then '_' else c.toUpper

/-- The code is cast, whatever it is. -/
def codeFromType (type : String) : String :=
  let code := unslug (lastSegment type.toList)
  if code = [] then "UNKNOWN" else String.ofList code

structure ApiError where
  problem : Document
  code : String
  message : String

/-- The constructor, which throws where `type` has no `split` or the message no text. -/
def ApiError.ofProblem (problem : Document) : Option ApiError :=
  match problem.get "type", Document.orElse (problem.get "detail") (problem.get "title") with
  | some (.string type), some d =>
    d.text.map fun message =>
      { problem := problem, code := codeFromType type, message := message }
  | some (.string type), none =>
    some { problem := problem, code := codeFromType type, message := "" }
  | _, _ => none

def ApiError.status (e : ApiError) : Option Document := e.problem.get "status"

/-- An element of `errors` that has the two texts. -/
def readFieldError (d : Document) : Option (String × String) :=
  match d.get "field", d.get "message" with
  | some (.string field), some (.string message) => some (field, message)
  | _, _ => none

/-- The getter `fieldErrors`, of a problem whose `errors` are what they are declared to be. -/
def ApiError.fieldErrors (e : ApiError) : Option (List (String × String)) :=
  match e.problem.get "errors" with
  | none | some .null => some []
  | some (.array ds) =>
    (ds.mapM readFieldError).map fun errors =>
      errors.foldl (fun out f => Record.assign out f.1 f.2) []
  | some _ => none

/-- A response, as `fetch` gives it. -/
structure Res where
  status : Nat
  statusText : String
  /-- `headers.get('content-length') === '0'`. -/
  empty : Bool
  body : Option Document

def Res.ok (res : Res) : Bool := decide (200 ≤ res.status ∧ res.status ≤ 299)

/-- The problem that stands for a response without one. -/
def syntheticProblem (res : Res) : Document :=
  .object [("type", .string "about:blank"),
    ("title", .string (if res.statusText = "" then "Request failed" else res.statusText)),
    ("status", .number res.status), ("instance", .string "")]

def readProblem (res : Res) : Document :=
  match res.body with
  | some body =>
    if Document.isString (body.get "title") && Document.isNumber (body.get "status") then body
    else syntheticProblem res
  | none => syntheticProblem res

/-- `throw new ApiError(await readProblem(res))`; `none` where something else is thrown. -/
def failure (res : Res) : Option ApiError := ApiError.ofProblem (readProblem res)

/-- What a call of `apiFetch` returns, `none` for `undefined`, or else throws: `none` where it is no
`ApiError`. -/
abbrev Outcome := Except (Option ApiError) (Option Document)

/-- `apiFetch`, once it is settled which response counts. -/
def finish (res : Res) : Outcome :=
  if !res.ok then .error (failure res)
  else if res.status = 204 ∨ res.empty = true then .ok none
  else match res.body with
    | some body => .ok (some body)
    | none => .error none

/-- `apiFetch`, where the first request is answered by `res`, the refresh has this result, and the
request that is sent after it is answered by `again`: `none` where `fetch` rejects it.  The second
run has `retryOnUnauthorized: false`, so that it goes to its end whatever it is answered. -/
def apiFetch (path : String) (retryOnUnauthorized refreshed : Bool) (res : Res)
    (again : Option Res) : Outcome :=
  if res.status = 401 ∧ retryOnUnauthorized = true ∧ path ∉ ApiClient.credentialPaths ∧
      refreshed = true then
    match again with
    | some res => finish res
    | none => .error none
  else finish res

theorem apiFetch_false (path : String) (refreshed : Bool) (res : Res) (again : Option Res) :
    apiFetch path false refreshed res again = finish res :=
  if_neg fun h => Bool.false_ne_true h.2.1

/-- `retry` of the query client, for an error with this status or one that is no `ApiError`. -/
def retry (failureCount : Nat) (status : Option Nat) : Bool :=
  match status with
  | some n => if n < 500 then false else decide (failureCount < 2)
  | none => decide (failureCount < 2)

end Problems

end NoOverlap
