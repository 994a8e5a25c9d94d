import NoOverlap.Concurrency.Memory
import NoOverlap.Data.Json

/-!
# The API client of one page

`apiFetch`, `restoreSession` and the refresh they share, against a network that answers whatever
it likes: any status, any body, a body that does not parse, a rejection, in any order.

JavaScript runs without a break between two awaits.  A statement below is what lies between two of
them: reading the token and sending a request is one, looking for a refresh in flight and starting
one is another, and so are the last steps of a refresh, which set the token, free the slot and
settle the promise.  The promise that callers share is the number of its request and the record of
how it was settled.  A request that `fetch` refuses is one whose answer is a rejection.

The function that runs a refresh is started by the call that finds the slot empty, and the thread
of that call runs it here.  `sender`, `refresh`, `body` and `epoch` are history variables.
-/

namespace NoOverlap.ApiClient

open Json (Value)

/-! ## Requests and responses -/

inductive Method where
  | get
  | post
  | patch
  | delete
  deriving DecidableEq

structure RequestOptions where
  method : Method := .get
  body : Value := .undefined
  retryOnUnauthorized : Bool := true

structure Request where
  method : Method
  url : String
  contentType : Option String
  /-- The token of `Bearer ${token}`. -/
  authorization : Option Value
  /-- What `JSON.stringify` has been given. -/
  body : Option Value

structure Response where
  status : Nat
  statusText : String
  /-- `headers.get('content-length')`. -/
  contentLength : Option String

def Response.ok (r : Response) : Bool := decide (200 ≤ r.status ∧ r.status < 300)

/-- What a promise is rejected with. -/
inductive Thrown where
  | rejection (reason : String)
  | typeError
  | apiError (problem : Value)

/-- The values an `if` takes for true. -/
def truthy : Value → Bool
  | .undefined | .null => false
  | .bool b => b
  | .number n => n != 0
  | .string s => s != ""
  | .object _ => true

def base : String := "/api"

/-- `CREDENTIAL_PATHS`. -/
def credentialPaths : List String := ["/auth/login", "/auth/register", "/auth/refresh"]

/-- The token a request carries, if there is one. -/
def bearer (token : Value) : Option Value := if truthy token then some token else none

/-- The request of `apiFetch`. -/
def ownRequest (token : Value) (path : String) (o : RequestOptions) : Request :=
  { method := o.method
    url := base ++ path
    contentType := match o.body with
      | .undefined => none
      | _ => some "application/json"
    authorization := bearer token
    body := match o.body with
      | .undefined => none
      | body => some body.json }

/-- The request of a refresh. -/
def refreshRequest : Request :=
  { method := .post, url := base ++ "/auth/refresh", contentType := none, authorization := none,
    body := none }

/-! ## The state of a page -/

/-- A request that was sent. -/
structure Sent where
  sender : Nat
  /-- It was sent by `refreshAccessToken`. -/
  refresh : Bool
  request : Request
  /-- The promise of its `fetch` has not been settled. -/
  pending : Bool
  /-- What its body was read as. -/
  body : Option Value
  /-- How many refreshes had been settled when it was sent. -/
  epoch : Nat

/-- A refresh that is in flight: its request and the thread that started it. -/
structure InFlight where
  request : Nat
  starter : Nat
  deriving DecidableEq

/-- How a refresh was settled, and the token it left. -/
structure Settled where
  request : Nat
  token : Value
  outcome : Bool

structure Page where
  accessToken : Value
  refreshInFlight : Option InFlight
  net : List Sent
  settled : List Settled

/-! ## Statements -/

inductive Statement where
  /-- `refreshInFlight ??= …`: the request of the refresh, and whether it is new. -/
  | startOrJoin
  | send (path : String) (o : RequestOptions)
  | receive (n : Nat)
  /-- `res.json()`. -/
  | json (n : Nat)
  /-- The end of a refresh: the token, the free slot and the promise. -/
  | settle (n : Nat) (token : Value) (outcome : Bool)
  | awaitRefresh (n : Nat)

@[reducible] def Statement.Resp : Statement → Type
  | startOrJoin => Nat × Bool
  | send _ _ => Nat
  | receive _ => Response
  | json _ => Value
  | settle _ _ _ => Unit
  | awaitRefresh _ => Bool

/-- What the network decides when a statement runs. -/
structure Choice where
  response : Except Thrown Response := .ok { status := 200, statusText := "OK", contentLength := none }
  body : Except Thrown Value := .ok (.object [])

namespace Page

def setSent (s : Page) (n : Nat) (f : Sent → Sent) : Page := { s with net := s.net.modify n f }

/-- Send a request. -/
def post (s : Page) (t : Nat) (refresh : Bool) (r : Request) : Page :=
  { s with net := s.net ++ [{ sender := t, refresh := refresh, request := r, pending := true,
                              body := none, epoch := s.settled.length }] }

/-- How refresh `n` was settled. -/
def outcome (s : Page) (n : Nat) : Option Bool :=
  (s.settled.find? fun x => x.request == n).map (·.outcome)

end Page

/-- A statement of thread `t`, or `none` where it waits. -/
def exec (t : Nat) (c : Choice) : (o : Statement) → Page → Option (Except Thrown o.Resp × Page)
  | .startOrJoin, s =>
    match s.refreshInFlight with
    | some f => some (.ok (f.request, false), s)
    | none => some (.ok (s.net.length, true),
        { s.post t true refreshRequest with refreshInFlight := some ⟨s.net.length, t⟩ })
  | .send path o, s => some (.ok s.net.length, s.post t false (ownRequest s.accessToken path o))
  | .receive n, s => some (c.response, s.setSent n fun e => { e with pending := false })
  | .json n, s =>
    match c.body with
    | .ok v => some (.ok v, s.setSent n fun e => { e with body := some v })
    | .error e => some (.error e, s)
  | .settle n token outcome, s =>
    some (.ok (), { s with accessToken := token, refreshInFlight := none,
                           settled := s.settled ++ [⟨n, token, outcome⟩] })
  | .awaitRefresh n, s => (s.outcome n).map fun b => (.ok b, s)

abbrev Async (α : Type) := Concurrency.Prog Statement.Resp Thrown α

abbrev await (o : Statement) : Async o.Resp := Concurrency.Prog.op o

/-! ## The client -/

/-- The function that runs one refresh, from its response on. -/
def runRefresh (n : Nat) : Async Bool :=
  tryCatch
    (do
      let res ← await (.receive n)
      if !res.ok then do
        await (.settle n .null false)
        pure false
      else
        match ← await (.json n) with
        | .undefined | .null => throw .typeError
        | body => do
          await (.settle n (body.get "accessToken") true)
          pure true)
    fun _ => do
      await (.settle n .null false)
      pure false

def refreshAccessToken : Async Bool := do
  let f ← await .startOrJoin
  if f.2 then runRefresh f.1 else await (.awaitRefresh f.1)

/-- `typeof body?.title === 'string' && typeof body?.status === 'number'`. -/
def isProblem (body : Value) : Bool :=
  match body.get "title", body.get "status" with
  | .string _, .number _ => true
  | _, _ => false

/-- The problem of a response whose body is none. -/
def syntheticProblem (res : Response) : Value :=
  .object [("type", .string "about:blank"),
    ("title", .string (if res.statusText = "" then "Request failed" else res.statusText)),
    ("status", .number res.status), ("instance", .string "")]

def readProblem (n : Nat) (res : Response) : Async Value :=
  tryCatch
    (do
      let body ← await (.json n)
      if isProblem body then pure body else pure (syntheticProblem res))
    fun _ => pure (syntheticProblem res)

/-- `new ApiError(problem)`, whose constructor splits the `type`. -/
def newApiError (problem : Value) : Thrown :=
  match problem.get "type" with
  | .string _ => .apiError problem
  | _ => .typeError

/-- The end of `apiFetch`. -/
def finish (n : Nat) (res : Response) : Async Value := do
  if !res.ok then
    let problem ← readProblem n res
    throw (newApiError problem)
  else if res.status = 204 ∨ res.contentLength = some "0" then pure .undefined
  else await (.json n)

/-- The second run of `apiFetch`, with `retryOnUnauthorized: false`. -/
def retry (path : String) (o : RequestOptions) : Async Value := do
  let n ← await (.send path o)
  let res ← await (.receive n)
  finish n res

def apiFetch (path : String) (o : RequestOptions) : Async Value := do
  let n ← await (.send path o)
  let res ← await (.receive n)
  if res.status = 401 ∧ o.retryOnUnauthorized = true ∧ path ∉ credentialPaths then
    let refreshed ← refreshAccessToken
    if refreshed then retry path { o with retryOnUnauthorized := false } else finish n res
  else finish n res

/-- A call that does not retry is the second run. -/
theorem apiFetch_eq_retry {path : String} {o : RequestOptions} (h : o.retryOnUnauthorized = false) :
    apiFetch path o = retry path o := by
  simp only [apiFetch, retry, h, Bool.false_eq_true, false_and, and_false, if_false]

def restoreSession : Async Bool := refreshAccessToken

/-! ## The running page -/

inductive Call where
  | apiFetch (path : String) (o : RequestOptions)
  | restoreSession

inductive Reply where
  | body (v : Value)
  | restored (ok : Bool)

def Call.program : Call → Async Reply
  | apiFetch path o => ApiClient.apiFetch path o >>= fun v => pure (.body v)
  | restoreSession => ApiClient.restoreSession >>= fun ok => pure (.restored ok)

abbrev Machine := Concurrency.Machine Page Call Choice Statement.Resp Thrown Reply

def page : Machine :=
  { program := Call.program
    exec := exec
    spawned := fun _ s => some s
    returned := fun _ _ _ s => s
    killed := fun _ _ s => s }

/-- A page that has just been loaded. -/
def Page.init : Page := { accessToken := .null, refreshInFlight := none, net := [], settled := [] }

end NoOverlap.ApiClient
