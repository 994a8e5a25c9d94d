import NoOverlap.Data.CookieJar
import NoOverlap.Identity.Session
import NoOverlap.Problems.Server

/-!
# A browser tab and the auth endpoints

One tab, its cookie jar, the requests it has under way, and the service behind them.
The tab runs the web client: a page load restores the session, and from then on any
number of calls run side by side.  A request is sent, accepted by a handler, answered
and received, each a step of its own.

JavaScript runs without a break between two awaits, so looking for a refresh that is in
flight and starting one is a single step.  The promise that the callers share is the
number of the request and the record of how it was settled.  The threads of a page that
has been left never move again.

All requests go to the origin of the page, so of a cookie only its name, host, path and
expiry matter here.  `minted` and `families` are history variables.
-/

namespace NoOverlap.Browser

open Relational
open Identity (AccessToken IssuedRefresh LoginDto)

/-! ## Requests and responses -/

/-- `BASE`, under which the client reaches the API. -/
def base : List String := ["api"]

inductive Endpoint where
  | login (dto : LoginDto)
  | refresh
  | logout
  /-- Any other resource of the API. -/
  | resource (path : List String)

namespace Endpoint

def path : Endpoint → List String
  | login _ => ["auth", "login"]
  | refresh => ["auth", "refresh"]
  | logout => ["auth", "logout"]
  | resource p => p

/-- `CREDENTIAL_PATHS`: here a 401 is the answer. -/
def credential (e : Endpoint) : Bool :=
  e.path == ["auth", "login"] || e.path == ["auth", "register"] || e.path == ["auth", "refresh"]

/-- The endpoints that read the refresh token. -/
def readsToken : Endpoint → Bool
  | refresh | logout => true
  | _ => false

def isLogin : Endpoint → Bool
  | login _ => true
  | _ => false

end Endpoint

structure Request where
  endpoint : Endpoint
  /-- The `refresh_token` cookie it carries. -/
  token : Option String
  bearer : Option AccessToken

structure Response where
  status : Nat
  setCookie : Option SetCookie
  /-- The access token in the body. -/
  body : Option AccessToken
  deriving DecidableEq

def Response.ok (r : Response) : Bool := decide (200 ≤ r.status ∧ r.status < 300)

inductive EntryState where
  | sent
  | serving (tid : Nat)
  | answered (r : Response)
  | received
  deriving DecidableEq

/-- A request, where it is, and the hash of the token that its handler has stored. -/
structure Entry where
  request : Request
  state : EntryState
  minted : Option String

/-- In flight. -/
def Entry.underWay (e : Entry) : Bool := e.state != .received

/-- A refresh that is in flight: its request and the thread that started it. -/
structure InFlight where
  request : Nat
  starter : Nat
  deriving DecidableEq

/-- The module variables of the client. -/
structure Page where
  number : Nat
  origin : String
  accessToken : Option AccessToken
  refreshInFlight : Option InFlight
  /-- How the refreshes of this page were settled. -/
  settled : List (Nat × Bool)

structure Store where
  server : Identity.Store
  jar : CookieJar
  net : List Entry
  page : Page
  /-- The families begun by the logins of this browser. -/
  families : List Id

/-! ## Statements -/

inductive PageStatement where
  /-- `refreshInFlight ??= …`: the request of the refresh, and whether it is new. -/
  | startOrJoin
  | send (e : Endpoint)
  | receive (n : Nat)
  /-- The end of a refresh: the access token, the free slot and the promise. -/
  | settle (n : Nat) (token : Option AccessToken) (outcome : Bool)
  | awaitRefresh (n : Nat)
  | setAccessToken (token : Option AccessToken)

@[reducible] def PageStatement.Resp : PageStatement → Type
  | startOrJoin => Nat × Bool
  | send _ => Nat
  | receive _ => Response
  | settle _ _ _ => Unit
  | awaitRefresh _ => Bool
  | setAccessToken _ => Unit

inductive Statement where
  /-- A statement of the service, for a request of this browser or for somebody else. -/
  | auth (request : Option Nat) (o : Identity.Statement)
  /-- The business of another resource, of which only the status matters. -/
  | resource
  | accept (n : Nat)
  | respond (n : Nat) (r : Response)
  | page (p : Nat) (o : PageStatement)

@[reducible] def Statement.Resp : Statement → Type
  | auth _ o => o.Resp
  | resource => Nat
  | accept _ => Request
  | respond _ _ => Unit
  | page _ o => o.Resp

/-- What the environment decides when a statement runs. -/
structure Choice extends Identity.Choice where
  status : Nat := 200

namespace Store

def setEntry (s : Store) (n : Nat) (f : Entry → Entry) : Store := { s with net := s.net.modify n f }

/-- `REFRESH_COOKIE`. -/
def refreshCookie : String := "refresh_token"

/-- Send a request under the cookies of the moment. -/
def post (s : Store) (now : Int) (e : Endpoint) (bearer : Option AccessToken) : Store :=
  let jar := s.jar.evict now
  let request : Request :=
    { endpoint := e, token := jar.valueFor refreshCookie s.page.origin (base ++ e.path),
      bearer := bearer }
  { s with jar := jar, net := s.net ++ [{ request := request, state := .sent, minted := none }] }

/-- A response arrives, and its cookie with it. -/
def deliver (s : Store) (n : Nat) (now : Int) (r : Response) : Store :=
  let jar := match r.setCookie with
    | none => s.jar
    | some c => s.jar.set s.page.origin now c
  { s with jar := jar, net := s.net.modify n fun e => { e with state := .received } }

/-- The record of a token that the handler of request `n` has stored. -/
def mark (s : Store) (c : Choice) (n : Nat) : (o : Identity.Statement) → Except Err o.Resp → Store
  | .tokenCreate data, .ok _ =>
    { s.setEntry n fun e => { e with minted := some data.tokenHash } with
      families := s.families ++ [data.familyId.getD c.familyId] }
  | .tokenRotate _ _ data, .ok _ => s.setEntry n fun e => { e with minted := some data.tokenHash }
  | _, _ => s

end Store

namespace Statement

/-- A statement of the page by thread `t`, or `none` where it waits. -/
def performPage (t : Nat) (c : Choice) :
    (o : PageStatement) → Store → Option (Except Err o.Resp × Store)
  | .startOrJoin, s =>
    match s.page.refreshInFlight with
    | some f => some (.ok (f.request, false), s)
    | none =>
      let s' := s.post c.now .refresh none
      some (.ok (s.net.length, true),
        { s' with page := { s'.page with refreshInFlight := some ⟨s.net.length, t⟩ } })
  | .send e, s => some (.ok s.net.length, s.post c.now e s.page.accessToken)
  | .receive n, s =>
    match s.net[n]? with
    | some { request := _, state := .answered r, minted := _ } => some (.ok r, s.deliver n c.now r)
    | _ => none
  | .settle n token outcome, s =>
    some (.ok (), { s with
      page := { s.page with accessToken := token, refreshInFlight := none,
                            settled := s.page.settled ++ [(n, outcome)] } })
  | .awaitRefresh n, s =>
    (s.page.settled.find? fun x => x.1 == n).map fun x => (.ok x.2, s)
  | .setAccessToken token, s =>
    some (.ok (), { s with page := { s.page with accessToken := token } })

def perform (t : Nat) (c : Choice) : (o : Statement) → Store → Option (Except Err o.Resp × Store)
  | auth none o, s =>
    (o.perform t c.toChoice s.server).map fun x => (x.1, { s with server := x.2 })
  | auth (some n) o, s =>
    (o.perform t c.toChoice s.server).map fun x =>
      (x.1, Store.mark { s with server := x.2 } c n o x.1)
  | resource, s => some (.ok c.status, s)
  | accept n, s =>
    match s.net[n]? with
    | some e =>
      if e.state = .sent then
        some (.ok e.request, s.setEntry n fun e => { e with state := .serving t })
      else none
    | none => none
  | respond n r, s =>
    match s.net[n]? with
    | some e =>
      if e.state = .serving t then some (.ok (), s.setEntry n fun e => { e with state := .answered r })
      else none
    | none => none
  | page p o, s => if s.page.number = p then performPage t c o s else none

/-- What can fail: the statements of the service, and waiting for a response. -/
def fallible : Statement → Bool
  | auth _ o => o.fallible
  | resource => true
  | page _ (.receive _) => true
  | _ => false

/-- A statement under the fault the environment picked. -/
def exec (t : Nat) (c : Choice) (o : Statement) (s : Store) :
    Option (Except Err o.Resp × Store) :=
  match c.fault, o.fallible with
  | .before e, true => some (.error e, s)
  | .after e, true => (o.perform t c s).map fun x => (.error e, x.2)
  | _, _ => o.perform t c s

end Statement

abbrev Async (α : Type) := Concurrency.Prog Statement.Resp Err α

abbrev await (o : Statement) : Async o.Resp := Concurrency.Prog.op o

/-! ## The web client -/

namespace Client

variable (p : Nat)

def fetch (e : Endpoint) : Async Response := do
  let n ← await (.page p (.send e))
  await (.page p (.receive n))

/-- The function that runs one refresh, from its response on. -/
def runRefresh (n : Nat) : Async Bool :=
  tryCatch
    (do
      let res ← await (.page p (.receive n))
      if !res.ok then do
        await (.page p (.settle n none false))
        pure false
      else match res.body with
        | none => throw (.other "SyntaxError")
        | some accessToken => do
          await (.page p (.settle n (some accessToken) true))
          pure true)
    fun _ => do
      await (.page p (.settle n none false))
      pure false

def refreshAccessToken : Async Bool := do
  let f ← await (.page p .startOrJoin)
  if f.2 then runRefresh p f.1 else await (.page p (.awaitRefresh f.1))

/-- The end of `apiFetch`. -/
def finish (res : Response) : Async Response :=
  if !res.ok then throw (.other "ApiError") else pure res

def apiFetch (e : Endpoint) : Async Response := do
  let res ← fetch p e
  if res.status = 401 ∧ e.credential = false then
    let refreshed ← refreshAccessToken p
    if refreshed then do
      let res ← fetch p e
      finish res
    else finish res
  else finish res

def restoreSession : Async Bool := refreshAccessToken p

def login (dto : LoginDto) : Async Unit := do
  let res ← apiFetch p (.login dto)
  await (.page p (.setAccessToken res.body))

def logout : Async Unit :=
  tryCatch
    (do
      let _ ← apiFetch p .logout
      await (.page p (.setAccessToken none)))
    fun e => do
      await (.page p (.setAccessToken none))
      throw e

end Client

/-! ## The endpoints -/

/-- A function of the service, run for a request. -/
def serviceCall {α : Type} (request : Option Nat) : Identity.Async α → Async α
  | .done r => .done r
  | .call o k => .call (.auth request o) fun r => serviceCall request (k r)

namespace AuthController

/-- The cookie of a login or a refresh, under the root path. -/
def setRefreshCookie (refresh : IssuedRefresh) : SetCookie :=
  { name := Store.refreshCookie, value := refresh.token, path := [], expires := refresh.expiresAt }

/-- `clearCookie`: an empty cookie that ran out in 1970, under the path `/auth`. -/
def clearRefreshCookie : SetCookie :=
  { name := Store.refreshCookie, value := "", path := ["auth"], expires := 1 }

/-- The response of a login or a refresh. -/
def session (s : Identity.AuthService.Session) : Response :=
  { status := 200, setCookie := some (setRefreshCookie s.refresh), body := some s.accessToken }

/-- What the exception filter makes of an error. -/
def problem (e : Err) : Response := { status := e.httpStatus, setCookie := none, body := none }

def route (cfg : Identity.Config) (n : Nat) (req : Request) : Async Response :=
  match req.endpoint with
  | .login dto => do
    let s ← serviceCall (some n) (Identity.AuthService.login cfg dto)
    pure (session s)
  | .refresh => do
    let s ← serviceCall (some n) (Identity.AuthService.refresh cfg req.token)
    pure (session s)
  | .logout => do
    serviceCall (some n) (Identity.AuthService.logout cfg req.token)
    pure { status := 204, setCookie := some clearRefreshCookie, body := none }
  | .resource _ => do
    let status ← await .resource
    pure { status := status, setCookie := none, body := none }

/-- The handler of request `n`. -/
def serve (cfg : Identity.Config) (n : Nat) : Async Unit := do
  let req ← await (.accept n)
  let res ← tryCatch (route cfg n req) fun e => pure (problem e)
  await (.respond n res)

end AuthController

/-! ## The running system -/

inductive Call where
  /-- A page is loaded, and restores the session. -/
  | load (p : Nat)
  | apiFetch (p : Nat) (path : List String)
  | login (p : Nat) (dto : LoginDto)
  | logout (p : Nat)
  | serve (n : Nat)
  /-- Somebody else calls the service. -/
  | other (c : Identity.Call)

inductive Reply where
  | none
  | restored (ok : Bool)
  | response (r : Response)

def Call.program (cfg : Identity.Config) : Call → Async Reply
  | load p => Client.restoreSession p >>= fun ok => pure (.restored ok)
  | apiFetch p path => Client.apiFetch p (.resource path) >>= fun r => pure (.response r)
  | login p dto => Client.login p dto >>= fun _ => pure .none
  | logout p => Client.logout p >>= fun _ => pure .none
  | serve n => AuthController.serve cfg n >>= fun _ => pure .none
  | other c => serviceCall none (c.program cfg) >>= fun _ => pure .none

namespace Store

def init (users : Table Identity.User) (origin : String) : Store :=
  { server := .init users, jar := .empty, net := [], families := []
    page := { number := 0, origin := origin, accessToken := none, refreshInFlight := none,
              settled := [] } }

/-- The paths behind which the service itself is reached. -/
def authPaths : List (List String) :=
  [["auth", "login"], ["auth", "refresh"], ["auth", "logout"]]

/-- A new page takes the place of the old one.  A call belongs to the page of the moment. -/
def spawned (c : Call) (s : Store) : Option Store :=
  match c with
  | .load p =>
    if p = s.page.number + 1 then
      some { s with page := { number := p, origin := s.page.origin, accessToken := none,
                              refreshInFlight := none, settled := [] } }
    else none
  | .apiFetch p path => if p = s.page.number ∧ path ∉ authPaths then some s else none
  | .login p _ | .logout p => if p = s.page.number then some s else none
  | .serve _ | .other _ => some s

end Store

abbrev Machine := Concurrency.Machine Store Call Choice Statement.Resp Err Reply

abbrev Policy := Concurrency.Policy Store Call Choice Statement.Resp Err Reply

abbrev World := Concurrency.World Store Call Statement.Resp Err Reply

abbrev Agent := Concurrency.Agent Call

abbrev Event := Concurrency.Event Call Choice

def tab (cfg : Identity.Config) : Machine :=
  { program := Call.program cfg
    exec := Statement.exec
    spawned := Store.spawned
    returned := fun _ _ _ s => s
    killed := fun _ _ s => s }

/-- Nothing has been loaded, and nobody has logged in. -/
def initial (users : Table Identity.User) (origin : String) : World :=
  Concurrency.World.start (Store.init users origin)

end NoOverlap.Browser
