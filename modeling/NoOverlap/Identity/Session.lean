import NoOverlap.Concurrency.Machine
import NoOverlap.Model.Statement

/-!
# Sessions

The identity module of the API: who may log in, and the refresh tokens that keep a
session alive.  A refresh token is stored as a hash.  The tokens minted from one login
share a family, and a rotation revokes the token it is given and inserts its successor
in one transaction, which is one statement here.

A random value is drawn by the environment when it is needed.  A UUID is never one that
is in use; a collision of two token hashes is left to the unique index.

`exchanges` and `revocations` are history variables.  No statement reads them.
-/

namespace NoOverlap.Identity

open Relational

inductive Role where
  | guest
  | host
  deriving DecidableEq, Repr

structure User where
  id : Id
  email : String
  passwordHash : String
  role : Role
  deriving DecidableEq

structure RefreshToken where
  id : Id
  userId : Id
  familyId : Id
  tokenHash : String
  expiresAt : Int
  revokedAt : Option Int
  deriving DecidableEq

instance : Keyed User Id := ⟨User.id⟩

instance : Keyed RefreshToken Id := ⟨RefreshToken.id⟩

@[simp] theorem key_refreshToken (r : RefreshToken) : key r = r.id := rfl

/-- Neither revoked nor expired. -/
def RefreshToken.live (r : RefreshToken) (now : Int) : Bool :=
  r.revokedAt.isNone && decide (now < r.expiresAt)

/-- A rotation: the token presented and its successor. -/
structure Exchange where
  presented : Id
  successor : Id
  deriving DecidableEq

/-- A thread has revoked a family. -/
structure Revocation where
  tid : Nat
  familyId : Id
  deriving DecidableEq

structure Store where
  users : Table User
  tokens : Table RefreshToken
  exchanges : List Exchange
  revocations : List Revocation

/-- Claims of the access token. -/
structure AccessTokenPayload where
  sub : Id
  role : Role
  deriving DecidableEq

/-- A signed access token. -/
structure AccessToken where
  payload : AccessTokenPayload
  expiresAt : Int
  deriving DecidableEq

/-- A freshly minted refresh token.  Only its hash is stored. -/
structure IssuedRefresh where
  token : String
  expiresAt : Int
  deriving DecidableEq

/-- The data of `refreshToken.create`.  Without a family, `randomUUID()` begins one. -/
structure TokenData where
  userId : Id
  familyId : Option Id
  tokenHash : String
  expiresAt : Int

/-! ## Statements -/

inductive Statement where
  | userFindByEmail (email : String)
  | userFindById (id : Id)
  | tokenFindUnique (tokenHash : String)
  /-- `updateMany` of the tokens of a family that are not revoked. -/
  | tokenRevokeFamily (familyId : Id) (revokedAt : Int)
  | tokenCreate (data : TokenData)
  /-- The rotating transaction: the update by id, then the insert. -/
  | tokenRotate (id : Id) (revokedAt : Int) (data : TokenData)
  | signAccessToken (payload : AccessTokenPayload) (ttlMs : Int)
  | randomBytes
  | newDate

@[reducible] def Statement.Resp : Statement → Type
  | userFindByEmail _ => Option User
  | userFindById _ => Option User
  | tokenFindUnique _ => Option RefreshToken
  | tokenRevokeFamily _ _ => Nat
  | tokenCreate _ => Unit
  | tokenRotate _ _ _ => Unit
  | signAccessToken _ _ => AccessToken
  | randomBytes => String
  | newDate => Int

/-- What the environment decides when a statement runs. -/
structure Choice where
  fault : Fault := .none
  /-- The UUID of a created row. -/
  id : Id := 0
  /-- The UUID of a new family. -/
  familyId : Id := 0
  /-- What `randomBytes` draws, as text. -/
  token : String := ""
  now : Int := 0

/-- The fault comes before the statement, which then does nothing. -/
def Choice.strikesFirst (c : Choice) : Bool :=
  match c.fault with
  | .before _ => true
  | _ => false

namespace Store

def init (users : Table User) : Store :=
  { users := users, tokens := .empty, exchanges := [], revocations := [] }

def findByHash (s : Store) (hash : String) : Option RefreshToken :=
  s.tokens.rows.find? fun r => r.tokenHash == hash

/-- No token belongs to the family, and none ever has. -/
def freshFamily (s : Store) (familyId : Id) : Bool :=
  s.tokens.rows.all fun r => r.familyId != familyId

def revoke (r : RefreshToken) (now : Int) : RefreshToken := { r with revokedAt := some now }

theorem key_revoke (now : Int) (r : RefreshToken) : key (revoke r now) = key r := rfl

/-- The foreign key and the unique index of `refresh_tokens`. -/
def refuses (s : Store) (data : TokenData) : Option Err :=
  if (s.users.find? data.userId).isNone then some (.known "P2003")
  else if (s.findByHash data.tokenHash).isSome then some (.known "P2002")
  else none

/-- `INSERT INTO refresh_tokens`. -/
def insertToken (s : Store) (id familyId : Id) (data : TokenData) : Store :=
  let row : RefreshToken :=
    { id := id, userId := data.userId, familyId := familyId, tokenHash := data.tokenHash,
      expiresAt := data.expiresAt, revokedAt := none }
  { s with tokens := s.tokens.insert row }

/-- `create`, under the family of the data or one that is new. -/
def tokenCreate (s : Store) (c : Choice) (data : TokenData) : Option (Except Err Unit × Store) :=
  match s.refuses data with
  | some e => some (.error e, s)
  | none =>
    if (s.tokens.find? c.id).isSome then none
    else match data.familyId with
      | some familyId => some (.ok (), s.insertToken c.id familyId data)
      | none =>
        if s.freshFamily c.familyId then some (.ok (), s.insertToken c.id c.familyId data) else none

def revokeToken (s : Store) (id : Id) (now : Int) : Store :=
  { s with tokens := s.tokens.update (fun r => r.id == id) (revoke · now) (key_revoke now) }

/-- The update and the insert of a rotation.  Where one is refused, neither happens. -/
def tokenRotate (s : Store) (c : Choice) (id : Id) (revokedAt : Int) (data : TokenData) :
    Option (Except Err Unit × Store) :=
  if (s.tokens.find? id).isNone then some (.error (.known "P2025"), s)
  else match (s.revokeToken id revokedAt).tokenCreate c data with
    | some (.ok (), s') =>
      some (.ok (), { s' with exchanges := s'.exchanges ++ [⟨id, c.id⟩] })
    | some (.error e, _) => some (.error e, s)
    | none => none

/-- `updateMany` where the family matches and `revokedAt` is null. -/
def revokeFamily (s : Store) (t : Nat) (familyId : Id) (now : Int) : Nat × Store :=
  let hit : RefreshToken → Bool := fun r => r.familyId == familyId && r.revokedAt.isNone
  ((s.tokens.rows.filter hit).length,
    { s with
      tokens := s.tokens.update hit (revoke · now) (key_revoke now)
      revocations := s.revocations ++ [⟨t, familyId⟩] })

end Store

namespace Statement

/-- A statement of thread `t` that does not fail, or `none` where its random value is
one the environment cannot draw. -/
def perform (t : Nat) (c : Choice) : (o : Statement) → Store → Option (Except Err o.Resp × Store)
  | userFindByEmail email, s => some (.ok (s.users.rows.find? fun u => u.email == email), s)
  | userFindById id, s => some (.ok (s.users.find? id), s)
  | tokenFindUnique hash, s => some (.ok (s.findByHash hash), s)
  | tokenRevokeFamily familyId now, s =>
    let x := s.revokeFamily t familyId now
    some (.ok x.1, x.2)
  | tokenCreate data, s => s.tokenCreate c data
  | tokenRotate id revokedAt data, s => s.tokenRotate c id revokedAt data
  | signAccessToken payload ttlMs, s =>
    some (.ok { payload := payload, expiresAt := c.now + ttlMs }, s)
  | randomBytes, s => some (.ok c.token, s)
  | newDate, s => some (.ok c.now, s)

/-- A process cannot fail to read its own clock. -/
def fallible : Statement → Bool
  | newDate => false
  | _ => true

/-- A statement under the fault the environment picked. -/
def exec (t : Nat) (c : Choice) (o : Statement) (s : Store) :
    Option (Except Err o.Resp × Store) :=
  match c.fault, o.fallible with
  | .before e, true => some (.error e, s)
  | .after e, true => (o.perform t c s).map fun x => (.error e, x.2)
  | _, _ => o.perform t c s

end Statement

/-! ## Programs -/

abbrev Async (α : Type) := Concurrency.Prog Statement.Resp Err α

abbrev await (o : Statement) : Async o.Resp := Concurrency.Prog.op o

/-- The third parties and settings of the identity module: SHA-256, Argon2 and the
lifetimes of the two tokens. -/
structure Config where
  hashToken : String → String
  verify : String → String → Bool
  dummyHash : String
  refreshTtMs : Int
  accessTtlMs : Int

structure LoginDto where
  email : String
  password : String

namespace TokenService

def signAccessToken (cfg : Config) (user : User) : Async AccessToken :=
  await (.signAccessToken { sub := user.id, role := user.role } cfg.accessTtlMs)

/-- The two halves of `issueRefreshToken` up to its insert. -/
def mint (cfg : Config) : Async IssuedRefresh := do
  let token ← await .randomBytes
  let now ← await .newDate
  pure { token := token, expiresAt := now + cfg.refreshTtMs }

/-- The row that `issueRefreshToken` inserts. -/
def data (cfg : Config) (userId : Id) (familyId : Option Id) (issued : IssuedRefresh) :
    TokenData :=
  { userId := userId, familyId := familyId, tokenHash := cfg.hashToken issued.token,
    expiresAt := issued.expiresAt }

/-- `issueRefreshToken` outside a transaction. -/
def issueRefreshToken (cfg : Config) (userId : Id) (familyId : Option Id) :
    Async IssuedRefresh := do
  let issued ← mint cfg
  await (.tokenCreate (data cfg userId familyId issued))
  pure issued

end TokenService

namespace AuthService

structure Session where
  accessToken : AccessToken
  refresh : IssuedRefresh
  deriving DecidableEq

def login (cfg : Config) (dto : LoginDto) : Async Session := do
  let user ← await (.userFindByEmail dto.email)
  let passwordOke := cfg.verify ((user.map (·.passwordHash)).getD cfg.dummyHash) dto.password
  match user with
  | none => throw (.app .invalidCredentials none)
  | some user =>
    if !passwordOke then throw (.app .invalidCredentials none)
    else
      let accessToken ← TokenService.signAccessToken cfg user
      let refresh ← TokenService.issueRefreshToken cfg user.id none
      pure { accessToken := accessToken, refresh := refresh }

/-- Revoke the tokens of a family that are still live. -/
def revokeFamily (familyId : Id) : Async Unit := do
  let now ← await .newDate
  let _ ← await (.tokenRevokeFamily familyId now)
  pure ()

/-- The rotating transaction, for a user that has just been read. -/
def rotate (cfg : Config) (presented : RefreshToken) (user : User) : Async IssuedRefresh := do
  let revokedAt ← await .newDate
  let issued ← TokenService.mint cfg
  await (.tokenRotate presented.id revokedAt
    (TokenService.data cfg user.id (some presented.familyId) issued))
  pure issued

/-- `refresh` for a token that has been found and is not revoked. -/
def refreshPresented (cfg : Config) (presented : RefreshToken) : Async Session := do
  let now ← await .newDate
  if presented.expiresAt ≤ now then throw (.app .unauthenticated none)
  else
    match ← await (.userFindById presented.userId) with
    | none => throw (.app .unauthenticated none)
    | some user =>
      let refresh ← rotate cfg presented user
      let accessToken ← TokenService.signAccessToken cfg user
      pure { accessToken := accessToken, refresh := refresh }

/-- `refresh` for a token that is present. -/
def refreshRaw (cfg : Config) (rawToken : String) : Async Session := do
  match ← await (.tokenFindUnique (cfg.hashToken rawToken)) with
  | none => throw (.app .unauthenticated none)
  | some presented =>
    -- A replay of a token that has been rotated.
    if presented.revokedAt.isSome then do
      revokeFamily presented.familyId
      throw (.app .unauthenticated none)
    else refreshPresented cfg presented

def refresh (cfg : Config) (rawToken : Option String) : Async Session :=
  match rawToken with
  | none => throw (.app .unauthenticated none)
  | some raw => if raw = "" then throw (.app .unauthenticated none) else refreshRaw cfg raw

/-- `logout` for a token that is present. -/
def logoutRaw (cfg : Config) (rawToken : String) : Async Unit := do
  match ← await (.tokenFindUnique (cfg.hashToken rawToken)) with
  | none => pure ()
  | some presented => revokeFamily presented.familyId

def logout (cfg : Config) (rawToken : Option String) : Async Unit :=
  match rawToken with
  | none => pure ()
  | some raw => if raw = "" then pure () else logoutRaw cfg raw

end AuthService

/-! ## The running service -/

inductive Call where
  | login (dto : LoginDto)
  | refresh (rawToken : Option String)
  | logout (rawToken : Option String)

inductive Reply where
  | session (s : AuthService.Session)
  | none

def Call.program (cfg : Config) : Call → Async Reply
  | login dto => AuthService.login cfg dto >>= fun s => pure (.session s)
  | refresh raw => AuthService.refresh cfg raw >>= fun s => pure (.session s)
  | logout raw => AuthService.logout cfg raw >>= fun _ => pure .none

abbrev Machine := Concurrency.Machine Store Call Choice Statement.Resp Err Reply

abbrev Policy := Concurrency.Policy Store Call Choice Statement.Resp Err Reply

abbrev World := Concurrency.World Store Call Statement.Resp Err Reply

abbrev Agent := Concurrency.Agent Call

abbrev Event := Concurrency.Event Call Choice

def service (cfg : Config) : Machine :=
  { program := Call.program cfg
    exec := Statement.exec
    spawned := fun _ s => some s
    returned := fun _ _ _ s => s
    killed := fun _ _ s => s }

/-- Any call at any time, any failure, any crash. -/
def anything : Policy :=
  { spawn := fun _ _ => true
    op := fun _ _ _ _ => true
    kill := fun _ _ _ => true }

/-- The world in which nobody has logged in. -/
def initial (users : Table User) : World := Concurrency.World.start (Store.init users)

/-! ## A scenario

One guest, and the events of undisturbed calls, for the runs that the development
evaluates. -/

namespace Scenario

def cfg : Config :=
  { hashToken := fun token => token, verify := fun hash password => hash == password,
    dummyHash := "dummy", refreshTtMs := 1000, accessTtlMs := 10 }

def users : Table User :=
  Table.empty.insert { id := 1, email := "guest@example.com", passwordHash := "secret", role := .guest }

/-- A login of thread `t` that is given the token `token` in row `id` and family `f`. -/
def login (t : Nat) (id f : Id) (token : String) : List Event :=
  [.spawn (.login { email := "guest@example.com", password := "secret" }), .step t {}, .step t {},
    .step t { token := token }, .step t {}, .step t { id := id, familyId := f }, .ret t]

/-- A refresh up to its rotation. -/
def check (t : Nat) (raw : String) : List Event :=
  [.spawn (.refresh (some raw)), .step t {}, .step t {}, .step t {}]

/-- The rotation, which inserts the token `token` in row `id`. -/
def rotate (t : Nat) (id : Id) (token : String) : List Event :=
  [.step t {}, .step t { token := token }, .step t {}, .step t { id := id }]

/-- The access token is signed and the refresh returns. -/
def finish (t : Nat) : List Event := [.step t {}, .ret t]

def logout (t : Nat) (raw : String) : List Event :=
  [.spawn (.logout (some raw)), .step t {}, .step t {}, .step t {}, .ret t]

end Scenario

end NoOverlap.Identity
