import NoOverlap.Concurrency.RelyGuarantee
import NoOverlap.Identity.Tokens

/-!
# Accounts

Registration, and the two guards that a request with an access token goes through, beside
the sessions of the identity module.  Registration does not look whether an email is taken:
it inserts, and the unique index answers.

Signatures are taken at their word.  A text verifies as an access token or it does not, and
`lawful` leaves it to no caller to come by one that verifies and has not been signed.

`registrations`, `families` and `signed` are history variables.  No statement reads them.
-/

namespace NoOverlap.Identity

namespace Accounts

open Relational

/-- Argon2 and RS256, beside what the sessions use. -/
structure Kit where
  config : Config
  /-- Argon2 of a password under a salt. -/
  hash : String → String → String
  /-- The access token a text is, if the public key verifies it. -/
  verifyJwt : String → Option AccessToken

structure RegisterDto where
  email : String
  password : String
  role : Role

/-- A user without the password hash. -/
structure UserResponseDto where
  id : Id
  email : String
  role : Role
  createdAt : Int
  deriving DecidableEq

/-- The authenticated principal. -/
structure AuthUser where
  userId : Id
  role : Role
  deriving DecidableEq

/-! ## The store -/

/-- A user that thread `tid` has inserted. -/
structure Registration where
  tid : Nat
  user : User
  deriving DecidableEq

/-- A family of refresh tokens that thread `tid` has begun. -/
structure Family where
  tid : Nat
  userId : Id
  familyId : Id
  deriving DecidableEq

/-- An access token that thread `tid` has had signed. -/
structure Signature where
  tid : Nat
  token : AccessToken
  deriving DecidableEq

structure Store where
  session : Identity.Store
  registrations : List Registration
  families : List Family
  signed : List Signature

namespace Store

def users (s : Store) : List User := s.session.users.rows

/-- Nobody has registered. -/
def init : Store :=
  { session := Identity.Store.init .empty, registrations := [], families := [], signed := [] }

end Store

/-! ## Statements -/

/-- The data of `user.create`. -/
structure UserData where
  email : String
  passwordHash : String
  role : Role

inductive Statement where
  | session (o : Identity.Statement)
  /-- The salt that Argon2 draws. -/
  | randomSalt
  | userCreate (data : UserData)

@[reducible] def Statement.Resp : Statement → Type
  | session o => o.Resp
  | randomSalt => String
  | userCreate _ => UserResponseDto

/-- What the environment decides when a statement runs. -/
structure Choice where
  session : Identity.Choice := {}
  salt : String := ""

namespace Store

def insertUser (s : Store) (t : Nat) (user : User) : Store :=
  { s with
    session := { s.session with users := s.session.users.insert user }
    registrations := s.registrations ++ [⟨t, user⟩] }

/-- `INSERT INTO users` of thread `t`, under the unique index on the email. -/
def userCreate (s : Store) (t : Nat) (id : Id) (now : Int) (data : UserData) :
    Option (Except Err UserResponseDto × Store) :=
  if s.users.any fun u => u.email == data.email then some (.error (.known "P2002"), s)
  else if (s.session.users.find? id).isSome then none
  else
    let user : User :=
      { id := id, email := data.email, passwordHash := data.passwordHash, role := data.role }
    some (.ok { id := id, email := data.email, role := data.role, createdAt := now },
      s.insertUser t user)

/-- The families that a statement of thread `t` begins. -/
def begun (s : Store) (t : Nat) (o : Identity.Statement) (after : Identity.Store) : List Family :=
  match o with
  | .tokenCreate { familyId := none, .. } =>
    (s.session.tokens.added after.tokens).map fun r => ⟨t, r.userId, r.familyId⟩
  | _ => []

/-- The access token that a statement signs. -/
def signs (c : Identity.Choice) (o : Identity.Statement) : Option AccessToken :=
  match o with
  | .signAccessToken payload ttlMs =>
    if c.strikesFirst then none else some { payload := payload, expiresAt := c.now + ttlMs }
  | _ => none

/-- The identity module has moved. -/
def withSession (s : Store) (t : Nat) (c : Identity.Choice) (o : Identity.Statement)
    (after : Identity.Store) : Store :=
  { s with
    session := after
    families := s.families ++ s.begun t o after
    signed := s.signed ++ ((signs c o).map fun token => ⟨t, token⟩).toList }

end Store

/-- A statement of thread `t` under the fault the environment picked. -/
def Statement.exec (t : Nat) (c : Choice) :
    (o : Statement) → Store → Option (Except Err o.Resp × Store)
  | .session o, s =>
    (o.exec t c.session s.session).map fun x => (x.1, s.withSession t c.session o x.2)
  | .randomSalt, s =>
    match c.session.fault with
    | .none => some (.ok c.salt, s)
    | .before e | .after e => some (.error e, s)
  | .userCreate data, s =>
    match c.session.fault with
    | .none => s.userCreate t c.session.id c.session.now data
    | .before e => some (.error e, s)
    | .after e => (s.userCreate t c.session.id c.session.now data).map fun x => (.error e, x.2)

/-! ## Programs -/

abbrev Async (α : Type) := Concurrency.Prog Statement.Resp Err α

abbrev await (o : Statement) : Async o.Resp := Concurrency.Prog.op o

/-- A function of the sessions. -/
def ofSession {α : Type} : Identity.Async α → Async α
  | .done r => .done r
  | .call o k => .call (.session o) fun r => ofSession (k r)

/-- What `register` comes to.  The second is `throw new AppException('EMAIL_ALREADY_EXISTS')`. -/
inductive Registered where
  | created (user : UserResponseDto)
  | emailAlreadyExists
  deriving DecidableEq

/-- `PRISMA_UNIQUE_VIOLATION`. -/
def isEmailTaken : Err → Bool
  | .known code => code == "P2002"
  | _ => false

namespace AuthService

def hash (kit : Kit) (password : String) : Async String := do
  let salt ← await .randomSalt
  pure (kit.hash salt password)

/-- The insert, and what its failure is made of. -/
def insert (data : UserData) : Async Registered :=
  tryCatch (await (.userCreate data) >>= fun user => pure (.created user)) fun error =>
    if isEmailTaken error then pure .emailAlreadyExists else throw error

def register (kit : Kit) (dto : RegisterDto) : Async Registered := do
  let passwordHash ← hash kit dto.password
  insert { email := dto.email, passwordHash := passwordHash, role := dto.role }

end AuthService

/-! ## Guards -/

namespace JwtStrategy

def validate (payload : AccessTokenPayload) : AuthUser :=
  { userId := payload.sub, role := payload.role }

/-- The strategy on the bearer token of a request: signature, then expiry, then `validate`. -/
def authenticate (kit : Kit) (bearer : Option String) : Async (Option AuthUser) :=
  match bearer.bind kit.verifyJwt with
  | none => pure none
  | some token => do
    let now ← await (.session .newDate)
    pure (if now < token.expiresAt then some (validate token.payload) else none)

end JwtStrategy

namespace JwtAuthGuard

def handleRequest (user : Option AuthUser) : Async AuthUser :=
  match user with
  | none => throw (.app .unauthenticated none)
  | some user => pure user

def canActivate (kit : Kit) (bearer : Option String) : Async AuthUser := do
  let user ← JwtStrategy.authenticate kit bearer
  handleRequest user

end JwtAuthGuard

namespace RolesGuard

/-- The principal is handed on as it is. -/
def canActivate (required : List Role) (user : Option AuthUser) : Async Unit :=
  if required.length = 0 then pure ()
  else
    match user with
    | none => throw (.app .unauthenticated none)
    | some user => if required.contains user.role then pure () else throw (.app .forbidden none)

end RolesGuard

/-- `@Auth(...roles)`: one guard after the other. -/
def auth (kit : Kit) (bearer : Option String) (roles : List Role) : Async AuthUser := do
  let user ← JwtAuthGuard.canActivate kit bearer
  RolesGuard.canActivate roles (some user)
  pure user

/-! ## The running service -/

inductive Call where
  | register (dto : RegisterDto)
  | session (c : Identity.Call)
  | auth (bearer : Option String) (roles : List Role)

inductive Reply where
  | registered (r : Registered)
  | session (r : Identity.Reply)
  | principal (user : AuthUser)

/-- Hand the result of a function to its caller. -/
def answer {α : Type} (p : Async α) (f : α → Reply) : Async Reply := p >>= fun a => pure (f a)

def Call.program (kit : Kit) : Call → Async Reply
  | register dto => answer (AuthService.register kit dto) .registered
  | session c => answer (ofSession (c.program kit.config)) .session
  | auth bearer roles => answer (Accounts.auth kit bearer roles) .principal

abbrev Machine := Concurrency.Machine Store Call Choice Statement.Resp Err Reply

abbrev Policy := Concurrency.Policy Store Call Choice Statement.Resp Err Reply

abbrev World := Concurrency.World Store Call Statement.Resp Err Reply

abbrev Agent := Concurrency.Agent Call

abbrev Event := Concurrency.Event Call Choice

def service (kit : Kit) : Machine :=
  { program := Call.program kit
    exec := Statement.exec
    spawned := fun _ s => some s
    returned := fun _ _ _ s => s
    killed := fun _ _ s => s }

/-- No request comes with an access token that has not been signed. -/
def Call.unforged (kit : Kit) (s : Store) : Call → Bool
  | auth bearer _ =>
    match bearer.bind kit.verifyJwt with
    | none => true
    | some token => s.signed.any fun g => g.token == token
  | _ => true

/-- A fault is not taken for an answer of the unique index. -/
def Choice.honest (c : Choice) : Bool :=
  match c.session.fault with
  | .none => true
  | .before e | .after e => !isEmailTaken e

/-- Any call at any time, any failure, any crash. -/
def lawful (kit : Kit) : Policy :=
  { spawn := fun c s => c.unforged kit s
    op := fun _ c _ _ => c.honest
    kill := fun _ _ _ => true }

def initial : World := Concurrency.World.start Store.init

end Accounts

end NoOverlap.Identity
