import NoOverlap.Http.Kept
import NoOverlap.Identity.Earned

/-!
# The API

All of it under one scheduler: requests, which ask the guards before the services, and the
timers and queue consumers, which ask nobody.  A request that no route takes, or whose body
the pipe refuses before there is a guard, is answered at once.  The reads of listings and of
reviews that anybody may make go past the guards.

`front_plain` takes a run apart into one of the accounts and one of the platform.  That is how the
access token that a request comes with, and the account behind it, get into statements about
listings and reservations, which know nothing of tokens.
-/

namespace NoOverlap

namespace Http

open Relational Concurrency RelyGuarantee
open Identity (Role User LoginDto)
open Identity.Accounts (Kit AuthUser RegisterDto)

/-! ## The front -/

/-- The entry points that no request reaches: timers and consumers of queues. -/
def isBackground : NoOverlap.Call → Bool
  | .sweepExpiredHolds | .sweepCompletedStays | .relayTick | .processCharge _ _
  | .processResult _ _ | .processRefund _ _ => true
  | _ => false

structure Job where
  call : NoOverlap.Call
  background : isBackground call = true

inductive Call where
  | request (r : Request)
  | background (job : Job)

/-- What the handler of a request makes of the principal. -/
def proceed (handle : AuthUser → List String → Json.Value → Except Err (Option Platform.Hosts.Call))
    (params : List String) (body : Json.Value) :
    Identity.Accounts.Reply → Except Err (Option Platform.Hosts.Call)
  | .principal user => handle user params body
  | _ => .ok none

/-- Guards before pipes, pipes before the handler. -/
def served (v : Validators) :
    Call → Served Err Identity.Accounts.Call Platform.Hosts.Call Identity.Accounts.Reply
  | .background job => .direct (.platform (.booking job.call))
  | .request r =>
    match lookup r (routes v) with
    | none => .refused (.other "Cannot find the route")
    | some (.unguarded handle, _) =>
      match handle r with
      | .error e => .refused e
      | .ok c => .asked c fun _ => .ok none
    | some (.anyone handle, params) =>
      match handle r params with
      | .error e => .refused e
      | .ok c => .direct c
    | some (.guarded roles handle, params) =>
      .asked (.auth r.bearer roles) (proceed handle params r.body)

abbrev Front := Guarded Call Identity.Accounts.Statement.Resp Platform.Hosts.Statement.Resp Err
  Identity.Accounts.Reply Platform.Hosts.Reply Identity.Accounts.Call Platform.Hosts.Call
  Identity.Accounts.Store Platform.Store Identity.Accounts.Choice Choice

/-- What stands for the call of the platform that a request has not come to yet. -/
def waiting : Platform.Hosts.Call := .listOwnedBy 0

def front (kit : Kit) (v : Validators) (cfg : Config) : Front :=
  { guard := Identity.Accounts.service kit
    inner := Platform.Hosts.system v.isLength cfg
    served := served v
    killed := fun t s => Platform.Hosts.killed t waiting s }

abbrev Statement := Identity.Accounts.Statement ⊕ Platform.Hosts.Statement

abbrev Resp : Statement → Type :=
  Either Identity.Accounts.Statement.Resp Platform.Hosts.Statement.Resp

abbrev Reply := Identity.Accounts.Reply ⊕ Platform.Hosts.Reply

abbrev Store := Identity.Accounts.Store × Platform.Store

abbrev Policy := Concurrency.Policy Store Call (Identity.Accounts.Choice × Choice) Resp Err Reply

abbrev World := Concurrency.World Store Call Resp Err Reply

/-- No request comes with an access token that has not been signed. -/
def Call.unforged (kit : Kit) (s : Identity.Accounts.Store) : Call → Bool
  | request r => Identity.Accounts.Call.unforged kit s (.auth r.bearer [])
  | background _ => true

/-- Any request and any job at any time, any failure, any crash. -/
def anything (kit : Kit) : Policy :=
  { spawn := fun q s => q.unforged kit s.1
    op := fun _ ch o s =>
      match o with
      | .inl _ => ch.1.honest
      | .inr o => o.fresh ch.2 s.2
    kill := fun _ _ _ => true }

/-- Nobody has registered and nothing is listed. -/
def initial (now : Int) : World :=
  Concurrency.World.start (Identity.Accounts.Store.init, Platform.Store.init .empty now)

section Front

variable {kit : Kit} {v : Validators} {cfg : Config}

/-! ## The front adds nothing of its own -/

/-- The request comes to a handler behind `@Auth(…roles)`, which calls `c` for `user`. -/
def Handles (v : Validators) (r : Request) (user : AuthUser) (roles : List Role)
    (c : Platform.Hosts.Call) : Prop :=
  ∃ handle params, lookup r (routes v) = some (.guarded roles handle, params) ∧
    handle user params r.body = .ok (some c)

/-- The request comes to a handler that asks for nobody, and calls `c`. -/
def Browses (v : Validators) (r : Request) (c : Platform.Hosts.Call) : Prop :=
  ∃ handle params, lookup r (routes v) = some (.anyone handle, params) ∧ handle r params = .ok c

theorem Browses.browses {r : Request} {c : Platform.Hosts.Call} (h : Browses v r c) :
    c.browses = true := by
  obtain ⟨handle, params, hlookup, hc⟩ := h
  exact fair_of_lookup hlookup r params c hc

theorem Handles.routed {r : Request} {user : AuthUser} {roles : List Role}
    {c : Platform.Hosts.Call} (h : Handles v r user roles c) : Routed v user roles c := by
  obtain ⟨handle, params, hlookup, hc⟩ := h
  exact fair_of_lookup hlookup user params r.body c hc

/-- Only a guard leads to a call of the platform. -/
theorem handles_of_served {q : Call} {g : Identity.Accounts.Call}
    {next : Identity.Accounts.Reply → Except Err (Option Platform.Hosts.Call)}
    {a : Identity.Accounts.Reply} {c : Platform.Hosts.Call} (h : served v q = .asked g next)
    (ha : next a = .ok (some c)) :
    ∃ r roles user, q = .request r ∧ g = .auth r.bearer roles ∧ a = .principal user ∧
      Handles v r user roles c := by
  cases q with
  | background job => cases h
  | request r =>
    simp only [served] at h
    split at h
    · cases h
    · split at h
      · cases h
      · cases h
        cases ha
    · split at h <;> cases h
    · next roles handle params hlookup =>
      cases h
      cases a with
      | principal user => exact ⟨r, roles, user, rfl, rfl, rfl, handle, params, hlookup, ha⟩
      | registered | session => cases ha

theorem inert_of_routed {user : AuthUser} {roles : List Role} {c : Platform.Hosts.Call}
    (h : Routed v user roles c) : (front kit v cfg).Inert Platform.Hosts.uuids c := by
  cases c with
  | platform c =>
    cases c with
    | booking c =>
      cases c with
      | hold | cancel => exact ⟨fun _ => rfl, fun _ => rfl, fun _ _ _ => rfl⟩
      | _ => cases h.actor
    | _ => exact ⟨fun _ => rfl, fun _ => rfl, fun _ _ _ => rfl⟩
  | _ => exact ⟨fun _ => rfl, fun _ => rfl, fun _ _ _ => rfl⟩

/-- What is asked without a guard asks for no principal. -/
theorem unforged_of_served {q : Call} {g : Identity.Accounts.Call}
    {next : Identity.Accounts.Reply → Except Err (Option Platform.Hosts.Call)}
    {s : Identity.Accounts.Store} (h : served v q = .asked g next) (hq : q.unforged kit s = true) :
    g.unforged kit s = true := by
  cases q with
  | background job => cases h
  | request r =>
    simp only [served] at h
    split at h
    · cases h
    · next handle params hlookup =>
      split at h
      · cases h
      · next c hc =>
        cases h
        cases fair_of_lookup hlookup r _ hc with
        | register dto he hp => rfl
        | session c => rfl
    · split at h <;> cases h
    · cases h
      exact hq

theorem front_plain (kit : Kit) (v : Validators) (cfg : Config) :
    (front kit v cfg).Plain (anything kit) (Identity.Accounts.lawful kit) Platform.Hosts.uuids
      (.auth none []) waiting where
  spawned := fun _ _ => rfl
  returned := fun _ _ _ _ => rfl
  killed := fun _ _ _ => rfl
  inert := by
    intro q g next a c hq ha
    obtain ⟨r, roles, user, -, -, -, hhandles⟩ := handles_of_served hq ha
    exact inert_of_routed hhandles.routed
  idle_spawn := fun _ => rfl
  waiting_inert := ⟨fun _ => rfl, fun _ => rfl, fun _ _ _ => rfl⟩
  asked_spawn := fun q g next s hq hs => unforged_of_served hq hs
  direct_spawn := fun _ _ _ _ _ => rfl
  asked_op := fun _ _ _ _ _ _ _ _ ho => ho
  inner_op := fun _ _ _ _ _ _ ho => ho
  inner_kill := fun _ _ _ => rfl

/-! ## Runs -/

section Run

variable {w : World} {now : Int}

/-- The run of the front, the two runs it consists of, and how their threads belong together. -/
theorem exists_split (hr : (front kit v cfg).machine.Reaches (anything kit) (initial now) w) :
    ∃ (w₁ : Identity.Accounts.World) (w₂ : Platform.Hosts.World)
      (phase : Nat → Guarded.Phase Platform.Hosts.Call),
      (Identity.Accounts.service kit).Reaches (Identity.Accounts.lawful kit)
        Identity.Accounts.initial w₁ ∧
      (Platform.Hosts.system v.isLength cfg).Reaches Platform.Hosts.uuids
        (Concurrency.World.start (Platform.Store.init .empty now)) w₂ ∧
      Guarded.Split (front kit v cfg) (.auth none []) phase (fun _ => waiting) w w₁ w₂ :=
  (front_plain kit v cfg).split hr

/-- An account that was registered, with an email and a password that the pipe let through,
and logged in to, and the requests that did it. -/
structure Earned (kit : Kit) (v : Validators) (w : World) (u : User) : Prop where
  registered : ∃ (t : Nat) (th : Concurrency.Thread Call Resp Err Reply) (dto : RegisterDto)
    (salt : String), w.threads[t]? = some th ∧
      (∃ next, served v th.call = .asked (.register dto) next) ∧ u.email = dto.email ∧
      u.role = dto.role ∧ u.passwordHash = kit.hash salt dto.password ∧
      v.isEmail dto.email = true ∧ v.isLength 12 128 dto.password = true
  login : ∃ (t : Nat) (th : Concurrency.Thread Call Resp Err Reply) (dto : LoginDto),
    w.threads[t]? = some th ∧ (∃ next, served v th.call = .asked (.session (.login dto)) next) ∧
      u.email = dto.email ∧ kit.config.verify u.passwordHash dto.password = true

/-- What is asked without a guard has been through the pipe. -/
theorem opens_of_served {q : Call} {g : Identity.Accounts.Call}
    {next : Identity.Accounts.Reply → Except Err (Option Platform.Hosts.Call)}
    (h : served v q = .asked g next) : (∃ bearer roles, g = .auth bearer roles) ∨ Opens v g := by
  cases q with
  | background job => cases h
  | request r =>
    simp only [served] at h
    split at h
    · cases h
    · next handle params hlookup =>
      split at h
      · cases h
      · next c hc =>
        cases h
        exact .inr (fair_of_lookup hlookup r _ hc)
    · split at h <;> cases h
    · cases h
      exact .inl ⟨_, _, rfl⟩

section Split

variable {w₁ : Identity.Accounts.World} {w₂ : Platform.Hosts.World}
  {phase : Nat → Guarded.Phase Platform.Hosts.Call}

theorem earned_of_accounts
    (hs : Guarded.Split (front kit v cfg) (.auth none []) phase (fun _ => waiting) w w₁ w₂)
    {u : User} (he : Identity.Accounts.Earned kit w₁ u) : Earned kit v w u := by
  obtain ⟨t, th₁, dto, salt, ht₁, hc, hemail, hrole, hhash⟩ := he.registered
  obtain ⟨t', th₁', login, ht₁', hc', hemail', hverify⟩ := he.login
  -- A thread of the accounts asks for a request of the front.
  have hasks : ∀ {t : Nat} {th₁ : Concurrency.Thread Identity.Accounts.Call
      Identity.Accounts.Statement.Resp Err Identity.Accounts.Reply},
      w₁.threads[t]? = some th₁ → th₁.call ≠ .auth none [] → ∃ th, w.threads[t]? = some th ∧
        ∃ next, served v th.call = .asked th₁.call next := by
    intro t th₁ ht₁ hne
    obtain ⟨th, th₂, ht, hsp⟩ := hs.of_first ht₁
    rcases hsp.first_call with hidle | hasked
    · exact (hne hidle).elim
    · exact ⟨th, ht, hasked⟩
  obtain ⟨th, ht, next, hserved⟩ := hasks ht₁ (by rw [hc]; exact fun h => by cases h)
  obtain ⟨th', ht', hserved'⟩ := hasks ht₁' (by rw [hc']; exact fun h => by cases h)
  rw [hc] at hserved
  rw [hc'] at hserved'
  rcases opens_of_served hserved with ⟨_, _, hauth⟩ | hopens
  · cases hauth
  · cases hopens with
    | register dto hisEmail hlength =>
      exact ⟨⟨t, th, dto, salt, ht, ⟨next, hserved⟩, hemail, hrole, hhash, hisEmail, hlength⟩,
        ⟨t', th', login, ht', hserved', hemail', hverify⟩⟩

/-- What the guards have found out about a request that they let through. -/
structure Admitted (kit : Kit) (v : Validators) (w : World) (r : Request) (roles : List Role)
    (user : AuthUser) : Prop where
  token : ∃ g ∈ w.shared.1.signed, r.bearer.bind kit.verifyJwt = some g.token ∧
    user = Identity.Accounts.JwtStrategy.validate g.token.payload
  role : roles = [] ∨ user.role ∈ roles
  account : ∃ u ∈ w.shared.1.users, u.id = user.userId ∧ u.role = user.role ∧ Earned kit v w u

theorem admitted_of_admits
    (hr₁ : (Identity.Accounts.service kit).Reaches (Identity.Accounts.lawful kit)
      Identity.Accounts.initial w₁)
    (hs : Guarded.Split (front kit v cfg) (.auth none []) phase (fun _ => waiting) w w₁ w₂)
    {t : Nat} {q : Call} {c : Platform.Hosts.Call} {ph : Guarded.Phase Platform.Hosts.Call}
    {th₁ : Concurrency.Thread Identity.Accounts.Call Identity.Accounts.Statement.Resp Err
      Identity.Accounts.Reply} (ht₁ : w₁.threads[t]? = some th₁)
    (ha : (front kit v cfg).Admits (.auth none []) q c ph th₁) :
    (∃ job, q = .background job ∧ c = .platform (.booking job.call)) ∨
      (∃ r, q = .request r ∧ Browses v r c) ∨
      ∃ r roles user, q = .request r ∧ Handles v r user roles c ∧ Admitted kit v w r roles user := by
  cases ha with
  | direct hq =>
    cases q with
    | background job =>
      cases hq
      exact .inl ⟨job, rfl, rfl⟩
    | request r =>
      have hserved : served v (.request r) = .direct c := hq
      simp only [served] at hserved
      split at hserved
      · cases hserved
      · split at hserved <;> cases hserved
      · next handle params hlookup =>
        split at hserved
        · cases hserved
        · next c' hc =>
          cases hserved
          exact .inr (.inl ⟨r, rfl, handle, params, hlookup, hc⟩)
      · cases hserved
  | asked hq hnext =>
    obtain ⟨r, roles, user, rfl, rfl, rfl, hhandles⟩ := handles_of_served hq hnext
    have hsays : Identity.Accounts.Says kit ⟨t, .auth r.bearer roles⟩ w₁.shared
        (.auth r.bearer roles) (.principal user) :=
      ((Identity.Accounts.sound kit).holds hr₁).2.1 t _ ht₁ _ rfl
    obtain ⟨hrole, u, hu, hid, hurole, he⟩ := Identity.Accounts.earned_of_principal hr₁ hsays
    obtain ⟨g, hg, hbearer, huser, -⟩ := hsays
    have hfirst := hs.first
    rw [hfirst] at hg hu
    exact .inr (.inr ⟨r, roles, user, rfl, hhandles, ⟨g, hg, hbearer, huser⟩, hrole, u, hu, hid,
      hurole, earned_of_accounts hs he⟩)

end Split

/-- In every run of the API, whatever is requested, whatever fails and whoever crashes: a
statement of the platform is issued by a timer or a consumer, or it is one of the reads that
anybody may make and changes nothing, or it is issued on behalf of a request that came with a
signed access token of an account with one of the roles of its route, for a call that acts for
that account.  A host's call is a host's. -/
theorem guards_stand_before_every_statement
    (hr : (front kit v cfg).machine.Reaches (anything kit) (initial now) w) {t : Nat} {q : Call}
    {o : Platform.Hosts.Statement}
    {k : Except Err o.Resp → Concurrency.Prog Resp Err Reply}
    (ht : w.threads[t]? = some (.running q (.call (.inr o) k))) :
    (∃ job, q = .background job) ∨
      (∃ r c, q = .request r ∧ Browses v r c ∧ c.browses = true ∧ o.reads = true ∧
        ∀ ch s res s', o.exec t ch s = some (res, s') → s' = s ∨ s' = { s with clock := ch.now }) ∨
      ∃ r roles user c, q = .request r ∧ Handles v r user roles c ∧ Admitted kit v w r roles user ∧
        actor c = some user.userId ∧ (c.host.isSome = true → user.role = .host) ∧
        ∀ A, (c.program v.isLength cfg).Uses A → A o := by
  obtain ⟨w₁, w₂, phase, hr₁, hr₂, hs⟩ := exists_split hr
  obtain ⟨th₁, th₂, ht₁, ht₂, hsp⟩ := hs.threads t _ ht
  rcases hsp.step with ⟨_, _, _, _, _, _, ho, _⟩ | ⟨c, o₂, k₂, hadmits, ho, rfl, -⟩
  · cases ho
  cases ho
  -- The statement is one of the program of the call.
  have hown : ∀ A, (c.program v.isLength cfg).Uses A → A o := by
    intro A hA
    have huses : (Concurrency.Prog.call o k₂).Uses fun o => c = c → A o :=
      hr₂.uses (A := fun c' o => c' = c → A o) (fun c' => by
        by_cases hc : c' = c
        · exact (hc ▸ hA : (c'.program v.isLength cfg).Uses A).mono fun _ ho _ => ho
        · exact (Concurrency.Prog.uses_true _).mono fun _ _ h => (hc h).elim) ht₂
    exact huses.1 rfl
  rcases admitted_of_admits hr₁ hs ht₁ hadmits with
    ⟨job, rfl, -⟩ | ⟨r, rfl, hb⟩ | ⟨r, roles, user, rfl, hh, ha⟩
  · exact .inl ⟨job, rfl⟩
  · have hreads := hown _ (Platform.Hosts.program_reads hb.browses)
    exact .inr (.inl ⟨r, c, rfl, hb, hb.browses, hreads,
      fun ch s res s' hx => Platform.Hosts.exec_of_reads hreads hx⟩)
  · refine .inr (.inr ⟨r, roles, user, c, rfl, hh, ha, hh.routed.actor, fun hc => ?_, hown⟩)
    have hroles := ha.role
    rw [hh.routed.host hc] at hroles
    simpa using hroles

/-- In every run of the API from an empty database: a listing is of a host's account, a
reservation of some account, and both accounts were registered and logged in to; and every
row is within the bounds of the request that wrote it, whatever has updated it since.  The
schema's foreign keys to the accounts are therefore never violated. -/
theorem what_is_stored_has_been_checked
    (hr : (front kit v cfg).machine.Reaches (anything kit) (initial now) w) :
    (∀ l ∈ w.shared.2.listings.rows,
      Listable v l.title l.city l.nightlyPriceCents l.maxGuests ∧
      ∃ u ∈ w.shared.1.users, u.id = l.hostId ∧ u.role = .host ∧ Earned kit v w u) ∧
    Platform.Database.Booked w.shared.2.booking.db (fun r => r.checkIn < r.checkOut ∧
      ∃ u ∈ w.shared.1.users, u.id = r.guestId ∧ Earned kit v w u) ∧
    (∀ b ∈ w.shared.2.blocks.rows, b.startsAt < b.endsAt) ∧
    ∀ x ∈ w.shared.2.reviews.rows, Reviewable v x.rating x.body := by
  obtain ⟨w₁, w₂, phase, hr₁, hr₂, hs⟩ := exists_split hr
  have hkept : Kept v (fun h => ∃ u ∈ w.shared.1.users, u.id = h ∧ u.role = .host ∧
      Earned kit v w u) (fun g => ∃ u ∈ w.shared.1.users, u.id = g ∧ Earned kit v w u)
      w₂.shared := by
    refine kept_of_reaches hr₂ fun t th₂ ht₂ => ?_
    obtain ⟨th, th₁, ht, ht₁, hsp⟩ := hs.of_second ht₂
    rcases hsp.second_call with hwaiting | hadmits
    · rw [hwaiting]
      exact ⟨trivial, fun _ _ h => (nomatch h), fun _ _ h => (nomatch h)⟩
    · rcases admitted_of_admits hr₁ hs ht₁ hadmits with
        ⟨job, -, hc⟩ | ⟨r, -, hb⟩ | ⟨r, roles, user, -, hh, ha⟩
      · rw [hc]
        refine ⟨trivial, fun _ _ h => (nomatch h), fun g dto h => ?_⟩
        have hjob := job.background
        rw [Platform.Call.booking.inj (Platform.Hosts.Call.platform.inj h)] at hjob
        cases hjob
      · exact sanctioned_of_browses hb.browses
      · obtain ⟨u, hu, hid, hrole, he⟩ := ha.account
        have hrouted := hh.routed
        refine ⟨hrouted.admissible, fun hostId body hc => ?_, fun guestId dto hc => ?_⟩
        · have hactor := hrouted.actor
          have hroles := ha.role
          rw [hrouted.host (by rw [hc]; rfl)] at hroles
          rw [hc] at hactor
          cases hactor
          exact ⟨u, hu, hid, hrole.trans (by simpa using hroles), he⟩
        · have hactor := hrouted.actor
          rw [hc] at hactor
          cases hactor
          exact ⟨u, hu, hid, he⟩
  rw [← hs.second]
  exact ⟨fun l hl => ⟨(hkept.listings l hl).2, (hkept.listings l hl).1⟩,
    ⟨fun r hr => ⟨(hkept.bookings.1 r hr).2, (hkept.bookings.1 r hr).1⟩,
      fun tx htx r hr => ⟨(hkept.bookings.2 tx htx r hr).2, (hkept.bookings.2 tx htx r hr).1⟩⟩,
    hkept.blocks, hkept.reviews⟩

end Run

end Front

/-! ## A run: a host lists, a guest books -/

namespace Visit

/-- The tokens of the host and of the guest, under the hash that shows everything. -/
def kit : Kit :=
  { Identity.Accounts.Scenario.kit with
    verifyJwt := fun text =>
      if text = "host" then some { payload := { sub := 1, role := .host }, expiresAt := 10 }
      else if text = "guest" then some { payload := { sub := 2, role := .guest }, expiresAt := 10 }
      else none }

def validators : Validators :=
  { isLength := fun lo hi s => decide (lo ≤ s.length ∧ s.length ≤ hi)
    isEmail := fun s => s == "host@example.com" || s == "guest@example.com"
    isUUID := fun s => s == "7"
    isDateString := fun s => s == "in" || s == "out"
    isUUIDParam := fun s => s == "7"
    ofId := fun _ => 7
    ofDate := fun s => if s = "in" then some 1000000000 else some 1172800000 }

def post (path : List String) (bearer : Option String) (fields : List (String × Json.Value)) :
    Call :=
  .request { method := .post, path := path, bearer := bearer, refreshCookie := none, city := none,
             body := .object fields }

def register (email role : String) : Call :=
  post ["auth", "register"] none
    [("email", .string email), ("password", .string "twelve letters"), ("role", .string role)]

def login (email : String) : Call :=
  post ["auth", "login"] none [("email", .string email), ("password", .string "twelve letters")]

def create : Call :=
  post ["listings"] (some "host")
    [("title", .string "Attic"), ("city", .string "Berlin"), ("nightlyPriceCents", .number 100),
      ("maxGuests", .number 2), ("hostId", .string "2")]

def book : Call :=
  post ["reservations"] (some "guest")
    [("listingId", .string "7"), ("checkIn", .string "in"), ("checkOut", .string "out")]

abbrev Event := Concurrency.Event Call (Identity.Accounts.Choice × Choice)

/-- A statement of thread `t` under which the accounts draw `id`. -/
def account (t : Nat) (id familyId : Id) : Event :=
  .step t ({ salt := "salt", session := { id := id, familyId := familyId } }, {})

/-- A statement of thread `t` under which the platform draws `id`. -/
def draw (t : Nat) (id : Id) : Event := .step t ({}, { id := id })

def idle (t n : Nat) : List Event := List.replicate n (.step t ({}, {}))

/-- An account, and a login to it. -/
def enter (t : Nat) (email role : String) (user token : Id) : List Event :=
  [.spawn (register email role), account t 0 0, account t user 0, .ret t,
    .spawn (login email)] ++ idle (t + 1) 2 ++
    [.step (t + 1) ({ session := { token := role } }, {})] ++ idle (t + 1) 1 ++
    [account (t + 1) token token, .ret (t + 1)]

def schedule : List Event :=
  enter 0 "host@example.com" "HOST" 1 3 ++ [.spawn create] ++ idle 2 1 ++ [draw 2 7, .ret 2] ++
    enter 3 "guest@example.com" "GUEST" 2 5 ++ [.spawn book] ++ idle 5 5 ++ [draw 5 8] ++ idle 5 1 ++
    [draw 5 9] ++ idle 5 4 ++ [.ret 5]

/-- The listing is the host's, whatever the body says, and the guest has booked it. -/
def done (w : World) : Bool :=
  w.shared.2.listings.rows.map (fun l => (l.id, l.hostId)) == [(7, 1)] &&
    w.shared.2.booking.db.reservations.rows.map (fun r => (r.id, r.guestId)) == [(8, 2)]

/-- The guards have let the host through, and the listing is about to be inserted. -/
def passed (w : World) : Bool :=
  match w.threads[(2 : Nat)]? with
  | some (.running (.request _) (.call (.inr o) _)) => !o.reads
  | _ => false

theorem reaches_done : ∃ w, (front kit validators NoOverlap.Scenario.cfg).machine.Reaches
    (anything kit) (initial 0) w ∧ done w = true :=
  have hrun : ((front kit validators NoOverlap.Scenario.cfg).machine.run (anything kit) (initial 0)
      schedule).any done = true := by decide +kernel
  Machine.exists_reaches_of_run hrun

theorem reaches_passed : ∃ w, (front kit validators NoOverlap.Scenario.cfg).machine.Reaches
    (anything kit) (initial 0) w ∧ passed w = true :=
  have hrun : ((front kit validators NoOverlap.Scenario.cfg).machine.run (anything kit) (initial 0)
      (schedule.take 13)).any passed = true := by decide +kernel
  Machine.exists_reaches_of_run hrun

end Visit

open Visit in
theorem guards_stand_before_every_statement_listing :
    ∃ (w : World) (r : Request) (o : Platform.Hosts.Statement)
      (k : Except Err o.Resp → Concurrency.Prog Resp Err Reply),
      w.threads[(2 : Nat)]? = some (.running (.request r) (.call (.inr o) k)) ∧
      ∃ roles user c, Handles validators r user roles c ∧ Admitted kit validators w r roles user := by
  obtain ⟨w, hr, hp⟩ := reaches_passed
  unfold passed at hp
  split at hp
  · next r o k ht =>
    rcases guards_stand_before_every_statement hr ht with
      ⟨job, hq⟩ | ⟨r', c, hq, -, -, hreads, -⟩ | ⟨r', roles, user, c, hq, h⟩
    · cases hq
    · rw [hreads] at hp
      cases hp
    · cases hq
      exact ⟨w, r, o, k, ht, roles, user, c, h.1, h.2.1⟩
  · cases hp

open Visit in
theorem what_is_stored_has_been_checked_attic :
    ∃ w, (front kit validators NoOverlap.Scenario.cfg).machine.Reaches (anything kit) (initial 0) w ∧
      done w = true ∧ ∀ l ∈ w.shared.2.listings.rows,
        Listable validators l.title l.city l.nightlyPriceCents l.maxGuests ∧
        ∃ u ∈ w.shared.1.users, u.id = l.hostId ∧ u.role = .host ∧ Earned kit validators w u := by
  obtain ⟨w, hr, hd⟩ := reaches_done
  exact ⟨w, hr, hd, (what_is_stored_has_been_checked hr).1⟩

end Http

end NoOverlap
