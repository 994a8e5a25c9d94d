import NoOverlap.Http.Bodies
import NoOverlap.Identity.Accounts
import NoOverlap.Platform.Hosts

/-!
# Routes

The controllers: which handler a request comes to, what guards stand before it, and which
call of a service it makes.  Routes are tried in the order in which they are declared, so
that `mine` and `received` are not taken for ids.

The account a handler acts for comes from the principal, and nothing in the path or the body
can name another.  `Handler.Fair` sums up the calls that requests can make; what is proved
about them later looks at the summary and not at the routes.
-/

namespace NoOverlap

namespace Http

open Json Platform
open Identity (Role LoginDto)
open Identity.Accounts (AuthUser RegisterDto)

inductive Method where
  | get
  | post
  | patch
  | delete
  deriving DecidableEq

/-- A request, as far as the controllers look at it. -/
structure Request where
  method : Method
  /-- The path between the slashes. -/
  path : List String
  /-- The token of the `Authorization` header. -/
  bearer : Option String
  /-- The cookie `refresh_token`. -/
  refreshCookie : Option String
  /-- `city` in the query. -/
  city : Option String
  body : Value

/-! ## The router -/

/-- A part of a declared path: a word, or a parameter. -/
inductive Segment where
  | word (s : String)
  | param

/-- The parameters of a path that a pattern matches. -/
def captures : List Segment → List String → Option (List String)
  | [], [] => some []
  | .word s :: ps, x :: xs => if x = s then captures ps xs else none
  | .param :: ps, x :: xs => (captures ps xs).map fun rest => x :: rest
  | _, _ => none

inductive Handler where
  /-- A handler of the accounts, without a guard. -/
  | unguarded (handle : Request → Except Err Identity.Accounts.Call)
  /-- A handler of the platform without a guard. -/
  | anyone (handle : Request → List String → Except Err Hosts.Call)
  /-- A handler behind `@Auth(…roles)`.  One that makes no call answers with the principal. -/
  | guarded (roles : List Role)
      (handle : AuthUser → List String → Value → Except Err (Option Hosts.Call))

structure Route where
  method : Method
  pattern : List Segment
  handler : Handler

/-- The parameters of a request that a route is for. -/
def Route.takes (route : Route) (r : Request) : Option (List String) :=
  if route.method = r.method then captures route.pattern r.path else none

/-- The first route that a request is for. -/
def lookup (r : Request) : List Route → Option (Handler × List String)
  | [] => none
  | route :: routes =>
    match route.takes r with
    | some params => some (route.handler, params)
    | none => lookup r routes

/-! ## The controllers -/

variable (v : Validators)

def uuidExpected : Err := .other "Validation failed (uuid is expected)"

/-- `@Param(…, ParseUUIDPipe)`. -/
def parseUUID (s : String) : Except Err Id :=
  if v.isUUIDParam s then .ok (v.ofId s) else .error uuidExpected

/-- A route with one id in its path. -/
def withId (make : AuthUser → Id → Value → Except Err Hosts.Call) (user : AuthUser)
    (params : List String) (body : Value) : Except Err (Option Hosts.Call) :=
  match params with
  | [id] => do
    let id ← parseUUID v id
    some <$> make user id body
  | _ => .error uuidExpected

/-- A route without a parameter. -/
def plain (make : AuthUser → Value → Except Err Hosts.Call) (user : AuthUser) (_ : List String)
    (body : Value) : Except Err (Option Hosts.Call) := some <$> make user body

/-- A route for anybody, with one id in its path. -/
def browse (make : Id → Hosts.Call) (_ : Request) (params : List String) :
    Except Err Hosts.Call :=
  match params with
  | [id] => make <$> parseUUID v id
  | _ => .error uuidExpected

namespace AuthController

def register (r : Request) : Except Err Identity.Accounts.Call :=
  .register <$> receive (RegisterDto.declared v) RegisterDto.read r.body

def login (r : Request) : Except Err Identity.Accounts.Call :=
  (fun dto => .session (.login dto)) <$> receive (LoginDto.declared v) LoginDto.read r.body

def refresh (r : Request) : Except Err Identity.Accounts.Call :=
  .ok (.session (.refresh r.refreshCookie))

def logout (r : Request) : Except Err Identity.Accounts.Call :=
  .ok (.session (.logout r.refreshCookie))

/-- The principal is the answer. -/
def me (_ : AuthUser) (_ : List String) (_ : Value) : Except Err (Option Hosts.Call) := .ok none

def routes : List Route :=
  [⟨.post, [.word "auth", .word "register"], .unguarded (register v)⟩,
    ⟨.post, [.word "auth", .word "login"], .unguarded (login v)⟩,
    ⟨.post, [.word "auth", .word "refresh"], .unguarded refresh⟩,
    ⟨.post, [.word "auth", .word "logout"], .unguarded logout⟩,
    ⟨.get, [.word "auth", .word "me"], .guarded [] me⟩]

end AuthController

namespace ListingsController

def create (user : AuthUser) (body : Value) : Except Err Hosts.Call := .ok (.create user.userId body)

def listMine (user : AuthUser) (_ : Value) : Except Err Hosts.Call := .ok (.listOwnedBy user.userId)

def listActive (r : Request) (_ : List String) : Except Err Hosts.Call := .ok (.listActive r.city)

def getOne (id : Id) : Hosts.Call := .getById id

def update (user : AuthUser) (id : Id) (body : Value) : Except Err Hosts.Call :=
  .ok (.update user.userId id body)

def remove (user : AuthUser) (id : Id) (_ : Value) : Except Err Hosts.Call :=
  .ok (.platform (.removeListing user.userId id))

def addAvailability (user : AuthUser) (id : Id) (body : Value) : Except Err Hosts.Call := do
  let dto ← receive (CreateAvailabilityDto.declared v) (CreateAvailabilityDto.read v) body
  pure (.platform (.addAvailability user.userId id dto))

def listAvailability (id : Id) : Hosts.Call := .listAvailability id

/-- Two ids, of the listing and of the window. -/
def removeAvailability (user : AuthUser) (params : List String) (_ : Value) :
    Except Err (Option Hosts.Call) :=
  match params with
  | [id, blockId] => do
    let id ← parseUUID v id
    let blockId ← parseUUID v blockId
    pure (some (.platform (.removeAvailability user.userId id blockId)))
  | _ => .error uuidExpected

def routes : List Route :=
  [⟨.post, [.word "listings"], .guarded [.host] (plain create)⟩,
    ⟨.get, [.word "listings"], .anyone listActive⟩,
    ⟨.get, [.word "listings", .word "mine"], .guarded [.host] (plain listMine)⟩,
    ⟨.get, [.word "listings", .param], .anyone (browse v getOne)⟩,
    ⟨.patch, [.word "listings", .param], .guarded [.host] (withId v update)⟩,
    ⟨.delete, [.word "listings", .param], .guarded [.host] (withId v remove)⟩,
    ⟨.post, [.word "listings", .param, .word "availability"],
      .guarded [.host] (withId v (addAvailability v))⟩,
    ⟨.get, [.word "listings", .param, .word "availability"], .anyone (browse v listAvailability)⟩,
    ⟨.delete, [.word "listings", .param, .word "availability", .param],
      .guarded [.host] (removeAvailability v)⟩]

end ListingsController

namespace BookingController

def create (user : AuthUser) (body : Value) : Except Err Hosts.Call := do
  let dto ← receive (CreateReservationDto.declared v.isUUID v.isDateString)
    (CreateReservationDto.read v.ofId v.ofDate) body
  pure (.platform (.booking (.hold user.userId dto)))

def listMine (user : AuthUser) (_ : Value) : Except Err Hosts.Call :=
  .ok (.platform (.listOwnedBy user.userId))

def listReceived (user : AuthUser) (_ : Value) : Except Err Hosts.Call :=
  .ok (.listReceivedBy user.userId)

def getOne (user : AuthUser) (id : Id) (_ : Value) : Except Err Hosts.Call :=
  .ok (.platform (.getOwned user.userId id))

def cancel (user : AuthUser) (id : Id) (_ : Value) : Except Err Hosts.Call :=
  .ok (.platform (.booking (.cancel user.userId id)))

def routes : List Route :=
  [⟨.post, [.word "reservations"], .guarded [] (plain (create v))⟩,
    ⟨.get, [.word "reservations", .word "mine"], .guarded [] (plain listMine)⟩,
    ⟨.get, [.word "reservations", .word "received"], .guarded [.host] (plain listReceived)⟩,
    ⟨.get, [.word "reservations", .param], .guarded [] (withId v getOne)⟩,
    ⟨.post, [.word "reservations", .param, .word "cancel"], .guarded [] (withId v cancel)⟩]

end BookingController

namespace ReviewsController

def create (user : AuthUser) (body : Value) : Except Err Hosts.Call := do
  let dto ← receive (CreateReviewDto.declared v) (CreateReviewDto.read v) body
  pure (.platform (.createReview user.userId dto))

def routes : List Route := [⟨.post, [.word "reviews"], .guarded [] (plain (create v))⟩]

end ReviewsController

namespace ListingReviewsController

def forListing (listingId : Id) : Hosts.Call := .forListing listingId

def routes : List Route :=
  [⟨.get, [.word "listings", .param, .word "reviews"], .anyone (browse v forListing)⟩]

end ListingReviewsController

/-- The routes of the application, module by module. -/
def routes : List Route :=
  AuthController.routes v ++ ListingsController.routes v ++ BookingController.routes v ++
    (ReviewsController.routes v ++ ListingReviewsController.routes v)

/-! ## The calls that requests make -/

/-- The account that a call acts for. -/
def actor : Hosts.Call → Option Id
  | .create hostId _ | .update hostId _ _ | .listOwnedBy hostId | .listReceivedBy hostId =>
    some hostId
  | .platform (.removeListing hostId _) | .platform (.addAvailability hostId _ _)
  | .platform (.removeAvailability hostId _ _) => some hostId
  | .platform (.getOwned guestId _) | .platform (.listOwnedBy guestId)
  | .platform (.createReview guestId _) => some guestId
  | .platform (.booking (.hold guestId _)) | .platform (.booking (.cancel guestId _)) => some guestId
  | _ => none

/-- A listing is written from a body that the service puts through the pipe, and a review has
been through it. -/
def Admissible : Hosts.Call → Prop
  | .platform (.createListing _ _) | .platform (.updateListing _ _ _) => False
  | .platform (.createReview _ dto) => Reviewable v dto.rating dto.body
  | _ => True

/-- A call that a request of `user` can make behind `@Auth(…roles)`. -/
structure Routed (user : AuthUser) (roles : List Role) (c : Hosts.Call) : Prop where
  actor : actor c = some user.userId
  host : c.host.isSome = true → roles = [.host]
  admissible : Admissible v c

/-- A call that a request can make without an access token. -/
inductive Opens : Identity.Accounts.Call → Prop where
  | register (dto : RegisterDto) (he : v.isEmail dto.email = true)
      (hp : v.isLength 12 128 dto.password = true) : Opens (.register dto)
  | session (c : Identity.Call) : Opens (.session c)

/-- Whatever a handler makes of a request is one of these. -/
def Handler.Fair : Handler → Prop
  | .unguarded handle => ∀ r c, handle r = .ok c → Opens v c
  | .anyone handle => ∀ r params c, handle r params = .ok c → c.browses = true
  | .guarded roles handle =>
    ∀ user params body c, handle user params body = .ok (some c) → Routed v user roles c

section Fair

variable {v} {roles : List Role}

theorem bind_eq_ok {α β : Type} {x : Except Err α} {f : α → Except Err β} {b : β}
    (h : x >>= f = .ok b) : ∃ a, x = .ok a ∧ f a = .ok b := by
  cases x with
  | error e => cases h
  | ok a => exact ⟨a, rfl, h⟩

theorem map_eq_ok {α β : Type} {x : Except Err α} {f : α → β} {b : β} (h : f <$> x = .ok b) :
    ∃ a, x = .ok a ∧ f a = b := by
  cases x with
  | error e => cases h
  | ok a => exact ⟨a, rfl, Except.ok.inj h⟩

theorem fair_plain {make : AuthUser → Value → Except Err Hosts.Call}
    (h : ∀ user body c, make user body = .ok c → Routed v user roles c) :
    (Handler.guarded roles (plain make)).Fair v := by
  intro user params body c hc
  obtain ⟨c', hmake, hc'⟩ := map_eq_ok hc
  cases hc'
  exact h user body _ hmake

theorem fair_withId {make : AuthUser → Id → Value → Except Err Hosts.Call}
    (h : ∀ user id body c, make user id body = .ok c → Routed v user roles c) :
    (Handler.guarded roles (withId v make)).Fair v := by
  intro user params body c hc
  unfold withId at hc
  split at hc
  · obtain ⟨id, -, hc⟩ := bind_eq_ok hc
    obtain ⟨c', hmake, hc'⟩ := map_eq_ok hc
    cases hc'
    exact h user id body _ hmake
  · cases hc

theorem fair_browse {make : Id → Hosts.Call} (h : ∀ id, (make id).browses = true) :
    (Handler.anyone (browse v make)).Fair v := by
  intro r params c hc
  unfold browse at hc
  split at hc
  · obtain ⟨id, -, rfl⟩ := map_eq_ok hc
    exact h id
  · cases hc

namespace AuthController

theorem fair : ∀ route ∈ routes v, route.handler.Fair v := by
  have hregister : (Handler.unguarded (register v)).Fair v := by
    intro r c hc
    obtain ⟨dto, hdto, rfl⟩ := map_eq_ok hc
    obtain ⟨data, hpipe, hread⟩ := receive_eq_ok hdto
    obtain ⟨dto', hread', he, hp⟩ := RegisterDto.read_of_pipe hpipe
    rw [hread] at hread'
    cases hread'
    exact .register dto he hp
  have hlogin : (Handler.unguarded (login v)).Fair v := by
    intro r c hc
    obtain ⟨dto, -, rfl⟩ := map_eq_ok hc
    exact .session _
  have hrefresh : (Handler.unguarded refresh).Fair v := by
    intro r c hc
    cases hc
    exact .session _
  have hlogout : (Handler.unguarded logout).Fair v := by
    intro r c hc
    cases hc
    exact .session _
  have hme : (Handler.guarded [] me).Fair v := fun _ _ _ _ hc => by cases hc
  simp only [routes, List.forall_mem_cons, List.not_mem_nil, false_implies, implies_true, and_true]
  exact ⟨hregister, hlogin, hrefresh, hlogout, hme⟩

end AuthController

namespace ListingsController

theorem fair : ∀ route ∈ routes v, route.handler.Fair v := by
  have hcreate : (Handler.guarded [.host] (plain create)).Fair v :=
    fair_plain fun _ _ _ hc => by cases hc; exact ⟨rfl, fun _ => rfl, trivial⟩
  have hactive : (Handler.anyone listActive).Fair v := fun _ _ _ hc => by cases hc; rfl
  have hmine : (Handler.guarded [.host] (plain listMine)).Fair v :=
    fair_plain fun _ _ _ hc => by cases hc; exact ⟨rfl, fun _ => rfl, trivial⟩
  have hupdate : (Handler.guarded [.host] (withId v update)).Fair v :=
    fair_withId fun _ _ _ _ hc => by cases hc; exact ⟨rfl, fun _ => rfl, trivial⟩
  have hremove : (Handler.guarded [.host] (withId v remove)).Fair v :=
    fair_withId fun _ _ _ _ hc => by cases hc; exact ⟨rfl, fun _ => rfl, trivial⟩
  have hadd : (Handler.guarded [.host] (withId v (addAvailability v))).Fair v := by
    refine fair_withId fun user id body c hc => ?_
    obtain ⟨dto, -, hc⟩ := bind_eq_ok hc
    cases hc
    exact ⟨rfl, fun _ => rfl, trivial⟩
  have hdrop : (Handler.guarded [.host] (removeAvailability v)).Fair v := by
    intro user params body c hc
    unfold removeAvailability at hc
    split at hc
    · obtain ⟨id, -, hc⟩ := bind_eq_ok hc
      obtain ⟨blockId, -, hc⟩ := bind_eq_ok hc
      cases hc
      exact ⟨rfl, fun _ => rfl, trivial⟩
    · cases hc
  simp only [routes, List.forall_mem_cons, List.not_mem_nil, false_implies, implies_true, and_true]
  exact ⟨hcreate, hactive, hmine, fair_browse fun _ => rfl, hupdate, hremove, hadd,
    fair_browse fun _ => rfl, hdrop⟩

end ListingsController

namespace BookingController

theorem fair : ∀ route ∈ routes v, route.handler.Fair v := by
  have hcreate : (Handler.guarded [] (plain (create v))).Fair v := by
    refine fair_plain fun user body c hc => ?_
    obtain ⟨dto, -, hc⟩ := bind_eq_ok hc
    cases hc
    exact ⟨rfl, fun h => (Bool.false_ne_true h).elim, trivial⟩
  have hmine : (Handler.guarded [] (plain listMine)).Fair v :=
    fair_plain fun _ _ _ hc => by
      cases hc; exact ⟨rfl, fun h => (Bool.false_ne_true h).elim, trivial⟩
  have hreceived : (Handler.guarded [.host] (plain listReceived)).Fair v :=
    fair_plain fun _ _ _ hc => by cases hc; exact ⟨rfl, fun _ => rfl, trivial⟩
  have hone : (Handler.guarded [] (withId v getOne)).Fair v :=
    fair_withId fun _ _ _ _ hc => by
      cases hc; exact ⟨rfl, fun h => (Bool.false_ne_true h).elim, trivial⟩
  have hcancel : (Handler.guarded [] (withId v cancel)).Fair v :=
    fair_withId fun _ _ _ _ hc => by
      cases hc; exact ⟨rfl, fun h => (Bool.false_ne_true h).elim, trivial⟩
  simp only [routes, List.forall_mem_cons, List.not_mem_nil, false_implies, implies_true, and_true]
  exact ⟨hcreate, hmine, hreceived, hone, hcancel⟩

end BookingController

namespace ReviewsController

theorem fair : ∀ route ∈ routes v, route.handler.Fair v := by
  have hcreate : (Handler.guarded [] (plain (create v))).Fair v := by
    refine fair_plain fun user body c hc => ?_
    obtain ⟨dto, hdto, hc⟩ := bind_eq_ok hc
    cases hc
    obtain ⟨data, hpipe, hread⟩ := receive_eq_ok hdto
    obtain ⟨dto', hread', hbounds⟩ := CreateReviewDto.read_of_pipe hpipe
    rw [hread] at hread'
    cases hread'
    exact ⟨rfl, fun h => (Bool.false_ne_true h).elim, hbounds⟩
  simp only [routes, List.forall_mem_cons, List.not_mem_nil, false_implies, implies_true, and_true]
  exact hcreate

end ReviewsController

namespace ListingReviewsController

theorem fair : ∀ route ∈ routes v, route.handler.Fair v := by
  simp only [routes, List.forall_mem_cons, List.not_mem_nil, false_implies, implies_true, and_true]
  exact fair_browse fun _ => rfl

end ListingReviewsController

theorem mem_of_lookup {r : Request} {rs : List Route} {handler : Handler} {params : List String}
    (h : lookup r rs = some (handler, params)) : ∃ route ∈ rs, route.handler = handler := by
  induction rs with
  | nil => cases h
  | cons route rs ih =>
    simp only [lookup] at h
    split at h
    · cases h
      exact ⟨route, List.mem_cons_self, rfl⟩
    · obtain ⟨route', hmem, he⟩ := ih h
      exact ⟨route', List.mem_cons_of_mem _ hmem, he⟩

/-- The handler of a request is one of those declared. -/
theorem fair_of_lookup {r : Request} {handler : Handler} {params : List String}
    (h : lookup r (routes v) = some (handler, params)) : handler.Fair v := by
  obtain ⟨route, hmem, rfl⟩ := mem_of_lookup h
  simp only [routes, List.mem_append] at hmem
  rcases hmem with ((hauth | hlistings) | hbooking) | hreviews | hlisting
  · exact AuthController.fair route hauth
  · exact ListingsController.fair route hlistings
  · exact BookingController.fair route hbooking
  · exact ReviewsController.fair route hreviews
  · exact ListingReviewsController.fair route hlisting

end Fair

/-! ## A word is not an id -/

/-- The words of the paths that are in the place of an id elsewhere come to their own
handlers. -/
example :
    (lookup ⟨.get, ["reservations", "mine"], none, none, none, .undefined⟩ (routes v)).map (·.2) =
      some [] := by
  rfl

end Http

end NoOverlap
