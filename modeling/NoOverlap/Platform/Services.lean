import NoOverlap.Platform.Tables

/-!
# Listings and reviews

`ListingsService` and `ReviewsService`, statement for statement, the reads of a guest's own
reservations, and the system in which they run beside every call of the booking module.
-/

namespace NoOverlap

namespace Platform

open Relational

abbrev Async (α : Type) := Concurrency.Prog Statement.Resp Err α

/-- Issue a statement and wait for its answer. -/
abbrev await (o : Statement) : Async o.Resp := Concurrency.Prog.op o

/-- A function of the booking module. -/
def ofBooking {α : Type} : NoOverlap.Async α → Async α
  | .done r => .done r
  | .call o k => .call (.booking o) fun r => ofBooking (k r)

namespace prisma

abbrev reservationFindOwned (guestId : Id) : Async (List Reservation) :=
  await (.reservationFindOwned guestId)

abbrev listingCreate (hostId : Id) (dto : CreateListingDto) : Async ListingRow :=
  await (.listing (.create hostId dto))

abbrev listingFindHost (id : Id) : Async (Option Id) := await (.listing (.findHost id))

abbrev listingUpdate (id : Id) (data : UpdateListingDto) : Async ListingRow :=
  await (.listing (.update id data))

abbrev listingDelete (id : Id) : Async Unit := await (.listing (.delete id))

abbrev blockCreate (listingId : Id) (startsAt endsAt : JsDate) (kind : AvailabilityKind) :
    Async AvailabilityBlock := await (.listing (.blockCreate listingId startsAt endsAt kind))

abbrev blockDeleteMany (id listingId : Id) : Async Nat :=
  await (.listing (.blockDeleteMany id listingId))

abbrev reviewCreate (data : ReviewData) : Async Review := await (.reviewCreate data)

end prisma

end Platform

/-! ## Errors -/

/-- `isForeignKeyViolation`. -/
def Err.isForeignKeyViolation : Err → Bool
  | .known code => code == "P2003"
  | .driver code originalCode => originalCode == some "23503" || code == some "23503"
  | _ => false

namespace Platform

/-! ## ListingsService -/

namespace ListingsService

def create (hostId : Id) (dto : CreateListingDto) : Async ListingRow :=
  prisma.listingCreate hostId dto

def assertOwner (id hostId : Id) : Async Unit := do
  match ← prisma.listingFindHost id with
  | none => throw (.app .notFound none)
  | some owner => if owner ≠ hostId then throw (.app .forbidden none) else pure ()

def update (hostId id : Id) (dto : UpdateListingDto) : Async ListingRow := do
  assertOwner id hostId
  prisma.listingUpdate id dto

def listingHasBookings : Err :=
  .app .listingHasBookings (some ("This listing has bookings, so it cannot be deleted. " ++
    "Pause it instead to stop taking new ones."))

/-- `remove` from the delete on. -/
def deleteUnbooked (id : Id) : Async Unit :=
  tryCatch (prisma.listingDelete id) fun err =>
    if err.isForeignKeyViolation then throw listingHasBookings else throw err

def remove (hostId id : Id) : Async Unit := do
  assertOwner id hostId
  deleteUnbooked id

def addAvailability (hostId listingId : Id) (dto : CreateAvailabilityDto) :
    Async AvailabilityBlock := do
  assertOwner listingId hostId
  if dto.endsAt.le dto.startsAt then
    throw (.app .validationFailed (some "startsAt must be before endsAt."))
  else prisma.blockCreate listingId dto.startsAt dto.endsAt dto.kind

def removeAvailability (hostId listingId blockId : Id) : Async Unit := do
  assertOwner listingId hostId
  let count ← prisma.blockDeleteMany blockId listingId
  if count = 0 then throw (.app .notFound none) else pure ()

end ListingsService

/-! ## ReviewsService -/

namespace ReviewsService

/-- The review of a reservation that the caller has been authorised for. -/
def submit (dto : CreateReviewDto) (reservation : Reservation) : Async Review :=
  if reservation.status ≠ .completed then
    throw (.app .reviewStayNotFinished (some "A stay can be reviewed only once it has ended."))
  else
    tryCatch
      (prisma.reviewCreate
        { reservationId := dto.reservationId, listingId := reservation.listingId,
          rating := dto.rating, body := dto.body })
      fun err => if err.isUniqueViolation then throw (.app .reviewAlreadyExists none) else throw err

def create (guestId : Id) (dto : CreateReviewDto) : Async Review := do
  let reservation ← ofBooking (getOwned guestId dto.reservationId)
  submit dto reservation

end ReviewsService

/-! ## The system -/

inductive Call where
  | booking (c : NoOverlap.Call)
  | getOwned (guestId id : Id)
  | listOwnedBy (guestId : Id)
  | createListing (hostId : Id) (dto : CreateListingDto)
  | updateListing (hostId id : Id) (dto : UpdateListingDto)
  | removeListing (hostId id : Id)
  | addAvailability (hostId listingId : Id) (dto : CreateAvailabilityDto)
  | removeAvailability (hostId listingId blockId : Id)
  | createReview (guestId : Id) (dto : CreateReviewDto)

/-- What a call answers. -/
inductive Reply where
  | none
  | booking (r : NoOverlap.Reply)
  | reservation (r : Reservation)
  | reservations (rs : List Reservation)
  | listing (l : ListingRow)
  | block (b : AvailabilityBlock)
  | review (v : Review)

/-- Hand the result of a function to its caller. -/
def answer {α : Type} (p : Async α) (f : α → Reply) : Async Reply := p >>= fun a => pure (f a)

def Call.program (cfg : Config) : Call → Async Reply
  | booking c => answer (ofBooking (c.program cfg)) .booking
  | getOwned guestId id => answer (ofBooking (NoOverlap.getOwned guestId id)) .reservation
  | listOwnedBy guestId => answer (prisma.reservationFindOwned guestId) .reservations
  | createListing hostId dto => answer (ListingsService.create hostId dto) .listing
  | updateListing hostId id dto => answer (ListingsService.update hostId id dto) .listing
  | removeListing hostId id => answer (ListingsService.remove hostId id) fun _ => .none
  | addAvailability hostId listingId dto =>
    answer (ListingsService.addAvailability hostId listingId dto) .block
  | removeAvailability hostId listingId blockId =>
    answer (ListingsService.removeAvailability hostId listingId blockId) fun _ => .none
  | createReview guestId dto => answer (ReviewsService.create guestId dto) .review

namespace Store

def spawned (c : Call) (s : Store) : Option Store :=
  match c with
  | .booking c => (s.booking.spawned c).pmap s.withBooking fun _ hs =>
      congrArg Database.listings (spawned_db hs)
  | _ => some s

def returned (t : Nat) (c : Call) (r : Except Err Reply) (s : Store) : Store :=
  match c with
  | .booking c =>
    s.withBooking (s.booking.returned t c (r.map fun _ => .none))
      (congrArg Database.listings (returned_db t c _ s.booking))
  | _ => s

def killed (t : Nat) (_ : Call) (s : Store) : Store :=
  s.withBooking { s.booking with db := s.booking.db.rollback t } rfl

end Store

abbrev Machine := Concurrency.Machine Store Call Choice Statement.Resp Err Reply

abbrev Policy := Concurrency.Policy Store Call Choice Statement.Resp Err Reply

abbrev World := Concurrency.World Store Call Statement.Resp Err Reply

abbrev Agent := Concurrency.Agent Call

abbrev Event := Concurrency.Event Call Choice

def system (cfg : Config) : Machine :=
  { program := Call.program cfg
    exec := Statement.exec
    spawned := Store.spawned
    returned := Store.returned
    killed := Store.killed }

/-- Any call at any time, any failure, any crash. -/
def anything : Policy :=
  { spawn := fun _ _ => true
    op := fun _ _ _ _ => true
    kill := fun _ _ _ => true }

end Platform

end NoOverlap
