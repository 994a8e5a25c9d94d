import NoOverlap.Lifecycle.Effect

/-!
# The platform around bookings

Listings, their availability windows and the reviews of stays, beside the store of the
booking module, under the foreign keys the last migration leaves: a reservation keeps its
listing from being deleted, and a listing that is deleted takes its windows and its reviews
along.

A text column takes any text here.  PostgreSQL refuses one with `U+0000` in it, so that what it
stores is less.

Booking reads three columns of a listing.  The tables of the booking store hold these
three, and a store carries the proof that they are those of the rows kept here.

`clock` is the time of the last statement.  `removals` and `submissions` are history
variables, which no statement reads.
-/

namespace NoOverlap

namespace Platform

open Relational

/-! ## Rows -/

structure ListingRow where
  id : Id
  hostId : Id
  title : String
  city : String
  nightlyPriceCents : Int
  maxGuests : Int
  active : Bool
  createdAt : Int
  deriving DecidableEq

/-- What a booking reads of a listing. -/
def ListingRow.offer (l : ListingRow) : Listing :=
  { id := l.id, nightlyPriceCents := l.nightlyPriceCents, active := l.active }

inductive AvailabilityKind where
  | opened
  | closed
  deriving DecidableEq, Repr

structure AvailabilityBlock where
  id : Id
  listingId : Id
  startsAt : Int
  endsAt : Int
  kind : AvailabilityKind
  deriving DecidableEq

structure Review where
  id : Id
  reservationId : Id
  listingId : Id
  rating : Int
  body : Option String
  createdAt : Int
  deriving DecidableEq

instance : Keyed ListingRow Id := ⟨ListingRow.id⟩

instance : Keyed AvailabilityBlock Id := ⟨AvailabilityBlock.id⟩

instance : Keyed Review Id := ⟨Review.id⟩

@[simp] theorem key_listingRow (l : ListingRow) : key l = l.id := rfl

@[simp] theorem key_block (b : AvailabilityBlock) : key b = b.id := rfl

@[simp] theorem key_review (v : Review) : key v = v.id := rfl

/-! ## Requests -/

structure CreateListingDto where
  title : String
  city : String
  nightlyPriceCents : Int
  maxGuests : Int
  active : Option Bool

/-- `PartialType(CreateListingDto)`.  A field that is absent is left alone. -/
structure UpdateListingDto where
  title : Option String := none
  city : Option String := none
  nightlyPriceCents : Option Int := none
  maxGuests : Option Int := none
  active : Option Bool := none

structure CreateAvailabilityDto where
  /-- `new Date(dto.startsAt)`. -/
  startsAt : JsDate
  endsAt : JsDate
  kind : AvailabilityKind

structure CreateReviewDto where
  reservationId : Id
  rating : Int
  body : Option String

def UpdateListingDto.apply (dto : UpdateListingDto) (l : ListingRow) : ListingRow :=
  { l with
    title := dto.title.getD l.title
    city := dto.city.getD l.city
    nightlyPriceCents := dto.nightlyPriceCents.getD l.nightlyPriceCents
    maxGuests := dto.maxGuests.getD l.maxGuests
    active := dto.active.getD l.active }

/-- The data of `review.create`. -/
structure ReviewData where
  reservationId : Id
  listingId : Id
  rating : Int
  body : Option String

/-! ## The store -/

/-- A listing that thread `tid` has deleted. -/
structure Removal where
  tid : Nat
  listingId : Id
  deriving DecidableEq

/-- A review that thread `tid` has written, and the status changes up to then. -/
structure Submission where
  tid : Nat
  review : Review
  log : List StatusChange

structure Store where
  booking : NoOverlap.Store
  listings : Table ListingRow
  offered : booking.db.listings = listings.map ListingRow.offer fun _ => rfl
  blocks : Table AvailabilityBlock
  reviews : Table Review
  clock : Int
  removals : List Removal
  submissions : List Submission

namespace Store

/-- Nothing has been booked or reviewed. -/
def init (listings : Table ListingRow) (now : Int) : Store :=
  { booking := NoOverlap.Store.init (listings.map ListingRow.offer fun _ => rfl)
    listings := listings
    offered := rfl
    blocks := .empty
    reviews := .empty
    clock := now
    removals := []
    submissions := [] }

/-- The booking module has moved.  It leaves the listings alone. -/
def withBooking (s : Store) (b : NoOverlap.Store) (h : b.db.listings = s.booking.db.listings) :
    Store :=
  { s with booking := b, offered := h.trans s.offered }

def withListings (s : Store) (listings : Table ListingRow) : Store :=
  let db := { s.booking.db with listings := listings.map ListingRow.offer fun _ => rfl }
  { s with listings := listings, booking := { s.booking with db := db }, offered := rfl }

/-- A reservation that has not been committed yet holds on to its listing. -/
def locked (s : Store) (id : Id) : Bool :=
  s.booking.db.transactions.rows.any fun tx => tx.reservations.any fun r => r.listingId == id

/-- Some reservation, of whatever status, is of the listing. -/
def booked (s : Store) (id : Id) : Bool :=
  s.booking.db.reservations.rows.any fun r => r.listingId == id

/-- The listing and what refers to it by a cascading key. -/
def deleteListing (s : Store) (t : Nat) (id : Id) : Store :=
  let s := s.withListings (s.listings.erase fun l => l.id == id)
  { s with
    blocks := s.blocks.erase fun b => b.listingId == id
    reviews := s.reviews.erase fun v => v.listingId == id
    removals := s.removals ++ [{ tid := t, listingId := id }] }

end Store

/-! ## Statements -/

inductive ListingStatement where
  | create (hostId : Id) (dto : CreateListingDto)
  /-- The host of a listing. -/
  | findHost (id : Id)
  | update (id : Id) (data : UpdateListingDto)
  | delete (id : Id)
  | blockCreate (listingId : Id) (startsAt endsAt : JsDate) (kind : AvailabilityKind)
  | blockDeleteMany (id listingId : Id)

@[reducible] def ListingStatement.Resp : ListingStatement → Type
  | create _ _ => ListingRow
  | findHost _ => Option Id
  | update _ _ => ListingRow
  | delete _ => Unit
  | blockCreate _ _ _ _ => AvailabilityBlock
  | blockDeleteMany _ _ => Nat

inductive Statement where
  | booking (o : NoOverlap.Statement)
  /-- The reservations of a guest, newest first. -/
  | reservationFindOwned (guestId : Id)
  | listing (o : ListingStatement)
  | reviewCreate (data : ReviewData)

@[reducible] def Statement.Resp : Statement → Type
  | booking o => o.Resp
  | reservationFindOwned _ => List Reservation
  | listing o => o.Resp
  | reviewCreate _ => Review

namespace Store

/-- The prices and numbers of a row fit their columns. -/
def fits (l : ListingRow) : Bool :=
  Database.fitsInteger l.nightlyPriceCents && Database.fitsInteger l.maxGuests

def listingCreate (s : Store) (id : Id) (now : Int) (hostId : Id) (dto : CreateListingDto) :
    Option (Except Err ListingRow × Store) :=
  let row : ListingRow :=
    { id := id, hostId := hostId, title := dto.title, city := dto.city,
      nightlyPriceCents := dto.nightlyPriceCents, maxGuests := dto.maxGuests,
      active := dto.active.getD true, createdAt := now }
  if !fits row then some (.error (.other "out of range for INTEGER"), s)
  else if (s.listings.find? id).isSome then none
  else some (.ok row, s.withListings (s.listings.insert row))

def listingUpdate (s : Store) (id : Id) (data : UpdateListingDto) :
    Except Err ListingRow × Store :=
  match s.listings.find? id with
  | none => (.error (.known "P2025"), s)
  | some row =>
    if !fits (data.apply row) then (.error (.other "out of range for INTEGER"), s)
    else (.ok (data.apply row),
      s.withListings (s.listings.update (fun l => l.id == id) data.apply fun _ => rfl))

/-- `DELETE FROM listings`, by thread `t`. -/
def listingDelete (s : Store) (t : Nat) (id : Id) : Option (Except Err Unit × Store) :=
  match s.listings.find? id with
  | none => some (.error (.known "P2025"), s)
  | some _ =>
    -- An insert that refers to the row has a lock on it until its transaction ends.
    if s.locked id then none
    else if s.booked id then some (.error (.known "P2003"), s)
    else some (.ok (), s.deleteListing t id)

def blockCreate (s : Store) (id listingId : Id) (startsAt endsAt : JsDate)
    (kind : AvailabilityKind) : Option (Except Err AvailabilityBlock × Store) :=
  match startsAt, endsAt with
  | some startsAt, some endsAt =>
    let row : AvailabilityBlock :=
      { id := id, listingId := listingId, startsAt := startsAt, endsAt := endsAt, kind := kind }
    if (s.listings.find? listingId).isNone then some (.error (.known "P2003"), s)
    else if (s.blocks.find? id).isSome then none
    else some (.ok row, { s with blocks := s.blocks.insert row })
  | _, _ => some (.error (.other "invalid value"), s)

def blockDeleteMany (s : Store) (id listingId : Id) : Nat × Store :=
  let selects (b : AvailabilityBlock) : Bool := b.id == id && b.listingId == listingId
  (s.blocks.rows.countP selects, { s with blocks := s.blocks.erase selects })

def performListing (s : Store) (t : Nat) (id : Id) (now : Int) :
    (o : ListingStatement) → Option (Except Err o.Resp × Store)
  | .create hostId dto => s.listingCreate id now hostId dto
  | .findHost lid => some (.ok ((s.listings.find? lid).map (·.hostId)), s)
  | .update lid data => some (s.listingUpdate lid data)
  | .delete lid => s.listingDelete t lid
  | .blockCreate lid startsAt endsAt kind => s.blockCreate id lid startsAt endsAt kind
  | .blockDeleteMany bid lid => some ((fun ns => (.ok ns.1, ns.2)) (s.blockDeleteMany bid lid))

/-- The unique index on the reservation is consulted before the foreign keys. -/
def reviewCreate (s : Store) (t : Nat) (id : Id) (now : Int) (data : ReviewData) :
    Option (Except Err Review × Store) :=
  let row : Review :=
    { id := id, reservationId := data.reservationId, listingId := data.listingId,
      rating := data.rating, body := data.body, createdAt := now }
  if (s.reviews.find? id).isSome then none
  else if s.reviews.rows.any (fun v => v.reservationId == data.reservationId) then
    some (.error (.known "P2002"), s)
  else if (s.booking.db.reservations.find? data.reservationId).isNone then
    some (.error (.known "P2003"), s)
  else if (s.listings.find? data.listingId).isNone then some (.error (.known "P2003"), s)
  else
    let submission : Submission := { tid := t, review := row, log := s.booking.db.statusLog }
    some (.ok row,
      { s with reviews := s.reviews.insert row, submissions := s.submissions ++ [submission] })

def reservationFindOwned (s : Store) (guestId : Id) : List Reservation :=
  (s.booking.db.reservations.rows.filter fun r => r.guestId == guestId).insertionSort
    fun a b => b.createdAt ≤ a.createdAt

end Store

/-- A statement under the fault the environment picked. -/
def faulty {α σ : Type} (f : Fault) (s : σ) (x : Option (Except Err α × σ)) :
    Option (Except Err α × σ) :=
  match f with
  | .none => x
  | .before e => some (.error e, s)
  | .after e => x.map fun y => (.error e, y.2)

namespace Statement

/-- A statement of thread `t` but for the time it takes place. -/
def apply (t : Nat) (ch : Choice) : (o : Statement) → Store → Option (Except Err o.Resp × Store)
  | .booking o, s =>
    (o.exec t ch s.booking).pmap (fun x h => (x.1, s.withBooking x.2 h))
      fun _ hx => NoOverlap.Statement.listings_of_exec hx
  | .reservationFindOwned guestId, s =>
    faulty ch.fault s (some (.ok (s.reservationFindOwned guestId), s))
  | .listing o, s => faulty ch.fault s (s.performListing t ch.id ch.now o)
  | .reviewCreate data, s => faulty ch.fault s (s.reviewCreate t ch.id ch.now data)

def exec (t : Nat) (ch : Choice) (o : Statement) (s : Store) :
    Option (Except Err o.Resp × Store) :=
  (o.apply t ch s).map fun x => (x.1, { x.2 with clock := ch.now })

end Statement

end Platform

end NoOverlap
