import NoOverlap.Platform.Bodies
import NoOverlap.Platform.Guests
import NoOverlap.Platform.Summary

/-!
# Hosts act on what they own

The platform with the reads of a host and with request bodies as they arrive.  Who owns a
listing is asked before the write and apart from it, and the write is by id alone.  What
makes that safe is that an id says who the host is: no statement writes the host of a
listing, and the id of a listing that is gone is never given to another.  `Mine` is what
the check leaves behind, and it lasts.
-/

namespace NoOverlap

namespace Platform

open Json Relational Concurrency RelyGuarantee
open Concurrency.Prog

/-! ## Statements -/

namespace Store

def listingFindOwned (s : Store) (hostId : Id) : List ListingRow :=
  (s.listings.rows.filter fun l => l.hostId == hostId).insertionSort
    fun a b => b.createdAt ≤ a.createdAt

def reservationFindReceived (s : Store) (listingIds : List Id) : List Reservation :=
  (s.booking.db.reservations.rows.filter fun r => listingIds.contains r.listingId).insertionSort
    fun a b => b.createdAt ≤ a.createdAt

end Store

namespace Hosts

/-- What is read for anybody. -/
inductive Query where
  /-- The active listings, newest first, of one city if there is one to narrow them to. -/
  | listingFindActive (city : Option String)
  | listingFindUnique (id : Id)
  /-- The windows of a listing, earliest first. -/
  | blockFindMany (listingId : Id)
  | reviewFindMany (listingId : Id)
  | reviewAggregate (listingId : Id)

@[reducible] def Query.Resp : Query → Type
  | listingFindActive _ => List ListingRow
  | listingFindUnique _ => Option ListingRow
  | blockFindMany _ => List AvailabilityBlock
  | reviewFindMany _ => List Review
  | reviewAggregate _ => Summary.Aggregate

def Query.answer (s : Store) : (q : Query) → q.Resp
  | listingFindActive city =>
    (s.listings.rows.filter fun l => l.active && city.all (l.city == ·)).insertionSort
      fun a b => b.createdAt ≤ a.createdAt
  | listingFindUnique id => s.listings.find? id
  | blockFindMany listingId =>
    (s.blocks.rows.filter fun b => b.listingId == listingId).insertionSort
      fun a b => a.startsAt ≤ b.startsAt
  | reviewFindMany listingId => Summary.findMany listingId s.reviews.rows
  | reviewAggregate listingId => Summary.aggregate listingId s.reviews.rows

inductive Statement where
  | platform (o : Platform.Statement)
  /-- The listings of a host, newest first. -/
  | listingFindOwned (hostId : Id)
  /-- The reservations of some listings, newest first. -/
  | reservationFindReceived (listingIds : List Id)
  | read (q : Query)
  /-- Whether the first of two queries under way is the first to be answered. -/
  | inOrder

@[reducible] def Statement.Resp : Statement → Type
  | platform o => o.Resp
  | listingFindOwned _ => List ListingRow
  | reservationFindReceived _ => List Reservation
  | read q => q.Resp
  | inOrder => Bool

def Statement.exec (t : Nat) (ch : Choice) :
    (o : Statement) → Store → Option (Except Err o.Resp × Store)
  | .platform o, s => o.exec t ch s
  | .listingFindOwned hostId, s =>
    faulty ch.fault { s with clock := ch.now }
      (some (.ok (s.listingFindOwned hostId), { s with clock := ch.now }))
  | .reservationFindReceived listingIds, s =>
    faulty ch.fault { s with clock := ch.now }
      (some (.ok (s.reservationFindReceived listingIds), { s with clock := ch.now }))
  | .read q, s =>
    faulty ch.fault { s with clock := ch.now } (some (.ok (q.answer s), { s with clock := ch.now }))
  | .inOrder, s => some (.ok ch.inOrder, s)

abbrev Async (α : Type) := Prog Statement.Resp Err α

/-- A function of the platform. -/
def ofPlatform {α : Type} : Platform.Async α → Async α
  | .done r => .done r
  | .call o k => .call (.platform o) fun r => ofPlatform (k r)

/-! ## The services -/

/-- `ListingsService.create` on the body of a request. -/
def create (isLength : Nat → Nat → String → Bool) (hostId : Id) (body : Value) :
    Platform.Async ListingRow :=
  match pipe (CreateListingDto.declared isLength) body with
  | none => throw (.app .validationFailed none)
  | some data =>
    match CreateListingDto.read data with
    | none => throw (.other "invalid value")
    | some dto => ListingsService.create hostId dto

/-- `ListingsService.update` on the body of a request.  Prisma refuses a value before it sends
anything. -/
def update (isLength : Nat → Nat → String → Bool) (hostId id : Id) (body : Value) :
    Platform.Async ListingRow :=
  match pipe (UpdateListingDto.declared isLength) body with
  | none => throw (.app .validationFailed none)
  | some data => do
    ListingsService.assertOwner id hostId
    match UpdateListingDto.read data with
    | none => throw (.other "invalid value")
    | some dto => prisma.listingUpdate id dto

/-- `ListingsService.listOwnedBy`. -/
def listOwnedBy (hostId : Id) : Async (List ListingRow) :=
  Prog.op (Statement.listingFindOwned hostId)

/-- `BookingService.listReceivedBy`. -/
def listReceivedBy (hostId : Id) : Async (List Reservation) := do
  let listings ← listOwnedBy hostId
  if listings.length = 0 then pure []
  else Prog.op (Statement.reservationFindReceived (listings.map fun listing => listing.id))

/-! ### For anybody -/

/-- A city that is an empty text narrows nothing. -/
def listActive (city : Option String) : Async (List ListingRow) :=
  Prog.op (Statement.read (.listingFindActive (city.filter (· ≠ ""))))

def getById (id : Id) : Async ListingRow := do
  match ← Prog.op (Statement.read (.listingFindUnique id)) with
  | none => throw (.app .notFound none)
  | some listing => pure listing

def listAvailability (listingId : Id) : Async (List AvailabilityBlock) := do
  let _ ← getById listingId
  Prog.op (Statement.read (.blockFindMany listingId))

/-- `Promise.all` of two queries, of which either may be answered first. -/
def promiseAll (q q' : Query) : Async (q.Resp × q'.Resp) := do
  if ← Prog.op Statement.inOrder then
    let a ← Prog.op (Statement.read q)
    let b ← Prog.op (Statement.read q')
    pure (a, b)
  else
    let b ← Prog.op (Statement.read q')
    let a ← Prog.op (Statement.read q)
    pure (a, b)

/-- `ReviewsService.forListing`. -/
def forListing (listingId : Id) : Async Summary.ListingReviews := do
  let x ← promiseAll (.reviewFindMany listingId) (.reviewAggregate listingId)
  pure { averageRating := x.2.avg, count := x.2.count, reviews := x.1 }

/-! ## The system -/

inductive Call where
  | platform (c : Platform.Call)
  | create (hostId : Id) (body : Value)
  | update (hostId id : Id) (body : Value)
  | listOwnedBy (hostId : Id)
  | listReceivedBy (hostId : Id)
  | listActive (city : Option String)
  | getById (id : Id)
  | listAvailability (listingId : Id)
  | forListing (listingId : Id)

inductive Reply where
  | platform (r : Platform.Reply)
  | listing (l : ListingRow)
  | listings (ls : List ListingRow)
  | reservations (rs : List Reservation)
  | blocks (bs : List AvailabilityBlock)
  | reviews (r : Summary.ListingReviews)

def answer {α : Type} (p : Async α) (f : α → Reply) : Async Reply := p >>= fun a => pure (f a)

def Call.program (isLength : Nat → Nat → String → Bool) (cfg : Config) : Call → Async Reply
  | platform c => answer (ofPlatform (c.program cfg)) .platform
  | create hostId body => answer (ofPlatform (Hosts.create isLength hostId body)) .listing
  | update hostId id body => answer (ofPlatform (Hosts.update isLength hostId id body)) .listing
  | listOwnedBy hostId => answer (Hosts.listOwnedBy hostId) .listings
  | listReceivedBy hostId => answer (Hosts.listReceivedBy hostId) .reservations
  | listActive city => answer (Hosts.listActive city) .listings
  | getById id => answer (Hosts.getById id) .listing
  | listAvailability listingId => answer (Hosts.listAvailability listingId) .blocks
  | forListing listingId => answer (Hosts.forListing listingId) .reviews

/-- The host that a call on listings is made by. -/
def Call.host : Call → Option Id
  | platform (.createListing hostId _) => some hostId
  | platform (.updateListing hostId _ _) => some hostId
  | platform (.removeListing hostId _) => some hostId
  | platform (.addAvailability hostId _ _) => some hostId
  | platform (.removeAvailability hostId _ _) => some hostId
  | platform _ => none
  | create hostId _ => some hostId
  | update hostId _ _ => some hostId
  | listOwnedBy hostId => some hostId
  | listReceivedBy hostId => some hostId
  | listActive _ | getById _ | listAvailability _ | forListing _ => none

/-- The call asks for what anybody may see. -/
def Call.browses : Call → Bool
  | listActive _ | getById _ | listAvailability _ | forListing _ => true
  | _ => false

def Statement.reads : Statement → Bool
  | read _ | inOrder => true
  | _ => false

def spawned (c : Call) (s : Store) : Option Store :=
  match c with
  | .platform c => s.spawned c
  | _ => some s

def returned (t : Nat) (c : Call) (r : Except Err Reply) (s : Store) : Store :=
  match c with
  | .platform c => s.returned t c (r.map fun _ => .none)
  | _ => s

theorem listings_of_rollback (t : Nat) (s : Store) :
    (s.booking.db.rollback t).listings = s.booking.db.listings := rfl

def killed (t : Nat) (_ : Call) (s : Store) : Store :=
  s.withBooking { s.booking with db := s.booking.db.rollback t } (listings_of_rollback t s)

abbrev Machine := Concurrency.Machine Store Call Choice Statement.Resp Err Reply

abbrev Policy := Concurrency.Policy Store Call Choice Statement.Resp Err Reply

abbrev World := Concurrency.World Store Call Statement.Resp Err Reply

def system (isLength : Nat → Nat → String → Bool) (cfg : Config) : Machine :=
  { program := Call.program isLength cfg
    exec := Statement.exec
    spawned := spawned
    returned := returned
    killed := killed }

/-- The UUID of a new listing has never been that of a listing before. -/
def Statement.fresh (ch : Choice) (s : Store) : Statement → Bool
  | .platform (.listing (.create _ _)) => s.removals.all fun m => m.listingId != ch.id
  | _ => true

/-- Any call at any time, any failure, any crash. -/
def uuids : Policy :=
  { spawn := fun _ _ => true
    op := fun _ ch o s => o.fresh ch s
    kill := fun _ _ _ => true }

/-! ## What a statement does to listings and their windows -/

variable {s s' s'' : Store} {t : Nat} {ch : Choice} {h id : Id} {l l' : ListingRow}

/-- `id` is the UUID of a created row. -/
inductive Acts (s : Store) (t : Nat) (id : Id) : Platform.Statement → Store → Prop where
  | rest (o : Platform.Statement) (s' : Store) (hl : s'.listings = s.listings)
      (hm : s'.removals = s.removals) (hb : s'.blocks = s.blocks) : Acts s t id o s'
  | create (hostId : Id) (dto : CreateListingDto) (row : ListingRow) (s' : Store)
      (hid : row.id = id) (hh : row.hostId = hostId) (hn : s.listings.find? row.id = none)
      (hl : s'.listings = s.listings.insert row) (hm : s'.removals = s.removals)
      (hb : s'.blocks = s.blocks) : Acts s t id (.listing (.create hostId dto)) s'
  | update (lid : Id) (dto : UpdateListingDto) (s' : Store)
      (hl : s'.listings = s.listings.update (fun l => l.id == lid) dto.apply fun _ => rfl)
      (hm : s'.removals = s.removals) (hb : s'.blocks = s.blocks) :
      Acts s t id (.listing (.update lid dto)) s'
  | delete (lid : Id) (s' : Store) (hl : s'.listings = s.listings.erase fun l => l.id == lid)
      (hm : s'.removals = s.removals ++ [{ tid := t, listingId := lid }])
      (hb : s'.blocks = s.blocks.erase fun b => b.listingId == lid) :
      Acts s t id (.listing (.delete lid)) s'
  | blockCreate (lid : Id) (startsAt endsAt : JsDate) (kind : AvailabilityKind)
      (row : AvailabilityBlock) (s' : Store) (hlid : row.listingId = lid)
      (hn : s.blocks.find? row.id = none) (hl : s'.listings = s.listings)
      (hm : s'.removals = s.removals) (hb : s'.blocks = s.blocks.insert row) :
      Acts s t id (.listing (.blockCreate lid startsAt endsAt kind)) s'
  | blockDeleteMany (bid lid : Id) (s' : Store) (hl : s'.listings = s.listings)
      (hm : s'.removals = s.removals)
      (hb : s'.blocks = s.blocks.erase fun b => b.id == bid && b.listingId == lid) :
      Acts s t id (.listing (.blockDeleteMany bid lid)) s'

theorem acts_of_create {hostId : Id} {dto : CreateListingDto} {r : Except Err ListingRow}
    (hx : s.listingCreate id ch.now hostId dto = some (r, s')) :
    Acts s t id (.listing (.create hostId dto)) s' := by
  simp only [Store.listingCreate] at hx
  split_ifs at hx with h₁ h₂
  · cases hx
    exact .rest _ _ rfl rfl rfl
  · cases hx
    exact .create hostId dto _ _ rfl rfl (by simpa using h₂) rfl rfl rfl

/-- The list is complete. -/
theorem acts_of_exec {o : Platform.Statement} {r : Except Err o.Resp}
    (hx : o.exec t ch s = some (r, s')) : Acts s t ch.id o s' := by
  by_cases hcreate : ∃ hostId dto, o = .listing (.create hostId dto)
  · obtain ⟨hostId, dto, rfl⟩ := hcreate
    obtain ⟨⟨r₀, s₁⟩, ha, he⟩ := Option.map_eq_some_iff.mp hx
    cases he
    rcases faulty_cases ha with ⟨rfl, -⟩ | ⟨r', hp, -⟩
    · exact .rest _ _ rfl rfl rfl
    · cases acts_of_create (t := t) hp with
      | rest _ _ hl hm hb => exact .rest _ _ hl hm hb
      | create _ _ row _ hid hh hn hl hm hb => exact .create _ _ row _ hid hh hn hl hm hb
  · obtain ⟨r', s₁, heff, rfl, -⟩ := effect_of_exec hx
    cases heff with
    | create hostId dto => exact (hcreate ⟨hostId, dto, rfl⟩).elim
    | update lid dto row hf => exact .update lid dto _ rfl rfl rfl
    | delete lid row hf hl hb => exact .delete lid _ rfl rfl rfl
    | blockCreate lid startsAt endsAt kind row hl hid =>
      exact .blockCreate lid startsAt endsAt kind row _ hl hid rfl rfl rfl
    | blockDeleteMany bid lid n => exact .blockDeleteMany bid lid _ rfl rfl rfl
    | booking | read | refused | reviewCreate => exact .rest _ _ rfl rfl rfl

/-! ## Whose a listing is -/

/-- The listing has been deleted. -/
def Gone (id : Id) (s : Store) : Prop := ∃ m ∈ s.removals, m.listingId = id

/-- Reservations have a listing, and a listing that has been deleted is not there. -/
structure Housed (s : Store) : Prop where
  referential : Referential s
  gone : ∀ id, Gone id s → s.listings.find? id = none

/-- `s'` is a later state: a listing has kept its host or has been deleted. -/
structure Later (s s' : Store) : Prop where
  hosted : ∀ id l, s.listings.find? id = some l →
    (∃ l', s'.listings.find? id = some l' ∧ l'.hostId = l.hostId) ∨ Gone id s'
  gone : ∀ id, Gone id s → Gone id s'
  reservations : Table.Extends Stays s.booking.db.reservations s'.booking.db.reservations

/-- The listing is the host's, or was until it was deleted. -/
def Mine (h id : Id) (s : Store) : Prop :=
  (∃ l, s.listings.find? id = some l ∧ l.hostId = h) ∨ Gone id s

/-- The listings of other hosts and their windows are what they were. -/
structure Untouched (h : Id) (s s' : Store) : Prop where
  listings : ∀ id l, l.hostId ≠ h →
    (s'.listings.find? id = some l ↔ s.listings.find? id = some l)
  blocks : ∀ id l, s.listings.find? id = some l → l.hostId ≠ h → ∀ b : AvailabilityBlock,
    b.listingId = id → (b ∈ s'.blocks.rows ↔ b ∈ s.blocks.rows)

theorem Later.refl (s : Store) : Later s s :=
  ⟨fun _ l hl => .inl ⟨l, hl, rfl⟩, fun _ hg => hg, .refl Stays.refl _⟩

theorem Later.trans (h₁ : Later s s') (h₂ : Later s' s'') : Later s s'' := by
  refine ⟨fun id l hl => ?_, fun id hg => h₂.gone id (h₁.gone id hg),
    h₁.reservations.trans (fun _ _ _ => Stays.trans) h₂.reservations⟩
  rcases h₁.hosted id l hl with ⟨l', hl', he'⟩ | hg
  · rcases h₂.hosted id l' hl' with ⟨l'', hl'', he''⟩ | hg
    · exact .inl ⟨l'', hl'', he''.trans he'⟩
    · exact .inr hg
  · exact .inr (h₂.gone id hg)

theorem Later.hostId (hw : Later s s') (hi : Housed s') (hl : s.listings.find? id = some l)
    (hl' : s'.listings.find? id = some l') : l'.hostId = l.hostId := by
  rcases hw.hosted id l hl with ⟨l₁, hl₁, he⟩ | hg
  · rw [hl'] at hl₁
    cases hl₁
    exact he
  · rw [hi.gone id hg] at hl'
    cases hl'

theorem Mine.later (hm : Mine h id s) (hw : Later s s') : Mine h id s' := by
  rcases hm with ⟨l, hl, rfl⟩ | hg
  · exact hw.hosted id l hl
  · exact .inr (hw.gone id hg)

theorem Mine.hostId (hm : Mine h id s) (hi : Housed s) (hl : s.listings.find? id = some l) :
    l.hostId = h := by
  rcases hm with ⟨l₁, hl₁, rfl⟩ | hg
  · rw [hl] at hl₁
    cases hl₁
    rfl
  · rw [hi.gone id hg] at hl
    cases hl

theorem Untouched.of_eq (hl : s'.listings = s.listings) (hb : s'.blocks = s.blocks) :
    Untouched h s s' := by
  refine ⟨fun id l _ => ?_, fun id l _ _ b _ => ?_⟩
  · rw [hl]
  · rw [hb]

/-! ## One statement -/

/-- The statement creates a listing of `h`, or is about one that is `h`'s. -/
def Owned (h : Id) (s : Store) : Platform.Statement → Prop
  | .listing (.create hostId _) => hostId = h
  | .listing (.update lid _) | .listing (.delete lid) | .listing (.blockCreate lid _ _ _)
  | .listing (.blockDeleteMany _ lid) => Mine h lid s
  | _ => True

theorem find?_updated {lid : Id} {dto : UpdateListingDto} :
    (s.listings.update (fun l => l.id == lid) dto.apply fun _ => rfl).find? id =
      (s.listings.find? id).map fun l => if l.id == lid then dto.apply l else l :=
  Table.find?_update

/-- What has been deleted stays away. -/
theorem gone_of_acts {o : Platform.Statement}
    (hf : (Statement.platform o).fresh ch s = true) (ha : Acts s t ch.id o s')
    (hi : ∀ id, Gone id s → s.listings.find? id = none) :
    ∀ id, Gone id s' → s'.listings.find? id = none := by
  intro id hg
  cases ha with
  | rest _ _ hl hm _ =>
    rw [hl]
    exact hi id (by rwa [Gone, hm] at hg)
  | create hostId dto row _ hid _ hn hl hm _ =>
    have hold : Gone id s := by rwa [Gone, hm] at hg
    obtain ⟨m, hmem, rfl⟩ := hold
    have hne : row.id ≠ m.listingId := by
      have hfresh := List.all_eq_true.mp hf m hmem
      rw [hid]
      exact Ne.symm (by simpa using hfresh)
    rw [hl, Table.find?_insert hn, key_listingRow, if_neg hne]
    exact hi _ ⟨m, hmem, rfl⟩
  | update lid dto _ hl hm _ =>
    rw [hl, find?_updated, hi id (by rwa [Gone, hm] at hg), Option.map_none]
  | delete lid _ hl hm _ =>
    rw [hl, Table.find?_erase]
    by_cases hid : id = lid
    · subst hid
      refine Option.filter_eq_none_iff.mpr fun l hfl => ?_
      have hlid : l.id = id := Table.key_of_find? hfl
      simp [hlid]
    · obtain ⟨m, hmem, rfl⟩ := hg
      rw [hm, List.mem_append, List.mem_singleton] at hmem
      rcases hmem with hold | rfl
      · rw [hi _ ⟨m, hold, rfl⟩, Option.filter_none]
      · exact (hid rfl).elim
  | blockCreate _ _ _ _ _ _ _ _ hl hm _ | blockDeleteMany _ _ _ hl hm _ =>
    rw [hl]
    exact hi id (by rwa [Gone, hm] at hg)

/-- No statement writes the host of a listing. -/
theorem hosted_of_acts {o : Platform.Statement} (ha : Acts s t ch.id o s') :
    ∀ id l, s.listings.find? id = some l →
      (∃ l', s'.listings.find? id = some l' ∧ l'.hostId = l.hostId) ∨ Gone id s' := by
  intro id l hfl
  cases ha with
  | rest _ _ hl _ _ => exact .inl ⟨l, hl ▸ hfl, rfl⟩
  | create hostId dto row _ _ _ _ hl _ _ =>
    exact .inl ⟨l, hl ▸ Table.find?_insert_of_some hfl, rfl⟩
  | update lid dto _ hl _ _ =>
    refine .inl ⟨if l.id == lid then dto.apply l else l, ?_, ?_⟩
    · rw [hl, find?_updated, hfl, Option.map_some]
    · split <;> rfl
  | delete lid _ hl hm _ =>
    by_cases hid : id = lid
    · exact .inr ⟨⟨t, lid⟩, hm ▸ List.mem_append_right _ (List.mem_singleton_self _), hid.symm⟩
    · have hlid : l.id = id := Table.key_of_find? hfl
      refine .inl ⟨l, ?_, rfl⟩
      rw [hl, Table.find?_erase, hfl, Option.filter_some, if_pos (by simp [hlid, hid])]
  | blockCreate _ _ _ _ _ _ _ _ hl _ _ | blockDeleteMany _ _ _ hl _ _ =>
    exact .inl ⟨l, hl ▸ hfl, rfl⟩

theorem gone_mono_of_acts {o : Platform.Statement} (ha : Acts s t ch.id o s') :
    ∀ id, Gone id s → Gone id s' := by
  intro id hg
  cases ha with
  | delete lid _ hl hm _ =>
    obtain ⟨m, hmem, he⟩ := hg
    exact ⟨m, hm ▸ List.mem_append_left _ hmem, he⟩
  | rest _ _ _ hm _ | create _ _ _ _ _ _ _ _ hm _ | update _ _ _ _ hm _
  | blockCreate _ _ _ _ _ _ _ _ _ hm _ | blockDeleteMany _ _ _ _ hm _ => rwa [Gone, hm]

/-- A statement about what is `h`'s leaves the listings of others alone, whatever cascades. -/
theorem untouched_of_acts {o : Platform.Statement} (hi : Housed s) (ho : Owned h s o)
    (ha : Acts s t ch.id o s') : Untouched h s s' := by
  -- A listing that is not `h`'s is not the one the statement is about.
  have hne :
      ∀ {lid id l}, Mine h lid s → s.listings.find? id = some l → l.hostId ≠ h → id ≠ lid := by
    rintro lid id l hm hl hh rfl
    exact hh (hm.hostId hi hl)
  cases ha with
  | rest _ _ hl _ hb => exact .of_eq hl hb
  | create hostId dto row _ _ hrow hn hl _ hb =>
    refine ⟨fun id l hh => ?_, fun _ _ _ _ _ _ => by rw [hb]⟩
    rw [hl, Table.find?_insert hn]
    by_cases hid : row.id = id
    · subst hid
      have hmine : row.hostId = h := hrow.trans ho
      rw [key_listingRow, if_pos rfl, hn]
      constructor
      · intro he
        cases he
        exact (hh hmine).elim
      · intro he
        cases he
    · rw [key_listingRow, if_neg hid]
  | update lid dto _ hl _ hb =>
    refine ⟨fun id l hh => ?_, fun _ _ _ _ _ _ => by rw [hb]⟩
    rw [hl, find?_updated]
    constructor
    · intro he
      obtain ⟨l₀, hl₀, rfl⟩ := Option.map_eq_some_iff.mp he
      have hlid : l₀.id = id := Table.key_of_find? hl₀
      split at hh
      · next hc => exact (hne ho hl₀ hh (hlid.symm.trans (beq_iff_eq.mp hc))).elim
      · next hc => rw [if_neg hc, hl₀]
    · intro he
      have hlid : l.id = id := Table.key_of_find? he
      rw [he, Option.map_some, if_neg (by simpa [hlid] using hne ho he hh)]
  | delete lid _ hl _ hb =>
    refine ⟨fun id l hh => ?_, fun id l hfl hh b hbid => ?_⟩
    · rw [hl, Table.find?_erase]
      constructor
      · intro he
        exact (Option.filter_eq_some_iff.mp he).1
      · intro he
        have hlid : l.id = id := Table.key_of_find? he
        rw [he, Option.filter_some, if_pos (by simpa [hlid] using hne ho he hh)]
    · rw [hb, Table.mem_erase]
      refine ⟨And.left, fun hmem => ⟨hmem, ?_⟩⟩
      simpa [hbid] using hne ho hfl hh
  | blockCreate lid startsAt endsAt kind row _ hlid hn hl _ hb =>
    refine ⟨fun _ _ _ => by rw [hl], fun id l hfl hh b hbid => ?_⟩
    rw [hb, Table.insert_of_fresh hn, List.mem_append, List.mem_singleton]
    refine or_iff_left fun hrow => hne ho hfl hh ?_
    rw [← hbid, hrow, hlid]
  | blockDeleteMany bid lid _ hl _ hb =>
    refine ⟨fun _ _ _ => by rw [hl], fun id l hfl hh b hbid => ?_⟩
    rw [hb, Table.mem_erase]
    refine ⟨And.left, fun hmem => ⟨hmem, ?_⟩⟩
    have hother := hne ho hfl hh
    simp [hbid, hother]

theorem stays_of_exec {o : Platform.Statement} {r : Except Err o.Resp}
    (hx : o.exec t ch s = some (r, s')) :
    Table.Extends Stays s.booking.db.reservations s'.booking.db.reservations := by
  obtain ⟨r', s₁, heff, rfl, -⟩ := effect_of_exec hx
  cases heff with
  | booking o ch' res b hnow hb hl => exact (kept_of_booking hb hl).reservations
  | _ => exact .refl Stays.refl _

theorem platform_step {o : Platform.Statement} {r : Except Err o.Resp}
    (hf : (Statement.platform o).fresh ch s = true) (hi : Housed s)
    (hx : o.exec t ch s = some (r, s')) : Housed s' ∧ Later s s' := by
  have ha := acts_of_exec hx
  exact ⟨⟨hi.referential.exec hx, gone_of_acts hf ha hi.gone⟩,
    ⟨hosted_of_acts ha, gone_mono_of_acts ha, stays_of_exec hx⟩⟩

/-- The time goes by. -/
theorem Housed.clock (hi : Housed s) (now : Int) : Housed { s with clock := now } :=
  ⟨hi.referential, hi.gone⟩

theorem Later.clock (s : Store) (now : Int) : Later s { s with clock := now } :=
  ⟨(Later.refl s).hosted, (Later.refl s).gone, (Later.refl s).reservations⟩

/-- A read, under whatever fault. -/
theorem read_of_faulty {α : Type} {a : α} {r : Except Err α}
    (hx : faulty ch.fault s (some (.ok a, s)) = some (r, s')) :
    s' = s ∧ (r = .ok a ∨ ∃ e, r = .error e) := by
  rcases faulty_cases hx with ⟨rfl, e, rfl⟩ | ⟨r', hp, hr⟩
  · exact ⟨rfl, .inr ⟨e, rfl⟩⟩
  · cases hp
    rcases hr with rfl | ⟨e, -, rfl⟩
    · exact ⟨rfl, .inl rfl⟩
    · exact ⟨rfl, .inr ⟨e, rfl⟩⟩

/-- What is read for anybody is left as it was. -/
theorem exec_of_reads {o : Statement} {r : Except Err o.Resp} (ho : o.reads = true)
    (hx : o.exec t ch s = some (r, s')) : s' = s ∨ s' = { s with clock := ch.now } := by
  cases o with
  | read q =>
    obtain ⟨rfl, -⟩ := read_of_faulty hx
    exact .inr rfl
  | inOrder =>
    cases hx
    exact .inl rfl
  | _ => cases ho

/-- Nothing else is done for anybody. -/
theorem program_reads {isLength : Nat → Nat → String → Bool} {cfg : Config} {c : Call}
    (hc : c.browses = true) : (c.program isLength cfg).Uses fun o => o.reads = true := by
  have hone : ∀ id, (getById id).Uses fun o => o.reads = true := by
    refine fun id => Uses.bind (uses_op rfl) fun found => ?_
    cases found with
    | none => exact uses_throw _
    | some listing => exact uses_pure listing
  cases c with
  | listActive city => exact Uses.bind (uses_op rfl) fun _ => uses_pure _
  | getById id => exact Uses.bind (hone id) fun _ => uses_pure _
  | listAvailability listingId =>
    exact Uses.bind (Uses.bind (hone listingId) fun _ => uses_op rfl) fun _ => uses_pure _
  | forListing listingId =>
    refine Uses.bind (Uses.bind ?_ fun _ => uses_pure _) fun _ => uses_pure _
    refine Uses.bind (uses_op rfl) fun inOrder => ?_
    exact uses_ite
      (fun _ => Uses.bind (uses_op rfl) fun _ => Uses.bind (uses_op rfl) fun _ => uses_pure _)
      fun _ => Uses.bind (uses_op rfl) fun _ => Uses.bind (uses_op rfl) fun _ => uses_pure _
  | _ => cases hc

theorem exec_step {o : Statement} {r : Except Err o.Resp} (hf : o.fresh ch s = true)
    (hi : Housed s) (hx : o.exec t ch s = some (r, s')) : Housed s' ∧ Later s s' := by
  cases o with
  | platform o => exact platform_step hf hi hx
  | listingFindOwned hostId =>
    obtain ⟨rfl, -⟩ := read_of_faulty hx
    exact ⟨hi.clock _, Later.clock s _⟩
  | reservationFindReceived ids =>
    obtain ⟨rfl, -⟩ := read_of_faulty hx
    exact ⟨hi.clock _, Later.clock s _⟩
  | read | inOrder =>
    rcases exec_of_reads rfl hx with rfl | rfl
    · exact ⟨hi, Later.refl _⟩
    · exact ⟨hi.clock _, Later.clock s _⟩

/-! ## Runs -/

/-- The reservation is there, and its listing is the host's. -/
def Received (h : Id) (s : Store) (x : Reservation) : Prop :=
  Mine h x.listingId s ∧ ∃ r, s.booking.db.reservations.find? x.id = some r ∧ Stays x r

theorem Received.later {x : Reservation} (hx : Received h s x) (hw : Later s s') :
    Received h s' x := by
  obtain ⟨hm, r, hr, hs⟩ := hx
  obtain ⟨r', hr', hs'⟩ := hw.reservations _ r hr
  exact ⟨hm.later hw, r', hr', hs.trans hs'⟩

/-- A reservation keeps its listing from being deleted. -/
theorem Received.hosted {x : Reservation} (hx : Received h s x) (hi : Housed s) :
    ∃ l, s.listings.find? x.listingId = some l ∧ l.hostId = h := by
  obtain ⟨hm, r, hr, hs⟩ := hx
  have hsome : (s.listings.find? r.listingId).isSome = true :=
    hi.referential.1 r (Table.mem_of_find? hr)
  rw [hs.listingId] at hsome
  obtain ⟨l, hl⟩ := Option.isSome_iff_exists.mp hsome
  exact ⟨l, hl, hm.hostId hi hl⟩

def ownership : RelyGuarantee Store Call Statement.Resp Err Reply :=
  { Step := fun a s o r s' => ∃ ch : Choice, o.fresh ch s = true ∧ o.exec a.tid ch s = some (r, s')
    Inv := Housed
    Rely := fun _ => Later
    Guar := fun a s _ _ s' => Later s s' ∧ ∀ h, a.call.host = some h → Untouched h s s'
    Post := fun a r s => ∀ h rs, a.call = .listReceivedBy h → r = .ok (.reservations rs) →
      ∀ x ∈ rs, Received h s x
    Fresh := fun _ _ => True
    Lost := fun _ _ => True }

variable {a : Concurrency.Agent Call} {isLength : Nat → Nat → String → Bool}

theorem safe_answer {α : Type} {Q : Except Err Reply → Store → Prop} {p : Async α} {f : α → Reply}
    (hp : ownership.Safe a (fun r s => Q (r.map f) s) p s) : ownership.Safe a Q (answer p f) s := by
  refine Safe.bind (hp.imp fun r s' hq => ?_)
  cases r with
  | error e => exact hq
  | ok v => exact hq

theorem ofPlatform_bind {α β : Type} (p : Platform.Async α) (f : α → Platform.Async β) :
    ofPlatform (p >>= f) = ofPlatform p >>= fun v => ofPlatform (f v) := by
  induction p with
  | done r =>
    cases r with
    | error e => rfl
    | ok v => rfl
  | call o k ih => exact congrArg (Prog.call (Statement.platform o)) (funext ih)

theorem ofPlatform_uses {α : Type} {A : Platform.Statement → Prop} {B : Statement → Prop}
    {p : Platform.Async α} (hp : p.Uses A) (hAB : ∀ o, A o → B (.platform o)) :
    (ofPlatform p).Uses B := by
  induction p with
  | done r => trivial
  | call o k ih => exact ⟨hAB o hp.1, fun r => ih r (hp.2 r)⟩

/-- The statement is about the listing `id`, or about none that is there. -/
def About (id : Id) : Platform.Statement → Prop
  | .listing (.create _ _) => False
  | .listing (.update lid _) | .listing (.delete lid) | .listing (.blockCreate lid _ _ _)
  | .listing (.blockDeleteMany _ lid) => lid = id
  | _ => True

theorem owned_of_about {o : Platform.Statement} (ho : About id o) (hm : Mine h id s) :
    Owned h s o := by
  cases o with
  | listing o =>
    cases o with
    | create hostId dto => exact ho.elim
    | findHost lid => trivial
    | update lid dto =>
      cases ho
      exact hm
    | delete lid =>
      cases ho
      exact hm
    | blockCreate lid startsAt endsAt kind =>
      cases ho
      exact hm
    | blockDeleteMany bid lid =>
      cases ho
      exact hm
  | booking o => trivial
  | reservationFindOwned guestId => trivial
  | reviewCreate data => trivial

/-- What a call of `h` does about a listing that is `h`'s. -/
theorem safe_about {α : Type} {p : Platform.Async α} (ha : a.call.host = some h)
    (hp : p.Uses (About id)) (hm : Mine h id s) :
    ownership.Safe a (fun _ => Mine h id) (ofPlatform p) s := by
  refine Safe.of_uses (K := Mine h id) (fun s s' hw hm => hm.later hw) ?_
    (ofPlatform_uses (B := fun o => ∃ o', o = .platform o' ∧ About id o') hp
      fun o ho => ⟨o, rfl, ho⟩) hm
  rintro s o r s' ⟨o', rfl, ho⟩ hi hm ⟨ch, hf, hx⟩
  obtain ⟨hi', hw⟩ := platform_step hf hi hx
  refine ⟨hi', ⟨hw, fun h' hh' => ?_⟩, hm.later hw⟩
  rw [ha] at hh'
  cases hh'
  exact untouched_of_acts hi (owned_of_about ho hm) (acts_of_exec hx)

theorem host_of_findHost {owner : Id}
    (hx : (Platform.Statement.listing (.findHost id)).exec t ch s = some (.ok (some owner), s')) :
    ∃ l, s.listings.find? id = some l ∧ l.hostId = owner := by
  obtain ⟨⟨r₀, s₁⟩, ha, he⟩ := Option.map_eq_some_iff.mp hx
  cases he
  rcases faulty_cases ha with ⟨-, e, he⟩ | ⟨r', hp, hr⟩
  · cases he
  · obtain ⟨rfl, -⟩ := Prod.mk.inj (Option.some.inj hp)
    rcases hr with hr | ⟨e, -, he⟩
    · exact Option.map_eq_some_iff.mp (Except.ok.inj hr).symm
    · cases he

/-- Once the check has passed, the listing is the caller's. -/
theorem safe_assertOwner (ha : a.call.host = some h) :
    ownership.Safe a (fun r s => ∀ u, r = .ok u → Mine h id s)
      (ofPlatform (ListingsService.assertOwner id h)) s := by
  intro s₁ _ hi r s₂ hstep
  obtain ⟨ch, hfresh, hx⟩ := hstep
  obtain ⟨hi', hw⟩ := platform_step hfresh hi hx
  have hrest : Untouched h s₁ s₂ :=
    untouched_of_acts (o := .listing (.findHost id)) hi trivial (acts_of_exec hx)
  refine ⟨hi', ⟨hw, fun h' hh' => ?_⟩, ?_⟩
  · rw [ha] at hh'
    cases hh'
    exact hrest
  · cases r with
    | error e => exact fun u hu => by cases hu
    | ok owner =>
      cases owner with
      | none => exact fun u hu => by cases hu
      | some owner =>
        show ownership.Safe a _ (ofPlatform (if owner ≠ h then throw (.app .forbidden none)
          else pure () : Platform.Async Unit)) s₂
        split
        · exact fun u hu => by cases hu
        · next hown =>
          intro u _
          obtain ⟨l, hl, he⟩ := host_of_findHost hx
          exact Mine.later (.inl ⟨l, hl, he.trans (not_not.mp hown)⟩) hw

/-- A function that checks first. -/
theorem safe_checked {α : Type} {f : Unit → Platform.Async α} (ha : a.call.host = some h)
    (hf : (f ()).Uses (About id)) :
    ownership.Safe a (fun _ _ => True) (ofPlatform (ListingsService.assertOwner id h >>= f)) s := by
  rw [ofPlatform_bind]
  refine Safe.bind ((safe_assertOwner ha).imp fun r s₁ hm => ?_)
  cases r with
  | error e => trivial
  | ok u => exact (safe_about ha hf (hm u rfl)).imp fun _ _ _ => trivial

/-- A function that creates a listing of the caller. -/
theorem safe_creates (ha : a.call.host = some h) (dto : CreateListingDto) :
    ownership.Safe a (fun _ _ => True) (ofPlatform (ListingsService.create h dto)) s := by
  intro s₁ _ hi r s₂ hstep
  obtain ⟨ch, hfresh, hx⟩ := hstep
  obtain ⟨hi', hw⟩ := platform_step hfresh hi hx
  refine ⟨hi', ⟨hw, fun h' hh' => ?_⟩, trivial⟩
  rw [ha] at hh'
  cases hh'
  exact untouched_of_acts (o := .listing (.create h dto)) hi rfl (acts_of_exec hx)

/-- A call that is not a host's. -/
theorem safe_other {α : Type} {p : Async α} (ha : a.call.host = none) :
    ownership.Safe a (fun _ _ => True) p s := by
  refine Safe.of_uses (K := fun _ => True) (fun _ _ _ _ => trivial) ?_ (uses_true p) trivial
  intro s o r s' _ hi _ hstep
  obtain ⟨ch, hf, hx⟩ := hstep
  obtain ⟨hi', hw⟩ := exec_step hf hi hx
  refine ⟨hi', ⟨hw, fun h hh => ?_⟩, trivial⟩
  rw [ha] at hh
  cases hh

theorem safe_listOwnedBy :
    ownership.Safe a (fun r s => ∀ ls, r = .ok ls → ∀ l ∈ ls, Mine h l.id s)
      (listOwnedBy h) s := by
  intro s₁ _ hi r s₂ hstep
  obtain ⟨ch, hf, hx⟩ := hstep
  obtain ⟨rfl, hr⟩ := read_of_faulty hx
  refine ⟨hi.clock _, ⟨Later.clock s₁ _, fun _ _ => .of_eq rfl rfl⟩, ?_⟩
  rintro ls rfl l hl
  rcases hr with hr | ⟨e, he⟩
  · cases hr
    obtain ⟨hmem, hh⟩ := List.mem_filter.mp ((List.mem_insertionSort _).mp hl)
    exact .inl ⟨l, Table.find?_of_mem hmem, beq_iff_eq.mp hh⟩
  · cases he

theorem safe_listReceivedBy :
    ownership.Safe a (fun r s => ∀ rs, r = .ok rs → ∀ x ∈ rs, Received h s x)
      (listReceivedBy h) s := by
  refine Safe.bind (safe_listOwnedBy.imp fun r s₁ hm => ?_)
  cases r with
  | error e => exact fun rs hr => by cases hr
  | ok listings =>
    simp only [cont_ok]
    split
    · rintro rs hr x hx
      cases hr
      cases hx
    · intro s₂ hw₂ hi r s₃ hstep
      obtain ⟨ch, hf, hx⟩ := hstep
      obtain ⟨rfl, hr⟩ := read_of_faulty hx
      refine ⟨hi.clock _, ⟨Later.clock s₂ _, fun _ _ => .of_eq rfl rfl⟩, ?_⟩
      rintro rs rfl x hx
      rcases hr with hr | ⟨e, he⟩
      · cases hr
        obtain ⟨hmem, hc⟩ := List.mem_filter.mp ((List.mem_insertionSort _).mp hx)
        obtain ⟨l, hl, hlid⟩ := List.mem_map.mp (List.contains_iff_mem.mp hc)
        have hmine : Mine h x.listingId s₂ := hlid ▸ (hm listings rfl l hl).later hw₂
        exact ⟨hmine.later (Later.clock s₂ _), x, Table.find?_of_mem hmem, Stays.refl x⟩
      · cases he

theorem safe_update (ha : a.call.host = some h) (body : Value) :
    ownership.Safe a (fun _ _ => True) (ofPlatform (update isLength h id body)) s := by
  unfold update
  split
  · trivial
  · refine safe_checked ha ?_
    split
    · trivial
    · exact uses_op rfl

theorem safe_create (ha : a.call.host = some h) (body : Value) :
    ownership.Safe a (fun _ _ => True) (ofPlatform (create isLength h body)) s := by
  unfold create
  split
  · trivial
  · split
    · trivial
    · exact safe_creates ha _

theorem safe_platform (cfg : Config) (c : Platform.Call) (hc : a.call = .platform c) :
    ownership.Safe a (fun _ _ => True) (answer (ofPlatform (c.program cfg)) .platform) s := by
  refine safe_answer ?_
  -- A function, and the reply made of its result.
  have hreply : ∀ {α : Type} {p : Platform.Async α} {f : α → Platform.Reply},
      ownership.Safe a (fun _ _ => True) (ofPlatform p) s →
        ownership.Safe a (fun _ _ => True) (ofPlatform (Platform.answer p f)) s := by
    intro α p f hp
    rw [Platform.answer, ofPlatform_bind]
    exact Safe.seq (K := fun _ => True) hp fun _ _ _ => trivial
  cases c with
  | createListing hostId dto => exact hreply (safe_creates (by rw [hc]; rfl) dto)
  | updateListing hostId id dto =>
    exact hreply (safe_checked (by rw [hc]; rfl) (uses_op rfl))
  | removeListing hostId id =>
    exact hreply (safe_checked (by rw [hc]; rfl) (deleteUnbooked_uses rfl))
  | addAvailability hostId listingId dto =>
    refine hreply (safe_checked (by rw [hc]; rfl) ?_)
    exact uses_ite (fun _ => uses_throw _) fun _ => uses_op rfl
  | removeAvailability hostId listingId blockId =>
    refine hreply (safe_checked (by rw [hc]; rfl) ?_)
    exact Uses.bind (uses_op rfl) fun _ => uses_ite (fun _ => uses_throw _) fun _ => uses_pure ()
  | booking c => exact safe_other (by rw [hc]; rfl)
  | getOwned guestId id => exact safe_other (by rw [hc]; rfl)
  | listOwnedBy guestId => exact safe_other (by rw [hc]; rfl)
  | createReview guestId dto => exact safe_other (by rw [hc]; rfl)

theorem safe_program (cfg : Config) (c : Call) (hc : a.call = c) :
    ownership.Safe a (ownership.Post a) (c.program isLength cfg) s := by
  -- No other call answers with reservations in this way.
  have hother : ∀ {p : Async Reply}, (∀ h, c ≠ .listReceivedBy h) →
      ownership.Safe a (fun _ _ => True) p s → ownership.Safe a (ownership.Post a) p s := by
    intro p hne hp
    exact hp.imp fun _ _ _ h _ heq => (hne h (hc.symm.trans heq)).elim
  cases c with
  | platform c => exact hother (fun _ he => by cases he) (safe_platform cfg c hc)
  | create hostId body =>
    exact hother (fun _ he => by cases he) (safe_answer (safe_create (by rw [hc]; rfl) body))
  | update hostId id body =>
    exact hother (fun _ he => by cases he) (safe_answer (safe_update (by rw [hc]; rfl) body))
  | listOwnedBy hostId =>
    exact hother (fun _ he => by cases he)
      (safe_answer ((safe_listOwnedBy (h := hostId)).imp fun _ _ _ => trivial))
  | listReceivedBy hostId =>
    refine safe_answer (safe_listReceivedBy.imp fun r s' hr h rs heq he => ?_)
    have hhost : Call.listReceivedBy hostId = .listReceivedBy h := hc.symm.trans heq
    cases hhost
    cases r with
    | error e => cases he
    | ok rs' =>
      cases he
      exact hr rs rfl
  | listActive | getById | listAvailability | forListing =>
    exact hother (fun _ he => by cases he) (safe_other (by rw [hc]; rfl))

/-- What the start or the end of a call, or a lost connection, leaves. -/
theorem later_of_db {b : NoOverlap.Store} (hl : b.db.listings = s.booking.db.listings)
    (hr : b.db.reservations = s.booking.db.reservations)
    (hreferential : Referential s → Referential (s.withBooking b hl)) (hi : Housed s) :
    Housed (s.withBooking b hl) ∧ Later s (s.withBooking b hl) := by
  have hstays : Table.Extends Stays s.booking.db.reservations b.db.reservations := by
    rw [hr]
    exact .refl Stays.refl _
  exact ⟨⟨hreferential hi.referential, hi.gone⟩,
    ⟨(Later.refl s).hosted, (Later.refl s).gone, hstays⟩⟩

theorem referential_of_db {b : NoOverlap.Store} {hl : b.db.listings = s.booking.db.listings}
    (hb : b.db = s.booking.db) (hr : Referential s) : Referential (s.withBooking b hl) := by
  have hbooked : Database.Booked b.db fun r => (s.listings.find? r.listingId).isSome = true := by
    rw [hb]
    exact hr
  exact hbooked

theorem step_of_spawned {c : Call} (hs : spawned c s = some s') (hi : Housed s) :
    Housed s' ∧ Later s s' := by
  cases c with
  | platform c =>
    rcases Archive.spawned_eq hs with rfl | ⟨b, hl, hb, rfl⟩
    · exact ⟨hi, Later.refl _⟩
    · exact later_of_db hl (congrArg _ hb) (referential_of_db hb) hi
  | _ =>
    cases hs
    exact ⟨hi, Later.refl _⟩

theorem step_of_returned (t : Nat) (c : Call) (r : Except Err Reply) (hi : Housed s) :
    Housed (returned t c r s) ∧ Later s (returned t c r s) := by
  cases c with
  | platform c =>
    rcases Archive.returned_eq t c (r.map fun _ => .none) s with he | ⟨b, hl, hb, he⟩
    · rw [show returned t (.platform c) r s = s from he]
      exact ⟨hi, Later.refl _⟩
    · rw [show returned t (.platform c) r s = s.withBooking b hl from he]
      exact later_of_db hl (congrArg _ hb) (referential_of_db hb) hi
  | _ => exact ⟨hi, Later.refl _⟩

theorem sound (cfg : Config) {s₀ : Store} (h₀ : Housed s₀) :
    Sound ownership (system isLength cfg) uuids s₀ where
  start := h₀
  fresh_start := fun _ => trivial
  rely_refl := fun _ => Later.refl
  rely_trans := fun _ _ _ _ => Later.trans
  guar_rely := fun _ _ _ _ _ _ _ hg => hg.1
  fresh_stable := fun _ _ _ _ _ => trivial
  post_stable := fun a r s s' hw _ hp h rs hc hr x hx => (hp h rs hc hr x hx).later hw
  lost_stable := fun _ _ _ _ _ => trivial
  step := fun w _ t c o k ch r s' _ hp hx => ⟨ch, hp, hx⟩
  spawn := by
    intro t c s s' hi _ _ hs
    obtain ⟨hi', hw⟩ := step_of_spawned hs hi
    exact ⟨hi', fun _ => hw, safe_program cfg c rfl⟩
  ret := by
    intro t c r s hi _
    obtain ⟨hi', hw⟩ := step_of_returned t c r hi
    exact ⟨hi', fun _ => hw⟩
  kill := by
    intro t c p s hi _
    obtain ⟨hi', hw⟩ := later_of_db (b := { s.booking with db := s.booking.db.rollback t })
      (listings_of_rollback t s) rfl (fun hr => ⟨hr.1, NoOverlap.Database.forall_rollback hr.2⟩) hi
    exact ⟨hi', fun _ _ => hw, trivial⟩

/-- The body of an update writes neither the id nor the host of a listing. -/
theorem owner_of_write {ofId : String → Option Id} {ofDate : String → Option Int}
    {body data : Value} (hp : pipe (UpdateListingDto.declared isLength) body = some data)
    (hw : write ofId ofDate data l = some l') : l'.id = l.id ∧ l'.hostId = l.hostId := by
  rw [write_of_pipe hp] at hw
  obtain ⟨dto, -, rfl⟩ := Option.map_eq_some_iff.mp hw
  exact ⟨rfl, rfl⟩

/-- What an event changes about listings and windows, it changes as a statement of a call,
and nothing of another host if a host makes the call. -/
theorem untouched_of_next (cfg : Config) {s₀ : Store} (h₀ : Housed s₀) {w w' : World}
    (hr : (system isLength cfg).Reaches uuids (Concurrency.World.start s₀) w)
    {e : Concurrency.Event Call Choice} (hn : (system isLength cfg).next uuids w e = some w') :
    (w'.shared.listings = w.shared.listings ∧ w'.shared.blocks = w.shared.blocks) ∨
      ∃ t ch c p, e = .step t ch ∧ w.threads[t]? = some (.running c p) ∧
        ∀ h, c.host = some h → Untouched h w.shared w'.shared := by
  cases Machine.next_moves _ _ hn with
  | @spawn c s hp hs =>
    cases c with
    | platform c =>
      rcases Archive.spawned_eq hs with rfl | ⟨b, hl, hb, rfl⟩
      · exact .inl ⟨rfl, rfl⟩
      · exact .inl ⟨rfl, rfl⟩
    | _ =>
      cases hs
      exact .inl ⟨rfl, rfl⟩
  | @step t ch c o k r s ht hp hx =>
    exact .inr ⟨t, ch, c, _, rfl, ht, ((sound cfg h₀).guar hr ht hp hx).2.2⟩
  | @ret t c r ht =>
    cases c with
    | platform c =>
      rcases Archive.returned_eq t c (r.map fun _ => .none) w.shared with he | ⟨b, hl, hb, he⟩
      · exact .inl ⟨congrArg Store.listings he, congrArg Store.blocks he⟩
      · have hstore : (system isLength cfg).returned t (.platform c) r w.shared =
            w.shared.withBooking b hl := he
        rw [hstore]
        exact .inl ⟨rfl, rfl⟩
    | _ => exact .inl ⟨rfl, rfl⟩
  | kill => exact .inl ⟨rfl, rfl⟩

/-- Whatever hosts, guests, the worker and the sweeps do, from a database with valid keys:
the host of a listing never changes; a call made by a host changes no listing and no window
of another host; what a host is told has been booked is on listings that are the host's; and
no body of a request can say otherwise. -/
theorem hosts_act_on_their_own {cfg : Config} {s₀ : Store} {w : World} (hk : Referential s₀)
    (hm : s₀.removals = [])
    (hr : (system isLength cfg).Reaches uuids (Concurrency.World.start s₀) w) :
    (∀ w', (system isLength cfg).Reaches uuids w w' → ∀ id l l',
      w.shared.listings.find? id = some l → w'.shared.listings.find? id = some l' →
        l'.hostId = l.hostId) ∧
    (∀ e w', (system isLength cfg).next uuids w e = some w' →
      (w'.shared.listings = w.shared.listings ∧ w'.shared.blocks = w.shared.blocks) ∨
        ∃ t ch c p, e = .step t ch ∧ w.threads[t]? = some (.running c p) ∧
          ∀ h, c.host = some h → Untouched h w.shared w'.shared) ∧
    (∀ (t : Nat) h rs,
      w.threads[t]? = some (.returned (.listReceivedBy h) (.ok (.reservations rs))) →
        ∀ x ∈ rs, ∃ l, w.shared.listings.find? x.listingId = some l ∧ l.hostId = h) ∧
    (∀ ofId ofDate body data l l', pipe (UpdateListingDto.declared isLength) body = some data →
      write ofId ofDate data l = some l' → l'.id = l.id ∧ l'.hostId = l.hostId) := by
  have hgone : ∀ id, Gone id s₀ → s₀.listings.find? id = none := by
    rintro id ⟨m, hmem, -⟩
    rw [hm] at hmem
    cases hmem
  have h₀ : Housed s₀ := ⟨hk, hgone⟩
  have hsound : Sound ownership (system isLength cfg) uuids s₀ := sound cfg h₀
  refine ⟨fun w' hr' id l l' hl hl' => ?_, fun e w' hn => untouched_of_next cfg h₀ hr hn,
    fun t h rs ht x hx => ?_, fun _ _ _ _ _ _ hp hw => owner_of_write hp hw⟩
  · have hw : Later w.shared w'.shared := hsound.rely_of_reaches hr hr' (Nat.le_refl _)
    exact hw.hostId (hsound.inv (hr.trans hr')) hl hl'
  · exact (hsound.post hr ht h rs rfl rfl x hx).hosted (hsound.inv hr)

/-! ## A body that names another host -/

namespace Handover

def shortText (lo hi : Nat) (s : String) : Bool := decide (lo ≤ s.length ∧ s.length ≤ hi)

/-- A new title, and an attempt to give the listing away. -/
def renamed : Value :=
  .object [("title", .string "Attic"), ("hostId", .string "2"), ("id", .string "8")]

def schedule : List (Concurrency.Event Call Choice) :=
  [.spawn (.update 1 7 renamed), .step 0 {}, .spawn (.platform (.removeListing 2 7)), .step 1 {},
    .step 0 {}, .ret 0, .ret 1, .spawn (.listReceivedBy 1), .step 2 {}, .step 2 {}, .ret 2]

/-- The listing has its new title, and both reservations have been listed. -/
def done (w : World) : Bool :=
  (w.shared.listings.find? 7).any (fun l => l.title == "Attic" && l.hostId == 1) &&
    match w.threads[(2 : Nat)]? with
    | some (.returned (.listReceivedBy 1) (.ok (.reservations rs))) => rs.map (·.id) == [5, 6]
    | _ => false

end Handover

open Handover in
theorem hosts_act_on_their_own_renamed :
    ∃ w, (system shortText NoOverlap.Scenario.cfg).Reaches uuids
        (Concurrency.World.start Platform.Sample.shared) w ∧ done w = true ∧
      (∀ w', (system shortText NoOverlap.Scenario.cfg).Reaches uuids w w' → ∀ id l l',
        w.shared.listings.find? id = some l → w'.shared.listings.find? id = some l' →
          l'.hostId = l.hostId) ∧
      ∀ (t : Nat) h rs,
        w.threads[t]? = some (.returned (.listReceivedBy h) (.ok (.reservations rs))) →
          ∀ x ∈ rs, ∃ l, w.shared.listings.find? x.listingId = some l ∧ l.hostId = h := by
  have hk : Referential Platform.Sample.shared := by
    unfold Referential Database.Booked
    decide
  have hrun : ((system shortText NoOverlap.Scenario.cfg).run uuids
      (Concurrency.World.start Platform.Sample.shared) schedule).any done = true := by
    decide +kernel
  obtain ⟨w, hr, hd⟩ := Machine.exists_reaches_of_run hrun
  have hown := hosts_act_on_their_own hk rfl hr
  exact ⟨w, hr, hd, hown.1, hown.2.2.1⟩

end Hosts

end Platform

end NoOverlap
