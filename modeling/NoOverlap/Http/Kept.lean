import NoOverlap.Concurrency.Guarded
import NoOverlap.Http.Routes

/-!
# What is stored stays as it was checked

The checks that a request goes through are made before anything is written and nothing makes
them again, so what is stored is as good as the statements that wrote it.  `Fine` says what
a statement may write, and `Kept` what is then true of every row: an update writes some
columns and leaves the others, and a row that has been written inside a transaction is
counted before it is committed.

`isHost` and `isGuest` say for whom listings and reservations may be written.
-/

namespace NoOverlap

namespace Http

open Json Platform Relational Concurrency
open Concurrency.Prog

/-- The columns of a listing are within the bounds of `CreateListingDto`. -/
structure Listable (v : Validators) (title city : String) (nightlyPriceCents maxGuests : Int) :
    Prop where
  title : v.isLength 1 120 title = true
  city : v.isLength 1 120 city = true
  price : 0 ≤ nightlyPriceCents
  guests : 1 ≤ maxGuests ∧ maxGuests ≤ 64

/-- What an update writes is. -/
structure Updatable (v : Validators) (dto : UpdateListingDto) : Prop where
  title : ∀ s, dto.title = some s → v.isLength 1 120 s = true
  city : ∀ s, dto.city = some s → v.isLength 1 120 s = true
  price : ∀ n, dto.nightlyPriceCents = some n → 0 ≤ n
  guests : ∀ n, dto.maxGuests = some n → 1 ≤ n ∧ n ≤ 64

section Kept

variable (v : Validators) (isHost isGuest : Id → Prop)

/-- What a statement may write. -/
def Fine : Platform.Statement → Prop
  | .listing (.create hostId dto) =>
    isHost hostId ∧ Listable v dto.title dto.city dto.nightlyPriceCents dto.maxGuests
  | .listing (.update _ dto) => Updatable v dto
  | .listing (.blockCreate _ startsAt endsAt _) => endsAt.le startsAt = false
  | .reviewCreate data => Reviewable v data.rating data.body
  | .booking (.db (.reservationCreate data)) =>
    isGuest data.guestId ∧ data.checkOut.le data.checkIn = false
  | _ => True

def OnHosts : Hosts.Statement → Prop
  | .platform o => Fine v isHost isGuest o
  | _ => True

/-- A reservation of one of the guests, for a stay that ends after it begins. -/
def Bookable (r : Reservation) : Prop := isGuest r.guestId ∧ r.checkIn < r.checkOut

/-- Every row is as the checks want it, and somebody's. -/
structure Kept (s : Platform.Store) : Prop where
  listings : ∀ l ∈ s.listings.rows, isHost l.hostId ∧
    Listable v l.title l.city l.nightlyPriceCents l.maxGuests
  blocks : ∀ b ∈ s.blocks.rows, b.startsAt < b.endsAt
  reviews : ∀ r ∈ s.reviews.rows, Reviewable v r.rating r.body
  bookings : Database.Booked s.booking.db (Bookable isGuest)

theorem kept_init (now : Int) : Kept v isHost isGuest (Platform.Store.init .empty now) :=
  ⟨fun _ h => (List.not_mem_nil h).elim, fun _ h => (List.not_mem_nil h).elim,
    fun _ h => (List.not_mem_nil h).elim, fun _ h => (List.not_mem_nil h).elim,
    fun _ h => (List.not_mem_nil h).elim⟩

end Kept

variable {v : Validators} {isHost isGuest : Id → Prop} {s s' : Platform.Store} {t : Nat}

/-! ## The programs -/

section Programs

variable {body data : Value}

/-- A text within its bounds. -/
theorem text_of_check {x : Value} (h : isText v.isLength x = true) :
    ∃ s, x = .string s ∧ v.isLength 1 120 s = true := by
  cases x with
  | string s => exact ⟨s, rfl, h⟩
  | _ => cases h

theorem listable_of_read {dto : CreateListingDto}
    (h : pipe (CreateListingDto.declared v.isLength) body = some data)
    (hr : CreateListingDto.read data = some dto) :
    Listable v dto.title dto.city dto.nightlyPriceCents dto.maxGuests := by
  obtain ⟨title, htitle, hl⟩ := text_of_check (check_at h 0 rfl)
  obtain ⟨city, hcity, hc⟩ := text_of_check (check_at h 1 rfl)
  obtain ⟨price, hprice, hp⟩ := int_of_check (check_at h 2 rfl)
  obtain ⟨guests, hguests, hg⟩ := int_of_check (check_at h 3 rfl)
  simp only [CreateListingDto.read, htitle, hcity, hprice, hguests] at hr
  cases hactive : Schema.optional boolean (data.get "active") with
  | none => simp [hactive, Schema.string, Schema.integer] at hr
  | some active =>
    simp only [hactive, Schema.string, Schema.integer] at hr
    cases hr
    exact ⟨hl, hc, of_decide_eq_true hp, of_decide_eq_true hg⟩

/-- A text that an update writes, and that has passed. -/
theorem text_of_optional {x : Value} {s : String} (h : isOptional (isText v.isLength) x = true)
    (hs : Schema.optional Schema.string x = some (some s)) : v.isLength 1 120 s = true := by
  cases x with
  | string s' =>
    cases hs
    exact h
  | _ => cases hs

theorem int_of_optional {within : Int → Bool} {x : Value} {n : Int}
    (h : isOptional (isInt within) x = true)
    (hs : Schema.optional Schema.integer x = some (some n)) : within n = true := by
  cases x with
  | number n' =>
    cases hs
    exact h
  | _ => cases hs

theorem updatable_of_read {dto : UpdateListingDto}
    (h : pipe (UpdateListingDto.declared v.isLength) body = some data)
    (hr : UpdateListingDto.read data = some dto) : Updatable v dto := by
  have htitle := check_at h 0 rfl
  have hcity := check_at h 1 rfl
  have hprice := check_at h 2 rfl
  have hguests := check_at h 3 rfl
  unfold UpdateListingDto.read at hr
  obtain ⟨title, ht, hr⟩ := Option.bind_eq_some_iff.mp hr
  obtain ⟨city, hc, hr⟩ := Option.bind_eq_some_iff.mp hr
  obtain ⟨price, hp, hr⟩ := Option.bind_eq_some_iff.mp hr
  obtain ⟨guests, hg, hr⟩ := Option.bind_eq_some_iff.mp hr
  obtain ⟨active, -, hr⟩ := Option.bind_eq_some_iff.mp hr
  cases hr
  refine ⟨fun s hs => ?_, fun s hs => ?_, fun n hn => ?_, fun n hn => ?_⟩
  · exact text_of_optional htitle (hs ▸ ht)
  · exact text_of_optional hcity (hs ▸ hc)
  · exact of_decide_eq_true (int_of_optional hprice (hn ▸ hp))
  · exact of_decide_eq_true (int_of_optional hguests (hn ▸ hg))

/-- A transaction whose statements are fine is fine. -/
theorem transaction_fine {α : Type} {A : NoOverlap.Statement → Prop} {body : NoOverlap.Async α}
    (hbegin : A (.db .begin)) (hcommit : A (.db .commit)) (hrollback : A (.db .rollback))
    (h : body.Uses A) : (transaction body).Uses A :=
  Uses.tryCatch
    (Uses.bind (uses_op hbegin) fun _ => Uses.bind h fun _ => Uses.bind (uses_op hcommit) fun _ =>
      uses_pure _)
    fun _ => Uses.bind (uses_op hrollback) fun _ => uses_throw _

/-- `Fine`, of a statement of the booking module. -/
abbrev OnBooking (v : Validators) (isHost isGuest : Id → Prop) (o : NoOverlap.Statement) : Prop :=
  Fine v isHost isGuest (.booking o)

theorem hold_fine {guestId : Id} (hg : isGuest guestId) (ttl : Int) (dto : CreateReservationDto) :
    (hold ttl guestId dto).Uses (OnBooking v isHost isGuest) := by
  refine Uses.bind (uses_op trivial) fun now => ?_
  refine uses_ite (fun _ => uses_throw _) fun hord => uses_ite (fun _ => uses_throw _) fun _ => ?_
  have hord : dto.checkOut.le dto.checkIn = false := Bool.eq_false_iff.mpr hord
  have hclaim : ∀ price,
      (claimSlot ttl guestId dto price).Uses (OnBooking v isHost isGuest) := fun price =>
    transaction_fine trivial trivial trivial <| Uses.bind (uses_op trivial) fun _ =>
      Uses.bind (uses_op ⟨hg, hord⟩) fun _ => Uses.bind (uses_op trivial) fun _ =>
        Uses.bind (uses_op trivial) fun _ => uses_pure _
  refine Uses.bind (uses_op trivial) fun listing => ?_
  cases listing with
  | none => exact uses_throw _
  | some listing =>
    refine uses_ite (fun _ => uses_throw _) fun _ => Uses.bind ?_ fun r => ?_
    · refine Uses.tryCatch (Uses.tryCatch (hclaim _) fun err => ?_) fun err => ?_
      · exact uses_ite (fun _ => uses_throw _) fun _ =>
          Uses.bind (uses_op trivial) fun _ => hclaim _
      · exact uses_ite (fun _ => Uses.bind (uses_op trivial) fun _ => uses_throw _)
          fun _ => uses_throw _
    · exact Uses.bind (uses_op trivial) fun _ =>
        Uses.bind (publishReservationChanged_uses _ _ _ trivial fun _ => trivial) fun _ => uses_pure r

theorem relayTick_fine : relayTick.Uses (OnBooking v isHost isGuest) := by
  refine Uses.tryCatch (Uses.bind (transaction_fine trivial trivial trivial ?_) fun _ => uses_pure ())
    fun _ => uses_pure ()
  refine Uses.bind (uses_op trivial) fun rows => uses_ite (fun _ => uses_pure 0) fun _ => ?_
  exact Uses.bind (uses_op trivial) fun _ => Uses.bind (uses_op trivial) fun _ =>
    Uses.bind (uses_op trivial) fun _ => uses_pure _

theorem booking_fine (cfg : Config) {c : NoOverlap.Call}
    (hg : ∀ guestId dto, c = .hold guestId dto → isGuest guestId) :
    (c.program cfg).Uses (OnBooking v isHost isGuest) := by
  cases c with
  | hold guestId dto =>
    exact Uses.bind (hold_fine (hg guestId dto rfl) _ dto) fun _ => uses_pure _
  | relayTick => exact Uses.bind relayTick_fine fun _ => uses_pure _
  | _ =>
    -- No other call inserts a reservation.
    refine (NoOverlap.program_issues cfg _).mono fun o ho => ?_
    cases o with
    | db o =>
      cases o with
      | reservationCreate data => exact (Bool.false_ne_true ho).elim
      | _ => trivial
    | _ => trivial

/-- A call that writes nothing it should not, for one of the hosts or the guests. -/
structure Sanctioned (v : Validators) (isHost isGuest : Id → Prop) (c : Hosts.Call) : Prop where
  admissible : Admissible v c
  host : ∀ hostId body, c = .create hostId body → isHost hostId
  guest : ∀ guestId dto, c = .platform (.booking (.hold guestId dto)) → isGuest guestId

theorem sanctioned_of_browses {c : Hosts.Call} (hc : c.browses = true) :
    Sanctioned v isHost isGuest c := by
  cases c with
  | listActive | getById | listAvailability | forListing =>
    exact ⟨trivial, fun _ _ h => (nomatch h), fun _ _ h => (nomatch h)⟩
  | _ => cases hc

theorem platform_fine (cfg : Config) {c : Platform.Call}
    (hc : Sanctioned v isHost isGuest (.platform c)) :
    (c.program cfg).Uses (Fine v isHost isGuest) := by
  cases c with
  | booking c =>
    refine Platform.answer_uses (ofBooking_uses (booking_fine cfg fun guestId dto he => ?_) fun _ h => h)
    exact hc.guest guestId dto (by rw [he])
  | getOwned guestId id =>
    exact Platform.answer_uses (ofBooking_uses (getOwned_uses guestId id) fun _ h => by rw [h]; trivial)
  | listOwnedBy guestId => exact Platform.answer_uses (uses_op trivial)
  | createListing | updateListing => exact hc.admissible.elim
  | removeListing hostId id =>
    exact Platform.answer_uses (Uses.bind (assertOwner_uses id hostId trivial) fun _ =>
      deleteUnbooked_uses trivial)
  | addAvailability hostId listingId dto =>
    refine Platform.answer_uses (Uses.bind (assertOwner_uses listingId hostId trivial) fun _ => ?_)
    exact uses_ite (fun _ => uses_throw _) fun hord => uses_op (Bool.eq_false_iff.mpr hord)
  | removeAvailability hostId listingId blockId =>
    refine Platform.answer_uses (Uses.bind (assertOwner_uses listingId hostId trivial) fun _ => ?_)
    exact Uses.bind (uses_op trivial) fun _ => uses_ite (fun _ => uses_throw _) fun _ => uses_pure ()
  | createReview guestId dto =>
    have hbounds : Reviewable v dto.rating dto.body := hc.admissible
    refine Platform.answer_uses (Uses.bind ?_ fun reservation => ?_)
    · exact ofBooking_uses (getOwned_uses guestId dto.reservationId) fun _ h => by rw [h]; trivial
    · exact uses_ite (fun _ => uses_throw _) fun _ => Uses.tryCatch (uses_op hbounds) fun _ =>
        uses_ite (fun _ => uses_throw _) fun _ => uses_throw _

theorem program_fine (cfg : Config) {c : Hosts.Call} (hc : Sanctioned v isHost isGuest c) :
    (c.program v.isLength cfg).Uses (OnHosts v isHost isGuest) := by
  cases c with
  | platform c =>
    exact Uses.bind (Hosts.ofPlatform_uses (platform_fine cfg hc) fun _ h => h) fun _ => uses_pure _
  | create hostId body =>
    refine Uses.bind (Hosts.ofPlatform_uses (A := Fine v isHost isGuest) ?_ fun _ h => h)
      fun _ => uses_pure _
    unfold Hosts.create
    split
    · exact uses_throw _
    · next data hpipe =>
      split
      · exact uses_throw _
      · next dto hread => exact uses_op ⟨hc.host hostId body rfl, listable_of_read hpipe hread⟩
  | update hostId id body =>
    refine Uses.bind (Hosts.ofPlatform_uses (A := Fine v isHost isGuest) ?_ fun _ h => h)
      fun _ => uses_pure _
    unfold Hosts.update
    split
    · exact uses_throw _
    · next data hpipe =>
      refine Uses.bind (assertOwner_uses id hostId trivial) fun _ => ?_
      split
      · exact uses_throw _
      · next dto hread => exact uses_op (updatable_of_read hpipe hread)
  | listOwnedBy hostId => exact Uses.bind (uses_op trivial) fun _ => uses_pure _
  | listReceivedBy hostId =>
    refine Uses.bind (Uses.bind (uses_op trivial) fun listings => ?_) fun _ => uses_pure _
    exact uses_ite (fun _ => uses_pure _) fun _ => uses_op trivial
  | listActive | getById | listAvailability | forListing =>
    refine (Hosts.program_reads rfl).mono fun o ho => ?_
    cases o with
    | platform o => cases ho
    | _ => trivial

end Programs

/-! ## The statements -/

section Statements

variable {ch : Choice}

theorem mem_of_insert {ρ κ : Type} [Keyed ρ κ] [DecidableEq κ] {T : Table ρ} {r r' : ρ}
    (h : r' ∈ (T.insert r).rows) : r' ∈ T.rows ∨ r' = r := by
  unfold Table.insert at h
  split at h
  · rcases List.mem_append.mp h with hold | hnew
    · exact .inl hold
    · exact .inr (List.mem_singleton.mp hnew)
  · exact .inl h

/-- A property of reservations that has nothing to do with their status. -/
theorem booked_of_perform {d d' : Database} {o : DbStatement} {r : Except Err o.Resp} {id : Id}
    {now : Int} {P : Reservation → Prop} (h : Database.Booked d P)
    (hstatus : ∀ r status, P r → P { r with status := status })
    (hnew : ∀ data row, o = .reservationCreate data → d.Inserted data row → P row)
    (hx : NoOverlap.Database.perform t id now o d = some (r, d')) : Database.Booked d' P := by
  have heff := NoOverlap.Database.effect_of_perform hx
  refine ⟨fun r' hr' => ?_, ?_⟩
  · rcases heff.reservations with ⟨he, -⟩ | ⟨tx, -, ht, rfl⟩ | hrw
    · exact h.1 r' (he ▸ hr')
    · rcases Table.find?_of_insertAll (Table.find?_of_mem hr') with hold | ⟨-, hm⟩
      · exact h.1 r' (Table.mem_of_find? hold)
      · exact h.2 tx (Table.mem_of_find? ht) r' hm
    · have hfind := Table.find?_of_mem hr'
      rw [hrw.find] at hfind
      obtain ⟨r₀, hr₀, rfl⟩ := Option.map_eq_some_iff.mp hfind
      have hold := h.1 r₀ (Table.mem_of_find? hr₀)
      unfold DbStatement.rewrite
      split
      · exact hstatus r₀ _ hold
      · exact hold
  · cases heff with
    | begin => exact NoOverlap.Database.forall_begin h.2 (by simp)
    | reservationCreate data tx row ht hs hown hother hid =>
      have hins := NoOverlap.Database.inserted_of_reservationCreate hx
      refine NoOverlap.Database.forall_setTransaction h.2 fun tx _ _ htx r hr => ?_
      rcases List.mem_append.mp hr with hr | hr
      · exact htx r hr
      · rw [List.mem_singleton.mp hr]
        exact hnew data row rfl hins
    | outboxCreate | selectUnpublished | outboxMarkPublished =>
      exact NoOverlap.Database.forall_setTransaction h.2 fun tx _ _ htx => htx
    | commit tx ht => exact fun tx' htx' => h.2 tx' (Table.mem_erase.mp htx').1
    | rollback => exact NoOverlap.Database.forall_rollback h.2
    | reservationUpdate rid status seen r hr =>
      simp only [NoOverlap.Database.reservationUpdate, hr]
      exact h.2
    | paymentUpdate key data p hk =>
      simp only [NoOverlap.Database.paymentUpdate, hk]
      exact h.2
    | _ => exact h.2

/-- The stay of a row ends after it begins. -/
theorem lt_of_le {d : Database} {data : ReservationData} {row : Reservation}
    (h : d.Inserted data row) (hle : data.checkOut.le data.checkIn = false) :
    row.checkIn < row.checkOut := by
  rw [h.checkIn, h.checkOut] at hle
  have hnot : ¬row.checkOut ≤ row.checkIn := of_decide_eq_false hle
  omega

theorem Kept.clock (h : Kept v isHost isGuest s) (now : Int) :
    Kept v isHost isGuest { s with clock := now } := ⟨h.listings, h.blocks, h.reviews, h.bookings⟩

theorem Kept.withBooking (h : Kept v isHost isGuest s) {b : NoOverlap.Store}
    (hl : b.db.listings = s.booking.db.listings) (hb : Database.Booked b.db (Bookable isGuest)) :
    Kept v isHost isGuest (s.withBooking b hl) := ⟨h.listings, h.blocks, h.reviews, hb⟩

theorem Kept.withListings (h : Kept v isHost isGuest s) {T : Table ListingRow}
    (hT : ∀ l ∈ T.rows, isHost l.hostId ∧
      Listable v l.title l.city l.nightlyPriceCents l.maxGuests) :
    Kept v isHost isGuest (s.withListings T) := ⟨hT, h.blocks, h.reviews, h.bookings⟩

/-- An update within the bounds keeps a listing within them. -/
theorem Updatable.listable {dto : UpdateListingDto} {l : ListingRow} (hu : Updatable v dto)
    (h : Listable v l.title l.city l.nightlyPriceCents l.maxGuests) :
    Listable v (dto.apply l).title (dto.apply l).city (dto.apply l).nightlyPriceCents
      (dto.apply l).maxGuests := by
  -- A column that the update leaves alone is as it was.
  have hcolumn : ∀ {α : Type} {P : α → Prop} {x : Option α} {a : α}, (∀ b, x = some b → P b) →
      P a → P (x.getD a) := by
    intro α P x a hx ha
    cases x with
    | none => exact ha
    | some b => exact hx b rfl
  exact ⟨hcolumn (P := fun s => v.isLength 1 120 s = true) hu.title h.title,
    hcolumn (P := fun s => v.isLength 1 120 s = true) hu.city h.city,
    hcolumn (P := fun n => 0 ≤ n) hu.price h.price,
    hcolumn (P := fun n => 1 ≤ n ∧ n ≤ 64) hu.guests h.guests⟩

theorem kept_of_performListing {o : ListingStatement} {r : Except Err o.Resp} {id : Id} {now : Int}
    (h : Kept v isHost isGuest s) (ho : Fine v isHost isGuest (.listing o))
    (hx : s.performListing t id now o = some (r, s')) : Kept v isHost isGuest s' := by
  cases o with
  | create hostId dto =>
    simp only [Platform.Store.performListing, Platform.Store.listingCreate] at hx
    split_ifs at hx
    · cases hx
      exact h
    · cases hx
      refine h.withListings fun l hl => ?_
      rcases mem_of_insert hl with hold | rfl
      · exact h.listings l hold
      · exact ho
  | findHost lid =>
    cases hx
    exact h
  | update lid dto =>
    simp only [Platform.Store.performListing, Platform.Store.listingUpdate] at hx
    split at hx
    · cases hx
      exact h
    · split_ifs at hx
      · cases hx
        exact h
      · cases hx
        refine h.withListings fun l hl => ?_
        obtain ⟨l₀, hmem, rfl⟩ := Table.mem_update.mp hl
        obtain ⟨hhost, hlisted⟩ := h.listings l₀ hmem
        split
        · exact ⟨hhost, Updatable.listable ho hlisted⟩
        · exact ⟨hhost, hlisted⟩
  | delete lid =>
    simp only [Platform.Store.performListing, Platform.Store.listingDelete] at hx
    split at hx
    · cases hx
      exact h
    · split_ifs at hx
      · cases hx
        exact h
      · cases hx
        exact ⟨fun l hl => h.listings l (Table.mem_erase.mp hl).1,
          fun b hb => h.blocks b (Table.mem_erase.mp hb).1,
          fun w hw => h.reviews w (Table.mem_erase.mp hw).1, h.bookings⟩
  | blockCreate lid startsAt endsAt kind =>
    simp only [Platform.Store.performListing, Platform.Store.blockCreate] at hx
    split at hx
    · next a b =>
      split_ifs at hx
      · cases hx
        exact h
      · cases hx
        refine ⟨h.listings, fun w hw => ?_, h.reviews, h.bookings⟩
        rcases mem_of_insert hw with hold | rfl
        · exact h.blocks w hold
        · have hnot : ¬b ≤ a := of_decide_eq_false ho
          exact Int.not_le.mp hnot
    · cases hx
      exact h
  | blockDeleteMany bid lid =>
    cases hx
    exact ⟨h.listings, fun b hb => h.blocks b (Table.mem_erase.mp hb).1, h.reviews, h.bookings⟩

theorem kept_of_reviewCreate {data : ReviewData} {r : Except Err Review} {id : Id} {now : Int}
    (h : Kept v isHost isGuest s) (ho : Reviewable v data.rating data.body)
    (hx : s.reviewCreate t id now data = some (r, s')) : Kept v isHost isGuest s' := by
  simp only [Platform.Store.reviewCreate] at hx
  split_ifs at hx
  iterate 3 (cases hx; exact h)
  cases hx
  refine ⟨h.listings, h.blocks, fun w hw => ?_, h.bookings⟩
  rcases mem_of_insert hw with hold | rfl
  · exact h.reviews w hold
  · exact ho

theorem kept_of_booking {o : NoOverlap.Statement} {r : Except Err o.Resp}
    (h : Kept v isHost isGuest s) (ho : OnBooking v isHost isGuest o)
    (hx : (Platform.Statement.booking o).exec t ch s = some (r, s')) :
    Kept v isHost isGuest s' := by
  obtain ⟨b, hl, hb, rfl⟩ := exec_booking hx
  refine (h.withBooking hl ?_).clock _
  rcases NoOverlap.Statement.exec_db hb with he | ⟨o', rfl, r', hd⟩
  · rw [he]
    exact h.bookings
  · refine booked_of_perform h.bookings (fun _ _ hr => hr) (fun data row heq hins => ?_) hd
    subst heq
    have hfine : isGuest data.guestId ∧ data.checkOut.le data.checkIn = false := ho
    exact ⟨hins.guestId ▸ hfine.1, lt_of_le hins hfine.2⟩

/-- A statement that is fine keeps everything as it should be. -/
theorem kept_of_exec {o : Hosts.Statement} {r : Except Err o.Resp} (h : Kept v isHost isGuest s)
    (ho : OnHosts v isHost isGuest o) (hx : o.exec t ch s = some (r, s')) :
    Kept v isHost isGuest s' := by
  -- A failure leaves what was there, or what the statement has done.
  have hfaulty : ∀ {α : Type} {x : Option (Except Err α × Platform.Store)} {r : Except Err α}
      {s₁ : Platform.Store}, faulty ch.fault s x = some (r, s₁) →
      (∀ r', x = some (r', s₁) → Kept v isHost isGuest s₁) → Kept v isHost isGuest s₁ := by
    intro α x r s₁ hf hk
    rcases faulty_cases hf with ⟨rfl, -⟩ | ⟨r', hp, -⟩
    · exact h
    · exact hk r' hp
  cases o with
  | listingFindOwned hostId | reservationFindReceived listingIds =>
    obtain ⟨rfl, -⟩ := Hosts.read_of_faulty hx
    exact h.clock _
  | read | inOrder =>
    rcases Hosts.exec_of_reads rfl hx with rfl | rfl
    · exact h
    · exact h.clock _
  | platform o =>
    by_cases hbooking : ∃ o', o = .booking o'
    · obtain ⟨o', rfl⟩ := hbooking
      exact kept_of_booking h ho hx
    · obtain ⟨⟨r₀, s₁⟩, ha, he⟩ := Option.map_eq_some_iff.mp hx
      cases he
      refine Kept.clock ?_ _
      cases o with
      | booking o' => exact (hbooking ⟨o', rfl⟩).elim
      | reservationFindOwned guestId =>
        refine hfaulty ha fun r' hp => ?_
        cases hp
        exact h
      | listing o => exact hfaulty ha fun r' hp => kept_of_performListing h ho hp
      | reviewCreate data => exact hfaulty ha fun r' hp => kept_of_reviewCreate h ho hp

/-- In a run of sanctioned calls everything that is stored is kept. -/
theorem kept_of_reaches {cfg : Config} {P : Hosts.Policy} {w : Hosts.World} {now : Int}
    (hr : (Hosts.system v.isLength cfg).Reaches P
      (World.start (Platform.Store.init .empty now)) w)
    (hc : ∀ (t : Nat) th, w.threads[t]? = some th → Sanctioned v isHost isGuest th.call) :
    Kept v isHost isGuest w.shared := by
  refine Machine.Reaches.inv_of_calls (I := Kept v isHost isGuest)
    (A := OnHosts v isHost isGuest) (fun c hc => program_fine cfg hc)
    (kept_init v isHost isGuest now) ?_ ?_ ?_ ?_ hr hc
  · intro c s s' h hs
    cases c with
    | platform c =>
      rcases Archive.spawned_eq hs with rfl | ⟨b, hl, hb, rfl⟩
      · exact h
      · exact h.withBooking hl (by rw [hb]; exact h.bookings)
    | _ =>
      cases hs
      exact h
  · exact fun t ch o s r s' ho h hx => kept_of_exec h ho hx
  · intro t c r s h
    cases c with
    | platform c =>
      rcases Archive.returned_eq t c (r.map fun _ => .none) s with he | ⟨b, hl, hb, he⟩
      · have heq : (Hosts.system v.isLength cfg).returned t (.platform c) r s = s := he
        rw [heq]
        exact h
      · have heq : (Hosts.system v.isLength cfg).returned t (.platform c) r s =
            s.withBooking b hl := he
        rw [heq]
        exact h.withBooking hl (by rw [hb]; exact h.bookings)
    | _ => exact h
  · exact fun t c s h => ⟨h.listings, h.blocks, h.reviews, h.bookings.1,
      NoOverlap.Database.forall_rollback h.bookings.2⟩

end Statements

end Http

end NoOverlap
