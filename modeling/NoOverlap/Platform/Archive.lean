import NoOverlap.Lifecycle.Transitions
import NoOverlap.Platform.Rules

/-!
# Booking history is never destroyed

Nothing deletes a reservation or a payment.  A review could go with its listing, since the
key of a review cascades.  It never does: the listing of a review is the listing of a
reservation, and that keeps the listing where it is.  `Filed` is the invariant.  Creating a
review keeps it because the listing is read off the reservation, and the migration that
gave every review its listing has established it.
-/

namespace NoOverlap

namespace Platform

open Relational Concurrency RelyGuarantee

/-! ## The migration -/

/-- A review before it had a listing of its own. -/
structure LegacyReview where
  id : Id
  reservationId : Id
  rating : Int
  body : Option String
  createdAt : Int

instance : Keyed LegacyReview Id := ⟨LegacyReview.id⟩

/-- The tables before the migration `add_review_listing_id`. -/
structure Legacy where
  booking : NoOverlap.Store
  listings : Table ListingRow
  offered : booking.db.listings = listings.map ListingRow.offer fun _ => rfl
  blocks : Table AvailabilityBlock
  reviews : Table LegacyReview

namespace Legacy

/-- The listing of the stay a review is about. -/
def listingOf (l : Legacy) (v : LegacyReview) : Option Id :=
  (l.booking.db.reservations.find? v.reservationId).map (·.listingId)

/-- The backfill.  It fails if a review is left without a listing, or with one that does
not exist. -/
def addReviewListingId (l : Legacy) : Option Store :=
  let backfilled (v : LegacyReview) : Review :=
    { id := v.id, reservationId := v.reservationId, listingId := (l.listingOf v).getD 0,
      rating := v.rating, body := v.body, createdAt := v.createdAt }
  if l.reviews.rows.all (fun v => (l.listingOf v).any fun id => (l.listings.find? id).isSome) then
    some
      { booking := l.booking, listings := l.listings, offered := l.offered, blocks := l.blocks,
        reviews := l.reviews.map backfilled fun _ => rfl
        clock := 0, removals := [], submissions := [] }
  else none

end Legacy

/-! ## What is kept -/

/-- Only the status of a reservation ever changes. -/
def Stays (r r' : Reservation) : Prop := r' = { r with status := r'.status }

theorem Stays.refl (r : Reservation) : Stays r r := rfl

theorem Stays.trans {r r' r'' : Reservation} (h : Stays r r') (h' : Stays r' r'') :
    Stays r r'' := by
  rw [Stays] at h h' ⊢
  rw [h', h]

theorem Stays.listingId {r r' : Reservation} (h : Stays r r') : r'.listingId = r.listingId := by
  rw [h]

/-- The payment of the same charge. -/
structure StaysPaid (p p' : Payment) : Prop where
  id : p'.id = p.id
  reservationId : p'.reservationId = p.reservationId
  amountCents : p'.amountCents = p.amountCents

theorem StaysPaid.refl (p : Payment) : StaysPaid p p := ⟨rfl, rfl, rfl⟩

theorem StaysPaid.trans {p p' p'' : Payment} (h : StaysPaid p p') (h' : StaysPaid p' p'') :
    StaysPaid p p'' := ⟨h'.1.trans h.1, h'.2.trans h.2, h'.3.trans h.3⟩

/-- Every reservation, payment and review is still there. -/
structure Kept (s s' : Store) : Prop where
  reservations : Table.Extends Stays s.booking.db.reservations s'.booking.db.reservations
  payments : Table.Extends StaysPaid s.booking.db.payments s'.booking.db.payments
  reviews : Table.Extends Eq s.reviews s'.reviews

variable {s s' s'' : Store} {t : Nat} {now : Int}

theorem Kept.refl (s : Store) : Kept s s :=
  ⟨.refl Stays.refl _, .refl StaysPaid.refl _, .refl (fun _ => rfl) _⟩

theorem Kept.trans (h : Kept s s') (h' : Kept s' s'') : Kept s s'' :=
  ⟨h.reservations.trans (fun _ _ _ => Stays.trans) h'.reservations,
    h.payments.trans (fun _ _ _ => StaysPaid.trans) h'.payments,
    h.reviews.trans (fun _ _ _ => Eq.trans) h'.reviews⟩

theorem stays_of_effect {d d' : Database} {o : DbStatement} {res : Except Err o.Resp}
    (h : d.Effect t o res d') : Table.Extends Stays d.reservations d'.reservations :=
  h.extends Stays.refl fun _ _ _ _ => rfl

theorem staysPaid_of_effect {d d' : Database} {o : DbStatement} {res : Except Err o.Resp}
    (h : d.Effect t o res d') : Table.Extends StaysPaid d.payments d'.payments := by
  rcases h.payments with ⟨he, -⟩ | ⟨data, row, -, -, -, -, -, he, -⟩ | ⟨k, u, p, -, -, he, -⟩
  · rw [he]
    exact Table.Extends.refl StaysPaid.refl _
  · rw [he]
    exact Table.Extends.insert StaysPaid.refl _ row
  · rw [he]
    refine Table.Extends.update u.apply_key fun p _ => ?_
    split
    · refine ⟨?_, u.apply_reservationId p, u.apply_amountCents p⟩
      cases u <;> rfl
    · exact StaysPaid.refl p

/-- A statement of the booking module. -/
theorem kept_of_booking {o : NoOverlap.Statement} {ch : Choice} {res : Except Err o.Resp}
    {b : NoOverlap.Store} (hx : o.exec t ch s.booking = some (res, b))
    (hl : b.db.listings = s.booking.db.listings) : Kept s (s.withBooking b hl) := by
  rcases NoOverlap.Statement.exec_db hx with he | ⟨o', -, r', hd⟩
  · have hb : (s.withBooking b hl).booking.db = s.booking.db := he
    refine ⟨?_, ?_, .refl (fun _ => rfl) _⟩
    · rw [hb]
      exact .refl Stays.refl _
    · rw [hb]
      exact .refl StaysPaid.refl _
  · have heff := Database.effect_of_perform hd
    exact ⟨stays_of_effect heff, staysPaid_of_effect heff, .refl (fun _ => rfl) _⟩

/-! ## The invariant -/

/-- The listing of a review is the listing of its reservation. -/
def Filed (s : Store) : Prop :=
  ∀ v ∈ s.reviews.rows, ∃ r, s.booking.db.reservations.find? v.reservationId = some r ∧
    r.listingId = v.listingId

/-- The data of a review names a reservation and its listing. -/
def Authorised (s : Store) (data : ReviewData) : Prop :=
  ∃ r, s.booking.db.reservations.find? data.reservationId = some r ∧ r.listingId = data.listingId

theorem Authorised.kept {data : ReviewData} (h : Authorised s data) (hk : Kept s s') :
    Authorised s' data := by
  obtain ⟨r, hr, hl⟩ := h
  obtain ⟨r', hr', hs⟩ := hk.reservations _ r hr
  exact ⟨r', hr', hs.listingId.trans hl⟩

theorem Filed.kept (h : Filed s) (hk : Kept s s') (hv : ∀ v ∈ s'.reviews.rows, v ∈ s.reviews.rows) :
    Filed s' := by
  intro v hmem
  obtain ⟨r, hr, hl⟩ := h v (hv v hmem)
  obtain ⟨r', hr', hs⟩ := hk.reservations _ r hr
  exact ⟨r', hr', hs.listingId.trans hl⟩

theorem Filed.migrated {l : Legacy} (h : l.addReviewListingId = some s) : Filed s := by
  simp only [Legacy.addReviewListingId, Option.ite_none_right_eq_some, Option.some.injEq] at h
  obtain ⟨hall, rfl⟩ := h
  intro v hv
  obtain ⟨v₀, hv₀, rfl⟩ := List.mem_map.mp hv
  have hany := List.all_eq_true.mp hall v₀ hv₀
  cases hr : l.booking.db.reservations.find? v₀.reservationId with
  | none => simp [Legacy.listingOf, hr] at hany
  | some r => exact ⟨r, rfl, by simp [Legacy.listingOf, hr]⟩

/-- No review is of a listing without reservations. -/
theorem Filed.unreviewed (h : Filed s) {id : Id} (hb : s.booked id = false) :
    ∀ v ∈ s.reviews.rows, (v.listingId == id) = false := by
  intro v hv
  obtain ⟨r, hr, hl⟩ := h v hv
  have hnot := List.any_eq_false.mp hb r (Table.mem_of_find? hr)
  rw [← hl]
  simpa using hnot

/-- The tables after the deletion of a listing that has no reservation. -/
structure Deletes (s : Store) (t : Nat) (id : Id) (s' : Store) : Prop where
  unbooked : s.booked id = false
  listings : s'.listings = s.listings.erase fun l => l.id == id
  blocks : s'.blocks = s.blocks.erase fun b => b.listingId == id
  reviews : s'.reviews = s.reviews
  reservations : s'.booking.db.reservations = s.booking.db.reservations
  payments : s'.booking.db.payments = s.booking.db.payments
  outbox : s'.booking.db.outbox = s.booking.db.outbox
  removals : s'.removals = s.removals ++ [{ tid := t, listingId := id }]

/-- The cascade from a listing to its reviews is dead. -/
theorem Filed.deletes (h : Filed s) {id : Id} (hb : s.booked id = false) :
    Deletes s t id (s.deleteListing t id) :=
  { unbooked := hb
    listings := rfl
    blocks := rfl
    reviews := Table.erase_eq_self (h.unreviewed hb)
    reservations := rfl
    payments := rfl
    outbox := rfl
    removals := rfl }

theorem Deletes.kept {id : Id} (h : Deletes s t id s') : Kept s s' := by
  refine ⟨?_, ?_, ?_⟩
  · rw [h.reservations]
    exact .refl Stays.refl _
  · rw [h.payments]
    exact .refl StaysPaid.refl _
  · rw [h.reviews]
    exact .refl (fun _ => rfl) _

theorem kept_of_effect {o : Statement} {r : Except Err o.Resp} (hi : Filed s)
    (ho : ∀ data, o = .reviewCreate data → Authorised s data) (he : Effect s t now o r s') :
    Filed s' ∧ Kept s s' := by
  have hsame : ∀ s₁ : Store, s₁.booking.db.reservations = s.booking.db.reservations →
      s₁.booking.db.payments = s.booking.db.payments → s₁.reviews = s.reviews →
      Filed s₁ ∧ Kept s s₁ := by
    intro s₁ hr hp hv
    have hk : Kept s s₁ := by
      refine ⟨?_, ?_, ?_⟩
      · rw [hr]
        exact .refl Stays.refl _
      · rw [hp]
        exact .refl StaysPaid.refl _
      · rw [hv]
        exact .refl (fun _ => rfl) _
    exact ⟨hi.kept hk fun v h => hv ▸ h, hk⟩
  cases he with
  | booking o ch res b hnow hx hl =>
    have hk := kept_of_booking hx hl
    exact ⟨hi.kept hk fun _ h => h, hk⟩
  | delete id row hf hl hb =>
    have hd : Deletes s t id (s.deleteListing t id) := hi.deletes hb
    exact ⟨hi.kept hd.kept fun v h => hd.reviews ▸ h, hd.kept⟩
  | reviewCreate data id r hid hu hr =>
    obtain ⟨r', hr', hl⟩ := ho data rfl
    refine ⟨fun v hv => ?_, .refl Stays.refl _, .refl StaysPaid.refl _,
      .insert (fun _ => rfl) _ _⟩
    have hv : v ∈ (s.reviews.insert (data.row id now)).rows := hv
    rw [Table.insert_of_fresh hid, List.mem_append, List.mem_singleton] at hv
    rcases hv with hold | rfl
    · exact hi v hold
    · exact ⟨r', hr', hl⟩
  | read | refused | create | update | blockCreate | blockDeleteMany => exact hsame _ rfl rfl rfl

/-! ## Removals -/

/-- The tables of the database. -/
structure Tables where
  listings : Table ListingRow
  blocks : Table AvailabilityBlock
  reviews : Table Review
  reservations : Table Reservation
  payments : Table Payment
  outbox : Table OutboxRow

def Store.tables (s : Store) : Tables :=
  { listings := s.listings, blocks := s.blocks, reviews := s.reviews,
    reservations := s.booking.db.reservations, payments := s.booking.db.payments,
    outbox := s.booking.db.outbox }

/-- Thread `t` has deleted nothing. -/
def Unremoved (t : Nat) (s : Store) : Prop := ∀ id, { tid := t, listingId := id } ∉ s.removals

/-- What a call that removes a listing has done by the time it answers: it reports success
only if it has deleted the listing, and a failure only if it has not, unless an answer of the
database may have been lost. -/
def Removed {α : Type} (lost : Bool) (t : Nat) (id : Id) : Except Err α → Store → Prop
  | .ok _, s => { tid := t, listingId := id } ∈ s.removals
  | .error _, s => lost = true ∨ Unremoved t s

theorem removals_of_effect {o : Statement} {r : Except Err o.Resp} (he : Effect s t now o r s') :
    s'.removals = s.removals ∨
      ∃ id, o = .listing (.delete id) ∧ s'.removals = s.removals ++ [{ tid := t, listingId := id }] := by
  cases he with
  | delete id row hf hl hb => exact .inr ⟨id, rfl, rfl⟩
  | _ => exact .inl rfl

/-- What a statement of a call that removes a listing does. -/
theorem removes_of_effect {o : Statement} {r : Except Err o.Resp} {hostId id : Id} (hi : Filed s)
    (ho : Call.Issues (.removeListing hostId id) o) (he : Effect s t now o r s') :
    (s'.tables = s.tables ∧ s'.removals = s.removals) ∨ Deletes s t id s' := by
  cases he with
  | booking => exact ho.elim
  | read | refused => exact .inl ⟨rfl, rfl⟩
  | delete lid row hf hl hb =>
    obtain ⟨_, heq⟩ := ho
    cases heq
    exact .inr (hi.deletes hb)
  | create | update | blockCreate | blockDeleteMany | reviewCreate => simp [Call.Issues] at ho

/-! ## Runs -/

/-- `lost` says whether an answer of the database can be lost. -/
def archive (lost : Bool) : RelyGuarantee Store Call Statement.Resp Err Reply :=
  { Step := fun a s o r s' => ∃ ch : Choice, (lost = false → ∀ e, ch.fault ≠ .after e) ∧
      o.exec a.tid ch s = some (r, s')
    Inv := Filed
    Rely := fun t s s' => Kept s s' ∧
      ∀ id, { tid := t, listingId := id } ∈ s'.removals ↔ { tid := t, listingId := id } ∈ s.removals
    Guar := fun a s _ _ s' => Kept s s' ∧ (s'.removals = s.removals ∨
      ∃ id, s'.removals = s.removals ++ [{ tid := a.tid, listingId := id }])
    Post := fun a r s => ∀ hostId id, a.call = .removeListing hostId id → Removed lost a.tid id r s
    Fresh := Unremoved
    Lost := fun _ _ => True }

namespace Archive

variable {lost : Bool} {a : Agent}

theorem step_of_exec (lost : Bool) {o : Statement} {ch : Choice} {r : Except Err o.Resp}
    (hi : Filed s)
    (ho : ∀ data, o = .reviewCreate data → Authorised s data)
    (hx : o.exec a.tid ch s = some (r, s')) :
    (archive lost).Inv s' ∧ (archive lost).Guar a s o r s' := by
  obtain ⟨r', s₁, heff, rfl, -⟩ := effect_of_exec hx
  obtain ⟨hi', hk⟩ := kept_of_effect hi ho heff
  refine ⟨hi', ⟨hk.reservations, hk.payments, hk.reviews⟩, ?_⟩
  rcases removals_of_effect heff with he | ⟨id, -, he⟩
  · exact .inl he
  · exact .inr ⟨id, he⟩

/-- A program that reviews nothing. -/
theorem safe_of_uses {α : Type} {p : Async α}
    (hp : p.Uses fun o => ∀ data, o ≠ .reviewCreate data) :
    (archive lost).Safe a (fun _ _ => True) p s := by
  refine Safe.of_uses (K := fun _ => True) (fun _ _ _ _ => trivial) ?_ hp trivial
  intro s o r s' ho hi _ hx
  obtain ⟨ch, -, hx⟩ := hx
  obtain ⟨hi', hg⟩ := step_of_exec lost hi (fun data h => (ho data h).elim) hx
  exact ⟨hi', hg, trivial⟩

/-- A program that deletes nothing either. -/
theorem safe_unremoved {α : Type} {p : Async α}
    (hp : p.Uses fun o => (∀ data, o ≠ .reviewCreate data) ∧ ∀ id, o ≠ .listing (.delete id))
    (hs : Unremoved a.tid s) :
    (archive lost).Safe a (fun _ => Unremoved a.tid) p s := by
  refine Safe.of_uses (K := Unremoved a.tid) (fun s s' hr hs id h => hs id ((hr.2 id).mp h)) ?_ hp hs
  intro s o r s' ho hi hs hx
  obtain ⟨ch, -, hx⟩ := hx
  obtain ⟨hi', hg⟩ := step_of_exec lost hi (fun data h => (ho.1 data h).elim) hx
  refine ⟨hi', hg, ?_⟩
  obtain ⟨r', s₁, heff, rfl, -⟩ := effect_of_exec hx
  rcases removals_of_effect heff with he | ⟨id, hid, -⟩
  · intro id h
    exact hs id (he ▸ h)
  · exact (ho.2 id hid).elim

theorem safe_create (guestId : Id) (dto : CreateReviewDto) :
    (archive lost).Safe a (fun _ _ => True) (ReviewsService.create guestId dto) s := by
  refine Safe.bind (safe_getOwned fun s₁ _ hi r s₂ hx => ?_)
  obtain ⟨ch, hf, hx⟩ := hx
  obtain ⟨hi₂, hg⟩ := step_of_exec lost hi (fun data h => by cases h) hx
  refine ⟨hi₂, hg, fun _ => trivial, ?_⟩
  rintro row rfl
  -- The reservation that was read keeps its listing.
  obtain ⟨rfl, hrow, -⟩ := find?_of_reservationFindFirst hx
  let K : Store → Prop := fun s => ∀ data : ReviewData, data.reservationId = dto.reservationId →
    data.listingId = row.listingId → Authorised s data
  have hknown : K { s₁ with clock := ch.now } := by
    intro data hid hl
    exact ⟨row, by rw [hid]; exact hrow, hl.symm⟩
  have huses : (ReviewsService.submit dto row).Uses fun o => ∀ data, o = .reviewCreate data →
      data.reservationId = dto.reservationId ∧ data.listingId = row.listingId :=
    submit_uses fun data hid hl data' heq => by
      cases heq
      exact ⟨hid, hl⟩
  refine (Safe.of_uses (K := K) ?_ ?_ huses hknown).imp fun _ _ _ => trivial
  · exact fun s s' hr hk data hid hl => (hk data hid hl).kept hr.1
  · rintro s o r s' ho hi hk ⟨ch', -, hx'⟩
    obtain ⟨hi', hg'⟩ := step_of_exec lost hi
      (fun data h => hk data (ho data h).1 (ho data h).2) hx'
    exact ⟨hi', hg', fun data hid hl => (hk data hid hl).kept hg'.1⟩

theorem removed_of_delete {id : Id} {ch : Choice} {r : Except Err Unit} (hs : Unremoved t s)
    (hf : lost = false → ∀ e, ch.fault ≠ .after e)
    (hx : (Statement.listing (.delete id)).exec t ch s = some (r, s')) : Removed lost t id r s' := by
  obtain ⟨r', s₁, heff, rfl, hr⟩ := effect_of_exec hx
  cases heff with
  | read _ _ h => cases h
  | refused o e =>
    have herr : ∃ e', r = .error e' := by
      rcases hr with rfl | ⟨e', -, rfl⟩
      · exact ⟨e, rfl⟩
      · exact ⟨e', rfl⟩
    obtain ⟨e', rfl⟩ := herr
    exact .inr hs
  | delete _ row hfind hl hb =>
    rcases hr with rfl | ⟨e, hlost, rfl⟩
    · exact List.mem_append_right _ (List.mem_singleton_self _)
    · refine .inl ?_
      by_contra hnot
      exact hf (Bool.eq_false_iff.mpr hnot) e hlost

theorem safe_remove (hostId id : Id) (hs : Unremoved a.tid s) :
    (archive lost).Safe a (Removed lost a.tid id) (ListingsService.remove hostId id) s := by
  have howner : (ListingsService.assertOwner id hostId).Uses fun o =>
      (∀ data, o ≠ .reviewCreate data) ∧ ∀ id, o ≠ .listing (.delete id) :=
    assertOwner_uses id hostId ⟨fun _ h => by (cases h), fun _ h => by (cases h)⟩
  refine Safe.bind ((safe_unremoved howner hs).imp fun r s₁ hs => ?_)
  cases r with
  | error e => exact .inr hs
  | ok u =>
    refine Safe.tryCatch fun s₂ hr hi r s₃ hx => ?_
    obtain ⟨ch, hf, hx⟩ := hx
    obtain ⟨hi', hg⟩ := step_of_exec lost hi (fun data h => by cases h) hx
    refine ⟨hi', hg, ?_⟩
    have hs₂ : Unremoved a.tid s₂ := fun id h => hs id ((hr.2 id).mp h)
    have hdone := removed_of_delete hs₂ hf hx
    cases r with
    | ok u => exact hdone
    | error e =>
      by_cases hfk : e.isForeignKeyViolation = true
      · simp only [safe_done, caught_error, if_pos hfk, safe_throw]
        exact hdone
      · simp only [safe_done, caught_error, if_neg hfk, safe_throw]
        exact hdone

/-- A call that neither removes a listing nor writes a review. -/
theorem safe_other (cfg : Config) {c : Call} (hc : a.call = c)
    (hr : ∀ hostId id, c ≠ .removeListing hostId id) (hv : ∀ guestId dto, c ≠ .createReview guestId dto) :
    (archive lost).Safe a ((archive lost).Post a) (c.program cfg) s := by
  have huses : (c.program cfg).Uses fun o => ∀ data, o ≠ .reviewCreate data := by
    refine (program_issues cfg c).mono ?_
    rintro o ho data rfl
    obtain ⟨guestId, dto, heq, -⟩ := ho
    exact hv guestId dto heq
  refine (safe_of_uses huses).imp fun r s' _ hostId id heq => ?_
  exact (hr hostId id (hc.symm.trans heq)).elim

theorem safe_program (cfg : Config) (c : Call) (hc : a.call = c) (hs : Unremoved a.tid s) :
    (archive lost).Safe a ((archive lost).Post a) (c.program cfg) s := by
  cases c with
  | removeListing hostId id =>
    refine safe_answer ((safe_remove hostId id hs).imp fun r s' hdone hostId' id' heq => ?_)
    have hid : Call.removeListing hostId id = .removeListing hostId' id' := hc.symm.trans heq
    cases hid
    cases r with
    | ok u => exact hdone
    | error e => exact hdone
  | createReview guestId dto =>
    refine safe_answer ((safe_create guestId dto).imp fun r s' _ hostId id heq => ?_)
    have hne : Call.createReview guestId dto = .removeListing hostId id := hc.symm.trans heq
    cases hne
  | _ => exact safe_other cfg hc (fun _ _ h => by cases h) fun _ _ h => by cases h

theorem kept_of_db {b : NoOverlap.Store} (hb : b.db = s.booking.db)
    (hl : b.db.listings = s.booking.db.listings) : Kept s (s.withBooking b hl) := by
  have hdb : (s.withBooking b hl).booking.db = s.booking.db := hb
  refine ⟨?_, ?_, .refl (fun _ => rfl) _⟩
  · rw [hdb]
    exact .refl Stays.refl _
  · rw [hdb]
    exact .refl StaysPaid.refl _

/-- What the start of a call leaves. -/
theorem spawned_eq {c : Call} (h : s.spawned c = some s') :
    s' = s ∨ ∃ b hl, b.db = s.booking.db ∧ s' = s.withBooking b hl := by
  cases c with
  | booking c =>
    obtain ⟨b, hl, hb, rfl⟩ := Option.pmap_eq_some_iff.mp h
    exact .inr ⟨b, hl, spawned_db hb, rfl⟩
  | _ =>
    cases h
    exact .inl rfl

/-- What the end of a call leaves. -/
theorem returned_eq (t : Nat) (c : Call) (r : Except Err Reply) (s : Store) :
    s.returned t c r = s ∨ ∃ b hl, b.db = s.booking.db ∧ s.returned t c r = s.withBooking b hl := by
  cases c with
  | booking c =>
    have hdb := returned_db t c (r.map fun _ => .none) s.booking
    exact .inr ⟨_, congrArg Database.listings hdb, hdb, rfl⟩
  | _ => exact .inl rfl

theorem sound (lost : Bool) (cfg : Config) {P : Policy} {s₀ : Store} (h₀ : Filed s₀)
    (hn : s₀.removals = [])
    (hP : lost = false → ∀ a ch o s, P.op a ch o s = true → ∀ e, ch.fault ≠ .after e) :
    Sound (archive lost) (system cfg) P s₀ where
  start := h₀
  fresh_start := fun t id h => by
    rw [hn] at h
    cases h
  rely_refl := fun t s => ⟨Kept.refl s, fun _ => Iff.rfl⟩
  rely_trans := fun t s₁ s₂ s₃ h h' => ⟨h.1.trans h'.1, fun id => (h'.2 id).trans (h.2 id)⟩
  guar_rely := by
    rintro a t s o r s' hne ⟨hk, hm⟩
    refine ⟨hk, fun id => ?_⟩
    rcases hm with he | ⟨id', he⟩
    · rw [he]
    · rw [he, List.mem_append, List.mem_singleton]
      refine ⟨fun h => ?_, .inl⟩
      rcases h with h | h
      · exact h
      · cases h
        exact (hne rfl).elim
  fresh_stable := fun t s s' hr hf id h => hf id ((hr.2 id).mp h)
  post_stable := by
    intro a r s s' hr _ hp hostId id heq
    have hold := hp hostId id heq
    cases r with
    | ok v => exact (hr.2 id).mpr hold
    | error e =>
      rcases hold with hlost | hnone
      · exact .inl hlost
      · exact .inr fun id h => hnone id ((hr.2 id).mp h)
  lost_stable := fun _ _ _ _ _ => trivial
  step := fun w _ t c o k ch r s' _ hp hx => ⟨ch, fun hl => hP hl _ _ _ _ hp, hx⟩
  spawn := by
    intro t c s s' hi hfresh _ hs
    have hk : Kept s s' ∧ s'.reviews = s.reviews ∧ s'.removals = s.removals := by
      rcases spawned_eq hs with rfl | ⟨b, hl, hb, rfl⟩
      · exact ⟨Kept.refl _, rfl, rfl⟩
      · exact ⟨kept_of_db hb hl, rfl, rfl⟩
    obtain ⟨hk, hv, hm⟩ := hk
    refine ⟨hi.kept hk fun v h => hv ▸ h, fun u => ⟨hk, fun id => by rw [hm]⟩, ?_⟩
    exact safe_program cfg c rfl fun id h => hfresh id (hm ▸ h)
  ret := by
    intro t c r s hi _
    rcases returned_eq t c r s with he | ⟨b, hl, hb, he⟩
    · rw [show (system cfg).returned t c r s = s from he]
      exact ⟨hi, fun u => ⟨Kept.refl s, fun _ => Iff.rfl⟩⟩
    · rw [show (system cfg).returned t c r s = s.withBooking b hl from he]
      have hk := kept_of_db hb hl
      exact ⟨hi.kept hk fun _ h => h, fun u => ⟨hk, fun _ => Iff.rfl⟩⟩
  kill := by
    intro t c p s hi _
    have hk : Kept s (s.killed t c) :=
      ⟨.refl Stays.refl _, .refl StaysPaid.refl _, .refl (fun _ => rfl) _⟩
    exact ⟨hi.kept hk fun _ h => h, fun u _ => ⟨hk, fun _ => Iff.rfl⟩, trivial⟩

end Archive

/-- No answer of the database is lost. -/
def answersArrive : Policy :=
  { anything with
    op := fun _ ch _ _ => match ch.fault with
      | .after _ => false
      | _ => true }

/-- Whatever the listings service, the booking module, the worker and the reviews do, from
a database that the migrations have left: no reservation, payment or review disappears; a
call that removes a listing leaves every table as it is, but for deleting a listing without
reservations, its windows and nothing else, at one statement; and it reports success only if
it has done so, failure only if it has not, unless the answer was lost. -/
theorem booking_history_is_kept {cfg : Config} {l : Legacy} {s₀ : Store} {w : World}
    (hm : l.addReviewListingId = some s₀)
    (hr : (system cfg).Reaches anything (Concurrency.World.start s₀) w) :
    (∀ w', (system cfg).Reaches anything w w' → Kept w.shared w'.shared) ∧
    (∀ (t : Nat) hostId id o k, w.threads[t]? = some (.running (.removeListing hostId id) (.call o k)) →
      ∀ ch r s', o.exec t ch w.shared = some (r, s') →
        (s'.tables = w.shared.tables ∧ s'.removals = w.shared.removals) ∨
          Deletes w.shared t id s') ∧
    (∀ (t : Nat) hostId id v, w.threads[t]? = some (.returned (.removeListing hostId id) (.ok v)) →
      { tid := t, listingId := id } ∈ w.shared.removals) ∧
    ((system cfg).Reaches answersArrive (Concurrency.World.start s₀) w →
      ∀ (t : Nat) hostId id e,
        w.threads[t]? = some (.returned (.removeListing hostId id) (.error e)) →
          Unremoved t w.shared) := by
  have hfiled := Filed.migrated hm
  have hnone : s₀.removals = [] := by
    simp only [Legacy.addReviewListingId, Option.ite_none_right_eq_some, Option.some.injEq] at hm
    obtain ⟨-, rfl⟩ := hm
    rfl
  have hsound := Archive.sound true cfg (P := anything) hfiled hnone
    fun h => by cases h
  refine ⟨fun w' hr' => ?_, ?_, ?_, ?_⟩
  · exact (hsound.rely_of_reaches hr hr' (Nat.le_refl _)).1
  · intro t hostId id o k ht ch r s' hx
    obtain ⟨r', s₁, heff, rfl, -⟩ := effect_of_exec hx
    have hissues := hr.uses_head (program_issues cfg) ht
    rcases removes_of_effect (hsound.inv hr) hissues heff with hsame | hd
    · exact .inl hsame
    · exact .inr ⟨hd.1, hd.2, hd.3, hd.4, hd.5, hd.6, hd.7, hd.8⟩
  · intro t hostId id v ht
    exact hsound.post hr ht hostId id rfl
  · intro hr' t hostId id e ht
    have harrive := Archive.sound false cfg (P := answersArrive) hfiled hnone (by
      intro _ a ch o s hop e he
      simp only [answersArrive, he] at hop
      cases hop)
    rcases harrive.post hr' ht hostId id rfl with h | h
    · cases h
    · exact h

/-! ## A booked listing -/

namespace Sample

def house : ListingRow :=
  { id := 7, hostId := 1, title := "Loft", city := "Berlin", nightlyPriceCents := 100,
    maxGuests := 2, active := true, createdAt := 0 }

def houses : Table ListingRow := Table.empty.insert house

def finished : Reservation :=
  { id := 5, listingId := 7, guestId := 2, checkIn := 0, checkOut := 86400000, status := .completed,
    priceTotalCents := 100, holdExpiresAt := 0, createdAt := 0 }

theorem key_offer (l : ListingRow) : key l.offer = key l := rfl

/-- A stay has been taken and reviewed. -/
def legacy : Legacy :=
  let store := NoOverlap.Store.init (houses.map ListingRow.offer key_offer)
  { booking := { store with db := { store.db with reservations := Table.empty.insert finished } }
    listings := houses
    offered := rfl
    blocks := .empty
    reviews := Table.empty.insert
      { id := 9, reservationId := 5, rating := 5, body := none, createdAt := 90000000 } }

/-- The call has been told that the listing has bookings. -/
def refused (t : Nat) (w : World) : Bool :=
  match w.threads[t]? with
  | some (.returned _ (.error (.app .listingHasBookings _))) => true
  | _ => false

end Sample

open Sample in
theorem booking_history_is_kept_refused :
    ∃ s₀ w, legacy.addReviewListingId = some s₀ ∧
      (system NoOverlap.Scenario.cfg).Reaches anything (Concurrency.World.start s₀) w ∧
      refused 0 w = true ∧ (w.shared.reviews.find? 9).isSome = true ∧
      ∀ w', (system NoOverlap.Scenario.cfg).Reaches anything w w' → Kept w.shared w'.shared := by
  have hrun : (legacy.addReviewListingId.any fun s₀ =>
      ((system NoOverlap.Scenario.cfg).run anything (Concurrency.World.start s₀)
        [.spawn (.removeListing 1 7), .step 0 {}, .step 0 {}, .ret 0]).any fun w =>
          refused 0 w && (w.shared.reviews.find? 9).isSome) = true := by
    decide +kernel
  cases hm : legacy.addReviewListingId with
  | none =>
    rw [hm] at hrun
    cases hrun
  | some s₀ =>
    rw [hm, Option.any_some] at hrun
    obtain ⟨w, hr, ht⟩ := Machine.exists_reaches_of_run hrun
    obtain ⟨href, hv⟩ := Bool.and_eq_true_iff.mp ht
    exact ⟨s₀, w, rfl, hr, href, hv, (booking_history_is_kept hm hr).1⟩

end Platform

end NoOverlap
