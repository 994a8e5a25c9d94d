import NoOverlap.Lifecycle.Answers
import NoOverlap.Platform.Services

/-!
# What a statement of the platform does

`Effect` lists, for every statement beside those of the booking module, what it leaves when
it goes through and when it is refused.  Everything else about the tables follows from it
by cases.
-/

namespace NoOverlap

namespace Platform

open Relational

variable {s s' : Store} {t : Nat} {ch : Choice}

/-- The statements that only read. -/
def Statement.isRead : Statement → Bool
  | .reservationFindOwned _ | .listing (.findHost _) => true
  | _ => false

/-- The data of a review, as a row. -/
def ReviewData.row (data : ReviewData) (id : Id) (now : Int) : Review :=
  { id := id, reservationId := data.reservationId, listingId := data.listingId,
    rating := data.rating, body := data.body, createdAt := now }

/-- A review that thread `t` has written. -/
def Store.reviewed (s : Store) (t : Nat) (v : Review) : Store :=
  let submission : Submission := { tid := t, review := v, log := s.booking.db.statusLog }
  { s with reviews := s.reviews.insert v, submissions := s.submissions ++ [submission] }

/-- A statement of thread `t` at the time `now`, what it reports and what it leaves. -/
inductive Effect (s : Store) (t : Nat) (now : Int) :
    (o : Statement) → Except Err o.Resp → Store → Prop where
  | booking (o : NoOverlap.Statement) (ch : Choice) (res : Except Err o.Resp) (b : NoOverlap.Store)
      (hnow : ch.now = now) (hx : o.exec t ch s.booking = some (res, b))
      (h : b.db.listings = s.booking.db.listings) :
      Effect s t now (.booking o) res (s.withBooking b h)
  | read (o : Statement) (res : Except Err o.Resp) (h : o.isRead = true) : Effect s t now o res s
  | refused (o : Statement) (e : Err) : Effect s t now o (.error e) s
  | create (hostId : Id) (dto : CreateListingDto) (row : ListingRow)
      (hid : s.listings.find? row.id = none) (hh : row.hostId = hostId) :
      Effect s t now (.listing (.create hostId dto)) (.ok row)
        (s.withListings (s.listings.insert row))
  | update (id : Id) (data : UpdateListingDto) (row : ListingRow)
      (hf : s.listings.find? id = some row) :
      Effect s t now (.listing (.update id data)) (.ok (data.apply row))
        (s.withListings (s.listings.update (fun l => l.id == id) data.apply fun _ => rfl))
  | delete (id : Id) (row : ListingRow) (hf : s.listings.find? id = some row)
      (hl : s.locked id = false) (hb : s.booked id = false) :
      Effect s t now (.listing (.delete id)) (.ok ()) (s.deleteListing t id)
  | blockCreate (listingId : Id) (startsAt endsAt : JsDate) (kind : AvailabilityKind)
      (row : AvailabilityBlock) (hl : row.listingId = listingId)
      (hid : s.blocks.find? row.id = none) :
      Effect s t now (.listing (.blockCreate listingId startsAt endsAt kind)) (.ok row)
        { s with blocks := s.blocks.insert row }
  | blockDeleteMany (id listingId : Id) (n : Nat) :
      Effect s t now (.listing (.blockDeleteMany id listingId)) (.ok n)
        { s with blocks := s.blocks.erase fun b => b.id == id && b.listingId == listingId }
  | reviewCreate (data : ReviewData) (id : Id) (r : Reservation)
      (hid : s.reviews.find? id = none)
      (hu : s.reviews.rows.any (fun v => v.reservationId == data.reservationId) = false)
      (hr : s.booking.db.reservations.find? data.reservationId = some r) :
      Effect s t now (.reviewCreate data) (.ok (data.row id now)) (s.reviewed t (data.row id now))

theorem faulty_cases {α σ : Type} {f : Fault} {s s' : σ} {x : Option (Except Err α × σ)}
    {r : Except Err α} (h : faulty f s x = some (r, s')) :
    (s' = s ∧ ∃ e, r = .error e) ∨
      ∃ r', x = some (r', s') ∧ (r = r' ∨ ∃ e, f = .after e ∧ r = .error e) := by
  cases f with
  | none => exact .inr ⟨r, h, .inl rfl⟩
  | before e =>
    cases h
    exact .inl ⟨rfl, e, rfl⟩
  | after e =>
    obtain ⟨⟨r', s₁⟩, hx, he⟩ := Option.map_eq_some_iff.mp h
    cases he
    exact .inr ⟨r', hx, .inr ⟨e, rfl, rfl⟩⟩

theorem effect_of_performListing {id : Id} {now : Int} {o : ListingStatement}
    {res : Except Err o.Resp} (hx : s.performListing t id now o = some (res, s')) :
    Effect s t now (.listing o) res s' := by
  cases o with
  | create hostId dto =>
    simp only [Store.performListing, Store.listingCreate] at hx
    split_ifs at hx with h₁ h₂
    · cases hx
      exact .refused _ _
    · cases hx
      exact .create hostId dto _ (by simpa using h₂) rfl
  | findHost lid =>
    cases hx
    exact .read _ _ rfl
  | update lid data =>
    simp only [Store.performListing, Store.listingUpdate] at hx
    split at hx
    · cases hx
      exact .refused _ _
    · next row hf =>
      split_ifs at hx
      · cases hx
        exact .refused _ _
      · cases hx
        exact .update lid data row hf
  | delete lid =>
    simp only [Store.performListing, Store.listingDelete] at hx
    split at hx
    · cases hx
      exact .refused _ _
    · next row hf =>
      split_ifs at hx with h₁ h₂
      · cases hx
        exact .refused _ _
      · cases hx
        exact .delete lid row hf (by simpa using h₁) (by simpa using h₂)
  | blockCreate lid startsAt endsAt kind =>
    simp only [Store.performListing, Store.blockCreate] at hx
    split at hx
    · split_ifs at hx with h₁ h₂
      · cases hx
        exact .refused _ _
      · cases hx
        exact .blockCreate lid _ _ kind _ rfl (by simpa using h₂)
    · cases hx
      exact .refused _ _
  | blockDeleteMany bid lid =>
    cases hx
    exact .blockDeleteMany bid lid _

theorem effect_of_reviewCreate {id : Id} {now : Int} {data : ReviewData}
    {res : Except Err Review} (hx : s.reviewCreate t id now data = some (res, s')) :
    Effect s t now (.reviewCreate data) res s' := by
  simp only [Store.reviewCreate] at hx
  split_ifs at hx with h₁ h₂ h₃ h₄
  iterate 3 (cases hx; exact .refused _ _)
  cases hx
  obtain ⟨r, hr⟩ := Option.ne_none_iff_exists'.mp (by simpa using h₃)
  exact .reviewCreate data id r (by simpa using h₁) (by simpa using h₂) hr

/-- A statement has its effect at its time, and reports it unless the answer is lost. -/
theorem effect_of_exec {o : Statement} {r : Except Err o.Resp}
    (hx : o.exec t ch s = some (r, s')) :
    ∃ r' s₁, Effect s t ch.now o r' s₁ ∧ s' = { s₁ with clock := ch.now } ∧
      (r = r' ∨ ∃ e, ch.fault = .after e ∧ r = .error e) := by
  obtain ⟨⟨r₀, s₁⟩, ha, he⟩ := Option.map_eq_some_iff.mp hx
  cases he
  have hfaulty : ∀ {x : Option (Except Err o.Resp × Store)}, faulty ch.fault s x = some (r₀, s₁) →
      (∀ r', x = some (r', s₁) → Effect s t ch.now o r' s₁) →
      ∃ r', Effect s t ch.now o r' s₁ ∧ (r₀ = r' ∨ ∃ e, ch.fault = .after e ∧ r₀ = .error e) := by
    intro x hf heff
    rcases faulty_cases hf with ⟨rfl, e, rfl⟩ | ⟨r', hp, hr⟩
    · exact ⟨_, .refused _ e, .inl rfl⟩
    · exact ⟨r', heff r' hp, hr⟩
  have hgoal : ∃ r', Effect s t ch.now o r' s₁ ∧
      (r₀ = r' ∨ ∃ e, ch.fault = .after e ∧ r₀ = .error e) := by
    cases o with
    | booking o =>
      simp only [Statement.apply] at ha
      obtain ⟨⟨r', b⟩, hl, hb, he⟩ := Option.pmap_eq_some_iff.mp ha
      cases he
      exact ⟨_, .booking o ch _ _ rfl hb hl, .inl rfl⟩
    | reservationFindOwned guestId =>
      refine hfaulty ha fun r' hp => ?_
      cases hp
      exact .read _ _ rfl
    | listing o => exact hfaulty ha fun r' hp => effect_of_performListing hp
    | reviewCreate data => exact hfaulty ha fun r' hp => effect_of_reviewCreate hp
  obtain ⟨r', heff, hr⟩ := hgoal
  exact ⟨r', s₁, heff, rfl, hr⟩

/-- A statement of the booking module is one of its store. -/
theorem exec_booking {o : NoOverlap.Statement} {r : Except Err o.Resp}
    (hx : (Statement.booking o).exec t ch s = some (r, s')) :
    ∃ b hl, o.exec t ch s.booking = some (r, b) ∧
      s' = { s.withBooking b hl with clock := ch.now } := by
  obtain ⟨⟨r₀, s₁⟩, ha, he⟩ := Option.map_eq_some_iff.mp hx
  cases he
  simp only [Statement.apply] at ha
  obtain ⟨⟨r', b⟩, hl, hb, he⟩ := Option.pmap_eq_some_iff.mp ha
  cases he
  exact ⟨b, hl, hb, rfl⟩

/-- A guest's read of an own reservation. -/
theorem find?_of_reservationFindFirst {id guestId : Id} {row : Reservation}
    (hx : (Statement.booking (.db (.reservationFindFirst id guestId))).exec t ch s =
      some (.ok (some row), s')) :
    s' = { s with clock := ch.now } ∧ s.booking.db.reservations.find? id = some row ∧
      row.guestId = guestId := by
  obtain ⟨b, hl, hb, rfl⟩ := exec_booking hx
  obtain ⟨rfl, hf, hg⟩ := NoOverlap.find?_of_reservationFindFirst hb
  exact ⟨rfl, hf, hg⟩

end Platform

end NoOverlap
