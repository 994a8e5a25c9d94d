import NoOverlap.Concurrency.Alone
import NoOverlap.Platform.Archive

/-!
# Other guests

What a guest is told, and what happens to the guest's own rows, does not depend on the
reservations of anybody else: two runs from states that agree on the guest's reservations
and their reviews go the same way.  And whatever is not the guest's is left as it was.

The number that `INCR` hands out is the one thing a request learns about the rest of the
world.  It ends up in the announcement and nowhere else.
-/

namespace NoOverlap

namespace Platform

open Relational Concurrency
open Concurrency.Prog

namespace Store

variable (g : Id) (s : Store)

/-- The reservations of the guest `g`. -/
def own : List Reservation := s.booking.db.reservations.rows.filter fun r => r.guestId == g

/-- The reservations of everybody else. -/
def others : List Reservation := s.booking.db.reservations.rows.filter fun r => !(r.guestId == g)

/-- The guest has a reservation under this id. -/
def owns (id : Id) : Bool := (s.own g).any fun r => r.id == id

/-- The reviews of the guest's reservations. -/
def ownReviews : List Review := s.reviews.rows.filter fun v => s.owns g v.reservationId

def otherReviews : List Review := s.reviews.rows.filter fun v => !s.owns g v.reservationId

end Store

/-- Two states in which the guest has the same reservations, with the same reviews. -/
structure Agree (g : Id) (s s' : Store) : Prop where
  own : s'.own g = s.own g
  reviews : s'.ownReviews g = s.ownReviews g

/-- Every reservation, committed or not, satisfies `P`. -/
def Database.Booked (d : Database) (P : Reservation → Prop) : Prop :=
  (∀ r ∈ d.reservations.rows, P r) ∧ ∀ tx ∈ d.transactions.rows, ∀ r ∈ tx.reservations, P r

/-- The foreign key from a reservation to its listing. -/
def Referential (s : Store) : Prop :=
  Database.Booked s.booking.db fun r => (s.listings.find? r.listingId).isSome = true

/-- Nothing that is not the guest's has been changed, refunded or announced. -/
structure Intact (g : Id) (s s' : Store) : Prop where
  others : s'.others g = s.others g
  owns : ∀ id, s'.owns g id = s.owns g id
  reviews : s'.otherReviews g = s.otherReviews g
  listings : s'.listings = s.listings
  blocks : s'.blocks = s.blocks
  payments : s'.booking.db.payments = s.booking.db.payments
  outbox : s'.booking.db.outbox = s.booking.db.outbox
  transactions : s'.booking.db.transactions = s.booking.db.transactions
  charges : s'.booking.queues.charge = s.booking.queues.charge
  results : s'.booking.queues.result = s.booking.queues.result
  refunds : ∀ id, s.owns g id = false →
    s'.booking.queues.refund.find? id = s.booking.queues.refund.find? id
  announced : ∃ new, s'.booking.redis.emitted = s.booking.redis.emitted ++ new ∧
    ∀ e ∈ new, s.owns g e.reservationId = true

variable {g : Id} {s s' s'' : Store}

theorem Intact.refl (g : Id) (s : Store) : Intact g s s :=
  { others := rfl, owns := fun _ => rfl, reviews := rfl, listings := rfl, blocks := rfl
    payments := rfl, outbox := rfl, transactions := rfl, charges := rfl, results := rfl
    refunds := fun _ _ => rfl
    announced := ⟨[], (List.append_nil _).symm, fun e h => by cases h⟩ }

theorem Intact.trans (h : Intact g s s') (h' : Intact g s' s'') : Intact g s s'' := by
  obtain ⟨new, he, hnew⟩ := h.announced
  obtain ⟨new', he', hnew'⟩ := h'.announced
  refine ⟨h'.others.trans h.others, fun id => (h'.owns id).trans (h.owns id),
    h'.reviews.trans h.reviews, h'.listings.trans h.listings, h'.blocks.trans h.blocks,
    h'.payments.trans h.payments, h'.outbox.trans h.outbox,
    h'.transactions.trans h.transactions, h'.charges.trans h.charges,
    h'.results.trans h.results, fun id hid => ?_, new ++ new', ?_, fun e hmem => ?_⟩
  · exact (h'.refunds id ((h.owns id).trans hid)).trans (h.refunds id hid)
  · rw [he', he, List.append_assoc]
  · rcases List.mem_append.mp hmem with hmem | hmem
    · exact hnew e hmem
    · exact (h.owns _).symm.trans (hnew' e hmem)

/-! ## Reservations of the guest -/

theorem mem_own {r : Reservation} :
    r ∈ s.own g ↔ r ∈ s.booking.db.reservations.rows ∧ r.guestId = g := by
  rw [Store.own, List.mem_filter, beq_iff_eq]

theorem owns_iff {id : Id} :
    s.owns g id = true ↔ ∃ r, s.booking.db.reservations.find? id = some r ∧ r.guestId = g := by
  simp only [Store.owns, List.any_eq_true, beq_iff_eq, mem_own]
  constructor
  · rintro ⟨r, ⟨hr, hg⟩, rfl⟩
    exact ⟨r, Table.find?_of_mem hr, hg⟩
  · rintro ⟨r, hr, hg⟩
    exact ⟨r, ⟨Table.mem_of_find? hr, hg⟩, Table.key_of_find? hr⟩

/-- A read of an own reservation depends on the guest's rows only. -/
theorem find?_filter_eq (h : s'.own g = s.own g) (id : Id) :
    (s'.booking.db.reservations.find? id).filter (fun r => r.guestId == g) =
      (s.booking.db.reservations.find? id).filter fun r => r.guestId == g := by
  have hiff : ∀ (s : Store) r, (s.booking.db.reservations.find? id).filter
      (fun r => r.guestId == g) = some r ↔ r ∈ s.own g ∧ r.id = id := by
    intro s r
    rw [Option.filter_eq_some_iff, mem_own, beq_iff_eq, Table.find?_eq_some]
    exact and_right_comm
  refine Option.ext fun r => ?_
  rw [hiff, hiff, h]

theorem owns_eq (h : s'.own g = s.own g) (id : Id) : s'.owns g id = s.owns g id := by
  rw [Store.owns, Store.owns, h]

theorem ownReviews_eq (ho : ∀ id, s'.owns g id = s.owns g id) (hv : s'.reviews = s.reviews) :
    s'.ownReviews g = s.ownReviews g := by
  simp only [Store.ownReviews, ho, hv]

theorem otherReviews_eq (ho : ∀ id, s'.owns g id = s.owns g id) (hv : s'.reviews = s.reviews) :
    s'.otherReviews g = s.otherReviews g := by
  simp only [Store.otherReviews, ho, hv]

/-- Everybody else's row is not under an id of the guest. -/
theorem ne_of_mem_others {id : Id} (hid : s.owns g id = true) {r : Reservation}
    (hr : r ∈ s.others g) : r.id ≠ id := by
  rintro rfl
  obtain ⟨r', hr', hg⟩ := owns_iff.mp hid
  rw [Store.others, List.mem_filter] at hr
  have hsame : r' = r := Option.some.inj (hr'.symm.trans (Table.find?_of_mem hr.1))
  rw [hsame] at hg
  simp [hg] at hr

/-! ## One statement of the booking module -/

variable {t : Nat} {ch : Choice} {a a' : Store}

/-- Two states reached from `a` and `a'` without touching what is not the guest's, in which
the guest still has the same. -/
structure Level (g : Id) (a a' s s' : Store) : Prop where
  agree : Agree g s s'
  left : Intact g a s
  right : Intact g a' s'
  listed : ∀ r ∈ s.own g, (s.listings.find? r.listingId).isSome = true ∧
    (s'.listings.find? r.listingId).isSome = true

theorem Level.clock (h : Level g a a' s s') (n m : Int) :
    Level g a a' { s with clock := n } { s' with clock := m } :=
  { agree := ⟨h.agree.own, h.agree.reviews⟩
    left := { h.left with }
    right := { h.right with }
    listed := h.listed }

theorem exec_of_booking {o : NoOverlap.Statement} {r : Except Err o.Resp} {b : NoOverlap.Store}
    (hx : o.exec t ch s.booking = some (r, b)) :
    (Statement.booking o).exec t ch s = some (r,
      { s.withBooking b (NoOverlap.Statement.listings_of_exec hx) with clock := ch.now }) := by
  have hl := NoOverlap.Statement.listings_of_exec hx
  refine Option.map_eq_some_iff.mpr ⟨(r, s.withBooking b hl), ?_, rfl⟩
  simp only [Statement.apply]
  exact Option.pmap_eq_some_iff.mpr ⟨(r, b), hl, hx, rfl⟩

/-- Two statements under one choice: what they do without a fault, they do with one, or both
do nothing. -/
theorem exec_pair (t : Nat) (ch : Choice) (o o' : NoOverlap.Statement)
    (W : Except Err o.Resp → Except Err o'.Resp → Prop) {r : Except Err o.Resp}
    {r' : Except Err o'.Resp} {b b' : NoOverlap.Store} (ho : o.fallible = true)
    (ho' : o'.fallible = true) (hl : Level g a a' s s')
    (hp : o.perform t ch s.booking = some (r, b)) (hp' : o'.perform t ch s'.booking = some (r', b'))
    (hm : ∀ h h', Level g a a' (s.withBooking b h) (s'.withBooking b' h')) (hw : W r r')
    (he : ∀ e, W (.error e) (.error e)) :
    ∃ r₁ s₁ r₁' s₁', (Statement.booking o).exec t ch s = some (r₁, s₁) ∧
      (Statement.booking o').exec t ch s' = some (r₁', s₁') ∧ Level g a a' s₁ s₁' ∧ W r₁ r₁' := by
  cases hf : ch.fault with
  | none =>
    have hx : o.exec t ch s.booking = some (r, b) :=
      (NoOverlap.Statement.exec_of_fault_none hf).trans hp
    have hx' : o'.exec t ch s'.booking = some (r', b') :=
      (NoOverlap.Statement.exec_of_fault_none hf).trans hp'
    exact ⟨_, _, _, _, exec_of_booking hx, exec_of_booking hx', (hm _ _).clock _ _, hw⟩
  | before e =>
    have hx : o.exec t ch s.booking = some (.error e, s.booking) := by
      simp only [NoOverlap.Statement.exec, hf, ho]
    have hx' : o'.exec t ch s'.booking = some (.error e, s'.booking) := by
      simp only [NoOverlap.Statement.exec, hf, ho']
    exact ⟨_, _, _, _, exec_of_booking hx, exec_of_booking hx', hl.clock _ _, he e⟩
  | after e =>
    have hx : o.exec t ch s.booking = some (.error e, b) := by
      simp only [NoOverlap.Statement.exec, hf, ho, hp, Option.map_some]
    have hx' : o'.exec t ch s'.booking = some (.error e, b') := by
      simp only [NoOverlap.Statement.exec, hf, ho', hp', Option.map_some]
    exact ⟨_, _, _, _, exec_of_booking hx, exec_of_booking hx', (hm _ _).clock _ _, he e⟩

/-! ### The write of a cancel -/

section Update

variable {id : Id} {status seen : ReservationStatus} {r : Reservation}

/-- A row after the write. -/
def relabel (id : Id) (status : ReservationStatus) (r : Reservation) : Reservation :=
  if r.id == id then { r with status := status } else r

theorem relabel_id (r : Reservation) : (relabel id status r).id = r.id := by
  unfold relabel
  split <;> rfl

theorem relabel_guestId (r : Reservation) : (relabel id status r).guestId = r.guestId := by
  unfold relabel
  split <;> rfl

theorem relabel_listingId (r : Reservation) : (relabel id status r).listingId = r.listingId := by
  unfold relabel
  split <;> rfl

theorem relabel_of_ne (h : r.id ≠ id) : relabel id status r = r := by
  rw [relabel, if_neg (by simpa using h)]

theorem key_of_status (status : ReservationStatus) (r : Reservation) :
    key { r with status := status } = key r := rfl

/-- The store after the write. -/
def Store.updated (s : Store) (t : Nat) (r : Reservation) (status : ReservationStatus) : Store :=
  let change : StatusChange := { tid := t, id := r.id, old := r.status, new := status }
  let db := { s.booking.db with
    reservations := s.booking.db.reservations.update (fun r' => r'.id == r.id)
      (fun r => { r with status := status }) (key_of_status status)
    statusLog := s.booking.db.statusLog ++ [change] }
  s.withBooking { s.booking with db := db } rfl

theorem perform_reservationUpdate (hr : s.booking.db.reservations.find? id = some r) :
    (NoOverlap.Statement.db (.reservationUpdate id status seen)).perform t ch s.booking =
      some (.ok { r with status := status }, (s.updated t r status).booking) := by
  have hid : r.id = id := Table.key_of_find? hr
  subst hid
  simp only [NoOverlap.Statement.perform, Database.perform, Database.reservationUpdate, hr,
    Option.map_some]
  rfl

theorem own_updated : (s.updated t r status).own g = (s.own g).map (relabel r.id status) := by
  have hg : ((fun r => r.guestId == g) ∘ relabel r.id status) = fun r => r.guestId == g := by
    funext r'
    exact congrArg (· == g) (relabel_guestId r')
  have h := List.filter_map (p := fun r => r.guestId == g) (f := relabel r.id status)
    (l := s.booking.db.reservations.rows)
  rw [hg] at h
  exact h

theorem others_updated (h : s.owns g r.id = true) :
    (s.updated t r status).others g = s.others g := by
  have hg : ((fun r => !(r.guestId == g)) ∘ relabel r.id status) = fun r => !(r.guestId == g) := by
    funext r'
    exact congrArg (fun i => !(i == g)) (relabel_guestId r')
  have hmap := List.filter_map (p := fun r => !(r.guestId == g)) (f := relabel r.id status)
    (l := s.booking.db.reservations.rows)
  rw [hg] at hmap
  have hsame : (s.others g).map (relabel r.id status) = s.others g :=
    (List.map_congr_left fun r' hr' => relabel_of_ne (ne_of_mem_others h hr')).trans (List.map_id' _)
  exact hmap.trans hsame

theorem owns_updated (i : Id) : (s.updated t r status).owns g i = s.owns g i := by
  rw [Store.owns, own_updated, List.any_map, Store.owns]
  congr 1
  funext r'
  exact congrArg (· == i) (relabel_id r')

theorem Intact.updated (h : s.owns g r.id = true) : Intact g s (s.updated t r status) :=
  { Intact.refl g s with
    others := others_updated h
    owns := owns_updated
    reviews := otherReviews_eq owns_updated rfl }

theorem Agree.updated (h : Agree g s s') :
    Agree g (s.updated t r status) (s'.updated t r status) := by
  have hown : ∀ s : Store, (s.updated t r status).ownReviews g = s.ownReviews g :=
    fun s => ownReviews_eq owns_updated rfl
  refine ⟨?_, ?_⟩
  · rw [own_updated, own_updated, h.own]
  · rw [hown, hown, h.reviews]

theorem Level.updated (h : Level g a a' s s') (ho : s.owns g r.id = true) :
    Level g a a' (s.updated t r status) (s'.updated t r status) := by
  have ho' : s'.owns g r.id = true := (owns_eq h.agree.own r.id).trans ho
  refine ⟨h.agree.updated, h.left.trans (.updated ho), h.right.trans (.updated ho'), ?_⟩
  intro r' hr'
  rw [own_updated] at hr'
  obtain ⟨r₀, hr₀, rfl⟩ := List.mem_map.mp hr'
  rw [relabel_listingId]
  exact h.listed r₀ hr₀

end Update

/-! ### Refunds and announcements -/

section Effects

variable {b b' : NoOverlap.Store}

/-- The database stays as it is. -/
theorem Level.booking (h : Level g a a' s s') (hd : b.db = s.booking.db)
    (hd' : b'.db = s'.booking.db) (hl : b.db.listings = s.booking.db.listings)
    (hl' : b'.db.listings = s'.booking.db.listings) (hi : Intact g s (s.withBooking b hl))
    (hi' : Intact g s' (s'.withBooking b' hl')) :
    Level g a a' (s.withBooking b hl) (s'.withBooking b' hl') := by
  have hown : (s.withBooking b hl).own g = s.own g := by
    simp only [Store.own, Store.withBooking, hd]
  have hown' : (s'.withBooking b' hl').own g = s'.own g := by
    simp only [Store.own, Store.withBooking, hd']
  have hrev : (s.withBooking b hl).ownReviews g = s.ownReviews g := ownReviews_eq hi.owns rfl
  have hrev' : (s'.withBooking b' hl').ownReviews g = s'.ownReviews g := ownReviews_eq hi'.owns rfl
  refine ⟨⟨?_, ?_⟩, h.left.trans hi, h.right.trans hi', fun r hr => h.listed r (hown ▸ hr)⟩
  · rw [hown, hown', h.agree.own]
  · rw [hrev, hrev', h.agree.reviews]

theorem Intact.refundAdd {m : RefundRequested} (ho : s.owns g m.reservationId = true) :
    Intact g s (s.withBooking
      { s.booking with queues := Queues.perform (.refundAdd m) s.booking.queues } rfl) :=
  { Intact.refl g s with
    refunds := fun id hid => JobQueue.find?_add_ne (by
      rintro rfl
      rw [ho] at hid
      cases hid) }

theorem Intact.incr (lid : Id) :
    Intact g s (s.withBooking
      { s.booking with redis := (Redis.perform (.incr lid) s.booking.redis).2 } rfl) :=
  { Intact.refl g s with }

theorem Intact.emit {e : ReservationChanged} (ho : s.owns g e.reservationId = true) :
    Intact g s (s.withBooking
      { s.booking with redis := (Redis.perform (.emit e) s.booking.redis).2 } rfl) :=
  { Intact.refl g s with
    announced := ⟨[e], rfl, fun e' he => by
      rw [List.mem_singleton.mp he]
      exact ho⟩ }

end Effects

/-! ### Reads -/

/-- The answer of a statement that reads `v`. -/
def answered {α : Type} (f : Fault) (v : α) : Except Err α :=
  match f with
  | .none => .ok v
  | .before e => .error e
  | .after e => .error e

theorem exec_reservationFindFirst (t : Nat) (ch : Choice) (g : Id) (s : Store) (id : Id) :
    (Statement.booking (.db (.reservationFindFirst id g))).exec t ch s =
      some (answered ch.fault
        ((s.booking.db.reservations.find? id).filter fun r => r.guestId == g),
        { s with clock := ch.now }) := by
  have hx : (NoOverlap.Statement.db (.reservationFindFirst id g)).exec t ch s.booking =
      some (answered ch.fault
        ((s.booking.db.reservations.find? id).filter fun r => r.guestId == g), s.booking) := by
    cases hf : ch.fault <;>
      simp only [NoOverlap.Statement.exec, hf, NoOverlap.Statement.fallible,
        NoOverlap.Statement.perform, Database.perform, Option.map_some, answered]
  exact exec_of_booking hx

theorem exec_reservationFindOwned :
    (Statement.reservationFindOwned g).exec t ch s =
      some (answered ch.fault (s.reservationFindOwned g), { s with clock := ch.now }) := by
  cases hf : ch.fault <;>
    simp only [Statement.exec, Statement.apply, faulty, hf, Option.map_some, answered]

/-! ### The insert of a review -/

section Reviewed

variable {data : ReviewData} {id : Id} {now : Int} {v : Review}

theorem reviewCreate_eq (t : Nat) (now : Int) (ho : s.owns g data.reservationId = true)
    (hl : (s.listings.find? data.listingId).isSome = true) (hid : s.reviews.find? id = none) :
    s.reviewCreate t id now data = some
      (if (s.ownReviews g).any (fun v => v.reservationId == data.reservationId) then
        (.error (.known "P2002"), s)
      else (.ok (data.row id now), s.reviewed t (data.row id now))) := by
  obtain ⟨r, hr, -⟩ := owns_iff.mp ho
  obtain ⟨l, hl⟩ := Option.isSome_iff_exists.mp hl
  -- A review of the reservation is a review of the guest's.
  have hany : s.reviews.rows.any (fun v => v.reservationId == data.reservationId) =
      (s.ownReviews g).any fun v => v.reservationId == data.reservationId := by
    rw [Store.ownReviews, List.any_filter]
    congr 1
    funext v
    by_cases h : v.reservationId = data.reservationId
    · simp [h, ho]
    · simp [h]
  simp only [Store.reviewCreate, hid, hany, hr, hl, Option.isSome_none, Option.isNone_some,
    Bool.false_eq_true, if_false]
  split <;> rfl

theorem ownReviews_reviewed (ho : s.owns g v.reservationId = true)
    (hid : s.reviews.find? v.id = none) :
    (s.reviewed t v).ownReviews g = s.ownReviews g ++ [v] := by
  have hrows : (s.reviewed t v).reviews.rows = s.reviews.rows ++ [v] := Table.insert_of_fresh hid
  have howns : ∀ i, (s.reviewed t v).owns g i = s.owns g i := fun _ => rfl
  simp only [Store.ownReviews, hrows, howns, List.filter_append, List.filter_cons, ho, if_true,
    List.filter_nil]

theorem Intact.reviewed (ho : s.owns g v.reservationId = true) (hid : s.reviews.find? v.id = none) :
    Intact g s (s.reviewed t v) := by
  have hrows : (s.reviewed t v).reviews.rows = s.reviews.rows ++ [v] := Table.insert_of_fresh hid
  have howns : ∀ i, (s.reviewed t v).owns g i = s.owns g i := fun _ => rfl
  have hothers : (s.reviewed t v).otherReviews g = s.otherReviews g := by
    simp only [Store.otherReviews, hrows, howns, List.filter_append, List.filter_cons, ho,
      Bool.not_true, Bool.false_eq_true, if_false, List.filter_nil, List.append_nil]
  exact { Intact.refl g s with reviews := hothers }

theorem Level.reviewed (h : Level g a a' s s') (ho : s.owns g v.reservationId = true)
    (hid : s.reviews.find? v.id = none) (hid' : s'.reviews.find? v.id = none) :
    Level g a a' (s.reviewed t v) (s'.reviewed t v) := by
  have ho' : s'.owns g v.reservationId = true := (owns_eq h.agree.own _).trans ho
  refine ⟨⟨h.agree.own, ?_⟩, h.left.trans (.reviewed ho hid), h.right.trans (.reviewed ho' hid'),
    h.listed⟩
  rw [ownReviews_reviewed ho hid, ownReviews_reviewed ho' hid', h.agree.reviews]

end Reviewed

/-! ## Two runs -/

section Programs

variable {C : Choice → Prop} {id : Id}

/-- The statements of the booking module, on the store of the platform. -/
abbrev bookingExec (t : Nat) (ch : Choice) (o : NoOverlap.Statement) (s : Store) :
    Option (Except Err o.Resp × Store) := (Statement.booking o).exec t ch s

theorem Lockstep.ofBooking {α : Type} {Q : Except Err α → Store → Except Err α → Store → Prop}
    {p p' : NoOverlap.Async α} (h : Lockstep (bookingExec t) C Q p s p' s') :
    Lockstep (Statement.exec t) C Q (ofBooking p) s (ofBooking p') s' := by
  induction p generalizing p' s s' with
  | done r =>
    cases p' with
    | done r' => exact h
    | call o' k' => exact h.elim
  | call o k ih =>
    cases p' with
    | done r' => exact h.elim
    | call o' k' =>
      intro ch hc
      obtain ⟨r, s₁, r', s₁', hx, hx', hk⟩ := h ch hc
      exact ⟨r, s₁, r', s₁', hx, hx', ih r hk⟩

theorem Alike.ofBooking {α : Type} {V : α → α → Prop} {L M : Store → Store → Prop}
    {p p' : NoOverlap.Async α} (h : Alike (bookingExec t) C L V M p p') :
    Alike (Statement.exec t) C L V M (ofBooking p) (ofBooking p') :=
  fun s s' hl => Lockstep.ofBooking (h s s' hl)

theorem Alike.answer {α : Type} {L M : Store → Store → Prop} {p p' : Async α} {f : α → Reply}
    (h : Alike (Statement.exec t) C L Eq M p p') :
    Alike (Statement.exec t) C L Eq M (answer p f) (answer p' f) :=
  Alike.bind h (fun _ _ hm => hm) fun _ _ he => alike_pure (congrArg f he)

theorem same_answered {α : Type} {V : α → α → Prop} {f : Fault} {v v' : α} (h : V v v') :
    Same V (answered f v) (answered f v') := by
  cases f with
  | none => exact .ok h
  | before e => exact .error e
  | after e => exact .error e

/-- Two reads of one own reservation. -/
structure Seen (g id : Id) (a a' : Store) (r r' : Reservation) : Prop where
  eq : r' = r
  key : r.id = id
  owned : a.owns g id = true ∧ a'.owns g id = true
  listed : (a.listings.find? r.listingId).isSome = true ∧
    (a'.listings.find? r.listingId).isSome = true

theorem Level.seen (h : Level g a a' s s') {r : Reservation}
    (hr : s.booking.db.reservations.find? id = some r) (hg : r.guestId = g) : Seen g id a a' r r := by
  have hown : s.owns g id = true := owns_iff.mpr ⟨r, hr, hg⟩
  have hlisted := h.listed r (mem_own.mpr ⟨Table.mem_of_find? hr, hg⟩)
  rw [h.left.listings, h.right.listings] at hlisted
  refine ⟨rfl, Table.key_of_find? hr, ⟨(h.left.owns id).symm.trans hown, ?_⟩, hlisted⟩
  exact (h.right.owns id).symm.trans ((owns_eq h.agree.own id).trans hown)

theorem alike_getOwned {L : Store → Store → Prop} (hL : ∀ s s', L s s' → Level g a a' s s')
    (hclock : ∀ s s' n m, L s s' → L { s with clock := n } { s' with clock := m }) :
    Alike (bookingExec t) C L (Seen g id a a') L (getOwned g id) (getOwned g id) := by
  refine Alike.bind (V := fun o o' => o' = o ∧ ∀ r, o = some r → Seen g id a a' r r)
    (alike_op fun ch _ s s' hl => ?_) (fun _ _ h => h) ?_
  · refine ⟨_, _, _, _, exec_reservationFindFirst t ch g s id, exec_reservationFindFirst t ch g s' id,
      same_answered ⟨find?_filter_eq (hL s s' hl).agree.own id, fun r hr => ?_⟩, hclock _ _ _ _ hl⟩
    obtain ⟨hf, hg⟩ := Option.filter_eq_some_iff.mp hr
    exact (hL s s' hl).seen hf (beq_iff_eq.mp hg)
  · rintro _ o ⟨rfl, hseen⟩
    cases o with
    | none => exact alike_throw _
    | some r => exact alike_pure (hseen r rfl)

theorem alike_publishReservationChanged {rid lid : Id} {status : ReservationStatus}
    (ho : a.owns g rid = true ∧ a'.owns g rid = true) :
    Alike (bookingExec t) C (Level g a a') Eq (Level g a a')
      (publishReservationChanged lid rid status) (publishReservationChanged lid rid status) := by
  refine Alike.tryCatch (Alike.bind (V := fun _ _ => True) (alike_op fun ch _ s s' hl => ?_)
    (fun _ _ h => h) fun seq seq' _ => ?_) (fun _ _ h => h) fun _ => alike_pure rfl
  · have hm : ∀ h h', Level g a a'
        (s.withBooking { s.booking with redis := (Redis.perform (.incr lid) s.booking.redis).2 } h)
        (s'.withBooking { s'.booking with redis := (Redis.perform (.incr lid) s'.booking.redis).2 } h') := by
      intro h h'
      refine hl.booking ?_ ?_ h h' (.incr lid) (.incr lid) <;> rfl
    obtain ⟨r, s₁, r', s₁', hx, hx', hl₁, hw⟩ := exec_pair t ch
      (.redis (.incr lid)) (.redis (.incr lid)) (Same fun _ _ => True)
      rfl rfl hl rfl rfl hm (.ok trivial) .error
    exact ⟨r, s₁, r', s₁', hx, hx', hw, hl₁⟩
  · -- The numbers differ, and so do the events.
    let e (seq : Nat) : ReservationChanged :=
      { listingId := lid, reservationId := rid, status := status, seq := seq }
    refine alike_call (M := Level g a a') fun ch _ s s' hl => ?_
    have hs : s.owns g rid = true := (hl.left.owns rid).trans ho.1
    have hs' : s'.owns g rid = true := (hl.right.owns rid).trans ho.2
    have hm : ∀ h h', Level g a a'
        (s.withBooking { s.booking with redis := (Redis.perform (.emit (e seq)) s.booking.redis).2 } h)
        (s'.withBooking
          { s'.booking with redis := (Redis.perform (.emit (e seq')) s'.booking.redis).2 } h') := by
      intro h h'
      refine hl.booking ?_ ?_ h h' (.emit hs) (.emit hs') <;> rfl
    obtain ⟨r, s₁, r', s₁', hx, hx', hl₁, hw⟩ := exec_pair t ch
      (.redis (.emit (e seq))) (.redis (.emit (e seq'))) (Same Eq)
      rfl rfl hl rfl rfl hm (.ok rfl) .error
    exact ⟨r, s₁, r', s₁', hx, hx', hl₁, fun _ _ h => ⟨hw, h⟩⟩

theorem alike_requestRefund {key : IdempotencyKey} (ho : a.owns g id = true ∧ a'.owns g id = true) :
    Alike (bookingExec t) C (Level g a a') Eq (Level g a a') (requestRefund id key)
      (requestRefund id key) := by
  let m : RefundRequested := { reservationId := id, idempotencyKey := key }
  refine alike_op fun ch _ s s' hl => ?_
  have hs : s.owns g m.reservationId = true := (hl.left.owns id).trans ho.1
  have hs' : s'.owns g m.reservationId = true := (hl.right.owns id).trans ho.2
  have hm : ∀ h h', Level g a a'
      (s.withBooking { s.booking with queues := Queues.perform (.refundAdd m) s.booking.queues } h)
      (s'.withBooking
        { s'.booking with queues := Queues.perform (.refundAdd m) s'.booking.queues } h') := by
    intro h h'
    refine hl.booking ?_ ?_ h h' (.refundAdd hs) (.refundAdd hs') <;> rfl
  obtain ⟨r, s₁, r', s₁', hx, hx', hl₁, hw⟩ := exec_pair t ch
    (.queue (.refundAdd m)) (.queue (.refundAdd m)) (Same Eq) rfl rfl hl rfl rfl hm
    (.ok rfl) .error
  exact ⟨r, s₁, r', s₁', hx, hx', hw, hl₁⟩

/-- The write of a cancel, and what follows. -/
theorem alike_cancelSeen {seen : ReservationStatus}
    (ho : a.owns g id = true ∧ a'.owns g id = true) :
    Alike (bookingExec t) C (Level g a a') Eq (Level g a a') (cancelSeen id seen)
      (cancelSeen id seen) := by
  unfold cancelSeen assertTransition
  by_cases htrans : ReservationStatus.cancelled ∈ allowedTransitions seen
  · rw [if_pos htrans]
    refine Alike.bind (V := fun _ _ => True) (alike_pure trivial) (fun _ _ h => h) fun _ _ _ => ?_
    refine Alike.bind (V := fun r r' => r' = r ∧ r.id = id) (alike_op fun ch _ s s' hl => ?_)
      (fun _ _ h => h) ?_
    · have hs : s.owns g id = true := (hl.left.owns id).trans ho.1
      obtain ⟨r, hr, hg⟩ := owns_iff.mp hs
      have hr' : s'.booking.db.reservations.find? id = some r := by
        have hread := find?_filter_eq hl.agree.own id
        rw [hr, Option.filter_some, if_pos (by simpa using hg)] at hread
        exact (Option.filter_eq_some_iff.mp hread).1
      have hid : r.id = id := Table.key_of_find? hr
      have hm : Level g a a' (s.updated t r .cancelled) (s'.updated t r .cancelled) :=
        hl.updated (hid.symm ▸ hs)
      obtain ⟨v, s₁, v', s₁', hx, hx', hl₁, hw⟩ := exec_pair t ch
        (.db (.reservationUpdate id .cancelled seen)) (.db (.reservationUpdate id .cancelled seen))
        (Same fun r r' => r' = r ∧ r.id = id) rfl rfl hl
        (perform_reservationUpdate hr) (perform_reservationUpdate hr') (fun _ _ => hm)
        (.ok ⟨rfl, hid⟩) .error
      exact ⟨v, s₁, v', s₁', hx, hx', hw, hl₁⟩
    · rintro _ r ⟨rfl, hid⟩
      have hor : a.owns g r.id = true ∧ a'.owns g r.id = true := hid.symm ▸ ho
      have hpub : Alike (bookingExec t) C (Level g a a') Eq (Level g a a')
          (publishReservationChanged r.listingId r.id .cancelled)
          (publishReservationChanged r.listingId r.id .cancelled) :=
        alike_publishReservationChanged hor
      have htail := Alike.bind hpub (fun _ _ h => h) fun _ _ _ => alike_pure (rfl : r = r)
      unfold compensate
      split
      · exact Alike.bind (alike_requestRefund ho) (fun _ _ h => h) fun _ _ _ => htail
      · exact htail
  · rw [if_neg htrans]
    exact fun s s' hl => ⟨.error _, hl⟩

theorem alike_cancel :
    Alike (bookingExec t) C (Level g a a') Eq (Level g a a') (cancel g id) (cancel g id) := by
  refine Alike.bind (alike_getOwned (fun _ _ h => h) fun _ _ n m h => h.clock n m)
    (fun _ _ h => h) ?_
  rintro _ r ⟨rfl, -, ho, -⟩
  by_cases hc : r.status = .cancelled
  · rw [if_pos hc]
    exact alike_pure rfl
  · rw [if_neg hc]
    exact alike_cancelSeen ho

/-- The same level, with no review written yet. -/
structure Unreviewed (g : Id) (a a' s s' : Store) : Prop where
  level : Level g a a' s s'
  left : s.reviews = a.reviews
  right : s'.reviews = a'.reviews

/-- An id that neither of the two states has given to a review. -/
def New (a a' : Store) (ch : Choice) : Prop :=
  a.reviews.find? ch.id = none ∧ a'.reviews.find? ch.id = none

theorem exec_reviewCreate {data : ReviewData} {x : Except Err Review × Store}
    (h : s.reviewCreate t ch.id ch.now data = some x) :
    (Statement.reviewCreate data).exec t ch s =
      (faulty ch.fault s (some x)).map fun x => (x.1, { x.2 with clock := ch.now }) := by
  simp only [Statement.exec, Statement.apply, h]

theorem alike_reviewCreate {data : ReviewData} {r : Reservation}
    (hseen : Seen g data.reservationId a a' r r) (hlist : data.listingId = r.listingId) :
    Alike (Statement.exec t) (New a a') (Unreviewed g a a') Eq (Level g a a')
      (prisma.reviewCreate data) (prisma.reviewCreate data) := by
  refine alike_op fun ch hnew s s' hl => ?_
  have hid : s.reviews.find? ch.id = none := hl.left ▸ hnew.1
  have hid' : s'.reviews.find? ch.id = none := hl.right ▸ hnew.2
  have ho : s.owns g data.reservationId = true := (hl.level.left.owns _).trans hseen.owned.1
  have ho' : s'.owns g data.reservationId = true := (hl.level.right.owns _).trans hseen.owned.2
  have hx := reviewCreate_eq t ch.now ho
    (by rw [hl.level.left.listings, hlist]; exact hseen.listed.1) hid
  have hx' := reviewCreate_eq t ch.now ho'
    (by rw [hl.level.right.listings, hlist]; exact hseen.listed.2) hid'
  rw [hl.level.agree.reviews] at hx'
  have hlevel : Level g a a' (s.reviewed t (data.row ch.id ch.now))
      (s'.reviewed t (data.row ch.id ch.now)) := hl.level.reviewed ho hid hid'
  -- Either both are refused, or both write the row.
  have hpair : ∃ x x', s.reviewCreate t ch.id ch.now data = some x ∧
      s'.reviewCreate t ch.id ch.now data = some x' ∧ x.1 = x'.1 ∧ Level g a a' x.2 x'.2 := by
    split at hx
    · next hdup =>
      rw [if_pos hdup] at hx'
      exact ⟨_, _, hx, hx', rfl, hl.level⟩
    · next hdup =>
      rw [if_neg hdup] at hx'
      exact ⟨_, _, hx, hx', rfl, hlevel⟩
  obtain ⟨x, x', hx, hx', hr, hm⟩ := hpair
  rw [exec_reviewCreate hx, exec_reviewCreate hx']
  have hsame : Same Eq x.1 x'.1 := by
    rw [← hr]
    cases x.1 with
    | error e => exact .error e
    | ok v => exact .ok rfl
  cases hf : ch.fault with
  | none => exact ⟨_, _, _, _, rfl, rfl, hsame, hm.clock _ _⟩
  | before e => exact ⟨_, _, _, _, rfl, rfl, .error e, hl.level.clock _ _⟩
  | after e => exact ⟨_, _, _, _, rfl, rfl, .error e, hm.clock _ _⟩

theorem alike_create {dto : CreateReviewDto} :
    Alike (Statement.exec t) (New a a') (Unreviewed g a a') Eq (Level g a a')
      (ReviewsService.create g dto) (ReviewsService.create g dto) := by
  refine Alike.bind (Alike.ofBooking (alike_getOwned (fun _ _ h => h.level) ?_))
    (fun _ _ h => h.level) ?_
  · exact fun s s' n m h => ⟨h.level.clock n m, h.left, h.right⟩
  · rintro _ r ⟨rfl, hid, ho, hlisted⟩
    unfold ReviewsService.submit
    by_cases hs : r.status = .completed
    · rw [if_neg (not_not_intro hs)]
      refine Alike.tryCatch (alike_reviewCreate ⟨rfl, hid, ho, hlisted⟩ rfl) (fun _ _ h => h)
        fun e => ?_
      split
      · exact alike_throw _
      · exact alike_throw _
    · rw [if_pos hs]
      exact fun s s' hl => ⟨.error _, hl.level⟩

end Programs

/-! ## An id that is not the guest's -/

/-- What a caller is told about such an id. -/
def unknown : Fault → Err
  | .none => .app .notFound none
  | .before e => e
  | .after e => e

/-- The calls of the guest `g` that name a reservation. -/
inductive Asks (g : Id) : (Id → Call) → Prop where
  | getOwned : Asks g (.getOwned g)
  | cancel : Asks g fun id => .booking (.cancel g id)
  | review (rating : Int) (body : Option String) :
      Asks g fun id => .createReview g { reservationId := id, rating := rating, body := body }

theorem filter_of_not_owns {id : Id} (h : s.owns g id = false) :
    (s.booking.db.reservations.find? id).filter (fun r => r.guestId == g) = none := by
  refine Option.filter_eq_none_iff.mpr fun r hr hg => ?_
  rw [owns_iff.mpr ⟨r, hr, beq_iff_eq.mp hg⟩] at h
  cases h

/-- The read is the only statement of the call. -/
theorem alone_unknown {cfg : Config} {ask : Id → Call} (ha : Asks g ask) {id : Id}
    {c : Nat → Choice}
    (h : s.owns g id = false) :
    ((ask id).program cfg).alone (Statement.exec t) c s =
      some (.error (unknown (c 0).fault), { s with clock := (c 0).now }) := by
  have hx := exec_reservationFindFirst t (c 0) g s id
  rw [filter_of_not_owns h] at hx
  have hread : ∀ p : Async Reply, (∃ k, p = .call (.booking (.db (.reservationFindFirst id g))) k ∧
      k (answered (c 0).fault none) = .done (.error (unknown (c 0).fault))) →
      p.alone (Statement.exec t) c s =
        some (.error (unknown (c 0).fault), { s with clock := (c 0).now }) := by
    rintro p ⟨k, rfl, hk⟩
    rw [Prog.alone, hx, Option.bind_some, hk]
    rfl
  cases ha with
  | getOwned => exact hread _ ⟨_, rfl, by cases (c 0).fault <;> rfl⟩
  | cancel => exact hread _ ⟨_, rfl, by cases (c 0).fault <;> rfl⟩
  | review rating body => exact hread _ ⟨_, rfl, by cases (c 0).fault <;> rfl⟩

/-! ## Foreign keys -/

section Referential

theorem isSome_of_offered (s : Store) (id : Id) :
    (s.booking.db.listings.find? id).isSome = (s.listings.find? id).isSome := by
  rw [s.offered]
  exact (congrArg Option.isSome Table.find?_map).trans Option.isSome_map

/-- A property of listings that an insert has checked and no write of a status touches. -/
theorem Database.Booked.perform {d d' : Database} {o : DbStatement} {r : Except Err o.Resp}
    {id : Id} {now : Int} {P : Id → Prop} (h : Database.Booked d fun r => P r.listingId)
    (hnew : ∀ lid, (d.listings.find? lid).isSome = true → P lid)
    (hx : NoOverlap.Database.perform t id now o d = some (r, d')) :
    Database.Booked d' fun r => P r.listingId := by
  have heff := NoOverlap.Database.effect_of_perform hx
  refine ⟨fun r' hr' => ?_, ?_⟩
  · rcases heff.reservations with ⟨he, -⟩ | ⟨tx, -, ht, rfl⟩ | hrw
    · exact h.1 r' (he ▸ hr')
    · rcases Table.find?_of_insertAll (Table.find?_of_mem hr') with hold | ⟨-, hm⟩
      · exact h.1 r' (Table.mem_of_find? hold)
      · exact h.2 tx (Table.mem_of_find? ht) r' hm
    · have hfind := Table.find?_of_mem hr'
      rw [hrw.find] at hfind
      obtain ⟨r₀, hr₀, rfl⟩ := Option.map_eq_some_iff.mp hfind
      have hlid : (o.rewrite r₀).listingId = r₀.listingId := by
        unfold DbStatement.rewrite
        split <;> rfl
      rw [hlid]
      exact h.1 r₀ (Table.mem_of_find? hr₀)
  · cases heff with
    | begin => exact NoOverlap.Database.forall_begin h.2 (by simp)
    | reservationCreate data tx row ht hs hown hother hid =>
      have hins := NoOverlap.Database.inserted_of_reservationCreate hx
      refine NoOverlap.Database.forall_setTransaction h.2 fun tx _ _ htx r hr => ?_
      rcases List.mem_append.mp hr with hr | hr
      · exact htx r hr
      · rw [List.mem_singleton.mp hr, hins.listingId]
        exact hnew _ hins.listing
    | outboxCreate | selectUnpublished | outboxMarkPublished =>
      exact NoOverlap.Database.forall_setTransaction h.2 fun tx _ _ htx => htx
    | commit tx ht => exact fun tx' htx' => h.2 tx' (Table.mem_erase.mp htx').1
    | rollback => exact NoOverlap.Database.forall_rollback h.2
    | reservationUpdate rid status seen r hr =>
      simp only [NoOverlap.Database.reservationUpdate, hr]
      exact h.2
    | paymentUpdate key data p hk =>
      simp only [NoOverlap.Database.paymentUpdate, hk]
      exact h.2
    | _ => exact h.2

theorem Database.Booked.imp {d : Database} {P Q : Reservation → Prop} (h : Database.Booked d P)
    (hPQ : ∀ r, P r → Q r) : Database.Booked d Q :=
  ⟨fun r hr => hPQ r (h.1 r hr), fun tx htx r hr => hPQ r (h.2 tx htx r hr)⟩

/-- No statement takes a listing away from a reservation. -/
theorem Referential.exec {o : Statement} {r : Except Err o.Resp} (h : Referential s)
    (hx : o.exec t ch s = some (r, s')) : Referential s' := by
  obtain ⟨r', s₁, heff, rfl, -⟩ := effect_of_exec hx
  cases heff with
  | booking o ch' res b hch hb hl =>
    rcases NoOverlap.Statement.exec_db hb with he | ⟨o', rfl, r', hd⟩
    · have hbooked : Database.Booked b.db fun r => (s.listings.find? r.listingId).isSome = true := by
        rw [he]
        exact h
      exact hbooked
    · exact Database.Booked.perform (P := fun lid => (s.listings.find? lid).isSome = true) h
        (fun lid hlid => (isSome_of_offered s lid).symm.trans hlid) hd
  | create hostId dto row hid hh =>
    refine Database.Booked.imp h fun r hr => ?_
    obtain ⟨l, hl⟩ := Option.isSome_iff_exists.mp hr
    exact Option.isSome_iff_exists.mpr ⟨l, Table.find?_insert_of_some hl⟩
  | update id data row hf =>
    have hkey : ∀ l : ListingRow, key (data.apply l) = key l := fun _ => rfl
    have hfind : ∀ lid, ((s.listings.update (fun l => l.id == id) data.apply hkey).find?
        lid).isSome = (s.listings.find? lid).isSome := by
      intro lid
      rw [Table.find?_update, Option.isSome_map]
    exact Database.Booked.imp h fun r hr => (hfind r.listingId).trans hr
  | delete id row hf hlock hb =>
    -- A listing that is booked, or is being booked, is not deleted.
    have hkeep : ∀ r : Reservation, (r.listingId == id) = false →
        (s.listings.find? r.listingId).isSome = true →
        ((s.listings.erase fun l => l.id == id).find? r.listingId).isSome = true := by
      intro r hne hr
      obtain ⟨l, hl⟩ := Option.isSome_iff_exists.mp hr
      have hlid : l.id = r.listingId := Table.key_of_find? hl
      rw [Table.find?_erase, hl, Option.filter_some, if_pos (by rw [hlid, hne]; rfl)]
      rfl
    refine ⟨fun r hr => hkeep r ?_ (h.1 r hr), fun tx htx r hr => hkeep r ?_ (h.2 tx htx r hr)⟩
    · simpa using List.any_eq_false.mp hb r hr
    · have hnone := List.any_eq_false.mp hlock tx htx
      simpa using List.any_eq_false.mp (Bool.eq_false_iff.mpr hnone) r hr
  | read | refused | blockCreate | blockDeleteMany | reviewCreate => exact h

/-- The schema's promise is kept by every run. -/
theorem referential_of_reaches {cfg : Config} {P : Policy} {s₀ : Store} (h₀ : Referential s₀)
    {w : World} (hr : (system cfg).Reaches P (Concurrency.World.start s₀) w) :
    Referential w.shared := by
  refine Machine.Reaches.inv (I := Referential) (fun c => uses_true (c.program cfg)) h₀ ?_ ?_ ?_ ?_ hr
  · intro c s s' h hs
    rcases Archive.spawned_eq hs with rfl | ⟨b, hl, hb, rfl⟩
    · exact h
    · have hbooked : Database.Booked b.db fun r => (s.listings.find? r.listingId).isSome = true := by
        rw [hb]
        exact h
      exact hbooked
  · exact fun t c ch o s r s' _ _ h hx => h.exec hx
  · intro t c r s h
    rcases Archive.returned_eq t c r s with he | ⟨b, hl, hb, he⟩
    · rw [show (system cfg).returned t c r s = s from he]
      exact h
    · rw [show (system cfg).returned t c r s = s.withBooking b hl from he]
      have hbooked :
          Database.Booked b.db fun r => (s.listings.find? r.listingId).isSome = true := by
        rw [hb]
        exact h
      exact hbooked
  · exact fun t c s h => ⟨h.1, NoOverlap.Database.forall_rollback h.2⟩

end Referential

/-! ## Every call -/

/-- The calls about reservations of the guest `g`. -/
inductive ByGuest (g : Id) : Call → Prop where
  | list : ByGuest g (.listOwnedBy g)
  | ask {f : Id → Call} (h : Asks g f) (id : Id) : ByGuest g (f id)

theorem alike_program (cfg : Config) {q : Call} (hq : ByGuest g q) :
    Alike (Statement.exec t) (New a a') (Unreviewed g a a') Eq (Level g a a') (q.program cfg)
      (q.program cfg) := by
  have hlevel : ∀ s s', Unreviewed g a a' s s' → Level g a a' s s' := fun _ _ h => h.level
  cases hq with
  | list =>
    refine Alike.answer (alike_op fun ch _ s s' hl => ?_)
    have hread : s'.reservationFindOwned g = s.reservationFindOwned g :=
      congrArg (List.insertionSort fun a b : Reservation => b.createdAt ≤ a.createdAt)
        hl.level.agree.own
    exact ⟨_, _, _, _, exec_reservationFindOwned, exec_reservationFindOwned,
      same_answered hread.symm, hl.level.clock _ _⟩
  | ask h id =>
    cases h with
    | getOwned =>
      have hread : Alike (bookingExec t) (New a a') (Level g a a') (Seen g id a a') (Level g a a')
          (NoOverlap.getOwned g id) (NoOverlap.getOwned g id) :=
        alike_getOwned (fun _ _ h => h) fun _ _ n m h => h.clock n m
      exact Alike.answer (Alike.of_pre (Alike.ofBooking
        (hread.imp (fun _ _ h => h.eq.symm) fun _ _ h => h)) hlevel)
    | cancel =>
      have hcancel : Alike (bookingExec t) (New a a') (Level g a a') Eq (Level g a a')
          (NoOverlap.answer (cancel g id) .reservation)
          (NoOverlap.answer (cancel g id) .reservation) :=
        Alike.bind alike_cancel (fun _ _ h => h) fun r r' he => alike_pure (congrArg _ he)
      exact Alike.answer (Alike.of_pre (Alike.ofBooking hcancel) hlevel)
    | review rating body => exact Alike.answer alike_create

theorem Agree.level (h : Agree g s s') (hs : Referential s) (hs' : Referential s') :
    Level g s s' s s' := by
  refine ⟨h, .refl g s, .refl g s', fun r hr => ⟨?_, ?_⟩⟩
  · exact hs.1 r (mem_own.mp hr).1
  · exact hs'.1 r (mem_own.mp (h.own ▸ hr)).1

/-- Two states in which the guest `g` has the same reservations with the same reviews, and
otherwise any two.  Whatever `g` asks about reservations, under the same failures of the
environment: both runs end, with one answer, and with the same reservations and reviews of
`g`, and nothing that is not of `g` is changed, refunded or announced.  And an id that is not
of `g` is answered like any other such id, in whatever state, whether it exists or not. -/
theorem other_guests_do_not_matter {cfg : Config} {g : Id} {s s' : Store} {t : Nat}
    {c : Nat → Choice} (hs : Referential s) (hs' : Referential s') (h : Agree g s s')
    (hc : ∀ n, New s s' (c n)) :
    (∀ q, ByGuest g q → ∃ r s₁ s₁', (q.program cfg).alone (Statement.exec t) c s = some (r, s₁) ∧
      (q.program cfg).alone (Statement.exec t) c s' = some (r, s₁') ∧
      Agree g s₁ s₁' ∧ Intact g s s₁ ∧ Intact g s' s₁') ∧
    ∀ ask, Asks g ask → ∀ id id', s.owns g id = false → s'.owns g id' = false →
      ((ask id).program cfg).alone (Statement.exec t) c s =
        some (.error (unknown (c 0).fault), { s with clock := (c 0).now }) ∧
      ((ask id').program cfg).alone (Statement.exec t) c s' =
        some (.error (unknown (c 0).fault), { s' with clock := (c 0).now }) := by
  refine ⟨fun q hq => ?_, fun ask ha id id' hid hid' => ⟨alone_unknown ha hid, alone_unknown ha hid'⟩⟩
  have hstart : Unreviewed g s s' s s' := ⟨h.level hs hs', rfl, rfl⟩
  obtain ⟨r, s₁, r', s₁', hx, hx', hr, hl⟩ :=
    Lockstep.alone (alike_program (t := t) cfg hq s s' hstart) hc
  exact ⟨r, s₁, s₁', hx, hr.eq ▸ hx', hl.agree, hl.left, hl.right⟩

/-! ## A reservation of another guest -/

namespace Sample

/-- Somebody else's, of other days. -/
def elsewhere : Reservation :=
  { id := 6, listingId := 7, guestId := 3, checkIn := 172800000, checkOut := 259200000,
    status := .held, priceTotalCents := 100, holdExpiresAt := 0, createdAt := 0 }

def booked (rs : Table Reservation) : Store :=
  let s := Store.init houses 0
  s.withBooking { s.booking with db := { s.booking.db with reservations := rs } } rfl

def mine : Store := booked (Table.empty.insert finished)

def shared : Store := booked ((Table.empty.insert finished).insert elsewhere)

end Sample

open Sample in
/-- The guest reviews the stay, and asks for the other guest's reservation. -/
theorem other_guests_do_not_matter_shared :
    (∃ r s₁ s₁', (Call.program NoOverlap.Scenario.cfg (.createReview 2 ⟨5, 5, none⟩)).alone
        (Statement.exec 0) (fun _ => { id := 9 }) mine = some (r, s₁) ∧
      (Call.program NoOverlap.Scenario.cfg (.createReview 2 ⟨5, 5, none⟩)).alone
        (Statement.exec 0) (fun _ => { id := 9 }) shared = some (r, s₁') ∧
      Agree 2 s₁ s₁' ∧ Intact 2 mine s₁ ∧ Intact 2 shared s₁') ∧
    (Call.program NoOverlap.Scenario.cfg (.getOwned 2 6)).alone (Statement.exec 0)
      (fun _ => { id := 9 }) shared = some (.error (.app .notFound none), shared) := by
  have hmine : Referential mine := by
    unfold Referential Database.Booked
    decide
  have hshared : Referential shared := by
    unfold Referential Database.Booked
    decide
  have hagree : Agree 2 mine shared := ⟨by decide, by decide⟩
  obtain ⟨hrun, hask⟩ := @other_guests_do_not_matter NoOverlap.Scenario.cfg 2 mine shared 0
    (fun _ => { id := 9 }) hmine hshared hagree fun _ => ⟨rfl, rfl⟩
  refine ⟨hrun _ (.ask (.review 5 none) 5), ?_⟩
  exact (hask _ .getOwned 6 6 (by decide) (by decide)).2

end Platform

end NoOverlap
