import NoOverlap.Concurrency.Memory
import NoOverlap.Lifecycle.Claim
import NoOverlap.Platform.Hosts

/-!
# Paused listings

A hold reads the listing before it opens its transaction, so a host may pause the listing,
or change its price, between the read and the commit.  `note` keeps what a thread has been
quoted, and `current` is the condition that the quote still stands when the thread commits.

Under it a reservation is committed only while its listing is active, at the nightly rate of
that moment.  Without it none of this holds.
-/

namespace NoOverlap

namespace Platform

namespace Pausing

open Relational Concurrency RelyGuarantee
open Concurrency.Prog

/-- The listing a thread has read, under the id it has asked for. -/
abbrev Quote := Option (Id × Listing)

def note : (o : Statement) → Except Err o.Resp → Quote → Quote
  | .booking (.db (.listingFindUnique id)), .ok (some l), q => q.or (some (id, l))
  | _, _, q => q

/-- What is inserted is a stay at an active listing, at the price that was quoted. -/
def allows (q : Quote) : Statement → Prop
  | .booking (.db (.reservationCreate data)) => ∃ l, q = some (data.listingId, l) ∧
      l.active = true ∧
      data.priceTotalCents = priceTotal data.checkIn data.checkOut l.nightlyPriceCents
  | _ => True

theorem note_some (o : Statement) (r : Except Err o.Resp) (x : Id × Listing) :
    note o r (some x) = some x := by
  unfold note
  split <;> rfl

theorem Follows.of_free {p : Async Reply} (h : p.Uses fun o => ∀ q, allows q o) (q : Quote) :
    p.Follows note allows q := by
  induction p generalizing q with
  | done r => trivial
  | call o k ih => exact ⟨h.1 q, fun r => ih r (h.2 r) _⟩

/-- A statement of an attempt at the stay that was quoted, or one that inserts nothing. -/
theorem allows_of_claims {dto : CreateReservationDto} {l : Listing} (ha : l.active = true)
    {o : NoOverlap.Statement}
    (ho : Claims dto (priceTotal dto.checkIn dto.checkOut l.nightlyPriceCents) o ∨ ¬Inserts o) :
    allows (some (dto.listingId, l)) (.booking o) := by
  cases o with
  | db o =>
    cases o with
    | reservationCreate data =>
      rcases ho with ⟨hl, hin, hout, hp⟩ | hno
      · exact ⟨l, by rw [hl], ha, by rw [hp, hin, hout]⟩
      · exact (hno trivial).elim
    | _ => trivial
  | _ => trivial

/-- The rest of a hold once the listing has been read. -/
theorem claim_uses (ttl : Int) (guestId : Id) (dto : CreateReservationDto) (price : Option Int) :
    (do
      let held ← claimWithRetry ttl guestId dto price
      recordAttempt .held
      publishReservationChanged held.listingId held.id .held
      pure held : NoOverlap.Async Reservation).Uses fun o => Claims dto price o ∨ ¬Inserts o := by
  refine Uses.bind ((claimWithRetry_claims ttl guestId dto price).mono fun _ => .inl) fun held => ?_
  refine Uses.bind (uses_op (.inr id)) fun _ => ?_
  exact Uses.bind (publishReservationChanged_uses _ _ _ (.inr id) fun _ => .inr id)
    fun _ => uses_pure _

theorem follows_hold (ttl : Int) (guestId : Id) (dto : CreateReservationDto) :
    (ofBooking (hold ttl guestId dto)).Follows note allows none := by
  refine ⟨trivial, fun r => ?_⟩
  cases r with
  | error e => trivial
  | ok now =>
    show (ofBooking (if dto.checkOut.le dto.checkIn then _ else _)).Follows note allows none
    split
    · trivial
    · split
      · trivial
      · refine ⟨trivial, fun r => ?_⟩
        cases r with
        | error e => trivial
        | ok found =>
          cases found with
          | none => trivial
          | some l =>
            show (ofBooking (if !l.active then _ else _)).Follows note allows (some (dto.listingId, l))
            split
            · trivial
            · next hactive =>
              have ha : l.active = true := by simpa using hactive
              refine Follows.of_uses ?_
              refine ofBooking_uses (claim_uses ttl guestId dto _) fun o ho => ?_
              exact ⟨allows_of_claims ha ho, fun r => note_some _ r _⟩

/-- The calls that are not of the booking module insert no reservation. -/
theorem allows_of_issues {c : Call} (hc : ∀ c', c ≠ .booking c') {o : Statement}
    (ho : c.Issues o) (q : Quote) : allows q o := by
  cases o with
  | booking o =>
    cases o with
    | db o =>
      cases o with
      | reservationCreate data =>
        cases c with
        | booking c' => exact (hc c' rfl).elim
        | getOwned guestId id => cases ho
        | createReview guestId dto => cases ho
        | _ => exact ho.elim
      | _ => trivial
    | _ => trivial
  | _ => trivial

theorem program_follows (cfg : Config) (c : Call) :
    (c.program cfg).Follows note allows none := by
  have hfree : ∀ o : NoOverlap.Statement, ¬Inserts o → ∀ q, allows q (.booking o) := by
    intro o ho q
    cases o with
    | db o =>
      cases o with
      | reservationCreate data => exact (ho trivial).elim
      | _ => trivial
    | _ => trivial
  by_cases hbooking : ∃ c', c = .booking c'
  · obtain ⟨c, rfl⟩ := hbooking
    by_cases hhold : ∃ guestId dto, c = .hold guestId dto
    · obtain ⟨guestId, dto, rfl⟩ := hhold
      show (answer (ofBooking (NoOverlap.answer (hold cfg.holdTtlMs guestId dto) .reservation))
        Reply.booking).Follows note allows none
      rw [NoOverlap.answer, ofBooking_bind]
      exact Follows.map (Follows.map (follows_hold _ guestId dto) _) _
    · have hno := program_inserts_nothing cfg fun guestId dto he => hhold ⟨guestId, dto, he⟩
      exact Follows.of_free (answer_uses (ofBooking_uses hno hfree)) none
  · have hne : ∀ c', c ≠ .booking c' := fun c' he => hbooking ⟨c', he⟩
    exact Follows.of_free ((program_issues cfg c).mono fun o ho => allows_of_issues hne ho) none

/-! ## Pending rows -/

/-- A pending row is of the listing its thread has been quoted, at that price. -/
def Quoted (s : Store × (Nat → Quote)) : Prop :=
  ∀ tx ∈ s.1.booking.db.transactions.rows, ∀ r ∈ tx.reservations, ∃ l,
    s.2 tx.tid = some (r.listingId, l) ∧ l.active = true ∧
      r.priceTotalCents = nights r.checkIn r.checkOut * l.nightlyPriceCents

variable {s s' : Store} {t : Nat} {ch : Choice} {m : Nat → Quote}

/-- What has been quoted is kept. -/
theorem update_note {o : Statement} {r : Except Err o.Resp} {u : Nat} {x : Id × Listing}
    (h : m u = some x) : Function.update m t (note o r (m t)) u = some x := by
  by_cases hu : u = t
  · subst hu
    rw [Function.update_self, h, note_some]
  · rw [Function.update_of_ne hu, h]

theorem Quoted.mono (h : Quoted (s, m)) {m' : Nat → Quote}
    (hm : ∀ u x, m u = some x → m' u = some x)
    (htx : ∀ tx' ∈ s'.booking.db.transactions.rows, ∀ r ∈ tx'.reservations,
      ∃ tx ∈ s.booking.db.transactions.rows, tx.tid = tx'.tid ∧ r ∈ tx.reservations) :
    Quoted (s', m') := by
  intro tx' htx' r hr
  obtain ⟨tx, hmem, htid, hr⟩ := htx tx' htx' r hr
  obtain ⟨l, hq, ha, hp⟩ := h tx hmem r hr
  exact ⟨l, hm _ _ (htid ▸ hq), ha, hp⟩

/-- A row that is inserted at the price that was quoted. -/
theorem price_of_inserted {d : Database} {data : ReservationData} {r : Reservation} {n : Int}
    (hi : d.Inserted data r)
    (hp : data.priceTotalCents = priceTotal data.checkIn data.checkOut n) :
    r.priceTotalCents = nights r.checkIn r.checkOut * n := by
  rw [hi.price, hi.checkIn, hi.checkOut] at hp
  exact Option.some.inj hp

/-- A statement that is not of the booking module leaves the database of bookings alone, but
for the listings. -/
theorem booking_of_exec {o : Statement} {r : Except Err o.Resp}
    (hx : o.exec t ch s = some (r, s')) :
    (∃ o', o = .booking o' ∧ ∃ r' : Except Err o'.Resp, o'.exec t ch s.booking = some (r', s'.booking)) ∨
      s'.booking.db.transactions = s.booking.db.transactions ∧
        s'.booking.db.reservations = s.booking.db.reservations := by
  obtain ⟨r', s₁, heff, rfl, -⟩ := effect_of_exec hx
  cases heff with
  | booking o =>
    obtain ⟨b, hl, hb, he⟩ := exec_booking hx
    exact .inl ⟨o, rfl, r, by rw [he]; exact hb⟩
  | _ => exact .inr ⟨rfl, rfl⟩

theorem Quoted.exec {o : Statement} {r : Except Err o.Resp} (h : Quoted (s, m))
    (ho : allows (m t) o) (hx : o.exec t ch s = some (r, s')) :
    Quoted (s', Function.update m t (note o r (m t))) := by
  rcases booking_of_exec hx with ⟨o', rfl, r', hb⟩ | ⟨he, -⟩
  · rcases NoOverlap.Statement.exec_db hb with he | ⟨o'', rfl, r'', hd⟩
    · exact h.mono (fun u x hu => update_note hu) fun tx htx r hr => ⟨tx, he ▸ htx, rfl, hr⟩
    · intro tx' htx' row hrow
      rcases NoOverlap.Database.pending_of_perform hd htx' hrow with ⟨tx, hmem, htid, hr⟩ | ⟨data, rfl, htid, hi⟩
      · obtain ⟨l, hq, ha, hp⟩ := h tx hmem row hr
        exact ⟨l, update_note (htid ▸ hq), ha, hp⟩
      · obtain ⟨l, hq, ha, hp⟩ := ho
        refine ⟨l, ?_, ha, price_of_inserted hi hp⟩
        rw [show (tx'.tid : Nat) = t from htid, hi.listingId]
        exact update_note hq
  · exact h.mono (fun u x hu => update_note hu) fun tx htx r hr => ⟨tx, he ▸ htx, rfl, hr⟩

theorem Quoted.of_db (h : Quoted (s, m))
    (htx : ∀ tx ∈ s'.booking.db.transactions.rows, tx ∈ s.booking.db.transactions.rows) :
    Quoted (s', m) := h.mono (fun _ _ hu => hu) fun tx hmem _ hr => ⟨tx, htx tx hmem, rfl, hr⟩

theorem quoted_of_reaches {cfg : Config} {s₀ : Store} (h₀ : s₀.booking.db.transactions.rows = [])
    {Q : Concurrency.Policy (Store × (Nat → Quote)) Call Choice Statement.Resp Err Reply}
    {w : Concurrency.World (Store × (Nat → Quote)) Call Statement.Resp Err Reply}
    (hr : ((system cfg).remembering note).Reaches Q (Concurrency.World.start (s₀, fun _ => none)) w) :
    Quoted w.shared := by
  refine hr.inv_of_follows (I := Quoted) (program_follows cfg) ?_ ?_ ?_ ?_ ?_
  · intro tx htx
    rw [h₀] at htx
    cases htx
  · intro c s s' m h hs
    refine h.of_db fun tx htx => ?_
    rcases Archive.spawned_eq hs with rfl | ⟨b, hl, hb, rfl⟩
    · exact htx
    · exact hb ▸ htx
  · exact fun t ch o s m r s' ho h hx => h.exec ho hx
  · intro t c r s m h
    refine h.of_db fun tx htx => ?_
    rcases Archive.returned_eq t c r s with he | ⟨b, hl, hb, he⟩
    · rwa [show (system cfg).returned t c r s = s from he] at htx
    · rw [show (system cfg).returned t c r s = s.withBooking b hl from he] at htx
      exact hb ▸ htx
  · exact fun t c s m h => h.of_db fun tx htx => (Table.mem_erase.mp htx).1

/-! ## Pausing -/

/-- The listing is not active, if it is there. -/
def Paused (id : Id) (s : Store) : Prop := ∀ l, s.listings.find? id = some l → l.active = false

/-- The statement makes the listing active, or puts another in its place. -/
def resumes (id : Id) (ch : Choice) : Statement → Bool
  | .listing (.update lid data) => lid == id && data.active == some true
  | .listing (.create _ _) => ch.id == id
  | _ => false

variable {id : Id}

theorem Paused.of_listings (h : Paused id s) (hl : s'.listings = s.listings) : Paused id s' := by
  rwa [Paused, hl]

/-- An update, to whatever is not active. -/
theorem active_apply {dto : UpdateListingDto} (hd : dto.active ≠ some true) {l : ListingRow}
    (ha : l.active = false) : (dto.apply l).active = false := by
  show dto.active.getD l.active = false
  cases h : dto.active with
  | none => exact ha
  | some b =>
    cases b with
    | false => rfl
    | true => exact (hd h).elim

theorem Paused.exec {o : Statement} {r : Except Err o.Resp} (h : Paused id s)
    (ho : resumes id ch o = false) (hx : o.exec t ch s = some (r, s')) : Paused id s' := by
  cases Hosts.acts_of_exec hx with
  | rest _ _ hl _ _ => exact h.of_listings hl
  | create hostId dto row _ hid hh hn hl _ _ =>
    intro l hf
    have hne : row.id ≠ id := by simpa [resumes, hid] using ho
    rw [hl, Table.find?_insert hn, key_listingRow, if_neg hne] at hf
    exact h l hf
  | update lid dto _ hl _ _ =>
    intro l hf
    rw [hl, Hosts.find?_updated] at hf
    obtain ⟨l₀, hl₀, rfl⟩ := Option.map_eq_some_iff.mp hf
    split
    · next hc =>
      have hlid : l₀.id = id := Table.key_of_find? hl₀
      have hd : dto.active ≠ some true := by
        rintro hd
        simp [resumes, hd, ← hlid, beq_iff_eq.mp hc] at ho
      exact active_apply hd (h l₀ hl₀)
    · exact h l₀ hl₀
  | delete lid _ hl _ _ =>
    intro l hf
    rw [hl, Table.find?_erase] at hf
    exact h l (Option.filter_eq_some_iff.mp hf).1
  | blockCreate _ _ _ _ _ _ _ _ hl _ _ | blockDeleteMany _ _ _ hl _ _ => exact h.of_listings hl

/-- The update that pauses a listing, once it has answered. -/
theorem paused_of_update {dto : UpdateListingDto} {row : ListingRow} (hd : dto.active = some false)
    (hx : (Statement.listing (.update id dto)).exec t ch s = some (.ok row, s')) : Paused id s' := by
  obtain ⟨r', s₁, heff, rfl, hr⟩ := effect_of_exec hx
  have hok : r' = .ok row := by
    rcases hr with he | ⟨e, -, he⟩
    · exact he.symm
    · cases he
  cases heff with
  | read _ _ hread => cases hread
  | refused => cases hok
  | update _ _ row₀ hf₀ =>
    intro l hf
    have hf : (s.listings.update (fun l => l.id == id) dto.apply fun _ => rfl).find? id = some l :=
      hf
    rw [Hosts.find?_updated] at hf
    obtain ⟨l₀, hl₀, rfl⟩ := Option.map_eq_some_iff.mp hf
    have hlid : l₀.id = id := Table.key_of_find? hl₀
    rw [if_pos (beq_iff_eq.mpr hlid)]
    show dto.active.getD l₀.active = false
    rw [hd]
    rfl

/-- The update of a listing lets every failure through. -/
theorem uncaught_update (cfg : Config) (hostId id : Id) (dto : UpdateListingDto) :
    (Call.program cfg (.updateListing hostId id dto)).Uncaught := by
  have howner : (ListingsService.assertOwner id hostId).Uncaught :=
    (uncaught_op _).bind fun found => by
      cases found with
      | none => trivial
      | some owner => exact uncaught_ite trivial trivial
  exact Uncaught.bind (Uncaught.bind howner fun _ => uncaught_op _) fun _ => trivial

theorem listings_of_spawned {c : Call} (hs : s.spawned c = some s') : s'.listings = s.listings := by
  rcases Archive.spawned_eq hs with rfl | ⟨b, hl, hb, rfl⟩
  · rfl
  · rfl

theorem listings_of_returned (t : Nat) (c : Call) (r : Except Err Reply) (s : Store) :
    (s.returned t c r).listings = s.listings := by
  rcases Archive.returned_eq t c r s with he | ⟨b, hl, hb, he⟩
  · rw [he]
  · rw [he]
    rfl

/-! ## Quotes that stand -/

/-- The listing is still as active, and as dear, as it was read. -/
def stands (q : Quote) (s : Store) : Bool :=
  q.all fun x => (s.booking.db.listings.find? x.1).any fun l =>
    l.active == x.2.active && l.nightlyPriceCents == x.2.nightlyPriceCents

/-- A commit would take effect on a quote that no longer stands. -/
def stale (a : Agent) (ch : Choice) (s : Store × (Nat → Quote)) : Statement → Bool
  | .booking (.db .commit) => match ch.fault with
    | .before _ => false
    | _ => !stands (s.2 a.tid) s.1
  | _ => false

/-- The world of the platform with what every thread has been quoted. -/
abbrev QuotedWorld := Concurrency.World (Store × (Nat → Quote)) Call Statement.Resp Err Reply

abbrev QuotedPolicy := Concurrency.Policy (Store × (Nat → Quote)) Call Choice Statement.Resp Err Reply

abbrev quoting (cfg : Config) :
    Concurrency.Machine (Store × (Nat → Quote)) Call Choice Statement.Resp Err Reply :=
  (system cfg).remembering note

/-- Every hold that commits does so while the quote it has read stands. -/
def current : QuotedPolicy :=
  { spawn := fun _ _ => true
    op := fun a ch o s => !stale a ch s o
    kill := fun _ _ _ => true }

/-- And nothing makes the listing `id` active. -/
def currentUnresumed (id : Id) : QuotedPolicy :=
  { current with op := fun a ch o s => !stale a ch s o && !resumes id ch o }

theorem stands_of_current {s : Store × (Nat → Quote)}
    (hp : current.op a ch (.booking (.db .commit)) s = true) (hf : ¬∃ e, ch.fault = .before e) :
    stands (s.2 a.tid) s.1 = true := by
  simp only [current, stale, Bool.not_eq_true'] at hp
  split at hp
  · next e he => exact (hf ⟨e, he⟩).elim
  · simpa using hp

theorem row_of_stands {lid : Id} {l : Listing} (h : stands (some (lid, l)) s = true) :
    ∃ row, s.listings.find? lid = some row ∧ row.active = l.active ∧
      row.nightlyPriceCents = l.nightlyPriceCents := by
  obtain ⟨l', hl', hsame⟩ := (Option.any_eq_true _ _).mp h
  rw [s.offered] at hl'
  obtain ⟨row, hrow, rfl⟩ := Option.map_eq_some_iff.mp (Table.find?_map.symm.trans hl')
  simp only [ListingRow.offer, Bool.and_eq_true, beq_iff_eq] at hsame
  exact ⟨row, hrow, hsame.1, hsame.2⟩

/-- A reservation that appears is of an active listing, at its rate. -/
theorem committed_while_active {cfg : Config} {w w' : QuotedWorld} (hq : Quoted w.shared)
    {e : Concurrency.Event Call Choice} (hn : (quoting cfg).next current w e = some w')
    {r : Reservation} (hr : r ∈ w'.shared.1.booking.db.reservations.rows)
    (hnew : w.shared.1.booking.db.reservations.find? r.id = none) :
    ∃ l, w'.shared.1.listings.find? r.listingId = some l ∧ l.active = true ∧
      r.priceTotalCents = nights r.checkIn r.checkOut * l.nightlyPriceCents := by
  have hold : w'.shared.1.booking.db.reservations = w.shared.1.booking.db.reservations → False := by
    intro he
    rw [he] at hr
    have hfind : w.shared.1.booking.db.reservations.find? r.id = some r := Table.find?_of_mem hr
    rw [hnew] at hfind
    cases hfind
  cases Machine.next_moves _ _ hn with
  | @spawn c s hp hs =>
    have hs' := (Machine.spawned_recording hs).1
    refine (hold ?_).elim
    rcases Archive.spawned_eq hs' with he | ⟨b, hl, hb, he⟩
    · exact congrArg (fun s : Store => s.booking.db.reservations) he
    · exact (congrArg (fun s : Store => s.booking.db.reservations) he).trans (congrArg _ hb)
  | @ret t c res ht =>
    refine (hold ?_).elim
    rcases Archive.returned_eq t c res w.shared.1 with he | ⟨b, hl, hb, he⟩
    · exact congrArg (fun s : Store => s.booking.db.reservations) he
    · exact (congrArg (fun s : Store => s.booking.db.reservations) he).trans (congrArg _ hb)
  | kill => exact (hold rfl).elim
  | @step t ch c o k res s ht hp hx =>
    have hx' := (Machine.exec_recording hx).1
    rcases booking_of_exec hx' with ⟨o', rfl, res', hb⟩ | ⟨-, he⟩
    · rcases NoOverlap.Statement.exec_db hb with he | ⟨o₁, rfl, res₁, hd⟩
      · exact (hold (congrArg Database.reservations he)).elim
      · obtain ⟨tx, rfl, htx, hmem⟩ := NoOverlap.Database.committed_of_perform hd hr hnew
        have htid : tx.tid = t := Table.key_of_find? htx
        obtain ⟨l, hquote, ha, hprice⟩ := hq tx (Table.mem_of_find? htx) r hmem
        rw [htid] at hquote
        by_cases hbefore : ∃ e, ch.fault = .before e
        · obtain ⟨e, hf⟩ := hbefore
          refine (hold ?_).elim
          simp only [NoOverlap.Statement.exec, hf, NoOverlap.Statement.fallible] at hb
          have he : w.shared.1.booking = s.1.booking := (Prod.mk.inj (Option.some.inj hb)).2
          rw [he]
        · have hstands : stands (w.shared.2 t) w.shared.1 = true := stands_of_current hp hbefore
          rw [hquote] at hstands
          obtain ⟨row, hrow, hactive, hrate⟩ := row_of_stands hstands
          refine ⟨row, ?_, hactive.trans ha, by rw [hprice, hrate]⟩
          obtain ⟨b, hl, -, he⟩ := exec_booking hx'
          rw [show s.1.listings = w.shared.1.listings by rw [he]; rfl]
          exact hrow
    · exact (hold he).elim

theorem current_of_unresumed {cfg : Config} {w w' : QuotedWorld}
    (hr : (quoting cfg).Reaches (currentUnresumed id) w w') : (quoting cfg).Reaches current w w' :=
  Machine.Reaches.relax (P := currentUnresumed id) (Q := current) (fun _ _ h => h)
    (fun _ _ _ _ h => (Bool.and_eq_true_iff.mp h).1) (fun _ _ _ h => h) hr

theorem Paused.next {cfg : Config} {w w' : QuotedWorld} {e : Concurrency.Event Call Choice}
    (h : Paused id w.shared.1)
    (hn : (quoting cfg).next (currentUnresumed id) w e = some w') : Paused id w'.shared.1 := by
  cases Machine.next_moves _ _ hn with
  | spawn hp hs => exact h.of_listings (listings_of_spawned (Machine.spawned_recording hs).1)
  | step ht hp hx =>
    have hop := (Bool.and_eq_true_iff.mp hp).2
    exact h.exec (by simpa using hop) (Machine.exec_recording hx).1
  | @ret t c res ht => exact h.of_listings (listings_of_returned t c res w.shared.1)
  | kill => exact h

/-- A reservation keeps its listing. -/
theorem stays_of_next {cfg : Config} {Q : QuotedPolicy} {w w' : QuotedWorld}
    {e : Concurrency.Event Call Choice} (hn : (quoting cfg).next Q w e = some w') :
    Table.Extends Stays w.shared.1.booking.db.reservations w'.shared.1.booking.db.reservations := by
  have hsame : ∀ {T T' : Table Reservation}, T' = T → Table.Extends Stays T T' := by
    rintro T _ rfl
    exact .refl Stays.refl _
  cases Machine.next_moves _ _ hn with
  | spawn hp hs =>
    refine hsame ?_
    rcases Archive.spawned_eq (Machine.spawned_recording hs).1 with he | ⟨b, hl, hb, he⟩
    · exact congrArg (fun s : Store => s.booking.db.reservations) he
    · exact (congrArg (fun s : Store => s.booking.db.reservations) he).trans (congrArg _ hb)
  | step ht hp hx => exact Hosts.stays_of_exec (Machine.exec_recording hx).1
  | @ret t c res ht =>
    refine hsame ?_
    rcases Archive.returned_eq t c res w.shared.1 with he | ⟨b, hl, hb, he⟩
    · exact congrArg (fun s : Store => s.booking.db.reservations) he
    · exact (congrArg (fun s : Store => s.booking.db.reservations) he).trans (congrArg _ hb)
  | kill => exact hsame rfl

/-- Without a resumption nothing is booked on a listing that is not active. -/
theorem nothing_while_paused {cfg : Config} {s₀ : Store} {w w' : QuotedWorld}
    (h₀ : s₀.booking.db.transactions.rows = [])
    (hr : (quoting cfg).Reaches current (Concurrency.World.start (s₀, fun _ => none)) w)
    (hr' : (quoting cfg).Reaches (currentUnresumed id) w w') (hp : Paused id w.shared.1) :
    Paused id w'.shared.1 ∧ ∀ r ∈ w'.shared.1.booking.db.reservations.rows, r.listingId = id →
      (w.shared.1.booking.db.reservations.find? r.id).isSome = true := by
  induction hr' with
  | refl =>
    refine ⟨hp, fun r hmem _ => ?_⟩
    have hfind : w.shared.1.booking.db.reservations.find? r.id = some r := Table.find?_of_mem hmem
    rw [hfind]
    rfl
  | @tail w₁ w₂ e hr₁ hn ih =>
    obtain ⟨hp₁, hold⟩ := ih
    have hp₂ := hp₁.next hn
    refine ⟨hp₂, fun r hmem hl => ?_⟩
    cases hfind : w₁.shared.1.booking.db.reservations.find? r.id with
    | none =>
      have hn' : (quoting cfg).next current w₁ e = some w₂ :=
        Machine.next_relax (P := currentUnresumed id) (Q := current) (fun _ _ h => h)
          (fun _ _ _ _ h => (Bool.and_eq_true_iff.mp h).1) (fun _ _ _ h => h) hn
      have hquoted := quoted_of_reaches h₀ (hr.trans (current_of_unresumed hr₁))
      obtain ⟨l, hrow, ha, -⟩ := committed_while_active hquoted hn' hmem hfind
      rw [hp₂ l (hl ▸ hrow)] at ha
      cases ha
    | some r₁ =>
      obtain ⟨r₂, hr₂, hs⟩ := stays_of_next hn _ r₁ hfind
      have hsame : r₂ = r := Option.some.inj (hr₂.symm.trans (Table.find?_of_mem hmem))
      have hid : r₁.id = r.id := Table.key_of_find? hfind
      have hl₁ : r₁.listingId = id := hs.listingId.symm.trans ((congrArg _ hsame).trans hl)
      exact hid ▸ hold r₁ (Table.mem_of_find? hfind) hl₁

/-- Thread `u` serves an update that is to pause the listing, and issues it next. -/
def PausesNext (w : QuotedWorld) (u : Nat) (hostId id : Id) (dto : UpdateListingDto) : Prop :=
  dto.active = some false ∧ ∃ k, w.threads[u]? =
    some (.running (.updateListing hostId id dto) (.call (.listing (.update id dto)) k))

/-- An update that returns has paused the listing when it was issued. -/
theorem paused_of_returned {cfg : Config} {s₀ : Store} {P Q : QuotedPolicy}
    {w w₁ w₂ : QuotedWorld} {u : Nat} {hostId : Id} {dto : UpdateListingDto} {v : Reply}
    (hr : (quoting cfg).Reaches P (Concurrency.World.start (s₀, fun _ => none)) w)
    (hp : PausesNext w u hostId id dto) (hn : (quoting cfg).next P w (.step u ch) = some w₁)
    (hr' : (quoting cfg).Reaches Q w₁ w₂)
    (hv : w₂.threads[u]? = some (.returned (.updateListing hostId id dto) (.ok v))) :
    Paused id w₁.shared.1 := by
  obtain ⟨hd, k, hu⟩ := hp
  cases Machine.next_moves _ _ hn with
  | @step t ch c o k' r s ht hpol hx =>
    cases hu.symm.trans ht
    cases r with
    | ok row => exact paused_of_update hd (Machine.exec_recording hx).1
    | error e =>
      -- The error would have ended the call.
      have hprog : (Prog.call (Statement.listing (.update id dto)) k).Uncaught :=
        hr.remains (H := fun c p => (∃ hostId id dto, c = Call.updateListing hostId id dto) →
            p.Uncaught) (fun c ⟨hostId, id, dto, hc⟩ => hc ▸ uncaught_update cfg hostId id dto)
          (fun _ _ _ r h hc => (h hc).2 r) hu ⟨hostId, id, dto, rfl⟩
      have hlt := (List.getElem?_eq_some_iff.mp hu).1
      exact (hr'.returns (List.getElem?_set_self hlt) (hprog.1 e) hv).elim

/-- Whatever hosts and guests do, as long as every hold that commits does so while the quote it
has read stands: a reservation appears only while its listing is active, at the nightly rate in
force; and once an update that pauses a listing has returned, and as long as nothing has made
the listing active again since it was issued, none appears. -/
theorem paused_listing_takes_no_bookings {cfg : Config} {s₀ : Store} {w : QuotedWorld}
    (h₀ : s₀.booking.db.transactions.rows = [])
    (hr : (quoting cfg).Reaches current (Concurrency.World.start (s₀, fun _ => none)) w) :
    (∀ e w', (quoting cfg).next current w e = some w' →
      ∀ r ∈ w'.shared.1.booking.db.reservations.rows,
        w.shared.1.booking.db.reservations.find? r.id = none →
          ∃ l, w'.shared.1.listings.find? r.listingId = some l ∧ l.active = true ∧
            r.priceTotalCents = nights r.checkIn r.checkOut * l.nightlyPriceCents) ∧
    ∀ (u : Nat) hostId id dto, PausesNext w u hostId id dto →
      ∀ ch w₁, (quoting cfg).next current w (.step u ch) = some w₁ →
        ∀ w₂ v, (quoting cfg).Reaches (currentUnresumed id) w₁ w₂ →
          w₂.threads[u]? = some (.returned (.updateListing hostId id dto) (.ok v)) →
            ∀ w', (quoting cfg).Reaches (currentUnresumed id) w₂ w' →
              ∀ r ∈ w'.shared.1.booking.db.reservations.rows, r.listingId = id →
                (w₂.shared.1.booking.db.reservations.find? r.id).isSome = true := by
  refine ⟨fun e w' hn r hmem hnew =>
    committed_while_active (quoted_of_reaches h₀ hr) hn hmem hnew, ?_⟩
  intro u hostId id dto hp ch w₁ hn w₂ v hr₁ hv w' hr₂
  have hr' : (quoting cfg).Reaches current (Concurrency.World.start (s₀, fun _ => none)) w₁ :=
    .tail _ hr hn
  have hpaused := paused_of_returned hr hp hn hr₁ hv
  exact (nothing_while_paused h₀ (hr'.trans (current_of_unresumed hr₁)) hr₂
    (nothing_while_paused h₀ hr' hr₁ hpaused).1).2

/-! ## A listing paused under a hold -/

namespace Paused

def start : Store := Store.init Sample.houses 0

def pause : UpdateListingDto := { active := some false }

def resume : UpdateListingDto := { active := some true }

def steps (t n : Nat) : List Event := List.replicate n (.step t {})

/-- The hold of thread `t` has read the listing. -/
def quoted (t : Nat) : List Event :=
  .spawn (.booking (.hold 2 NoOverlap.Scenario.stay)) :: steps t 2

/-- Its transaction. -/
def commits (t : Nat) : List Event :=
  steps t 2 ++ [.step t { id := 5 }, .step t {}, .step t { id := 6 }, .step t {}]

/-- The host updates the listing. -/
def updates (t : Nat) (dto : UpdateListingDto) : List Event :=
  .spawn (.updateListing 1 7 dto) :: steps t 2 ++ [.ret t]

/-- Thread `t` has paused the listing. -/
def told (t : Nat) (w : World) : Bool :=
  match w.threads[t]? with
  | some (.returned (.updateListing 1 7 ⟨none, none, none, none, some false⟩) (.ok _)) => true
  | _ => false

theorem of_told {t : Nat} {w : World} (h : told t w = true) :
    ∃ v, w.threads[t]? = some (.returned (.updateListing 1 7 pause) (.ok v)) := by
  unfold told at h
  split at h
  · next v hu => exact ⟨v, hu⟩
  · cases h

/-- Thread `t` is about to pause the listing. -/
def aboutToPause (t : Nat) (w : World) : Bool :=
  match w.threads[t]? with
  | some (.running (.updateListing 1 7 ⟨none, none, none, none, some false⟩)
      (.call (.listing (.update 7 ⟨none, none, none, none, some false⟩)) _)) => true
  | _ => false

theorem of_aboutToPause {t : Nat} {w : QuotedWorld} (h : aboutToPause t w.forget = true) :
    PausesNext w t 1 7 pause := by
  unfold aboutToPause at h
  split at h
  · next k hu => exact ⟨rfl, k, hu⟩
  · cases h

def inactive (s : Store) : Bool := (s.listings.find? 7).any fun l => !l.active

def booked (s : Store) : Bool :=
  (s.booking.db.reservations.find? 5).any fun r => r.listingId == 7 && r.priceTotalCents == 200

end Paused

open Paused in
/-- A hold commits on a listing that its host has been told is paused. -/
theorem not_paused_listing_takes_no_bookings :
    ∃ w w', (system NoOverlap.Scenario.cfg).Reaches anything (Concurrency.World.start start) w ∧
      told 1 w = true ∧ inactive w.shared = true ∧ w.shared.booking.db.reservations.find? 5 = none ∧
      (system NoOverlap.Scenario.cfg).Reaches anything w w' ∧ inactive w'.shared = true ∧
      booked w'.shared = true := by
  have hrun : ((system NoOverlap.Scenario.cfg).run anything (Concurrency.World.start start)
      (quoted 0 ++ updates 1 pause)).any (fun w => told 1 w && inactive w.shared &&
        (w.shared.booking.db.reservations.find? 5).isNone &&
          ((system NoOverlap.Scenario.cfg).run anything w (commits 0)).any fun w' =>
            inactive w'.shared && booked w'.shared) = true := by
    decide +kernel
  obtain ⟨w, hr, ht⟩ := Machine.exists_reaches_of_run hrun
  obtain ⟨ht, hrun'⟩ := Bool.and_eq_true_iff.mp ht
  obtain ⟨ht, hnone⟩ := Bool.and_eq_true_iff.mp ht
  obtain ⟨hans, hin⟩ := Bool.and_eq_true_iff.mp ht
  obtain ⟨w', hr', ht'⟩ := Machine.exists_reaches_of_run hrun'
  obtain ⟨hin', hb⟩ := Bool.and_eq_true_iff.mp ht'
  exact ⟨w, w', hr, hans, hin, Option.isNone_iff_eq_none.mp hnone, hr', hin', hb⟩

open Paused in
/-- The listing is paused, made active again, booked, and paused for the rest of the run. -/
theorem paused_listing_takes_no_bookings_in_turn :
    ∃ w : QuotedWorld, (quoting NoOverlap.Scenario.cfg).Reaches current
        (Concurrency.World.start (start, fun _ => none)) w ∧
      told 0 w.forget = true ∧ told 3 w.forget = true ∧ booked w.shared.1 = true ∧
      ∀ w', (quoting NoOverlap.Scenario.cfg).Reaches (currentUnresumed 7) w w' →
        ∀ r ∈ w'.shared.1.booking.db.reservations.rows, r.listingId = 7 →
          (w.shared.1.booking.db.reservations.find? r.id).isSome = true := by
  have hrun : ((quoting NoOverlap.Scenario.cfg).run current
      (Concurrency.World.start (start, fun _ => none)) (updates 0 pause ++ updates 1 resume ++
        quoted 2 ++ commits 2 ++ .spawn (.updateListing 1 7 pause) :: steps 3 1)).any
      (fun w => aboutToPause 3 w.forget &&
        ((quoting NoOverlap.Scenario.cfg).next current w (.step 3 {})).any fun w₁ =>
          ((quoting NoOverlap.Scenario.cfg).next (currentUnresumed 7) w₁ (.ret 3)).any
          fun w₂ => told 0 w₂.forget && told 3 w₂.forget && booked w₂.shared.1) = true := by
    decide +kernel
  obtain ⟨w, hr, ht⟩ := Machine.exists_reaches_of_run hrun
  obtain ⟨hasks, ht⟩ := Bool.and_eq_true_iff.mp ht
  obtain ⟨w₁, hn, ht⟩ := (Option.any_eq_true _ _).mp ht
  obtain ⟨w₂, hn₂, ht⟩ := (Option.any_eq_true _ _).mp ht
  simp only [Bool.and_eq_true] at ht
  obtain ⟨⟨hfirst, hans⟩, hb⟩ := ht
  obtain ⟨v, hv⟩ := of_told hans
  have hr₁ : (quoting NoOverlap.Scenario.cfg).Reaches (currentUnresumed 7) w₁ w₂ :=
    .tail _ .refl hn₂
  refine ⟨w₂, (hr.tail _ hn).trans (current_of_unresumed hr₁), hfirst, hans, hb, ?_⟩
  exact (paused_listing_takes_no_bookings rfl hr).2 3 1 7 pause (of_aboutToPause hasks) {} w₁ hn w₂ v hr₁ hv

end Pausing

end Platform

end NoOverlap
