import NoOverlap.Lifecycle.History
import NoOverlap.Platform.Archive

/-!
# Reviews are backed by finished stays

The status a review is allowed by was written by the sweep, from a clock it had read
before.  As long as readings do not go backwards, a completed stay was over by then, and a
completed row was confirmed by a payment result before.  Neither can be undone before the
review is inserted: a cancel may still land on the row, but not on its past.
-/

namespace NoOverlap

namespace Platform

open Relational Concurrency RelyGuarantee
open Concurrency.Prog

/-- No reading of the clock is earlier than one before it. -/
def clockForward : Policy :=
  { anything with op := fun _ ch _ s => decide (s.clock ≤ ch.now) }

/-! ## The past of a reservation -/

/-- The reservation has been confirmed, and completed since. -/
def Finished (log : List StatusChange) (id : Id) : Prop :=
  ∃ e₁ e₂, [e₁, e₂].Sublist log ∧ (e₁.id = id ∧ e₁.new = .confirmed) ∧
    e₂.id = id ∧ e₂.old = .confirmed ∧ e₂.new = .completed

theorem Finished.mono {log log' : List StatusChange} {id : Id} (h : Finished log id)
    (hl : log <+: log') : Finished log' id := by
  obtain ⟨e₁, e₂, hs, h₁, h₂⟩ := h
  exact ⟨e₁, e₂, hs.trans hl.sublist, h₁, h₂⟩

/-- A call that applies the news that a reservation was paid for. -/
def Call.Confirms : Call → Id → Prop
  | .booking (.applyPaymentSucceeded id), id' => id = id'
  | .booking (.processResult _ (.succeeded m)), id' => m.reservationId = id'
  | _, _ => False

/-- Who can have made a status change. -/
def Accounted (c : Call) (e : StatusChange) : Prop :=
  (e.new = .confirmed → c.Confirms e.id) ∧
    (e.new = .completed → c = .booking .sweepCompletedStays)

variable {s s' : Store} {t : Nat} {now : Int}

theorem issues_booking {c : Call} {o : NoOverlap.Statement} (h : c.Issues (.booking o)) :
    (∃ c', c = .booking c' ∧ c'.Issues o) ∨ ∃ id guestId, o = .db (.reservationFindFirst id guestId) := by
  cases c with
  | booking c' => exact .inl ⟨c', rfl, h⟩
  | getOwned guestId id => exact .inr ⟨_, _, h⟩
  | createReview guestId dto => exact .inr ⟨_, _, h⟩
  | _ => exact h.elim

theorem accounted_of_recorded {d : Database} {c : NoOverlap.Call} {o : DbStatement}
    (hi : c.Issues (.db o)) {e : StatusChange} (he : d.Recorded t o e) :
    Accounted (.booking c) e := by
  obtain ⟨-, r, hr, -, hw⟩ := he
  cases o with
  | reservationUpdate id status seen =>
    simp only [DbStatement.writes, Option.ite_none_right_eq_some, Option.some.injEq] at hw
    have hnew : e.new = .cancelled := hw.2.symm.trans hi.2.1
    exact ⟨fun h => by (rw [hnew] at h; cases h), fun h => by (rw [hnew] at h; cases h)⟩
  | reservationUpdateMany filter status =>
    simp only [DbStatement.writes, Option.ite_none_right_eq_some, Option.some.injEq] at hw
    obtain ⟨hm, hnew⟩ := hw
    have hid : r.id = e.id := Table.key_of_find? hr
    have hheld : ∀ id, filter = heldById id → id = e.id := fun id hf =>
      (matches_heldById.mp (hf ▸ hm)).1.symm.trans hid
    rw [Accounted, ← hnew]
    cases c with
    | applyPaymentSucceeded id =>
      obtain ⟨rfl, rfl⟩ := hi
      exact ⟨fun _ => hheld id rfl, fun h => by cases h⟩
    | applyPaymentFailed id =>
      obtain ⟨-, rfl⟩ := hi
      exact ⟨fun h => by (cases h), fun h => by (cases h)⟩
    | processResult jobId r =>
      cases r with
      | succeeded m =>
        obtain ⟨rfl, rfl⟩ := hi
        exact ⟨fun _ => hheld m.reservationId rfl, fun h => by cases h⟩
      | failed m =>
        obtain ⟨-, rfl⟩ := hi
        exact ⟨fun h => by (cases h), fun h => by (cases h)⟩
    | sweepExpiredHolds =>
      obtain ⟨_, -, rfl⟩ := hi
      exact ⟨fun h => by (cases h), fun h => by (cases h)⟩
    | sweepCompletedStays =>
      obtain ⟨_, -, rfl⟩ := hi
      exact ⟨fun h => by (cases h), fun _ => rfl⟩
    | _ => exact hi.elim
  | _ => cases hw

/-! ## The invariant -/

/-- What holds at every moment. -/
structure Vouched (s : Store) : Prop where
  logged : Logged s.booking.db
  finished : ∀ id r, s.booking.db.reservations.find? id = some r → r.status = .completed →
    Finished s.booking.db.statusLog id ∧ r.checkOut < s.clock
  unique : (s.reviews.rows.map (·.reservationId)).Nodup
  submitted : ∀ v ∈ s.reviews.rows, ∃ m ∈ s.submissions, m.review = v

/-- What every statement keeps. -/
structure Onward (s s' : Store) : Prop where
  reservations : Table.Extends Stays s.booking.db.reservations s'.booking.db.reservations
  log : s.booking.db.statusLog <+: s'.booking.db.statusLog
  clock : s.clock ≤ s'.clock

theorem Onward.refl (s : Store) : Onward s s :=
  ⟨.refl Stays.refl _, List.prefix_rfl, Int.le_refl _⟩

theorem Onward.trans {s'' : Store} (h : Onward s s') (h' : Onward s' s'') : Onward s s'' :=
  ⟨h.reservations.trans (fun _ _ _ => Stays.trans) h'.reservations, h.log.trans h'.log,
    Int.le_trans h.clock h'.clock⟩

/-- The call asks for the review `data` of a stay of its caller that is over. -/
def Eligible (c : Call) (data : ReviewData) (s : Store) : Prop :=
  ∃ r dto, c = .createReview r.guestId dto ∧ dto.reservationId = data.reservationId ∧
    s.booking.db.reservations.find? data.reservationId = some r ∧ r.listingId = data.listingId ∧
    Finished s.booking.db.statusLog data.reservationId ∧ r.checkOut < s.clock

theorem Stays.guestId {r r' : Reservation} (h : Stays r r') : r'.guestId = r.guestId := by rw [h]

theorem Stays.checkOut {r r' : Reservation} (h : Stays r r') : r'.checkOut = r.checkOut := by rw [h]

theorem Eligible.onward {c : Call} {data : ReviewData} (h : Eligible c data s) (ho : Onward s s') :
    Eligible c data s' := by
  obtain ⟨r, dto, hc, hid, hr, hl, hf, hout⟩ := h
  obtain ⟨r', hr', hs⟩ := ho.reservations _ r hr
  refine ⟨r', dto, hs.guestId ▸ hc, hid, hr', hs.listingId.trans hl, hf.mono ho.log, ?_⟩
  rw [hs.checkOut]
  exact Int.lt_of_lt_of_le hout ho.clock

/-- The stay behind a review, when the caller has asked for the review of one that was over. -/
def Backs (c : Call) (m : Submission) (s : Store) : Prop :=
  ∃ r dto, c = .createReview r.guestId dto ∧ dto.reservationId = m.review.reservationId ∧
    s.booking.db.reservations.find? m.review.reservationId = some r ∧
    r.listingId = m.review.listingId ∧ r.checkOut < m.review.createdAt ∧
    Finished m.log m.review.reservationId ∧ m.log <+: s.booking.db.statusLog

theorem Backs.onward {c : Call} {m : Submission} (h : Backs c m s) (ho : Onward s s') :
    Backs c m s' := by
  obtain ⟨r, dto, hc, hid, hr, hl, hout, hf, hlog⟩ := h
  obtain ⟨r', hr', hs⟩ := ho.reservations _ r hr
  refine ⟨r', dto, hs.guestId ▸ hc, hid, hr', hs.listingId.trans hl, ?_, hf, hlog.trans ho.log⟩
  rw [hs.checkOut]
  exact hout

/-- What a call has made sure of before it issues a statement. -/
def Ready (c : Call) : Statement → Store → Prop
  | .booking (.db (.reservationUpdateMany f status)), s =>
    status = .completed → ∃ now, f = finishedStays now ∧ now ≤ s.clock
  | .reviewCreate data, s => Eligible c data s
  | _, _ => True

/-! ## One statement -/

/-- A completed row was completed before, or has been by this statement. -/
theorem completed_of_effect {d d' : Database} {c : NoOverlap.Call} {o : DbStatement}
    {res : Except Err o.Resp} (hl : Logged d) (hi : c.Issues (.db o)) (hx : d.Effect t o res d')
    (hf : ∀ f, o = .reservationUpdateMany f .completed → ∃ by', f = finishedStays by' ∧ by' ≤ now)
    {id : Id} {r' : Reservation} (hr' : d'.reservations.find? id = some r')
    (hs : r'.status = .completed) :
    d.reservations.find? id = some r' ∨ Finished d'.statusLog id ∧ r'.checkOut < now := by
  rcases hx.reservations with ⟨he, -⟩ | ⟨tx, -, ht, rfl⟩ | hrw
  · exact .inl (he ▸ hr')
  · rcases Table.find?_of_insertAll hr' with hold | ⟨-, hm⟩
    · exact .inl hold
    · have hheld := hl.pending tx (Table.mem_of_find? ht) r' hm
      rw [hs] at hheld
      cases hheld
  · rw [hrw.find] at hr'
    obtain ⟨r, hr, rfl⟩ := Option.map_eq_some_iff.mp hr'
    cases hw : o.writes r with
    | none =>
      rw [Database.rewrite_none hw]
      exact .inl hr
    | some status =>
      rw [Database.rewrite_some hw] at hs ⊢
      have hs : status = .completed := hs
      subst hs
      refine .inr ?_
      cases o with
      | reservationUpdate id status seen =>
        simp only [DbStatement.writes, Option.ite_none_right_eq_some, Option.some.injEq] at hw
        have hcancelled : status = .cancelled := hi.2.1
        rw [hw.2] at hcancelled
        cases hcancelled
      | reservationUpdateMany filter status =>
        have hfilter := hw
        simp only [DbStatement.writes, Option.ite_none_right_eq_some, Option.some.injEq] at hfilter
        obtain ⟨hm, rfl⟩ := hfilter
        obtain ⟨by', rfl, hby⟩ := hf filter rfl
        have hid : r.id = id := Table.key_of_find? hr
        have hconf : r.status = .confirmed := ReservationWhere.status_eq hm
        have hout : r.checkOut < by' := by
          simp only [ReservationWhere.matches, finishedStays, Option.all_some, Bool.and_eq_true,
            decide_eq_true_eq] at hm
          exact hm.2
        obtain ⟨e₁, he₁, hid₁, hnew₁⟩ := hl.confirmed id r hr (by rw [hconf]; rfl)
        refine ⟨?_, Int.lt_of_lt_of_le hout hby⟩
        cases hx with
        | read _ _ h => cases h
        | refused _ e =>
          have hsame := (hrw.find id).symm.trans hr
          rw [hr, Option.map_some, Database.rewrite_some hw] at hsame
          have hdone : ReservationStatus.completed = r.status :=
            congrArg Reservation.status (Option.some.inj hsame)
          rw [hconf] at hdone
          cases hdone
        | reservationUpdateMany =>
          let e₂ : StatusChange := { tid := t, id := r.id, old := r.status, new := .completed }
          refine ⟨e₁, e₂, ?_, ⟨hid₁, hnew₁⟩, hid, hconf, rfl⟩
          refine (List.singleton_sublist.mpr he₁).append (List.singleton_sublist.mpr ?_)
          exact List.mem_map.mpr ⟨r, List.mem_filter.mpr ⟨Table.mem_of_find? hr, hm⟩, rfl⟩
      | _ => cases hw

/-- No reservation has changed, and no review has been added. -/
structure Rests (s s' : Store) : Prop where
  logged : Logged s.booking.db → Logged s'.booking.db
  reservations : s'.booking.db.reservations = s.booking.db.reservations
  log : s'.booking.db.statusLog = s.booking.db.statusLog
  reviews : s'.reviews.rows.Sublist s.reviews.rows
  submissions : s'.submissions = s.submissions
  clock : s.clock ≤ s'.clock

theorem Rests.vouched (h : Rests s s') (hv : Vouched s) : Vouched s' := by
  constructor
  · exact h.logged hv.logged
  · intro id r hr hs
    rw [h.reservations] at hr
    obtain ⟨hf, hout⟩ := hv.finished id r hr hs
    exact ⟨h.log ▸ hf, Int.lt_of_lt_of_le hout h.clock⟩
  · exact (h.reviews.map _).nodup hv.unique
  · intro v hmem
    rw [h.submissions]
    exact hv.submitted v (h.reviews.subset hmem)

theorem Rests.onward (h : Rests s s') : Onward s s' := by
  refine ⟨?_, ?_, h.clock⟩
  · rw [h.reservations]
    exact .refl Stays.refl _
  · exact h.log.symm ▸ List.prefix_rfl

theorem Rests.of_db (hd : s'.booking.db = s.booking.db) (hv : s'.reviews = s.reviews)
    (hm : s'.submissions = s.submissions) (hc : s.clock ≤ s'.clock) : Rests s s' :=
  { logged := fun h => hd ▸ h
    reservations := congrArg Database.reservations hd
    log := congrArg Database.statusLog hd
    reviews := hv ▸ List.Sublist.refl _
    submissions := hm
    clock := hc }

/-- The listings have changed. -/
theorem Rests.of_listings (ls : Table ListingRow) (hc : s.clock ≤ now) {rs : Table Review}
    (hv : rs.rows.Sublist s.reviews.rows) {bs : Table AvailabilityBlock} {ms : List Removal} :
    Rests s { s.withListings ls with reviews := rs, blocks := bs, removals := ms, clock := now } :=
  { logged := fun h => h.of_eq rfl rfl h.pending
    reservations := rfl
    log := rfl
    reviews := hv
    submissions := rfl
    clock := hc }

/-- What a statement of thread `t` on behalf of the call `c` does to the invariant, to the
past and to the two histories. -/
structure Steps (s : Store) (t : Nat) (c : Call) (s' : Store) : Prop where
  vouched : Vouched s'
  onward : Onward s s'
  changes : ∀ e ∈ s'.booking.db.statusLog, e ∈ s.booking.db.statusLog ∨ e.tid = t ∧ Accounted c e
  submissions : ∀ m ∈ s'.submissions, m ∈ s.submissions ∨ m.tid = t ∧ Backs c m s'

theorem Rests.steps {c : Call} (h : Rests s s') (hv : Vouched s) : Steps s t c s' :=
  { vouched := h.vouched hv
    onward := h.onward
    changes := fun _ he => .inl (h.log ▸ he)
    submissions := fun _ hm => .inl (h.submissions ▸ hm) }

theorem Vouched.booking {c : NoOverlap.Call} {o : NoOverlap.Statement} {ch : Choice}
    {res : Except Err o.Resp} {b : NoOverlap.Store} (h : Vouched s) (hi : c.Issues o)
    (hready : Ready (.booking c) (.booking o) s) (hnow : s.clock ≤ ch.now)
    (hx : o.exec t ch s.booking = some (res, b)) (hl : b.db.listings = s.booking.db.listings) :
    Steps s t (.booking c) { s.withBooking b hl with clock := ch.now } := by
  rcases NoOverlap.Statement.exec_db hx with he | ⟨o', rfl, r', hd⟩
  · exact Rests.steps (.of_db he rfl rfl hnow) h
  · have heff := Database.effect_of_perform hd
    have hlog : ∃ new, b.db.statusLog = s.booking.db.statusLog ++ new ∧
        ∀ e ∈ new, s.booking.db.Recorded t o' e := by
      rcases heff.appended with he | ⟨new, he, hnew⟩
      · exact ⟨[], by rw [he, List.append_nil], fun e h => by cases h⟩
      · exact ⟨new, he, fun e h => (hnew e).mp h⟩
    obtain ⟨new, hlog, hnew⟩ := hlog
    have hprefix : s.booking.db.statusLog <+: b.db.statusLog := ⟨new, hlog.symm⟩
    refine ⟨⟨h.logged.effect hi heff, ?_, h.unique, h.submitted⟩,
      ⟨stays_of_effect heff, hprefix, hnow⟩, ?_, fun _ hm => .inl hm⟩
    · intro id r hr hs
      have hby : ∀ f, o' = .reservationUpdateMany f .completed →
          ∃ by', f = finishedStays by' ∧ by' ≤ ch.now := by
        rintro f rfl
        obtain ⟨by', hf, hle⟩ := hready rfl
        exact ⟨by', hf, Int.le_trans hle hnow⟩
      rcases completed_of_effect h.logged hi heff hby hr hs with hold | hdone
      · obtain ⟨hf, hout⟩ := h.finished id r hold hs
        exact ⟨hf.mono hprefix, Int.lt_of_lt_of_le hout hnow⟩
      · exact hdone
    · intro e he
      have he : e ∈ b.db.statusLog := he
      rw [hlog, List.mem_append] at he
      rcases he with hold | hadd
      · exact .inl hold
      · exact .inr ⟨(hnew e hadd).1, accounted_of_recorded hi (hnew e hadd)⟩

/-- A read by any call. -/
theorem db_of_reservationFindFirst {id guestId : Id} {ch : Choice}
    {res : Except Err (Option Reservation)} {b : NoOverlap.Store}
    (hx : (NoOverlap.Statement.db (.reservationFindFirst id guestId)).exec t ch s.booking =
      some (res, b)) : b.db = s.booking.db := by
  rcases NoOverlap.Statement.exec_db hx with he | ⟨o', heq, r', hd⟩
  · exact he
  · cases heq
    exact (congrArg Prod.snd (Option.some.inj hd)).symm

theorem Vouched.steps {c : Call} {o : Statement} {r : Except Err o.Resp} {ch : Choice}
    (h : Vouched s) (hi : c.Issues o) (hready : Ready c o s) (hnow : s.clock ≤ ch.now)
    (hx : o.exec t ch s = some (r, s')) : Steps s t c s' := by
  obtain ⟨r', s₁, heff, rfl, -⟩ := effect_of_exec hx
  cases heff with
  | booking o ch' res b hch hb hl =>
    rw [← hch] at hnow ⊢
    rcases issues_booking hi with ⟨c', rfl, hi'⟩ | ⟨id, guestId, rfl⟩
    · exact h.booking hi' hready hnow hb hl
    · exact Rests.steps (.of_db (db_of_reservationFindFirst hb) rfl rfl hnow) h
  | create | update => exact Rests.steps (.of_listings _ hnow (List.Sublist.refl _)) h
  | delete id row hf hlock hb => exact Rests.steps (.of_listings _ hnow List.filter_sublist) h
  | reviewCreate data id r hid hu hr =>
    obtain ⟨r', dto, hc, hdto, hr', hlist, hfin, hout⟩ := hready
    have hrows : (s.reviews.insert (data.row id ch.now)).rows =
        s.reviews.rows ++ [data.row id ch.now] := Table.insert_of_fresh hid
    have hback : Backs c { tid := t, review := data.row id ch.now, log := s.booking.db.statusLog }
        { s.reviewed t (data.row id ch.now) with clock := ch.now } :=
      ⟨r', dto, hc, hdto, hr', hlist, Int.lt_of_lt_of_le hout hnow, hfin, List.prefix_rfl⟩
    have honward : Onward s { s.reviewed t (data.row id ch.now) with clock := ch.now } :=
      ⟨.refl Stays.refl _, List.prefix_rfl, hnow⟩
    refine ⟨⟨h.logged, ?_, ?_, ?_⟩, honward, fun e he => .inl he, ?_⟩
    · intro id r hr hs
      obtain ⟨hf, hend⟩ := h.finished id r hr hs
      exact ⟨hf, Int.lt_of_lt_of_le hend hnow⟩
    · simp only [Store.reviewed, hrows, List.map_append, List.map_singleton]
      refine List.nodup_append.mpr ⟨h.unique, List.nodup_singleton _, ?_⟩
      rintro _ hmem _ hnew rfl
      obtain ⟨v, hv, hvid⟩ := List.mem_map.mp hmem
      rw [List.mem_singleton] at hnew
      have hany := List.any_eq_false.mp hu v hv
      exact hany (beq_iff_eq.mpr (hvid.trans hnew))
    · intro v hv
      simp only [Store.reviewed, hrows, List.mem_append, List.mem_singleton] at hv ⊢
      rcases hv with hold | rfl
      · obtain ⟨m, hm, hrev⟩ := h.submitted v hold
        exact ⟨m, .inl hm, hrev⟩
      · exact ⟨_, .inr rfl, rfl⟩
    · intro m hm
      simp only [Store.reviewed, List.mem_append, List.mem_singleton] at hm
      rcases hm with hold | rfl
      · exact .inl hold
      · exact .inr ⟨rfl, hback⟩
  | read | refused | blockCreate | blockDeleteMany =>
    exact Rests.steps (.of_db rfl rfl rfl hnow) h

/-! ## Runs -/

/-- What the calls do about the past of a reservation. -/
def backing : RelyGuarantee Store Call Statement.Resp Err Reply :=
  { Step := fun a s o r s' => a.call.Issues o ∧
      ∃ ch : Choice, s.clock ≤ ch.now ∧ o.exec a.tid ch s = some (r, s')
    Inv := Vouched
    Rely := fun _ => Onward
    Guar := fun a s _ _ s' => Steps s a.tid a.call s'
    Post := fun _ _ _ => True
    Fresh := fun _ _ => True
    Lost := fun _ _ => True }

namespace Reviews

variable {a : Agent}

theorem steps_of_step {o : Statement} {r : Except Err o.Resp} (hi : Vouched s)
    (hready : Ready a.call o s) (hx : backing.Step a s o r s') : Steps s a.tid a.call s' := by
  obtain ⟨hissues, ch, hnow, hx⟩ := hx
  exact hi.steps hissues hready hnow hx

/-- A program whose statements the call is ready for, by what it knows throughout. -/
theorem safe_of_ready {α : Type} {A : Statement → Prop} {K : Store → Prop} {p : Async α}
    (hK : ∀ s s', Onward s s' → K s → K s') (hready : ∀ s o, A o → K s → Ready a.call o s)
    (hp : p.Uses A) (hk : K s) : backing.Safe a (fun _ _ => True) p s := by
  refine (Safe.of_uses (K := K) hK ?_ hp hk).imp fun _ _ _ => trivial
  intro s o r s' ho hi hk hx
  have h := steps_of_step hi (hready s o ho hk) hx
  exact ⟨h.vouched, h, hK _ _ h.onward hk⟩

/-- A program that every call is ready for. -/
theorem safe_of_idle {α : Type} {p : Async α} (hp : p.Uses fun o => ∀ s, Ready a.call o s) :
    backing.Safe a (fun _ _ => True) p s :=
  safe_of_ready (K := fun _ => True) (fun _ _ _ _ => trivial) (fun s _ ho _ => ho s) hp trivial

/-- The sweep writes with a reading of the clock that it has made before. -/
theorem safe_sweepCompletedStays :
    backing.Safe a (fun _ _ => True) (ofBooking sweepCompletedStays) s := by
  unfold sweepCompletedStays sweep
  simp only [ofBooking_bind]
  have hread : ∀ {o : NoOverlap.Statement} {s : Store}, (∀ s, Ready a.call (.booking o) s) →
      backing.Safe a (fun _ _ => True) (ofBooking (NoOverlap.await o)) s :=
    fun h => safe_of_idle (ofBooking_uses (uses_op rfl) fun o ho => ho ▸ h)
  refine Safe.seq (hread fun _ => trivial) fun readAt s₁ _ => ?_
  refine Safe.seq (hread fun _ => trivial) fun candidates s₂ _ => ?_
  refine Safe.op_bind fun s₃ _ hi r s₄ hx => ?_
  have hsteps := steps_of_step (o := .booking (.host .newDate)) hi trivial hx
  refine ⟨hsteps.vouched, hsteps, ?_⟩
  obtain ⟨-, ch, -, hx⟩ := hx
  obtain ⟨b, hl, hb, rfl⟩ := exec_booking hx
  cases r with
  | error e => trivial
  | ok writeAt =>
    have hnow : writeAt = ch.now := by
      rw [NoOverlap.Statement.exec_of_not_fallible rfl] at hb
      cases hb
      rfl
    refine safe_of_ready (K := fun s => writeAt ≤ s.clock)
      (A := fun o => o = .booking (.db (.reservationUpdateMany (finishedStays writeAt) .completed)) ∨
        ∀ s, Ready a.call o s) ?_ ?_ ?_ (Int.le_of_eq hnow)
    · exact fun s s' ho hk => Int.le_trans hk ho.clock
    · rintro s o (rfl | ho) hk
      · exact fun _ => ⟨writeAt, rfl, hk⟩
      · exact ho s
    · refine Uses.bind (ofBooking_uses (uses_op rfl) fun o ho => ho ▸ .inl rfl) fun _ => ?_
      refine Uses.bind (ofBooking_uses (A := fun o => ∀ s, Ready a.call (.booking o) s) ?_
        fun o ho => .inr ho) fun _ => uses_pure _
      exact uses_forM fun r => publishReservationChanged_uses _ _ _ (fun _ => trivial)
        fun _ _ => trivial

/-- Reviewing a stay. -/
theorem safe_create {guestId : Id} {dto : CreateReviewDto}
    (hc : a.call = .createReview guestId dto) :
    backing.Safe a (fun _ _ => True) (ReviewsService.create guestId dto) s := by
  refine Safe.bind (safe_getOwned fun s₁ _ hi r s₂ hx => ?_)
  have hsteps := steps_of_step
    (o := .booking (.db (.reservationFindFirst dto.reservationId guestId))) hi trivial hx
  refine ⟨hsteps.vouched, hsteps, fun _ => trivial, ?_⟩
  rintro row rfl
  obtain ⟨-, ch, hnow, hx⟩ := hx
  obtain ⟨rfl, hrow, hguest⟩ := find?_of_reservationFindFirst hx
  rw [cont_ok, ReviewsService.submit]
  by_cases hs : row.status = .completed
  · rw [if_neg (not_not_intro hs)]
    -- The row is not read again, but its past is still there when the review is written.
    obtain ⟨hf, hout⟩ := hi.finished _ row hrow hs
    let data : ReviewData :=
      { reservationId := dto.reservationId, listingId := row.listingId, rating := dto.rating,
        body := dto.body }
    have hknown : Eligible a.call data { s₁ with clock := ch.now } :=
      ⟨row, dto, hguest ▸ hc, rfl, hrow, rfl, hf, Int.lt_of_lt_of_le hout hnow⟩
    refine safe_of_ready (K := Eligible a.call data) (A := fun o => o = .reviewCreate data)
      (fun s s' ho hk => hk.onward ho) (fun s o ho hk => ho ▸ hk) ?_ hknown
    exact Uses.tryCatch (uses_op rfl) fun _ => uses_ite (fun _ => uses_throw _) fun _ => uses_throw _
  · rw [if_pos hs]
    trivial

/-- The statements of a call that neither sweeps stays nor reviews one. -/
theorem ready_of_issues {c : Call} {o : Statement} (hi : c.Issues o)
    (hsweep : c ≠ .booking .sweepCompletedStays) (hreview : ∀ guestId dto, c ≠ .createReview guestId dto)
    (s : Store) : Ready c o s := by
  cases o with
  | reviewCreate data =>
    obtain ⟨guestId, dto, heq, -⟩ := hi
    exact (hreview guestId dto heq).elim
  | booking o =>
    rcases issues_booking hi with ⟨c', rfl, hi'⟩ | ⟨id, guestId, rfl⟩
    · cases o with
      | db o =>
        cases o with
        | reservationUpdateMany f status =>
          intro hs
          subst hs
          cases c' with
          | sweepCompletedStays => exact (hsweep rfl).elim
          | applyPaymentSucceeded | applyPaymentFailed => cases hi'.2
          | processResult jobId r => cases r <;> cases hi'.2
          | sweepExpiredHolds =>
            obtain ⟨_, -, h⟩ := hi'
            cases h
          | _ => exact hi'.elim
        | _ => trivial
      | _ => trivial
    · trivial
  | _ => trivial

theorem safe_program (cfg : Config) {c : Call} (hc : a.call = c) :
    backing.Safe a (fun _ _ => True) (c.program cfg) s := by
  by_cases hsweep : c = .booking .sweepCompletedStays
  · subst hsweep
    refine safe_answer ?_
    rw [NoOverlap.Call.program, NoOverlap.answer, ofBooking_bind]
    exact Safe.seq safe_sweepCompletedStays fun _ _ _ => trivial
  · by_cases hreview : ∃ guestId dto, c = .createReview guestId dto
    · obtain ⟨guestId, dto, rfl⟩ := hreview
      exact safe_answer (safe_create hc)
    · refine safe_of_idle ((program_issues cfg c).mono fun o hi s => ?_)
      rw [hc]
      exact ready_of_issues hi hsweep (fun guestId dto h => hreview ⟨guestId, dto, h⟩) s

theorem vouched_init (listings : Table ListingRow) (now : Int) :
    Vouched (Store.init listings now) :=
  { logged := Logged.init _
    finished := fun id r hr => by (cases hr)
    unique := List.nodup_nil
    submitted := fun v hv => by (cases hv) }

theorem rests_spawned {c : Call} (hs : s.spawned c = some s') : Rests s s' := by
  rcases Archive.spawned_eq hs with rfl | ⟨b, hl, hb, rfl⟩
  · exact .of_db rfl rfl rfl (Int.le_refl _)
  · exact .of_db hb rfl rfl (Int.le_refl _)

theorem rests_returned (t : Nat) (c : Call) (r : Except Err Reply) (s : Store) :
    Rests s (s.returned t c r) := by
  rcases Archive.returned_eq t c r s with he | ⟨b, hl, hb, he⟩
  · rw [he]
    exact .of_db rfl rfl rfl (Int.le_refl _)
  · rw [he]
    exact .of_db hb rfl rfl (Int.le_refl _)

theorem rests_killed (t : Nat) (c : Call) (s : Store) : Rests s (s.killed t c) :=
  { logged := fun h => h.rollback t
    reservations := rfl
    log := rfl
    reviews := List.Sublist.refl _
    submissions := rfl
    clock := Int.le_refl _ }

theorem sound (cfg : Config) (listings : Table ListingRow) (now : Int) :
    Sound backing (system cfg) clockForward (Store.init listings now) where
  start := vouched_init listings now
  fresh_start := fun _ => trivial
  rely_refl := fun _ => Onward.refl
  rely_trans := fun _ _ _ _ => Onward.trans
  guar_rely := fun _ _ _ _ _ _ _ h => h.onward
  fresh_stable := fun _ _ _ _ _ => trivial
  post_stable := fun _ _ _ _ _ _ _ => trivial
  lost_stable := fun _ _ _ _ _ => trivial
  step := fun w hr t c o k ch r s' ht hp hx =>
    ⟨hr.uses_head (program_issues cfg) ht, ch, of_decide_eq_true hp, hx⟩
  spawn := by
    intro t c s s' hi _ _ hs
    have h := rests_spawned hs
    exact ⟨h.vouched hi, fun _ => h.onward, safe_program cfg rfl⟩
  ret := by
    intro t c r s hi _
    have h := rests_returned t c r s
    exact ⟨h.vouched hi, fun _ => h.onward⟩
  kill := by
    intro t c p s hi _
    have h := rests_killed t c s
    exact ⟨h.vouched hi, fun _ _ => h.onward, trivial⟩

end Reviews

/-- Thread `t` serves the call `c`, or has served it. -/
def Serves (w : World) (t : Nat) (c : Call) : Prop := ∃ th, w.threads[t]? = some th ∧ th.call = c

/-- Whatever bookings, payments, sweeps and reviews do to each other, as long as no reading of
the clock is earlier than one before it: no two reviews are of one reservation; a review is of
the listing its reservation is of; the call that wrote it was made by the guest; and before
that, a payment result had confirmed the reservation and then the sweep had completed it,
after its check-out. -/
theorem reviews_are_backed {cfg : Config} {listings : Table ListingRow} {now : Int} {w : World}
    (hr : (system cfg).Reaches clockForward (Concurrency.World.start (Store.init listings now)) w) :
    (w.shared.reviews.rows.map (·.reservationId)).Nodup ∧
    ∀ v ∈ w.shared.reviews.rows, ∃ r,
      w.shared.booking.db.reservations.find? v.reservationId = some r ∧
      r.listingId = v.listingId ∧ r.checkOut < v.createdAt ∧
      ∃ m ∈ w.shared.submissions, m.review = v ∧ m.log <+: w.shared.booking.db.statusLog ∧
        (∃ dto, Serves w m.tid (.createReview r.guestId dto) ∧
          dto.reservationId = v.reservationId) ∧
        ∃ e₁ e₂, [e₁, e₂].Sublist m.log ∧
          (e₁.id = v.reservationId ∧ e₁.new = .confirmed ∧
            ∃ c, Serves w e₁.tid c ∧ c.Confirms v.reservationId) ∧
          (e₂.id = v.reservationId ∧ e₂.old = .confirmed ∧ e₂.new = .completed ∧
            Serves w e₂.tid (.booking .sweepCompletedStays)) := by
  have hsound := Reviews.sound cfg listings now
  have hinv := hsound.inv hr
  have hsub := hsound.accounts (A := Backs) (L := Store.submissions) (i := Submission.tid) rfl
    (fun _ _ _ _ _ ho hb => hb.onward ho) (fun c s s' hs => (Reviews.rests_spawned hs).submissions)
    (fun a s o r s' _ h => h.submissions)
    (fun t c r s => (Reviews.rests_returned t c r s).submissions)
    (fun t c s => (Reviews.rests_killed t c s).submissions) hr
  have hlog := hsound.accounts (A := fun c e _ => Accounted c e)
    (L := fun s => s.booking.db.statusLog) (i := StatusChange.tid) rfl
    (fun _ _ _ _ _ _ h => h) (fun c s s' hs => (Reviews.rests_spawned hs).log)
    (fun a s o r s' _ h => h.changes) (fun t c r s => (Reviews.rests_returned t c r s).log)
    (fun t c s => (Reviews.rests_killed t c s).log) hr
  refine ⟨hinv.unique, fun v hv => ?_⟩
  obtain ⟨m, hm, rfl⟩ := hinv.submitted v hv
  obtain ⟨th, ht, r, dto, hc, hdto, hf, hl, hout, hfin, hprefix⟩ := hsub m hm
  obtain ⟨e₁, e₂, hs, ⟨hid₁, hnew₁⟩, hid₂, hold₂, hnew₂⟩ := hfin
  have hmem : ∀ e ∈ [e₁, e₂], e ∈ w.shared.booking.db.statusLog :=
    fun e he => hprefix.subset (hs.subset he)
  obtain ⟨th₁, ht₁, hacc₁, -⟩ := hlog e₁ (hmem e₁ (by simp))
  obtain ⟨th₂, ht₂, -, hacc₂⟩ := hlog e₂ (hmem e₂ (by simp))
  refine ⟨r, hf, hl, hout, m, hm, rfl, hprefix, ⟨dto, ⟨th, ht, hc⟩, hdto⟩, e₁, e₂, hs, ?_, ?_⟩
  · exact ⟨hid₁, hnew₁, th₁.call, ⟨th₁, ht₁, rfl⟩, hid₁ ▸ hacc₁ hnew₁⟩
  · exact ⟨hid₂, hold₂, hnew₂, th₂, ht₂, hacc₂ hnew₂⟩

/-! ## A stay that is booked, paid, finished and reviewed -/

namespace Sample

/-- An event of the booking module. -/
def ofBooking : NoOverlap.Event → Event
  | .spawn c => .spawn (.booking c)
  | .step t ch => .step t ch
  | .ret t => .ret t
  | .kill t => .kill t

/-- The next `n` statements of thread `t`, after the stay. -/
def later (t n : Nat) : List Event := List.replicate n (.step t { now := 2000000000, id := 9 })

def reviewing : List Event :=
  (NoOverlap.Scenario.place 0 NoOverlap.Scenario.stay 5 6).map ofBooking ++
  .spawn (.booking (.applyPaymentSucceeded 5)) ::
    (NoOverlap.Scenario.steps 1 4).map ofBooking ++ [.ret 1] ++
  .spawn (.booking .sweepCompletedStays) :: later 2 6 ++ [.ret 2] ++
  .spawn (.createReview 1 { reservationId := 5, rating := 4, body := none }) :: later 3 2

end Sample

open Sample in
theorem reviews_are_backed_reviewed :
    ∃ w v r, (system NoOverlap.Scenario.cfg).Reaches clockForward
        (Concurrency.World.start (Store.init houses 0)) w ∧ v ∈ w.shared.reviews.rows ∧
      w.shared.booking.db.reservations.find? v.reservationId = some r ∧
      r.listingId = v.listingId ∧ r.checkOut < v.createdAt := by
  have hrun : ((system NoOverlap.Scenario.cfg).run clockForward
      (Concurrency.World.start (Store.init houses 0)) reviewing).any
        (fun w => w.shared.reviews.rows.length == 1) = true := by
    decide +kernel
  obtain ⟨w, hr, ht⟩ := Machine.exists_reaches_of_run hrun
  obtain ⟨v, hv⟩ := List.length_eq_one_iff.mp (beq_iff_eq.mp ht)
  have hmem : v ∈ w.shared.reviews.rows := by rw [hv]; exact List.mem_singleton_self v
  obtain ⟨r, hf, hl, hout, -⟩ := (reviews_are_backed hr).2 v hmem
  exact ⟨w, v, r, hr, hmem, hf, hl, hout⟩

end Platform

end NoOverlap
