import NoOverlap.Data.Roster
import NoOverlap.Holds.Deeds
import NoOverlap.Lifecycle.Claim
import NoOverlap.Lifecycle.History

/-!
# The desk behind the bookings

The active reservations of the database, read as a roster of stays: a held one is tentative, a
confirmed one firm, and the others have given their nights up.  `noted` says what a statement
asks of that desk.  Most ask nothing.  A commit enters the row its transaction has inserted, an
insert that meets the constraint is a refusal, and a write of a status confirms or gives up.

`shows_of_exec` is the simulation: the desk can do what a statement asks of it, and afterwards
shows the database the statement has left.
-/

namespace NoOverlap

open Relational Concurrency
open Roster (Claim Standing)
open Holds (error_of_exec error_of_perform Met)

/-! ## The roster of the active reservations -/

abbrev Desk := Roster Id Id Int

abbrev Desk.Op := Roster.Op Id Id Int

def ReservationStatus.standing : ReservationStatus → Option Standing
  | held => some .tentative
  | confirmed => some .firm
  | _ => none

def Reservation.claim (r : Reservation) : Claim Id Int :=
  { resource := r.listingId, start := r.checkIn, stop := r.checkOut }

def Reservation.entry (r : Reservation) : Option (Claim Id Int × Standing) :=
  r.status.standing.map fun s => (r.claim, s)

/-- The stay that a row would take, if its dates are valid. -/
def ReservationData.claim (data : ReservationData) : Option (Claim Id Int) :=
  match data.checkIn, data.checkOut with
  | some a, some b => some { resource := data.listingId, start := a, stop := b }
  | _, _ => none

/-- The desk `R` shows the active reservations of `d`. -/
def Shows (R : Desk) (d : Database) : Prop :=
  ∀ id, R.entry id = (d.reservations.find? id).bind Reservation.entry

variable {R : Desk} {d d' : Database} {t : Nat} {ch : Choice} {s s' : Store}

theorem entry_eq_some {r : Reservation} {x : Claim Id Int × Standing} (h : r.entry = some x) :
    r.status.active = true ∧ x.1 = r.claim := by
  obtain ⟨s, hs, rfl⟩ := Option.map_eq_some_iff.mp h
  refine ⟨?_, rfl⟩
  cases hr : r.status with
  | held | confirmed => rfl
  | _ => rw [hr] at hs; cases hs

theorem entry_of_active {r : Reservation} (h : r.status.active = true) :
    ∃ s, r.entry = some (r.claim, s) := by
  unfold Reservation.entry
  cases hr : r.status with
  | held => exact ⟨.tentative, rfl⟩
  | confirmed => exact ⟨.firm, rfl⟩
  | _ => rw [hr] at h; cases h

/-- The constraint is about points that two active rows share. -/
theorem conflicts_iff {r r' : Reservation} :
    r.conflicts r' = true ↔
      r.status.active = true ∧ r'.status.active = true ∧
        ¬Disjoint r.claim.points r'.claim.points := by
  simp only [Reservation.conflicts, rangesIntersect, Roster.not_disjoint_points, Reservation.claim,
    Bool.and_eq_true, beq_iff_eq, decide_eq_true_eq, and_assoc]

/-- A stay is free at the desk if no committed row is in its way. -/
theorem Shows.free_iff (hR : Shows R d) {row : Reservation} (ha : row.status.active = true) :
    R.Free row.claim ↔ d.reservations.rows.any row.conflicts = false := by
  constructor
  · intro hfree
    refine List.any_eq_false.mpr fun r hr hc => ?_
    obtain ⟨-, ha', hmeet⟩ := conflicts_iff.mp hc
    obtain ⟨s, hs⟩ := entry_of_active ha'
    have hentry : R.entry r.id = some (r.claim, s) := by
      rw [hR, show d.reservations.find? r.id = some r from Table.find?_of_mem hr]
      exact hs
    exact hmeet (hfree r.id _ hentry)
  · intro hnone k x hx
    rw [hR] at hx
    obtain ⟨r, hr, hentry⟩ := Option.bind_eq_some_iff.mp hx
    obtain ⟨ha', hclaim⟩ := entry_eq_some hentry
    have hc := List.any_eq_false.mp hnone r (Table.mem_of_find? hr)
    rw [conflicts_iff] at hc
    rw [hclaim]
    by_contra hmeet
    exact hc ⟨ha, ha', hmeet⟩

/-- A database with the same rows looks the same. -/
theorem Shows.of_eq (hR : Shows R d) (h : d'.reservations = d.reservations) : Shows R d' := by
  intro id
  rw [h]
  exact hR id

/-! ## What a statement asks of the desk -/

def Desk.move (source target : ReservationStatus) (id : Id) : Desk.Op :=
  match source, target with
  | .held, .confirmed => .confirm id
  | .held, _ => .withdraw id .tentative
  | .confirmed, _ => .withdraw id .firm
  | _, _ => .cancel id

/-- The statement has written a status. -/
def wrote (s s' : Store) : Bool := s'.db.statusLog.length != s.db.statusLog.length

def noted : (o : Statement) → Except Err o.Resp → Store → Store → List Desk.Op
  | .db .commit, _, s, s' =>
    (s.db.reservations.added s'.db.reservations).map fun r => .grant r.id r.claim
  | .db (.reservationCreate data), .error e, _, _ =>
    if e.isExclusionViolation then data.claim.toList.map .refuse else []
  | .db (.reservationUpdate id _ _), _, s, s' => if wrote s s' then [.cancel id] else []
  | .db (.reservationUpdateMany filter status), _, s, s' =>
    if wrote s s' then
      (s.db.reservations.rows.filter filter.matches).map fun r =>
        Desk.move filter.status status r.id
    else []
  | _, _, _, _ => []

/-- The statements that may ask something of the desk. -/
def asks : Statement → Bool
  | .db .commit | .db (.reservationCreate _) | .db (.reservationUpdate _ _ _)
  | .db (.reservationUpdateMany _ _) => true
  | _ => false

theorem noted_of_not_asks {o : Statement} {r : Except Err o.Resp} (h : asks o = false) :
    noted o r s s' = [] := by
  cases o with
  | db o => cases o <;> first | rfl | cases h
  | _ => rfl

theorem wrote_of_eq (h : s'.db.statusLog = s.db.statusLog) : wrote s s' = false := by
  simp [wrote, h]

/-- A failure that tells no lie: the environment makes up neither an exception of the
application nor a violation of the constraint, and does not call a commit that took effect the
victim of a deadlock. -/
def truthful (o : Statement) : Fault → Bool
  | .none => true
  | .before e => !e.isApp && !e.isExclusionViolation
  | .after e => !e.isApp && !e.isExclusionViolation && match o with
    | .db .commit => !e.isDeadlock
    | _ => true

theorem not_exclusion_of_truthful {o : Statement} {e : Err} (h : truthful o ch.fault = true)
    (he : ch.fault = .before e ∨ ch.fault = .after e) : e.isExclusionViolation = false := by
  rcases he with he | he
  · simp only [truthful, he, Bool.and_eq_true, Bool.not_eq_true'] at h
    exact h.2
  · simp only [truthful, he, Bool.and_eq_true, Bool.not_eq_true'] at h
    exact h.1.2

theorem not_app_of_truthful {o : Statement} {e : Err} (h : truthful o ch.fault = true)
    (hx : o.exec t ch s = some (.error e, s')) : e.isApp = false := by
  rcases error_of_exec hx with (he | he) | ⟨o', d, rfl, hd⟩
  · simp only [truthful, he, Bool.and_eq_true, Bool.not_eq_true'] at h
    exact h.1
  · simp only [truthful, he, Bool.and_eq_true, Bool.not_eq_true'] at h
    exact h.1.1
  · exact (error_of_perform hd).1

/-! ## The simulation -/

/-- A transaction inserts one reservation at most, and holds it. -/
def Single (d : Database) : Prop :=
  ∀ tx ∈ d.transactions.rows, tx.reservations = [] ∨ ∃ r, tx.reservations = [r] ∧ r.status = .held

/-- The thread has inserted no reservation. -/
def Blank (t : Nat) (d : Database) : Prop :=
  ∀ tx, d.transactions.find? t = some tx → tx.reservations = []

/-- The desk can do what has been noted, and shows what the statement has left. -/
def Follows (R : Desk) (L : List Desk.Op) (d : Database) : Prop :=
  ∃ R', History Roster.Step R L R' ∧ Shows R' d

theorem follows_nil (hR : Shows R d) (h : d'.reservations = d.reservations) : Follows R [] d' :=
  ⟨R, .nil R, hR.of_eq h⟩

theorem Single.effect {o : DbStatement} {r : Except Err o.Resp} (h : Single d)
    (hblank : Inserts (.db o) → Blank t d) (hx : d.Effect t o r d') : Single d' := by
  cases hx with
  | begin => exact Database.forall_begin h (.inl rfl)
  | reservationCreate data tx row ht hs =>
    refine Database.forall_setTransaction h fun tx₁ hmem htid _ => .inr ⟨row, ?_, hs⟩
    have hempty : tx₁.reservations = [] :=
      hblank trivial tx₁ (Table.find?_eq_some.mpr ⟨hmem, htid⟩)
    show tx₁.reservations ++ [row] = [row]
    rw [hempty, List.nil_append]
  | outboxCreate | selectUnpublished | outboxMarkPublished =>
    exact Database.forall_setTransaction h fun _ _ _ htx => htx
  | commit tx ht => exact fun tx' htx' => h tx' (Table.mem_erase.mp htx').1
  | rollback => exact Database.forall_rollback h
  | reservationUpdate id status seen r hr =>
    simp only [Database.reservationUpdate, hr]
    exact h
  | paymentUpdate key data p hp =>
    simp only [Database.paymentUpdate, hp]
    exact h
  | _ => exact h

/-- The rows that a commit adds are those of its transaction. -/
theorem added_of_commit {tx : Transaction} (ha : Apart d)
    (ht : d.transactions.find? t = some tx) :
    d.reservations.added (d.apply tx).reservations = tx.reservations := by
  have hnew := ha.new_reservations ht
  have hrows : (d.apply tx).reservations.rows = d.reservations.rows ++ tx.reservations :=
    Table.rows_insertAll hnew
  refine Table.added_of_rows hrows fun r hr => Table.find?_eq_none.mpr fun r' hr' => ?_
  exact (List.pairwise_append.mp hnew).2.2 r' hr' r hr

/-- A commit enters the row that its transaction has inserted. -/
theorem follows_of_commit {tx : Transaction} (hR : Shows R d) (ha : Apart d) (hone : Single d)
    (ht : d.transactions.find? t = some tx) :
    Follows R ((d.reservations.added (d.apply tx).reservations).map fun r => .grant r.id r.claim)
      (d.apply tx) := by
  have hnew := ha.new_reservations ht
  rw [added_of_commit ha ht]
  rcases hone tx (Table.mem_of_find? ht) with hnone | ⟨v, hv, hheld⟩
  · have hsame : (d.apply tx).reservations = d.reservations := by
      show d.reservations.insertAll tx.reservations = d.reservations
      rw [hnone]
      rfl
    rw [hnone]
    exact follows_nil hR hsame
  · rw [hv] at hnew
    have hfresh : d.reservations.find? v.id = none := by
      refine Table.find?_eq_none.mpr fun r hr => ?_
      exact (List.pairwise_append.mp hnew).2.2 r hr v List.mem_cons_self
    have hins : (d.apply tx).reservations = d.reservations.insert v := by
      show d.reservations.insertAll tx.reservations = d.reservations.insert v
      rw [hv]
      rfl
    have hactive : v.status.active = true := by rw [hheld]; rfl
    have hlive : v ∈ d.pending Transaction.reservations :=
      Database.mem_pending.mpr ⟨tx, Table.mem_of_find? ht, by rw [hv]; exact List.mem_cons_self⟩
    have hfree : R.Free v.claim := by
      refine (hR.free_iff hactive).mpr (List.any_eq_false.mpr fun r hr => ?_)
      have hsep := (List.pairwise_append.mp ha.reservations).2.2 r hr v hlive
      rw [hsep.symm.2]
      decide
    have habsent : R.entry v.id = none := by rw [hR, hfresh]; rfl
    rw [hv]
    refine ⟨R.grant v.id v.claim hfree, .single (.grant habsent hfree), fun id => ?_⟩
    rw [Roster.entry_grant, hins, Table.find?_insert hfresh]
    by_cases hid : key v = id
    · have hentry : v.entry = some (v.claim, .tentative) := by
        simp [Reservation.entry, hheld, ReservationStatus.standing]
      rw [if_pos hid, if_pos (show id = v.id from hid.symm)]
      exact hentry.symm
    · rw [if_neg hid, if_neg (show ¬id = v.id from fun he => hid he.symm)]
      exact hR id

/-- A row that is written in place. -/
theorem find?_reservationUpdate {id : Id} {status : ReservationStatus} (id' : Id) :
    (d.reservationUpdate t id status).2.reservations.find? id' =
      (d.reservations.find? id').map fun r =>
        if r.id = id then { r with status := status } else r := by
  unfold Database.reservationUpdate
  cases hr : d.reservations.find? id with
  | none =>
    cases hr' : d.reservations.find? id' with
    | none => rfl
    | some r' =>
      have hne : ¬r'.id = id := fun he => by
        have hkey : r'.id = id' := Table.key_of_find? hr'
        rw [← hkey, he, hr] at hr'
        cases hr'
      simp [hne]
  | some r => simp only [Table.find?_update, beq_iff_eq]

/-- A cancel gives the stay up, whatever its status was. -/
theorem follows_of_cancel (hR : Shows R d) (id : Id) :
    Follows R [.cancel id] (d.reservationUpdate t id .cancelled).2 := by
  refine ⟨R.drop id, .single .cancel, fun id' => ?_⟩
  rw [Roster.entry_drop, find?_reservationUpdate, hR]
  cases hr : d.reservations.find? id' with
  | none => simp
  | some r =>
    have hkey : r.id = id' := Table.key_of_find? hr
    by_cases hid : id' = id
    · have hrid : r.id = id := hkey.trans hid
      simp [hid, hrid, Reservation.entry, ReservationStatus.standing]
    · have hrid : ¬r.id = id := fun he => hid (hkey.symm.trans he)
      simp [hid, hrid]

theorem find?_reservationUpdateMany {f : ReservationWhere} {status : ReservationStatus} (id : Id) :
    (d.reservationUpdateMany t f status).2.reservations.find? id =
      (d.reservations.find? id).map fun r =>
        if f.matches r then { r with status := status } else r := by
  simp only [Database.reservationUpdateMany, Table.find?_update]

/-- The rows that `heldById` selects. -/
theorem filter_heldById (d : Database) (id : Id) :
    d.reservations.rows.filter (heldById id).matches = [] ∨
      ∃ r, d.reservations.find? id = some r ∧ r.status = .held ∧
        d.reservations.rows.filter (heldById id).matches = [r] := by
  have hkey : ∀ r : Reservation, (heldById id).matches r = true → key r = id := by
    intro r hr
    simp only [ReservationWhere.matches, heldById, Bool.and_eq_true, Option.all_some,
      beq_iff_eq] at hr
    exact hr.1.1.2.symm
  rcases List.eq_nil_or_concat (d.reservations.rows.filter (heldById id).matches) with hnil | hsome
  · exact .inl hnil
  · obtain ⟨L, r, hL⟩ := hsome
    have hmem : r ∈ d.reservations.rows.filter (heldById id).matches := by rw [hL]; simp
    obtain ⟨hr, hmatch⟩ := List.mem_filter.mp hmem
    have hfind : d.reservations.find? id = some r :=
      Table.find?_eq_some.mpr ⟨hr, hkey r hmatch⟩
    exact .inr ⟨r, hfind, ReservationWhere.status_eq hmatch,
      Table.filter_eq_singleton hkey hfind hmatch⟩

/-- Many rows of one standing give their nights up at once. -/
theorem follows_of_withdraw (hR : Shows R d) {f : ReservationWhere} {status : ReservationStatus}
    {x : Standing} (hsource : f.status.standing = some x) (htarget : status.standing = none) :
    Follows R ((d.reservations.rows.filter f.matches).map fun r => .withdraw r.id x)
      (d.reservationUpdateMany t f status).2 := by
  let ks := (d.reservations.rows.filter f.matches).map (·.id)
  have hks : ks.Nodup :=
    d.reservations.nodup.sublist (List.Sublist.map key List.filter_sublist)
  have hentries : ∀ k ∈ ks, ∃ c, R.entry k = some (c, x) := by
    intro k hk
    obtain ⟨r, hr, rfl⟩ := List.mem_map.mp hk
    obtain ⟨hmem, hmatch⟩ := List.mem_filter.mp hr
    refine ⟨r.claim, ?_⟩
    rw [hR, show d.reservations.find? r.id = some r from Table.find?_of_mem hmem]
    show r.entry = _
    rw [Reservation.entry, ReservationWhere.status_eq hmatch, hsource]
    rfl
  obtain ⟨R', hhist, hentry⟩ := Roster.withdrawAll hks hentries
  refine ⟨R', by rwa [List.map_map] at hhist, fun id => ?_⟩
  rw [hentry, find?_reservationUpdateMany, hR]
  cases hr : d.reservations.find? id with
  | none => simp
  | some r =>
    have hmem := Table.mem_of_find? hr
    have hkey : r.id = id := Table.key_of_find? hr
    by_cases hmatch : f.matches r = true
    · have hin : id ∈ ks := List.mem_map.mpr ⟨r, List.mem_filter.mpr ⟨hmem, hmatch⟩, hkey⟩
      simp [hin, hmatch, Reservation.entry, htarget]
    · have hout : id ∉ ks := by
        intro hin
        obtain ⟨r', hr', hid⟩ := List.mem_map.mp hin
        obtain ⟨hmem', hmatch'⟩ := List.mem_filter.mp hr'
        have hsame : r' = r := Table.eq_of_key_eq hmem' hmem (hid.trans hkey.symm)
        exact hmatch (hsame ▸ hmatch')
      simp [hout, hmatch]

/-- A held row becomes firm. -/
theorem follows_of_confirm (hR : Shows R d) (id : Id) :
    Follows R ((d.reservations.rows.filter (heldById id).matches).map fun r => .confirm r.id)
      (d.reservationUpdateMany t (heldById id) .confirmed).2 := by
  rcases filter_heldById d id with hnil | ⟨r, hr, hheld, hone⟩
  · rw [hnil]
    have hnobody : ∀ r ∈ d.reservations.rows, (heldById id).matches r = false :=
      fun r hr => Bool.eq_false_iff.mpr (List.filter_eq_nil_iff.mp hnil r hr)
    have hsame : (d.reservationUpdateMany t (heldById id) .confirmed).2.reservations =
        d.reservations := by
      simp only [Database.reservationUpdateMany, Table.update_eq_self hnobody]
    exact follows_nil hR hsame
  · have hkey : r.id = id := Table.key_of_find? hr
    have hentry : R.entry r.id = some (r.claim, .tentative) := by
      rw [hR, hkey, hr]
      simp [Reservation.entry, hheld, ReservationStatus.standing]
    rw [hone]
    refine ⟨R.confirm r.id, .single (.confirm hentry), fun id' => ?_⟩
    rw [Roster.entry_confirm, find?_reservationUpdateMany, hentry]
    have hmatches : ∀ r' : Reservation, d.reservations.find? id' = some r' →
        ((heldById id).matches r' = true ↔ id' = r.id) := by
      intro r' hr'
      have hmem' := Table.mem_of_find? hr'
      have hkey' : r'.id = id' := Table.key_of_find? hr'
      constructor
      · intro hm
        have hin : r' ∈ d.reservations.rows.filter (heldById id).matches :=
          List.mem_filter.mpr ⟨hmem', hm⟩
        rw [hone, List.mem_singleton] at hin
        rw [← hkey', hin]
      · intro he
        have hsame : r' = r := Table.eq_of_key_eq hmem' (Table.mem_of_find? hr)
          (hkey'.trans he)
        have hin : r ∈ d.reservations.rows.filter (heldById id).matches := by
          rw [hone]
          exact List.mem_singleton_self r
        exact hsame ▸ (List.mem_filter.mp hin).2
    cases hr' : d.reservations.find? id' with
    | none =>
      have hne : ¬id' = r.id := fun he => by
        rw [he, hkey, hr] at hr'
        cases hr'
      rw [if_neg hne, hR, hr']
      rfl
    | some r' =>
      by_cases hid : id' = r.id
      · have hsame : r' = r := by
          rw [hid, hkey, hr] at hr'
          exact (Option.some.inj hr').symm
        have hm := (hmatches r' hr').mpr hid
        subst hsame
        rw [if_pos hid, Option.map_some, Option.map_some, if_pos hm]
        rfl
      · have hm : ¬(heldById id).matches r' = true := fun hm => hid ((hmatches r' hr').mp hm)
        rw [if_neg hid, hR, hr']
        simp [hm]

/-- A refusal is one: some committed row is in the way of the stay. -/
theorem follows_of_refusal (hR : Shows R d) {data : ReservationData} (hblank : Blank t d)
    (hmet : Met d t data) :
    ∃ c, data.claim = some c ∧ History Roster.Step R [.refuse c] R := by
  obtain ⟨tx, row, ht, hheld, hlisting, hin, hout, hany⟩ := hmet
  have hclaim : data.claim = some row.claim := by
    simp only [ReservationData.claim, hin, hout, Reservation.claim, hlisting]
  refine ⟨row.claim, hclaim, .single (.refuse fun hfree => ?_)⟩
  have hactive : row.status.active = true := by rw [hheld]; rfl
  have hnone := (hR.free_iff hactive).mp hfree
  rw [hblank tx ht, hnone] at hany
  cases hany

/-- The rows after a statement that asks nothing. -/
theorem reservations_of_not_asks {o : DbStatement} {r : Except Err o.Resp}
    (ho : asks (.db o) = false) (hx : d.Effect t o r d') : d'.reservations = d.reservations := by
  cases hx with
  | reservationCreate | commit | reservationUpdate | reservationUpdateMany => cases ho
  | paymentUpdate key data p hp => simp only [Database.paymentUpdate, hp]
  | _ => rfl

/-- What has been noted of a bulk write are the rows that it has selected. -/
theorem noted_updateMany {f : ReservationWhere} {status : ReservationStatus}
    {r : Except Err Nat} (h : s'.db = (s.db.reservationUpdateMany t f status).2) :
    noted (.db (.reservationUpdateMany f status)) r s s' =
      (s.db.reservations.rows.filter f.matches).map fun r => Desk.move f.status status r.id := by
  simp only [noted]
  by_cases hw : wrote s s' = true
  · rw [if_pos hw]
  · have hnil : s.db.reservations.rows.filter f.matches = [] := by
      simpa [wrote, h, Database.reservationUpdateMany] using hw
    rw [if_neg hw, hnil]
    rfl

theorem follows_of_updateMany (hR : Shows R d) {c : Call} {f : ReservationWhere}
    {status : ReservationStatus} (hi : c.Moves f status) :
    Follows R ((d.reservations.rows.filter f.matches).map fun r => Desk.move f.status status r.id)
      (d.reservationUpdateMany t f status).2 := by
  cases c with
  | applyPaymentSucceeded id =>
    obtain ⟨rfl, rfl⟩ := hi
    exact follows_of_confirm hR id
  | applyPaymentFailed id =>
    obtain ⟨rfl, rfl⟩ := hi
    exact follows_of_withdraw (x := .tentative) hR rfl rfl
  | processResult jobId result =>
    cases result with
    | succeeded m =>
      obtain ⟨rfl, rfl⟩ := hi
      exact follows_of_confirm hR m.reservationId
    | failed m =>
      obtain ⟨rfl, rfl⟩ := hi
      exact follows_of_withdraw (x := .tentative) hR rfl rfl
  | sweepExpiredHolds =>
    obtain ⟨now, rfl, rfl⟩ := hi
    exact follows_of_withdraw (x := .tentative) hR rfl rfl
  | sweepCompletedStays =>
    obtain ⟨now, rfl, rfl⟩ := hi
    exact follows_of_withdraw (x := .firm) hR rfl rfl
  | _ => exact hi.elim

/-! One statement each. -/

theorem follows_of_exec_commit {r : Except Err Unit} (hR : Shows R s.db) (ha : Apart s.db)
    (hone : Single s.db) (hx : (Statement.db .commit).exec t ch s = some (r, s')) :
    Follows R (noted (.db .commit) r s s') s'.db := by
  simp only [noted]
  rcases Statement.exec_db hx with he | ⟨o', ho, r', hp⟩
  · rw [he, Table.added_self]
    exact follows_nil hR rfl
  · cases ho
    generalize s'.db = d' at hp ⊢
    cases Database.effect_of_perform hp with
    | read _ _ h => cases h
    | refused =>
      rw [Table.added_self]
      exact follows_nil hR rfl
    | commit tx ht => exact follows_of_commit hR ha hone ht

theorem follows_of_exec_create {data : ReservationData} {r : Except Err Reservation}
    (hR : Shows R s.db) (hblank : Blank t s.db)
    (htrue : truthful (.db (.reservationCreate data)) ch.fault = true)
    (hx : (Statement.db (.reservationCreate data)).exec t ch s = some (r, s')) :
    Follows R (noted (.db (.reservationCreate data)) r s s') s'.db ∧
      ∀ e, r = .error e → e.isExclusionViolation = true → ∃ c, data.claim = some c := by
  have hsame : s'.db.reservations = s.db.reservations := by
    rcases Statement.exec_db hx with he | ⟨o', ho, r', hp⟩
    · rw [he]
    · cases ho
      generalize s'.db = d' at hp ⊢
      cases Database.effect_of_perform hp with
      | read _ _ h => cases h
      | _ => rfl
  cases r with
  | ok v => exact ⟨follows_nil hR hsame, fun e he => by cases he⟩
  | error e =>
    simp only [noted]
    by_cases hexcl : e.isExclusionViolation = true
    · rw [if_pos hexcl]
      rcases error_of_exec hx with hfault | ⟨o', d', ho, hp⟩
      · have hnot := not_exclusion_of_truthful htrue hfault
        rw [hexcl] at hnot
        cases hnot
      · cases ho
        obtain ⟨data', hdata, hmet⟩ := (error_of_perform hp).2 hexcl
        cases hdata
        obtain ⟨c, hc, hhist⟩ := follows_of_refusal hR hblank hmet
        rw [hc]
        exact ⟨⟨R, hhist, hR.of_eq hsame⟩, fun _ _ _ => ⟨c, rfl⟩⟩
    · rw [if_neg hexcl]
      refine ⟨follows_nil hR hsame, fun e' he hexcl' => ?_⟩
      cases he
      exact (hexcl hexcl').elim

theorem follows_of_exec_update {id : Id} {seen : ReservationStatus}
    {r : Except Err Reservation} (hR : Shows R s.db)
    (hx : (Statement.db (.reservationUpdate id .cancelled seen)).exec t ch s = some (r, s')) :
    Follows R (noted (.db (.reservationUpdate id .cancelled seen)) r s s') s'.db := by
  simp only [noted]
  rcases Statement.exec_db hx with he | ⟨o', ho, r', hp⟩
  · rw [wrote_of_eq (by rw [he])]
    exact follows_nil hR (by rw [he])
  · cases ho
    generalize hd : s'.db = d' at hp
    cases Database.effect_of_perform hp with
    | read _ _ h => cases h
    | refused =>
      rw [wrote_of_eq (by rw [hd])]
      exact follows_nil hR rfl
    | reservationUpdate id status seen r hr =>
      have hw : wrote s s' = true := by
        simp [wrote, hd, Database.reservationUpdate, hr]
      rw [hw]
      exact follows_of_cancel hR id

theorem follows_of_exec_updateMany {c : Call} {f : ReservationWhere} {status : ReservationStatus}
    {r : Except Err Nat} (hR : Shows R s.db) (hi : c.Moves f status)
    (hx : (Statement.db (.reservationUpdateMany f status)).exec t ch s = some (r, s')) :
    Follows R (noted (.db (.reservationUpdateMany f status)) r s s') s'.db := by
  rcases Statement.exec_db hx with he | ⟨o', ho, r', hp⟩
  · simp only [noted]
    rw [wrote_of_eq (by rw [he])]
    exact follows_nil hR (by rw [he])
  · cases ho
    obtain ⟨-, hd⟩ := Prod.mk.inj (Option.some.inj hp)
    rw [noted_updateMany hd.symm, ← hd]
    exact follows_of_updateMany hR hi

theorem follows_of_exec {c : Call} {o : Statement} {r : Except Err o.Resp} (hR : Shows R s.db)
    (ha : Apart s.db) (hone : Single s.db) (hi : c.Issues o) (hblank : Inserts o → Blank t s.db)
    (htrue : truthful o ch.fault = true) (hx : o.exec t ch s = some (r, s')) :
    Follows R (noted o r s s') s'.db := by
  by_cases hasks : asks o = true
  · cases o with
    | db o =>
      cases o with
      | commit => exact follows_of_exec_commit hR ha hone hx
      | reservationCreate data => exact (follows_of_exec_create hR (hblank trivial) htrue hx).1
      | reservationUpdate id status seen =>
        obtain ⟨-, rfl, -⟩ := hi
        exact follows_of_exec_update hR hx
      | reservationUpdateMany f status => exact follows_of_exec_updateMany hR hi hx
      | _ => cases hasks
    | _ => cases hasks
  · have hquiet : asks o = false := by simpa using hasks
    rw [noted_of_not_asks hquiet]
    rcases Statement.exec_db hx with he | ⟨o', rfl, r', hp⟩
    · exact follows_nil hR (by rw [he])
    · exact follows_nil hR (reservations_of_not_asks hquiet (Database.effect_of_perform hp))

end NoOverlap
