import NoOverlap.Holds.Account
import NoOverlap.Lifecycle.History
import NoOverlap.Lifecycle.Overlap

/-!
# Racing holds

Holds race for a listing that nothing holds yet, and nothing gives a slot back.  `Filed` relates
the rows of the listing to the records of the threads: every active row was added by a thread,
every row a thread has added is still active, and whatever stood in the way of an insert still
stands there.  `Asked` says whose rows these are.  With the account of a hold this makes the
winners a maximal set of disjoint stays.
-/

namespace NoOverlap

open Relational Concurrency
open Concurrency.RelyGuarantee

/-- The stay that is asked for, as a set of instants. -/
def CreateReservationDto.range (dto : CreateReservationDto) : Set Int :=
  match dto.checkIn, dto.checkOut with
  | some a, some b => Set.Ico a b
  | _, _ => ∅

def Reservation.range (r : Reservation) : Set Int := Set.Ico r.checkIn r.checkOut

/-- The row is of the stay that is asked for. -/
structure Reservation.Of (r : Reservation) (dto : CreateReservationDto) : Prop where
  listingId : r.listingId = dto.listingId
  checkIn : dto.checkIn = some r.checkIn
  checkOut : dto.checkOut = some r.checkOut

theorem Reservation.Of.range_eq {r : Reservation} {dto : CreateReservationDto} (h : r.Of dto) :
    dto.range = r.range := by
  simp only [CreateReservationDto.range, h.checkIn, h.checkOut, Reservation.range]

theorem Reservation.Weaker.trans {r r' r'' : Reservation} (h : r''.Weaker r') (h' : r'.Weaker r) :
    r''.Weaker r :=
  ⟨h.id.trans h'.id, h.listingId.trans h'.listingId, h.checkIn.trans h'.checkIn,
    h.checkOut.trans h'.checkOut, h'.active ∘ h.active⟩

theorem Reservation.Weaker.range_eq {r r' : Reservation} (h : r'.Weaker r) :
    r'.range = r.range := by
  rw [Reservation.range, Reservation.range, h.checkIn, h.checkOut]

theorem not_disjoint_of_intersect {a b c d : Int} (h : rangesIntersect a b c d = true) :
    ¬Disjoint (Set.Ico a b) (Set.Ico c d) := by
  rw [Set.Ico_disjoint_Ico]
  have hlt : max a c < min b d := of_decide_eq_true h
  omega

/-- The reservation keeps its stay, and if it is active and of the listing it stays active. -/
structure Remains (lid : Id) (r r' : Reservation) : Prop where
  weaker : r'.Weaker r
  active : r.listingId = lid → r.status.active = true → r'.status.active = true

theorem Remains.refl (lid : Id) (r : Reservation) : Remains lid r r := ⟨.refl r, fun _ h => h⟩

/-- A status write would take the slot from an active reservation of the listing. -/
def releases (lid : Id) (s : Store) : Statement → Bool
  | .db o => s.db.reservations.rows.any fun r =>
      r.listingId == lid && r.status.active && (o.writes r).any fun status => !status.active
  | _ => false

namespace Holds

/-- Only the constraint raises an exclusion violation. -/
def genuine : Fault → Bool
  | .none => true
  | .before e | .after e => !e.isExclusionViolation

/-- The errors of which a commit that took effect may be reported: not the aborts. -/
def unclear (e : Err) : Bool := !e.isDeadlock && !e.isExclusionViolation

/-- Any call at any time, any crash, and any failure, but a deadlock writes nothing, exclusion
violations come from the constraint, and no slot of the listing is released. -/
def storm (lid : Id) : Policy :=
  { anything with
    op := fun _ ch o s => failing unclear o ch.fault && genuine ch.fault && !releases lid s o }

theorem conclusive_unclear : Conclusive unclear :=
  ⟨fun e h => by simp [unclear, h], fun e h => by simp [unclear, h]⟩

variable {lid : Id} {cfg : Config} {s s' : Recorded} {t u : Nat} {ch : Choice} {o : Statement}
  {r : Except Err o.Resp} {c : Call}

/-- The rows of a listing from which nothing is released. -/
theorem remains_of_exec {x x' : Store} (hi : c.Issues o) (hr : releases lid x o = false)
    (hx : o.exec t ch x = some (r, x')) :
    Table.Extends (Remains lid) x.db.reservations x'.db.reservations := by
  rcases Statement.exec_db hx with he | ⟨o', rfl, r', hd⟩
  · rw [he]
    exact .refl (Remains.refl lid) _
  · refine (Database.effect_of_perform hd).extends (Remains.refl lid) ?_
    intro row status hw hf
    refine ⟨Reservation.weaker_setStatus fun ha => ?_, fun hl ha => ?_⟩
    · rcases cancelled_or_legal_of_writes hi hw with rfl | hlegal
      · cases ha
      · exact active_of_legal hlegal
    · have hkeep := List.any_eq_false.mp hr row (Table.mem_of_find? hf)
      simp only [hl, ha, hw, beq_self_eq_true, Bool.true_and, Option.any_some,
        Bool.not_eq_true', Bool.not_eq_false] at hkeep
      exact hkeep

/-- A refusal by the constraint, where nothing of the same transaction is in the way. -/
theorem seen_of_exclusion {e : Err} {x x' : Store} (hf : genuine ch.fault = true)
    (hfirst : Inserts o → ∀ tx, x.db.transactions.find? t = some tx → tx.reservations = [])
    (he : e.isExclusionViolation = true) (hx : o.exec t ch x = some (.error e, x')) :
    seen o x.db.reservations ≠ [] := by
  rcases error_of_exec hx with hfault | ⟨o', d, rfl, hd⟩
  · rcases hfault with hfault | hfault <;> simp [hfault, genuine, he] at hf
  · obtain ⟨data, rfl, tx, row, ht, hs, hl, hin, hout, hany⟩ := (error_of_perform hd).2 he
    rw [hfirst trivial tx ht, List.any_nil, Bool.or_false] at hany
    obtain ⟨r', hr', hc⟩ := List.any_eq_true.mp hany
    simp only [Reservation.conflicts, Bool.and_eq_true, beq_iff_eq] at hc
    have hmem : r' ∈ obstacles data x.db.reservations := by
      refine List.mem_filter.mpr ⟨hr', ?_⟩
      simp [hin, hout, hc.1.1.2, hc.2, ← hc.1.2, hl]
    exact List.ne_nil_of_mem hmem

/-! ## The rows and the records -/

structure Filed (lid : Id) (s : Recorded) : Prop where
  pending : ∀ tx ∈ s.1.db.transactions.rows, ∀ r ∈ tx.reservations, r.status = .held
  /-- What a thread has added is still there. -/
  kept : ∀ t, ∀ v ∈ (s.2 t).reservations, v.listingId = lid →
    ∃ r, s.1.db.reservations.find? v.id = some r ∧ r.Weaker v ∧ r.status.active = true
  /-- No two threads have added one row. -/
  own : ∀ t u, ∀ v ∈ (s.2 t).reservations, ∀ v' ∈ (s.2 u).reservations, v.listingId = lid →
    v'.listingId = lid → v.id = v'.id → t = u
  came : ∀ r ∈ s.1.db.reservations.rows, r.listingId = lid → r.status.active = true →
    ∃ t, ∃ v ∈ (s.2 t).reservations, r.Weaker v
  rivals : ∀ t, ∀ x ∈ (s.2 t).rivals, x.listingId = lid →
    ∃ r, s.1.db.reservations.find? x.id = some r ∧ r.Weaker x ∧ r.status.active = true
  /-- Who was refused by the constraint has met somebody. -/
  refused : ∀ t e, e.isExclusionViolation = true →
    some e ∈ (s.2 t).attempts ∨ (s.2 t).failure = some e → (s.2 t).rivals ≠ []

/-- Nothing but the open transactions has changed. -/
theorem Filed.of_eq (h : Filed lid s) (hr : s'.1.db.reservations = s.1.db.reservations)
    (hd : s'.2 = s.2)
    (hp : ∀ tx ∈ s'.1.db.transactions.rows, ∀ r ∈ tx.reservations, r.status = .held) :
    Filed lid s' := by
  constructor
  · exact hp
  · rw [hr, hd]; exact h.kept
  · rw [hd]; exact h.own
  · rw [hr, hd]; exact h.came
  · rw [hr, hd]; exact h.rivals
  · rw [hd]; exact h.refused

/-- The rows that a statement of thread `t` adds are on the record of `t`, and no others are. -/
theorem mem_noted {t u : Nat}
    (hn : s'.2 = Function.update s.2 t (Deed.note o r s.1 s'.1 (s.2 t))) {v : Reservation} :
    v ∈ (s'.2 u).reservations ↔ v ∈ (s.2 u).reservations ∨
      u = t ∧ v ∈ s.1.db.reservations.added s'.1.db.reservations := by
  rw [hn]
  by_cases hu : u = t
  · subst hu
    rw [Function.update_self]
    simp [Deed.note]
  · rw [Function.update_of_ne hu]
    simp [hu]

theorem mem_rivals {t u : Nat}
    (hn : s'.2 = Function.update s.2 t (Deed.note o r s.1 s'.1 (s.2 t))) {x : Reservation} :
    x ∈ (s'.2 u).rivals ↔ x ∈ (s.2 u).rivals ∨ u = t ∧ x ∈ seen o s.1.db.reservations := by
  rw [hn]
  by_cases hu : u = t
  · subst hu
    rw [Function.update_self]
    simp [Deed.note]
  · rw [Function.update_of_ne hu]
    simp [hu]

theorem active_of_seen {T : Table Reservation} {x : Reservation} (h : x ∈ seen o T) :
    x ∈ T.rows ∧ x.status.active = true := by
  cases o with
  | db o =>
    cases o with
    | reservationCreate data =>
      obtain ⟨hmem, hx⟩ := List.mem_filter.mp h
      simp only [Bool.and_eq_true] at hx
      exact ⟨hmem, hx.1.1⟩
    | _ => cases h
  | _ => cases h

theorem outcome_cases {e : Err} {f : Option Err} (h : some e ∈ outcome o r f) : f = some e := by
  cases o with
  | db o =>
    cases o with
    | commit => cases r <;> simp [outcome] at h
    | rollback => simpa [outcome, eq_comm] using h
    | _ => cases h
  | _ => cases h

namespace Filed

variable (h : Filed lid s)
  (hext : Table.Extends (Remains lid) s.1.db.reservations s'.1.db.reservations)
  (hn : s'.2 = Function.update s.2 t (Deed.note o r s.1 s'.1 (s.2 t)))

include hext in
/-- A row of the listing that stands for `v` and is active still does, and is. -/
theorem still {v : Reservation} (hl : v.listingId = lid)
    (hv : ∃ r, s.1.db.reservations.find? v.id = some r ∧ r.Weaker v ∧ r.status.active = true) :
    ∃ r, s'.1.db.reservations.find? v.id = some r ∧ r.Weaker v ∧ r.status.active = true := by
  obtain ⟨r, hr, hw, ha⟩ := hv
  obtain ⟨r', hr', hrem⟩ := hext _ r hr
  exact ⟨r', hr', hrem.weaker.trans hw, hrem.active (hw.listingId.trans hl) ha⟩

include h

/-- A row that appears is held. -/
theorem held_of_added (hx : o.exec t ch s.1 = some (r, s'.1)) {v : Reservation}
    (hv : v ∈ s.1.db.reservations.added s'.1.db.reservations) : v.status = .held := by
  obtain ⟨hmem, hnone⟩ := Table.mem_added.mp hv
  rcases Statement.exec_db hx with he | ⟨o', rfl, r', hd⟩
  · rw [he] at hv
    rw [Table.added_self] at hv
    cases hv
  · obtain ⟨tx, -, ht, hmem'⟩ := Database.committed_of_perform hd hmem hnone
    exact h.pending tx (Table.mem_of_find? ht) v hmem'

include hext hn

theorem kept_step (hx : o.exec t ch s.1 = some (r, s'.1)) (u : Nat) :
    ∀ v ∈ (s'.2 u).reservations, v.listingId = lid →
      ∃ r, s'.1.db.reservations.find? v.id = some r ∧ r.Weaker v ∧ r.status.active = true := by
  intro v hv hl
  rcases (mem_noted hn).mp hv with hold | ⟨-, hadd⟩
  · exact still hext hl (h.kept u v hold hl)
  · have hheld := h.held_of_added hx hadd
    exact ⟨v, Table.find?_of_mem (Table.mem_added.mp hadd).1, .refl v, by rw [hheld]; rfl⟩

omit hext in
theorem own_step (u u' : Nat) : ∀ v ∈ (s'.2 u).reservations, ∀ v' ∈ (s'.2 u').reservations,
    v.listingId = lid → v'.listingId = lid → v.id = v'.id → u = u' := by
  -- What is added now was not there, and what was added before is there.
  have hclash : ∀ {u v v'}, v ∈ (s.2 u).reservations → v.listingId = lid →
      v' ∈ s.1.db.reservations.added s'.1.db.reservations → v.id = v'.id → False := by
    intro u v v' hv hl hv' hid
    obtain ⟨r, hr, -⟩ := h.kept u v hv hl
    have hnone : s.1.db.reservations.find? v'.id = none := (Table.mem_added.mp hv').2
    rw [hid, hnone] at hr
    cases hr
  intro v hv v' hv' hl hl' hid
  rcases (mem_noted hn).mp hv with hold | ⟨rfl, hadd⟩
  · rcases (mem_noted hn).mp hv' with hold' | ⟨-, hadd'⟩
    · exact h.own u u' v hold v' hold' hl hl' hid
    · exact (hclash hold hl hadd' hid).elim
  · rcases (mem_noted hn).mp hv' with hold' | ⟨rfl, -⟩
    · exact (hclash hold' hl' hadd hid.symm).elim
    · rfl

theorem came_step : ∀ r ∈ s'.1.db.reservations.rows, r.listingId = lid → r.status.active = true →
    ∃ t, ∃ v ∈ (s'.2 t).reservations, r.Weaker v := by
  intro row hrow hl ha
  cases hf : s.1.db.reservations.find? row.id with
  | none =>
    exact ⟨t, row, (mem_noted hn).mpr (.inr ⟨rfl, Table.mem_added.mpr ⟨hrow, hf⟩⟩), .refl row⟩
  | some r₀ =>
    obtain ⟨r', hr', hrem⟩ := hext _ r₀ hf
    have hsame : r' = row := Option.some.inj (hr'.symm.trans (Table.find?_of_mem hrow))
    subst hsame
    obtain ⟨u, v, hv, hw⟩ := h.came r₀ (Table.mem_of_find? hf)
      (hrem.weaker.listingId.symm.trans hl) (hrem.weaker.active ha)
    exact ⟨u, v, (mem_noted hn).mpr (.inl hv), hrem.weaker.trans hw⟩

theorem rivals_step (u : Nat) : ∀ x ∈ (s'.2 u).rivals, x.listingId = lid →
    ∃ r, s'.1.db.reservations.find? x.id = some r ∧ r.Weaker x ∧ r.status.active = true := by
  intro x hx hl
  rcases (mem_rivals hn).mp hx with hold | ⟨-, hseen⟩
  · exact still hext hl (h.rivals u x hold hl)
  · obtain ⟨hmem, ha⟩ := active_of_seen hseen
    exact still hext hl ⟨x, Table.find?_of_mem hmem, .refl x, ha⟩

omit hext in
theorem refused_step (hf : genuine ch.fault = true) (hfirst : Inserts o → Unwritten t s)
    (hx : o.exec t ch s.1 = some (r, s'.1)) (u : Nat) (e : Err)
    (he : e.isExclusionViolation = true)
    (hu : some e ∈ (s'.2 u).attempts ∨ (s'.2 u).failure = some e) : (s'.2 u).rivals ≠ [] := by
  have hold : (s.2 u).rivals ≠ [] → (s'.2 u).rivals ≠ [] := by
    intro hne
    obtain ⟨x, hxmem⟩ := List.exists_mem_of_ne_nil _ hne
    exact List.ne_nil_of_mem ((mem_rivals hn).mpr (.inl hxmem))
  by_cases heq : u = t
  · subst heq
    have hdeed : s'.2 u = Deed.note o r s.1 s'.1 (s.2 u) := by rw [hn, Function.update_self]
    rw [hdeed] at hu
    rcases hu with hu | hu
    · rcases List.mem_append.mp hu with hu | hu
      · exact hold (h.refused u e he (.inl hu))
      · exact hold (h.refused u e he (.inr (outcome_cases hu)))
    · cases r with
      | ok v => cases hu
      | error e' =>
        have hsame : e' = e := Option.some.inj hu
        subst hsame
        obtain ⟨x, hxmem⟩ := List.exists_mem_of_ne_nil _ (seen_of_exclusion hf hfirst he hx)
        exact List.ne_nil_of_mem ((mem_rivals hn).mpr (.inr ⟨rfl, hxmem⟩))
  · rw [hn, Function.update_of_ne heq] at hu ⊢
    exact h.refused u e he hu

end Filed

theorem Filed.step (h : Filed lid s)
    (hn : s'.2 = Function.update s.2 t (Deed.note o r s.1 s'.1 (s.2 t))) (hi : c.Issues o)
    (hr : releases lid s.1 o = false) (hf : genuine ch.fault = true)
    (hfirst : Inserts o → Unwritten t s) (hx : o.exec t ch s.1 = some (r, s'.1)) : Filed lid s' where
  pending := by
    rcases Statement.exec_db hx with he | ⟨o', rfl, r', hd⟩
    · rw [he]
      exact h.pending
    · exact (Database.effect_of_perform hd).pending_held h.pending
  kept := h.kept_step (remains_of_exec hi hr hx) hn hx
  own := h.own_step hn
  came := h.came_step (remains_of_exec hi hr hx) hn
  rivals := h.rivals_step (remains_of_exec hi hr hx) hn
  refused := h.refused_step hn hf hfirst hx

section Runs

variable {s₀ : Store} {w w' : RecordedWorld} {k : Except Err o.Resp → Async Reply}

abbrev stormy (lid : Id) : RecordedPolicy := Policy.forgetful (storm lid)

theorem reporting_of_stormy
    (hr : (recorded cfg).Reaches (stormy lid) (World.start (s₀, fun _ => Deed.zero)) w) :
    (recorded cfg).Reaches (Policy.forgetful (reporting unclear))
      (World.start (s₀, fun _ => Deed.zero)) w :=
  Machine.Reaches.relax (P := stormy lid) (Q := Policy.forgetful (reporting unclear))
    (fun _ _ h => h)
    (fun _ _ _ _ h => (Bool.and_eq_true_iff.mp (Bool.and_eq_true_iff.mp h).1).1)
    (fun _ _ _ h => h) hr

theorem filed_of_reaches (h₀ : Apart s₀.db) (hq : s₀.db.transactions.rows = [])
    (hfree : ∀ r ∈ s₀.db.reservations.rows, r.listingId = lid → r.status.active = false)
    (hr : (recorded cfg).Reaches (stormy lid) (World.start (s₀, fun _ => Deed.zero)) w) :
    Filed lid w.shared := by
  have hnone : ∀ x : Reservation, x ∉ Deed.zero.reservations := fun x hx => by cases hx
  induction hr with
  | refl =>
    refine ⟨?_, ?_, ?_, ?_, ?_, ?_⟩
    · rw [show (World.start (s₀, fun _ => Deed.zero) : RecordedWorld).shared.1.db.transactions.rows =
        [] from hq]
      exact fun tx htx => by cases htx
    · exact fun t v hv => (hnone v hv).elim
    · exact fun t u v hv => (hnone v hv).elim
    · intro r hmem hl ha
      rw [hfree r hmem hl] at ha
      cases ha
    · exact fun t x hx => by cases hx
    · exact fun t e _ he => by rcases he with he | he <;> cases he
  | @tail w w' ev hr hn ih =>
    have hrep := reporting_of_stormy hr
    cases Machine.next_moves _ _ hn with
    | @spawn c s' hp hs =>
      obtain ⟨hs', hdeeds⟩ := Machine.spawned_recording hs
      have hdb : s'.1.db = w.shared.1.db := spawned_db hs'
      exact ih.of_eq (congrArg _ hdb) hdeeds (by rw [hdb]; exact ih.pending)
    | @step t ch c o k r s' ht hp hx =>
      obtain ⟨hx', hnote⟩ := Machine.exec_recording hx
      obtain ⟨hok, hrel⟩ := Bool.and_eq_true_iff.mp hp
      obtain ⟨hfail, hgen⟩ := Bool.and_eq_true_iff.mp hok
      have hissues : c.Issues o :=
        Machine.Reaches.uses_head (M := recorded cfg) (program_issues cfg) hr ht
      have hguar := ((sound conclusive_unclear cfg h₀ hq).guar hrep ht hfail hx).2.2
      exact ih.step hnote hissues (by simpa using hrel) hgen hguar hx'
    | @ret t c r ht =>
      have hdb : (Store.returned t c r w.shared.1).db = w.shared.1.db := returned_db t c r _
      refine ih.of_eq (congrArg Database.reservations hdb) rfl ?_
      rw [show ((recorded cfg).returned t c r w.shared).1.db = w.shared.1.db from hdb]
      exact ih.pending
    | kill => exact ih.of_eq rfl rfl (Database.forall_rollback ih.pending)

/-! ## Whose rows these are -/

/-- Thread `t` is a hold for which `R` holds. -/
def HoldOf (w : RecordedWorld) (t : Nat) (R : CreateReservationDto → Prop) : Prop :=
  ∃ th guestId dto, w.threads[t]? = some th ∧ th.call = .hold guestId dto ∧ R dto

/-- The row is of the listing that is asked for, and in the way. -/
def Meets (dto : CreateReservationDto) (x : Reservation) : Prop :=
  x.listingId = dto.listingId ∧ ¬Disjoint dto.range x.range

structure Asked (w : RecordedWorld) : Prop where
  pending : ∀ tx ∈ w.shared.1.db.transactions.rows, ∀ r ∈ tx.reservations,
    HoldOf w tx.tid fun dto => r.Of dto
  added : ∀ t, ∀ v ∈ (w.shared.2 t).reservations, HoldOf w t fun dto => v.Of dto
  rivals : ∀ t, ∀ x ∈ (w.shared.2 t).rivals, HoldOf w t fun dto => Meets dto x

/-- An insert is of what a hold has been asked for. -/
def Asks (c : Call) (o : Statement) : Prop :=
  ∀ data, o = .db (.reservationCreate data) → ∃ guestId dto, c = .hold guestId dto ∧
    data.listingId = dto.listingId ∧ data.checkIn = dto.checkIn ∧ data.checkOut = dto.checkOut

theorem asks_of_not_inserts {c : Call} {o : Statement} (h : ¬Inserts o) : Asks c o := by
  rintro data rfl
  exact (h trivial).elim

theorem hold_asks (ttl : Int) (guestId : Id) (dto : CreateReservationDto) :
    (hold ttl guestId dto).Uses (Asks (.hold guestId dto)) := by
  have hquiet : ∀ {o}, ¬Inserts o → Asks (.hold guestId dto) o := asks_of_not_inserts
  have hclaims : ∀ {price o}, Claims dto price o → Asks (.hold guestId dto) o := by
    rintro price o ho data rfl
    exact ⟨guestId, dto, rfl, ho.1, ho.2.1, ho.2.2.1⟩
  refine Prog.Uses.bind (Prog.uses_op (hquiet id)) fun now => ?_
  refine Prog.uses_ite (fun _ => Prog.uses_throw _) fun _ =>
    Prog.uses_ite (fun _ => Prog.uses_throw _) fun _ => ?_
  refine Prog.Uses.bind (Prog.uses_op (hquiet id)) fun listing => ?_
  cases listing with
  | none => exact Prog.uses_throw _
  | some listing =>
    refine Prog.uses_ite (fun _ => Prog.uses_throw _) fun _ => ?_
    refine Prog.Uses.bind ((claimWithRetry_claims ttl guestId dto _).mono fun _ => hclaims) fun r => ?_
    refine Prog.Uses.bind (Prog.uses_op (hquiet id)) fun _ => ?_
    exact Prog.Uses.bind
      (publishReservationChanged_uses _ _ _ (hquiet id) fun _ => hquiet id) fun _ => Prog.uses_pure r

theorem program_asks (cfg : Config) (c : Call) : (c.program cfg).Uses (Asks c) := by
  by_cases hhold : ∃ guestId dto, c = .hold guestId dto
  · obtain ⟨guestId, dto, rfl⟩ := hhold
    exact Prog.Uses.bind (hold_asks cfg.holdTtlMs guestId dto) fun _ => Prog.uses_pure _
  · exact (program_inserts_nothing cfg fun guestId dto hc => hhold ⟨guestId, dto, hc⟩).mono
      fun _ => asks_of_not_inserts

theorem HoldOf.mono {R : CreateReservationDto → Prop} {P : RecordedPolicy}
    {ev : Concurrency.Event Call Choice} (h : HoldOf w t R)
    (hm : (recorded cfg).Moves P w ev w') : HoldOf w' t R := by
  obtain ⟨th, guestId, dto, ht, hc, hR⟩ := h
  obtain ⟨th', ht', hc'⟩ := hm.call_eq ht
  exact ⟨th', guestId, dto, ht', hc'.trans hc, hR⟩

/-- What an insert has met is in the way of the stay that was asked for. -/
theorem meets_of_seen {T : Table Reservation} {x : Reservation} (ha : Asks c o)
    (hx : x ∈ seen o T) : ∃ guestId dto, c = .hold guestId dto ∧ Meets dto x := by
  cases o with
  | db o =>
    cases o with
    | reservationCreate data =>
      obtain ⟨guestId, dto, hc, hl, hin, hout⟩ := ha data rfl
      refine ⟨guestId, dto, hc, ?_⟩
      obtain ⟨-, hx⟩ := List.mem_filter.mp hx
      simp only [Bool.and_eq_true, beq_iff_eq, Option.any_eq_true] at hx
      obtain ⟨⟨-, hlx⟩, a, hda, b, hdb, hints⟩ := hx
      have hrange : dto.range = Set.Ico a b := by
        simp only [CreateReservationDto.range, ← hin, ← hout, hda, hdb]
      refine ⟨hlx.trans hl, ?_⟩
      rw [hrange]
      exact not_disjoint_of_intersect hints
    | _ => cases hx
  | _ => cases hx

theorem Asked.step {ev : Concurrency.Event Call Choice} {P : RecordedPolicy} (h : Asked w)
    (hm : (recorded cfg).Moves P w ev w') (hc : w.threads[t]? = some (.running c (.call o k)))
    (ha : Asks c o) (hx : o.exec t ch w.shared.1 = some (r, w'.shared.1))
    (hn : w'.shared.2 =
      Function.update w.shared.2 t (Deed.note o r w.shared.1 w'.shared.1 (w.shared.2 t))) :
    Asked w' := by
  have hself : ∀ {R : CreateReservationDto → Prop}, (∃ guestId dto, c = .hold guestId dto ∧ R dto) →
      HoldOf w t R := by
    rintro R ⟨guestId, dto, rfl, hR⟩
    exact ⟨_, guestId, dto, hc, rfl, hR⟩
  refine ⟨fun tx htx row hrow => ?_, fun u v hv => ?_, fun u x hxm => ?_⟩
  · rcases Statement.exec_db hx with he | ⟨o', rfl, r', hd⟩
    · exact (h.pending tx (he ▸ htx) row hrow).mono hm
    · rcases Database.pending_of_perform hd htx hrow with ⟨tx₀, htx₀, htid, hrow₀⟩ |
        ⟨data, rfl, htid, hins⟩
      · exact htid ▸ (h.pending tx₀ htx₀ row hrow₀).mono hm
      · obtain ⟨guestId, dto, hcall, hl, hin, hout⟩ := ha data rfl
        have hof : row.Of dto :=
          ⟨hins.listingId.trans hl, hin.symm.trans hins.checkIn, hout.symm.trans hins.checkOut⟩
        exact htid ▸ (hself ⟨guestId, dto, hcall, hof⟩).mono hm
  · rcases (mem_noted hn).mp hv with hold | ⟨rfl, hadd⟩
    · exact (h.added u v hold).mono hm
    · obtain ⟨hmem, hnone⟩ := Table.mem_added.mp hadd
      rcases Statement.exec_db hx with he | ⟨o', rfl, r', hd⟩
      · rw [he, Table.added_self] at hadd
        cases hadd
      · obtain ⟨tx, -, htx, hmem'⟩ := Database.committed_of_perform hd hmem hnone
        have htid : tx.tid = u := Table.key_of_find? htx
        exact htid ▸ (h.pending tx (Table.mem_of_find? htx) v hmem').mono hm
  · rcases (mem_rivals hn).mp hxm with hold | ⟨rfl, hseen⟩
    · exact (h.rivals u x hold).mono hm
    · exact (hself (meets_of_seen ha hseen)).mono hm

theorem asked_of_reaches {P : RecordedPolicy} (hq : s₀.db.transactions.rows = [])
    (hr : (recorded cfg).Reaches P (World.start (s₀, fun _ => Deed.zero)) w) : Asked w := by
  induction hr with
  | refl =>
    refine ⟨fun tx htx => ?_, fun t v hv => (by cases hv), fun t x hx => (by cases hx)⟩
    rw [show (World.start (s₀, fun _ => Deed.zero) : RecordedWorld).shared.1.db.transactions.rows =
      [] from hq] at htx
    cases htx
  | @tail w w' ev hr hn ih =>
    have hm := Machine.next_moves _ _ hn
    -- Between two statements the transactions and the records stay, or a transaction is gone.
    have hstay : (∀ tx ∈ w'.shared.1.db.transactions.rows, tx ∈ w.shared.1.db.transactions.rows) →
        w'.shared.2 = w.shared.2 → Asked w' := fun htx hdeeds =>
      ⟨fun tx hmem r hmem' => (ih.pending tx (htx tx hmem) r hmem').mono hm,
        fun t v hv => (ih.added t v (by rwa [hdeeds] at hv)).mono hm,
        fun t x hx => (ih.rivals t x (by rwa [hdeeds] at hx)).mono hm⟩
    have hm' := hm
    cases hm' with
    | @spawn c s' hp hs =>
      obtain ⟨hs', hdeeds⟩ := Machine.spawned_recording hs
      have hdb : s'.1.db = w.shared.1.db := spawned_db hs'
      exact hstay (fun tx htx => hdb ▸ htx) hdeeds
    | @step t ch c o k r s' ht hp hx =>
      obtain ⟨hx', hnote⟩ := Machine.exec_recording hx
      have hasks : Asks c o :=
        Machine.Reaches.uses_head (M := recorded cfg) (program_asks cfg) hr ht
      exact ih.step hm ht hasks hx' hnote
    | @ret t c r ht =>
      have hdb : (Store.returned t c r w.shared.1).db = w.shared.1.db := returned_db t c r _
      exact hstay (fun tx htx => hdb ▸ htx) rfl
    | kill => exact hstay (fun tx htx => (Table.mem_erase.mp htx).1) rfl

end Runs

/-! ## The winners -/

section Winners

variable {w : World} {dto dto' : CreateReservationDto} {v v' : Reservation} {s₀ : Store}

/-- Thread `t` is a hold on the listing. -/
def Calls (w : World) (lid : Id) (t : Nat) (dto : CreateReservationDto) : Prop :=
  dto.listingId = lid ∧ ∃ th guestId, w.threads[t]? = some th ∧ th.call = .hold guestId dto

/-- It has returned a reservation. -/
def Wins (w : World) (lid : Id) (t : Nat) (dto : CreateReservationDto) (v : Reservation) : Prop :=
  dto.listingId = lid ∧
    ∃ guestId, w.threads[t]? = some (.returned (.hold guestId dto) (.ok (.reservation v)))

/-- It has been told that the slot is taken. -/
def Loses (w : World) (lid : Id) (t : Nat) (dto : CreateReservationDto) : Prop :=
  dto.listingId = lid ∧
    ∃ guestId, w.threads[t]? = some (.returned (.hold guestId dto) (.error slotTaken))

/-- What is on record of a run of the storm. -/
structure Account (lid : Id) (w : World) (g : Nat → Deed) : Prop where
  apart : Apart w.shared.db
  filed : Filed lid (w.shared, g)
  asked : Asked { shared := (w.shared, g), threads := w.threads }
  ended : ∀ (t : Nat) guestId dto r, w.threads[t]? = some (.returned (.hold guestId dto) r) →
    ∃ r' : Except Err Reservation, r = r'.map Reply.reservation ∧ Ended unclear r' (g t).toTally

theorem account_of_reaches (h₀ : Apart s₀.db) (hq : s₀.db.transactions.rows = [])
    (hfree : ∀ r ∈ s₀.db.reservations.rows, r.listingId = lid → r.status.active = false)
    (hr : (system cfg).Reaches (storm lid) (World.start s₀) w) : ∃ g, Account lid w g := by
  obtain ⟨g, hg⟩ := hr.record Deed.note Deed.zero
  have hrep := reporting_of_stormy hg
  have hsound := sound conclusive_unclear cfg h₀ hq
  exact ⟨g, hsound.inv hrep, filed_of_reaches h₀ hq hfree hg, asked_of_reaches hq hg,
    fun t guestId dto r ht => hsound.post hrep ht guestId dto rfl⟩

namespace Account

variable {g : Nat → Deed} (h : Account lid w g)

include h

/-- A winner has added its reservation and nothing else, and it is of the stay it asked for. -/
theorem won (ht : Wins w lid t dto v) : (g t).reservations = [v] ∧ v.Of dto := by
  obtain ⟨hl, guestId, ht⟩ := ht
  obtain ⟨r', hr', hended⟩ := h.ended t guestId dto _ ht
  have hres : (g t).reservations = [v] := by
    cases r' with
    | error e => cases hr'
    | ok v' =>
      cases hr'
      exact hended.reservations_of_ok
  obtain ⟨th, guestId', dto', hth, hcall, hof⟩ := h.asked.added t v (by
    show v ∈ (g t).reservations
    rw [hres]
    exact List.mem_singleton_self v)
  have hsame := Option.some.inj (ht.symm.trans hth)
  rw [← hsame] at hcall
  cases hcall
  exact ⟨hres, hof⟩

/-- A loser has added nothing, and has met somebody. -/
theorem lost (ht : Loses w lid t dto) : (g t).reservations = [] ∧
    ∃ x ∈ (g t).rivals, Meets dto x := by
  obtain ⟨hl, guestId, ht⟩ := ht
  obtain ⟨r', hr', hended⟩ := h.ended t guestId dto _ ht
  have hrecord : (g t).reservations = [] ∧
      ∃ e, e.isExclusionViolation = true ∧ some e ∈ (g t).attempts := by
    cases r' with
    | ok v' => cases hr'
    | error e =>
      cases hr'
      exact hended.refused
  obtain ⟨hres, e, he, hmem⟩ := hrecord
  obtain ⟨x, hx⟩ := List.exists_mem_of_ne_nil _ (h.filed.refused t e he (.inl hmem))
  obtain ⟨th, guestId', dto', hth, hcall, hmeets⟩ := h.asked.rivals t x hx
  have hsame := Option.some.inj (ht.symm.trans hth)
  rw [← hsame] at hcall
  cases hcall
  exact ⟨hres, x, hx, hmeets⟩

theorem winners_disjoint (hne : t ≠ u) (ht : Wins w lid t dto v) (hu : Wins w lid u dto' v') :
    Disjoint dto.range dto'.range := by
  obtain ⟨hres, hof⟩ := h.won ht
  obtain ⟨hres', hof'⟩ := h.won hu
  have hv : v ∈ (g t).reservations := by rw [hres]; exact List.mem_singleton_self v
  have hv' : v' ∈ (g u).reservations := by rw [hres']; exact List.mem_singleton_self v'
  have hl : v.listingId = lid := hof.listingId.trans ht.1
  have hl' : v'.listingId = lid := hof'.listingId.trans hu.1
  obtain ⟨r, hr, hw, ha⟩ := h.filed.kept t v hv hl
  obtain ⟨r', hr', hw', ha'⟩ := h.filed.kept u v' hv' hl'
  have hner : r ≠ r' := by
    rintro rfl
    exact hne (h.filed.own t u v hv v' hv' hl hl' (hw.id.symm.trans hw'.id))
  have hrows := (List.pairwise_append.mp h.apart.reservations).1
  have hsep := hrows.forall (Table.mem_of_find? hr) (Table.mem_of_find? hr') hner
  rw [hof.range_eq, hof'.range_eq, ← hw.range_eq, ← hw'.range_eq]
  refine Reservation.disjoint_of_separate hsep ?_ ha ha'
  exact (hw.listingId.trans hl).trans (hw'.listingId.trans hl').symm

/-- What a loser has met is still active. -/
theorem loser_blocked (ht : Loses w lid t dto) : ∃ r ∈ w.shared.db.reservations.rows,
    r.listingId = lid ∧ r.status.active = true ∧ ¬Disjoint dto.range r.range := by
  obtain ⟨-, x, hx, hl, hmeet⟩ := h.lost ht
  have hlx : x.listingId = lid := hl.trans ht.1
  obtain ⟨r, hr, hw, ha⟩ := h.filed.rivals t x hx hlx
  exact ⟨r, Table.mem_of_find? hr, hw.listingId.trans hlx, ha, by rw [hw.range_eq]; exact hmeet⟩

/-- If every hold has won or lost, what a loser has met is the stay of a winner. -/
theorem loser_meets_winner
    (hend : ∀ t dto, Calls w lid t dto → (∃ v, Wins w lid t dto v) ∨ Loses w lid t dto)
    (ht : Loses w lid t dto) :
    ∃ u dto' v, Wins w lid u dto' v ∧ ¬Disjoint dto.range dto'.range := by
  obtain ⟨r, hr, hl, ha, hmeet⟩ := h.loser_blocked ht
  obtain ⟨u, v, hv, hw⟩ := h.filed.came r hr hl ha
  obtain ⟨th, guestId, dto', hth, hcall, hof⟩ := h.asked.added u v hv
  have hl' : dto'.listingId = lid := hof.listingId.symm.trans (hw.listingId.symm.trans hl)
  rcases hend u dto' ⟨hl', th, guestId, hth, hcall⟩ with ⟨v', hwin⟩ | hlose
  · refine ⟨u, dto', v', hwin, ?_⟩
    rw [hof.range_eq, ← hw.range_eq]
    exact hmeet
  · have hv' : v ∈ (g u).reservations := hv
    rw [(h.lost hlose).1] at hv'
    cases hv'

/-- Among holds that all get in each other's way exactly one wins. -/
theorem exactly_one
    (hend : ∀ t dto, Calls w lid t dto → (∃ v, Wins w lid t dto v) ∨ Loses w lid t dto)
    (hmeet : ∀ t u dto dto', t ≠ u → Calls w lid t dto → Calls w lid u dto' →
      ¬Disjoint dto.range dto'.range) (hcalls : ∃ t dto, Calls w lid t dto) :
    ∃ t dto v, Wins w lid t dto v ∧
      ∀ u dto', Calls w lid u dto' → u ≠ t → Loses w lid u dto' := by
  have hcalls_of_wins : ∀ {t dto v}, Wins w lid t dto v → Calls w lid t dto := by
    rintro t dto v ⟨hl, guestId, ht⟩
    exact ⟨hl, _, guestId, ht, rfl⟩
  have hwinner : ∃ t dto v, Wins w lid t dto v := by
    obtain ⟨t, dto, hc⟩ := hcalls
    rcases hend t dto hc with ⟨v, hwin⟩ | hlose
    · exact ⟨t, dto, v, hwin⟩
    · obtain ⟨u, dto', v, hwin, -⟩ := h.loser_meets_winner hend hlose
      exact ⟨u, dto', v, hwin⟩
  obtain ⟨t, dto, v, hwin⟩ := hwinner
  refine ⟨t, dto, v, hwin, fun u dto' hc hne => ?_⟩
  rcases hend u dto' hc with ⟨v', hwin'⟩ | hlose
  · exact (hmeet u t dto' dto hne hc (hcalls_of_wins hwin)
      (h.winners_disjoint hne hwin' hwin)).elim
  · exact hlose

end Account

/-- Holds race for a listing with no active reservation, and nothing releases a slot.  Those that
return a reservation have asked for disjoint stays; whoever is told that the slot is taken
overlaps an active reservation; and if every hold ends in one of these two ways, no loser could
be added to the winners, and of holds that all overlap exactly one wins. -/
theorem racing_holds_resolve (h₀ : Apart s₀.db) (hq : s₀.db.transactions.rows = [])
    (hfree : ∀ r ∈ s₀.db.reservations.rows, r.listingId = lid → r.status.active = false)
    (hr : (system cfg).Reaches (storm lid) (World.start s₀) w) :
    (∀ t u dto dto' v v', t ≠ u → Wins w lid t dto v → Wins w lid u dto' v' →
      Disjoint dto.range dto'.range) ∧
    (∀ t dto, Loses w lid t dto → ∃ r ∈ w.shared.db.reservations.rows,
      r.listingId = lid ∧ r.status.active = true ∧ ¬Disjoint dto.range r.range) ∧
    ((∀ t dto, Calls w lid t dto → (∃ v, Wins w lid t dto v) ∨ Loses w lid t dto) →
      (∀ t dto, Loses w lid t dto →
        ∃ u dto' v, Wins w lid u dto' v ∧ ¬Disjoint dto.range dto'.range) ∧
      ((∀ t u dto dto', t ≠ u → Calls w lid t dto → Calls w lid u dto' →
          ¬Disjoint dto.range dto'.range) →
        (∃ t dto, Calls w lid t dto) →
          ∃ t dto v, Wins w lid t dto v ∧
            ∀ u dto', Calls w lid u dto' → u ≠ t → Loses w lid u dto')) := by
  obtain ⟨g, h⟩ := account_of_reaches h₀ hq hfree hr
  refine ⟨fun t u dto dto' v v' => h.winners_disjoint, fun t dto => h.loser_blocked, fun hend => ?_⟩
  exact ⟨fun t dto => h.loser_meets_winner hend, h.exactly_one hend⟩

end Winners

/-! ## Three holds -/

namespace Storm

def deadlock : Err := .driver none (some "40P01")

/-- Two holds ask for one stay, and a third for the nights after it.  The second insert waits for
the first, is aborted, and is refused when it is made again. -/
def schedule : List Event :=
  [.spawn (.hold 1 Scenario.stay), .spawn (.hold 1 Scenario.stay),
    .spawn (.hold 1 Scenario.nextStay)] ++
  Scenario.steps 0 4 ++ [.step 0 { id := 5 }] ++
  Scenario.steps 1 4 ++ [.step 1 { fault := .before deadlock }] ++ Scenario.steps 1 4 ++
  [.step 0 {}, .step 0 { id := 6 }] ++ Scenario.steps 0 4 ++ [.ret 0] ++
  [.step 1 { id := 7 }] ++ Scenario.steps 1 2 ++ [.ret 1] ++
  Scenario.steps 2 4 ++ [.step 2 { id := 8 }, .step 2 {}, .step 2 { id := 9 }] ++
  Scenario.steps 2 4 ++ [.ret 2]

def done (w : World) : Bool :=
  match w.threads[(0 : Nat)]?, w.threads[(1 : Nat)]?, w.threads[(2 : Nat)]? with
  | some (.returned (.hold 1 _) (.ok (.reservation _))),
    some (.returned (.hold 1 dto) (.error e)),
    some (.returned (.hold 1 _) (.ok (.reservation _))) => dto.listingId == 7 && e == slotTaken
  | _, _, _ => false

end Storm

open Storm in
theorem racing_holds_resolve_three :
    ∃ w, (system Scenario.cfg).Reaches (storm 7) (initial Scenario.listings) w ∧ done w = true ∧
      ∃ dto, Loses w 7 1 dto ∧ ∃ r ∈ w.shared.db.reservations.rows,
        r.listingId = 7 ∧ r.status.active = true ∧ ¬Disjoint dto.range r.range := by
  have hrun : ((system Scenario.cfg).run (storm 7) (initial Scenario.listings) schedule).any
      done = true := by
    decide +kernel
  obtain ⟨w, hr, hd⟩ := Machine.exists_reaches_of_run hrun
  have hlaw := racing_holds_resolve (apart_init _) rfl (fun r hr => by cases hr) hr
  refine ⟨w, hr, hd, ?_⟩
  simp only [done] at hd
  split at hd
  · next dto e _ _ _ ht _ =>
    simp only [Bool.and_eq_true, beq_iff_eq] at hd
    obtain ⟨hl, rfl⟩ := hd
    have hlose : Loses w 7 1 dto := ⟨hl, 1, ht⟩
    exact ⟨dto, hlose, hlaw.2.1 1 dto hlose⟩
  · cases hd

end Holds

end NoOverlap
