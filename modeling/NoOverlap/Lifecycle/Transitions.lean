import NoOverlap.Lifecycle.Apart

/-!
# Status changes

The conditional writes move a row along `allowedTransitions` by construction: the
filter of the statement is the status the map is consulted for.  The write of
`cancel` is not conditional.  It is checked against the status the call read
before, so it lands on whatever the row has become since, and that is the one
way a status changes outside the map.
-/

namespace NoOverlap

open Relational Concurrency

/-! ## The map -/

/-- No cancel lands on a reservation that a sweep has taken out of its hands. -/
def cancelsInTime : Policy :=
  { anything with
    op := fun _ _ o s => match o with
      | .db (.reservationUpdate id _ _) => (s.db.reservations.find? id).all fun r =>
          r.status != .expired && r.status != .completed
      | _ => true }

/-- The row has kept its status or has made a legal move. -/
def Reservation.Legal (r r' : Reservation) : Prop :=
  r'.status = r.status ∨ r'.status ∈ allowedTransitions r.status

/-- A write is the cancellation of some row, or a legal move. -/
theorem cancelled_or_legal_of_writes {c : Call} {o : DbStatement} (hi : c.Issues (.db o))
    {r : Reservation} {status : ReservationStatus} (hw : o.writes r = some status) :
    status = .cancelled ∨ status ∈ allowedTransitions r.status := by
  cases o with
  | reservationUpdate id st seen =>
    simp only [DbStatement.writes, Option.ite_none_right_eq_some, Option.some.injEq] at hw
    exact .inl (hw.2.symm.trans hi.2.1)
  | reservationUpdateMany filter st =>
    simp only [DbStatement.writes, Option.ite_none_right_eq_some, Option.some.injEq] at hw
    obtain ⟨hm, rfl⟩ := hw
    rw [ReservationWhere.status_eq hm]
    exact .inr (Call.Moves.legal hi)
  | _ => cases hw

/-- Rows are added, and otherwise change as `rel` allows every write to change them. -/
theorem Database.Effect.extends {d d' : Database} {t : Nat} {o : DbStatement}
    {res : Except Err o.Resp} {rel : Reservation → Reservation → Prop} (h : d.Effect t o res d')
    (hrefl : ∀ r, rel r r)
    (hw : ∀ r status, o.writes r = some status → d.reservations.find? r.id = some r →
      rel r { r with status := status }) :
    Table.Extends rel d.reservations d'.reservations := by
  rcases h.reservations with ⟨he, -⟩ | ⟨tx, -, -, rfl⟩ | hrw
  · rw [he]
    exact Table.Extends.refl hrefl _
  · exact Table.Extends.insertAll hrefl _ _
  · intro id r hr
    refine ⟨o.rewrite r, by rw [hrw.find, hr, Option.map_some], ?_⟩
    cases hs : o.writes r with
    | none =>
      rw [rewrite_none hs]
      exact hrefl r
    | some status =>
      rw [rewrite_some hs]
      exact hw r status hs (Table.find?_of_mem (Table.mem_of_find? hr))

variable {cfg : Config} {listings : Table Listing} {w w' : World}

/-- A write under `cancelsInTime` is legal. -/
theorem legal_of_writes {c : Call} {t : Nat} {ch : Choice} {o : DbStatement} {s : Store}
    (hi : c.Issues (.db o)) (hp : cancelsInTime.op ⟨t, c⟩ ch (.db o) s = true) {r : Reservation}
    {status : ReservationStatus} (hw : o.writes r = some status)
    (hr : s.db.reservations.find? r.id = some r) : r.Legal { r with status := status } := by
  cases o with
  | reservationUpdate id st seen =>
    simp only [DbStatement.writes, Option.ite_none_right_eq_some, Option.some.injEq] at hw
    obtain ⟨rfl, rfl⟩ := hw
    obtain ⟨-, rfl, -⟩ := hi
    simp only [cancelsInTime, hr, Option.all_some, Bool.and_eq_true, bne_iff_ne] at hp
    cases hs : r.status with
    | held => exact .inr (by simp [allowedTransitions, hs])
    | confirmed => exact .inr (by simp [allowedTransitions, hs])
    | cancelled => exact .inl (by simp [hs])
    | expired => exact (hp.1 hs).elim
    | completed => exact (hp.2 hs).elim
  | reservationUpdateMany filter st =>
    simp only [DbStatement.writes, Option.ite_none_right_eq_some, Option.some.injEq] at hw
    obtain ⟨hm, rfl⟩ := hw
    refine .inr ?_
    rw [ReservationWhere.status_eq hm]
    exact Call.Moves.legal hi
  | _ => cases hw

theorem legal_of_next {e : Event}
    (hr : (system cfg).Reaches cancelsInTime (initial listings) w)
    (hn : (system cfg).next cancelsInTime w e = some w') :
    Table.Extends Reservation.Legal w.shared.db.reservations w'.shared.db.reservations := by
  have hrefl : ∀ r : Reservation, r.Legal r := fun r => .inl rfl
  cases Machine.next_moves _ _ hn with
  | spawn hp hs =>
    rw [spawned_db hs]
    exact Table.Extends.refl hrefl _
  | @step t ch c o k r s ht hp hx =>
    rcases Statement.exec_db hx with he | ⟨o', rfl, r', hd⟩
    · rw [he]
      exact Table.Extends.refl hrefl _
    · exact (Database.effect_of_perform hd).extends hrefl fun r status hw hf =>
        legal_of_writes (hr.uses_head (program_issues cfg) ht) hp hw hf
  | @ret t c r ht =>
    have he : ((system cfg).returned t c r w.shared).db = w.shared.db := returned_db t c r _
    simp only [he]
    exact Table.Extends.refl hrefl _
  | kill ht hp => exact Table.Extends.refl hrefl _

/-- A settled row stays as it is. -/
theorem settled_of_reaches (hr : (system cfg).Reaches cancelsInTime (initial listings) w)
    (hr' : (system cfg).Reaches cancelsInTime w w') {id : Id} {r : Reservation}
    (hf : w.shared.db.reservations.find? id = some r) (hs : r.status.active = false) :
    ∃ r', w'.shared.db.reservations.find? id = some r' ∧ r'.status = r.status := by
  induction hr' with
  | refl => exact ⟨r, hf, rfl⟩
  | tail e h hn ih =>
    obtain ⟨r₁, hf₁, hs₁⟩ := ih
    obtain ⟨r₂, hf₂, hl⟩ := legal_of_next (hr.trans h) hn id r₁ hf₁
    refine ⟨r₂, hf₂, ?_⟩
    rcases hl with hl | hl
    · exact hl.trans hs₁
    · have ha := active_of_legal hl
      rw [hs₁, hs] at ha
      cases ha

/-- As long as cancels come in time, every status change of every run is in the
map, and a settled reservation never changes again. -/
theorem status_changes_allowed (hr : (system cfg).Reaches cancelsInTime (initial listings) w) :
    (∀ w' e, (system cfg).next cancelsInTime w e = some w' → ∀ id s,
      w.shared.statusOf id = some s →
      ∃ s', w'.shared.statusOf id = some s' ∧ (s' = s ∨ s' ∈ allowedTransitions s)) ∧
    ∀ w', (system cfg).Reaches cancelsInTime w w' → ∀ id s, w.shared.statusOf id = some s →
      s = .expired ∨ s = .cancelled ∨ s = .completed → w'.shared.statusOf id = some s := by
  constructor
  · intro w' e hn id s hs
    obtain ⟨r, hf, rfl⟩ := Option.map_eq_some_iff.mp hs
    obtain ⟨r', hf', hl⟩ := legal_of_next hr hn id r hf
    exact ⟨r'.status, Option.map_eq_some_iff.mpr ⟨r', hf', rfl⟩, hl⟩
  · intro w' hr' id s hs ht
    obtain ⟨r, hf, rfl⟩ := Option.map_eq_some_iff.mp hs
    have ha : r.status.active = false := by rcases ht with ht | ht | ht <;> rw [ht] <;> rfl
    obtain ⟨r', hf', hs'⟩ := settled_of_reaches hr hr' hf ha
    exact Option.map_eq_some_iff.mpr ⟨r', hf', hs'⟩

section Runs

open Scenario

/-- A guest cancels a hold in time. -/
theorem status_changes_allowed_cancelled :
    ∃ w, (system Scenario.cfg).Reaches cancelsInTime (initial Scenario.listings) w ∧
      w.shared.statusOf 5 = some .cancelled ∧
      ∀ w', (system Scenario.cfg).Reaches cancelsInTime w w' → w'.shared.statusOf 5 = some .cancelled := by
  have hrun : ((system Scenario.cfg).run cancelsInTime (initial Scenario.listings)
      (place 0 stay 5 6 ++ .spawn (.cancel 1 5) :: steps 1 4 ++ [.ret 1])).any
      (fun w => w.shared.statusOf 5 == some .cancelled) = true := by decide
  obtain ⟨w, hr, ht⟩ := Machine.exists_reaches_of_run hrun
  have hs := beq_iff_eq.mp ht
  exact ⟨w, hr, hs, fun w' hr' =>
    (status_changes_allowed hr).2 w' hr' 5 _ hs (.inr (.inl rfl))⟩

/-- A cancel reads a hold, a sweep expires it, and the cancel writes. -/
theorem not_status_changes_allowed :
    ¬ ∀ w, (system Scenario.cfg).Reaches anything (initial Scenario.listings) w → ∀ w' e,
      (system Scenario.cfg).next anything w e = some w' → ∀ id s, w.shared.statusOf id = some s →
      ∃ s', w'.shared.statusOf id = some s' ∧ (s' = s ∨ s' ∈ allowedTransitions s) := by
  intro h
  have hrun : ((system Scenario.cfg).run anything (initial Scenario.listings)
      (place 0 stay 5 6 ++ .spawn (.cancel 1 5) :: steps 1 1 ++ expire 2)).any
      (fun w => ((system Scenario.cfg).next anything w (.step 1 {})).any fun w' =>
        w.shared.statusOf 5 == some .expired && w'.shared.statusOf 5 == some .cancelled) = true := by decide
  obtain ⟨w, w', hr, hn, ht⟩ := Machine.exists_next_of_run hrun
  simp only [Bool.and_eq_true, beq_iff_eq] at ht
  obtain ⟨s', hs', hl⟩ := h w hr w' _ hn 5 .expired ht.1
  rw [ht.2] at hs'
  cases hs'
  simp [allowedTransitions] at hl

end Runs

end NoOverlap
