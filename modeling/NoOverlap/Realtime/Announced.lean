import NoOverlap.Concurrency.Transcript
import NoOverlap.Lifecycle.Answers
import NoOverlap.Lifecycle.Claim
import NoOverlap.Lifecycle.Transitions
import NoOverlap.Realtime.Publishers
import NoOverlap.Seam.Programs

/-!
# Every status change is announced

A call commits a status in one statement and announces it in another.  `Announced` reads this
off the transcript of the call: after every entry that has changed the status of a reservation
the program comes to a call of `publishReservationChanged` with the listing, the id and the new
status of that reservation.

Three things can come in between, and `attentive` rules them out: a step that fails after the
change and before the announcement, a write that takes effect and is reported as failed, and a
sweep that moves a row it had not seen when it read its candidates.
-/

namespace NoOverlap

open Relational Concurrency

/-- The reservations of a table whose status differs from what another table says. -/
def moved (T T' : Table Reservation) : List Reservation :=
  T'.rows.filter fun r => decide ((T.find? r.id).map (·.status) ≠ some r.status)

theorem mem_moved {T T' : Table Reservation} {v : Reservation} :
    v ∈ moved T T' ↔ v ∈ T'.rows ∧ (T.find? v.id).map (·.status) ≠ some v.status := by
  rw [moved, List.mem_filter, decide_eq_true_eq]

theorem moved_self (T : Table Reservation) : moved T T = [] := by
  refine List.filter_eq_nil_iff.mpr fun r hr => ?_
  have hf : T.find? r.id = some r := Table.find?_of_mem hr
  rw [decide_eq_true_eq, not_not, hf, Option.map_some]

namespace Announcing

abbrev Exchange := Entry Store Statement.Resp Err

abbrev Transcript := List Exchange

/-- The reservations whose status an answered statement has changed. -/
def changes (e : Exchange) : List Reservation := moved e.before.db.reservations e.after.db.reservations

/-! ## Announcements -/

section Announced

variable {α β : Type} {p : Async α} {f : α → Async β} {L L₁ L₂ : Transcript} {v : Reservation}

/-- After `L` the program calls `publishReservationChanged` for `v`. -/
def Publishes (p : Async α) (L : Transcript) (v : Reservation) : Prop :=
  ∃ f : Unit → Async α, p.Leads L (publishReservationChanged v.listingId v.id v.status >>= f)

/-- It does so on its way along `L`. -/
def Reports (p : Async α) (L : Transcript) (v : Reservation) : Prop :=
  ∃ mid rest, L = mid ++ rest ∧ Publishes p mid v

/-- Every change of a status is followed by its announcement. -/
def Announced (p : Async α) (L : Transcript) : Prop :=
  ∀ pre e post, L = pre ++ e :: post → ∀ v ∈ changes e,
    ∃ mid rest, post = mid ++ rest ∧ Publishes p (pre ++ e :: mid) v

theorem Publishes.bind (h : Publishes p L v) : Publishes (p >>= f) L v := by
  obtain ⟨g, hg⟩ := h
  refine ⟨fun u => g u >>= f, ?_⟩
  rw [← Prog.bind_bind]
  exact hg.bind

theorem Publishes.after {a : α} (hp : p.Leads L₁ (.done (.ok a))) (h : Publishes (f a) L₂ v) :
    Publishes (p >>= f) (L₁ ++ L₂) v := by
  obtain ⟨g, hg⟩ := h
  exact ⟨g, hp.bind.append hg⟩

theorem Reports.bind (h : Reports p L₁ v) : Reports (p >>= f) (L₁ ++ L₂) v := by
  obtain ⟨mid, rest, rfl, hp⟩ := h
  exact ⟨mid, rest ++ L₂, List.append_assoc .., hp.bind⟩

theorem Reports.after {a : α} (hp : p.Leads L₁ (.done (.ok a))) (h : Reports (f a) L₂ v) :
    Reports (p >>= f) (L₁ ++ L₂) v := by
  obtain ⟨mid, rest, rfl, hpub⟩ := h
  exact ⟨L₁ ++ mid, rest, (List.append_assoc ..).symm, hpub.after hp⟩

theorem reports_publish (g : Unit → Async α) (L : Transcript) (v : Reservation) :
    Reports (publishReservationChanged v.listingId v.id v.status >>= g) L v :=
  ⟨[], L, rfl, g, .nil _⟩

/-- Nothing was changed. -/
theorem announced_of_unchanged (h : ∀ e ∈ L, changes e = []) : Announced p L := by
  rintro pre e post rfl v hv
  rw [h e (List.mem_append_right _ List.mem_cons_self)] at hv
  cases hv

/-- What a program has changed is announced by what comes after it. -/
theorem announced_bind {a : α} (hp : p.Leads L₁ (.done (.ok a)))
    (h₁ : ∀ e ∈ L₁, ∀ v ∈ changes e, Reports (f a) L₂ v) (h₂ : Announced (f a) L₂) :
    Announced (p >>= f) (L₁ ++ L₂) := by
  intro pre e post hL v hv
  rcases List.append_eq_append_iff.mp hL with ⟨pre', rfl, rfl⟩ | ⟨mid₁, rfl, hpost⟩
  · obtain ⟨mid, rest, rfl, hpub⟩ := h₂ pre' e post rfl v hv
    refine ⟨mid, rest, rfl, ?_⟩
    rw [List.append_assoc]
    exact hpub.after hp
  · cases mid₁ with
    | nil =>
      rw [List.nil_append] at hpost
      subst hpost
      obtain ⟨mid, rest, rfl, hpub⟩ := h₂ [] e post rfl v hv
      rw [List.append_nil] at hp
      exact ⟨mid, rest, rfl, hpub.after hp⟩
    | cons e' mid₁ =>
      obtain ⟨rfl, rfl⟩ := List.cons.inj hpost
      have hmem : e ∈ pre ++ e :: mid₁ := List.mem_append_right _ List.mem_cons_self
      obtain ⟨mid, rest, rfl, hpub⟩ := h₁ e hmem v hv
      refine ⟨mid₁ ++ mid, rest, (List.append_assoc ..).symm, ?_⟩
      have hlist : pre ++ e :: (mid₁ ++ mid) = (pre ++ e :: mid₁) ++ mid := by
        rw [List.append_assoc, List.cons_append]
      rw [hlist]
      exact hpub.after hp

/-- What comes after changes nothing. -/
theorem Announced.bind (h : Announced p L₁) (h₂ : ∀ e ∈ L₂, changes e = []) :
    Announced (p >>= f) (L₁ ++ L₂) := by
  intro pre e post hL v hv
  rcases List.append_eq_append_iff.mp hL with ⟨pre', rfl, rfl⟩ | ⟨mid₁, rfl, hpost⟩
  · rw [h₂ e (List.mem_append_right _ List.mem_cons_self)] at hv
    cases hv
  · cases mid₁ with
    | nil =>
      rw [List.nil_append] at hpost
      rw [h₂ e (hpost ▸ List.mem_cons_self)] at hv
      cases hv
    | cons e' mid₁ =>
      obtain ⟨rfl, rfl⟩ := List.cons.inj hpost
      obtain ⟨mid, rest, rfl, hpub⟩ := h pre e mid₁ rfl v hv
      exact ⟨mid, rest ++ L₂, List.append_assoc .., hpub.bind⟩

end Announced

/-! ## What can come in between -/

/-- The statuses that a statement is about to change. -/
def changing (t : Nat) (ch : Choice) (o : Statement) (s : Store) : List Reservation :=
  match o.exec t ch s with
  | some (_, s') => moved s.db.reservations s'.db.reservations
  | none => []

/-- A change of a status is reported as failed. -/
def misreported (t : Nat) (ch : Choice) (o : Statement) (s : Store) : Bool :=
  match ch.fault with
  | .after _ => !(changing t ch o s).isEmpty
  | _ => false

/-- The statements that stand between a change and its announcement. -/
def between : Statement → Bool
  | .queue (.refundAdd _) | .db (.reservationFindListing _) => true
  | _ => false

/-- A step of a call that has changed a status fails before the announcement. -/
def interrupted (ch : Choice) (o : Statement) (L : Transcript) : Bool :=
  between o && decide (ch.fault ≠ .none) && L.any fun e => !(changes e).isEmpty

/-- The rows that a sweep has been answered with. -/
def found : Exchange → List Reservation
  | ⟨.db (.reservationFindMany _), .ok rows, _, _⟩ => rows
  | _ => []

/-- The rows that a thread has read as candidates. -/
def candidates (L : Transcript) : List Reservation := L.flatMap found

/-- A sweep moves a row that is not among its candidates. -/
def overlooked (t : Nat) (ch : Choice) (o : Statement) (s : Store) (L : Transcript) : Bool :=
  match o with
  | .db (.reservationUpdateMany filter _) =>
    filter.id.isNone && (changing t ch o s).any fun v => !(candidates L).any fun r => r.id == v.id
  | _ => false

abbrev RecordedStore := Store × (Nat → Transcript)

abbrev RecordedWorld := Concurrency.World RecordedStore Call Statement.Resp Err Reply

abbrev RecordedPolicy := Concurrency.Policy RecordedStore Call Choice Statement.Resp Err Reply

abbrev recorded (cfg : Config) :
    Concurrency.Machine RecordedStore Call Choice Statement.Resp Err Reply :=
  (system cfg).transcribing

/-- Any call at any time, any failure and any crash, but no change of a status is reported as
failed, interrupted before its announcement, or overlooked. -/
def attentive : RecordedPolicy :=
  { spawn := fun _ _ => true
    op := fun a ch o s => !misreported a.tid ch o s.1 && !interrupted ch o (s.2 a.tid) &&
      !overlooked a.tid ch o s.1 (s.2 a.tid)
    kill := fun _ _ _ => true }

/-- What is known of an entry of thread `t`, given those before it. -/
def Heard (t : Nat) (pre : Transcript) (e : Exchange) : Prop :=
  ∃ ch : Choice, misreported t ch e.op e.before = false ∧ interrupted ch e.op pre = false ∧
    overlooked t ch e.op e.before pre = false ∧
    e.op.exec t ch e.before = some (e.answer, e.after)

def SameListing (r r' : Reservation) : Prop := r'.listingId = r.listingId

theorem SameListing.refl (r : Reservation) : SameListing r r := rfl

theorem SameListing.trans (r r' r'' : Reservation) (h : SameListing r r')
    (h' : SameListing r' r'') :
    SameListing r r'' := Eq.trans h' h

theorem Heard.exec {t : Nat} {pre : Transcript} {o : Statement} {r : Except Err o.Resp}
    {s s' : Store} (h : Heard t pre ⟨o, r, s, s'⟩) : ∃ ch, o.exec t ch s = some (r, s') := by
  obtain ⟨ch, -, -, -, hx⟩ := h
  exact ⟨ch, hx⟩

/-- What the other threads leave alone. -/
structure Gap (t : Nat) (s s' : Store) : Prop where
  rows : Table.Extends SameListing s.db.reservations s'.db.reservations
  transaction : s'.db.transactions.find? t = s.db.transactions.find? t

theorem Gap.refl (t : Nat) (s : Store) : Gap t s s := ⟨.refl SameListing.refl _, rfl⟩

theorem Gap.trans {t : Nat} {s₁ s₂ s₃ : Store} (h : Gap t s₁ s₂) (h' : Gap t s₂ s₃) :
    Gap t s₁ s₃ :=
  ⟨Table.Extends.trans SameListing.trans h.rows h'.rows,
    h'.transaction.trans h.transaction⟩

theorem Gap.of_db {t : Nat} {s s' : Store} (h : s'.db = s.db) : Gap t s s' := by
  constructor
  · rw [h]
    exact .refl SameListing.refl _
  · rw [h]

/-- No statement removes a reservation or gives it another listing. -/
theorem rows_of_exec {t : Nat} {ch : Choice} {o : Statement} {s s' : Store}
    {r : Except Err o.Resp} (hx : o.exec t ch s = some (r, s')) :
    Table.Extends SameListing s.db.reservations s'.db.reservations := by
  rcases Statement.exec_db hx with he | ⟨o', rfl, r', hd⟩
  · rw [he]
    exact .refl SameListing.refl _
  · exact (Database.effect_of_perform hd).extends SameListing.refl fun _ _ _ _ => rfl

theorem Gap.of_exec {t u : Nat} (hne : u ≠ t) {ch : Choice} {o : Statement} {s s' : Store}
    {r : Except Err o.Resp} (hx : o.exec u ch s = some (r, s')) : Gap t s s' := by
  refine ⟨rows_of_exec hx, ?_⟩
  rcases Statement.exec_db hx with he | ⟨o', rfl, r', hd⟩
  · rw [he]
  · exact (Database.effect_of_perform hd).transaction_ne (Ne.symm hne)

theorem interference (cfg : Config) (listings : Table Listing) :
    (system cfg).Interference Gap (fun t s => s.db.transactions.find? t = none)
      (Store.init listings) where
  start := fun _ => rfl
  refl := Gap.refl
  trans := fun _ _ _ _ h h' => h.trans h'
  fresh := fun _ _ _ hr hf => hr.transaction.trans hf
  exec := fun _ _ _ _ _ _ _ hne hx => .of_exec hne hx
  spawned := fun _ _ _ _ hs => .of_db (spawned_db hs)
  returned := fun _ u c r s => .of_db (returned_db u c r s)
  killed := fun _ _ _ _ hne => ⟨.refl SameListing.refl _, Database.find?_rollback_ne (Ne.symm hne)⟩

theorem heard_of_noted {cfg : Config} {a : Agent} {pre : Transcript} {e : Exchange}
    (h : (system cfg).Noted attentive a pre e) : Heard a.tid pre e := by
  obtain ⟨ch, m, hm, hq, hx⟩ := h
  simp only [attentive, Bool.and_eq_true, Bool.not_eq_true', hm] at hq
  exact ⟨ch, hq.1.1, hq.1.2, hq.2, hx⟩

/-! ## What a statement changes -/

section Statements

variable {t : Nat} {ch : Choice} {pre : Transcript} {o : Statement} {r : Except Err o.Resp}
  {s s' : Store} {v : Reservation}

theorem unchanged_of_rows (h : s'.db.reservations = s.db.reservations) :
    changes ⟨o, r, s, s'⟩ = [] := by
  show moved s.db.reservations s'.db.reservations = []
  rw [h, moved_self]

theorem unchanged_of_quiet (ho : o.Quiet) (h : Heard t pre ⟨o, r, s, s'⟩) :
    changes ⟨o, r, s, s'⟩ = [] := by
  obtain ⟨ch, hx⟩ := h.exec
  exact unchanged_of_rows (Statement.reservations_of_quiet ho hx)

/-- What a status is changed by: the commit of its row, or a write. -/
theorem cases_of_changes (hx : o.exec t ch s = some (r, s')) (hv : v ∈ changes ⟨o, r, s, s'⟩) :
    (∃ tx, o = .db .commit ∧ s.db.transactions.find? t = some tx ∧ v ∈ tx.reservations) ∨
      ∃ o' row status, o = .db o' ∧ s.db.reservations.find? v.id = some row ∧
        o'.writes row = some status ∧ v = { row with status := status } := by
  have hv' : v ∈ moved s.db.reservations s'.db.reservations := hv
  obtain ⟨hmem, hne⟩ := mem_moved.mp hv'
  have hfind : s'.db.reservations.find? v.id = some v := Table.find?_of_mem hmem
  have hold : s.db.reservations.find? v.id ≠ some v := by
    intro h
    rw [h] at hne
    exact hne rfl
  rcases Statement.exec_db hx with he | ⟨o', rfl, r', hd⟩
  · rw [he] at hfind
    exact (hold hfind).elim
  · rcases (Database.effect_of_perform hd).reservations with ⟨he, -⟩ | ⟨tx, rfl, ht, he⟩ | hrw
    · rw [he] at hfind
      exact (hold hfind).elim
    · rw [he] at hfind
      rcases Table.find?_of_insertAll hfind with h | ⟨-, h⟩
      · exact (hold h).elim
      · exact .inl ⟨tx, rfl, ht, h⟩
    · rw [hrw.find] at hfind
      obtain ⟨row, hrow, hrewrite⟩ := Option.map_eq_some_iff.mp hfind
      cases hw : o'.writes row with
      | none =>
        rw [Database.rewrite_none hw] at hrewrite
        exact (hold (hrewrite ▸ hrow)).elim
      | some status =>
        rw [Database.rewrite_some hw] at hrewrite
        exact .inr ⟨o', row, status, rfl, hrow, hw, hrewrite.symm⟩

/-- A statement that reports a failure has changed no status. -/
theorem unchanged_of_error {e : Err} (h : Heard t pre ⟨o, .error e, s, s'⟩) :
    changes ⟨o, .error e, s, s'⟩ = [] := by
  obtain ⟨ch, hmis, -, -, hx⟩ := h
  have hperform : o.perform t ch s = some (.error e, s') → changes ⟨o, .error e, s, s'⟩ = [] := by
    intro hp
    refine unchanged_of_rows ?_
    cases o with
    | db o =>
      obtain ⟨d, hd, rfl⟩ := Statement.perform_db hp
      cases Database.effect_of_perform hd with
      | read | refused => rfl
    | queue o => cases hp
    | provider o => cases o <;> cases hp
    | redis o => cases o <;> cases hp
    | host o =>
      obtain ⟨m, rfl⟩ := Statement.perform_host hp
      rfl
  cases hf : ch.fault with
  | none => exact hperform ((Statement.exec_of_fault_none hf).symm.trans hx)
  | before e' =>
    cases hfall : o.fallible with
    | false => exact hperform ((Statement.exec_of_not_fallible hfall).symm.trans hx)
    | true =>
      simp only [Statement.exec, hf, hfall] at hx
      cases hx
      exact unchanged_of_rows rfl
  | after e' =>
    have hchanging : changing t ch o s = changes ⟨o, .error e, s, s'⟩ := by
      simp only [changing, hx, changes]
    simp only [misreported, hf, hchanging] at hmis
    simpa using hmis

end Statements

/-! ## Programs -/

/-- A call of thread `t`, told as the policy allows. -/
abbrev Told {α : Type} (t : Nat) (pre : Transcript) (s : Store) (p : Async α) (L : Transcript)
    (r : Except Err α) : Prop := Tells (Gap t) (Heard t) pre s p L r

/-- Whatever it is told, the program announces what it has changed. -/
def Tidy {α : Type} (t : Nat) (pre : Transcript) (s : Store) (p : Async α) : Prop :=
  ∀ L r, Told t pre s p L r → Announced p L

section Rules

variable {α β : Type} {t : Nat} {pre L : Transcript} {s : Store} {p q : Async α} {f : α → Async β}
  {r : Except Err α}

theorem unchanged_of_uses (hp : p.Uses Statement.Quiet) (h : Told t pre s p L r) :
    ∀ e ∈ L, changes e = [] := by
  intro e he
  obtain ⟨pre', hheard⟩ := h.chained.exists_of_mem he
  exact unchanged_of_quiet (h.uses hp e he) hheard

theorem tidy_of_uses (hp : p.Uses Statement.Quiet) : Tidy t pre s p := fun _ _ h =>
  announced_of_unchanged (unchanged_of_uses hp h)

theorem tidy_ite {c : Prop} [Decidable c] (hp : c → Tidy t pre s p) (hq : ¬c → Tidy t pre s q) :
    Tidy t pre s (if c then p else q) := by
  split
  · next h => exact hp h
  · next h => exact hq h

/-- A program that changes nothing, and the rest. -/
theorem tidy_bind_of_uses (hp : p.Uses Statement.Quiet)
    (hf : ∀ a L, Told t pre s p L (.ok a) → Tidy t (pre ++ L) (last s L) (f a)) :
    Tidy t pre s (p >>= f) := by
  intro L r h
  obtain ⟨L₁, L₂, r₁, rfl, h₁, hgo⟩ := h.of_bind
  have hquiet := unchanged_of_uses hp h₁
  cases r₁ with
  | error e =>
    obtain ⟨rfl, -⟩ := hgo
    rw [List.append_nil]
    exact announced_of_unchanged hquiet
  | ok a =>
    refine announced_bind h₁.leads (fun e he v hv => ?_) (hf a L₁ h₁ L₂ r hgo)
    rw [hquiet e he] at hv
    cases hv

/-- A statement that changes nothing, and the rest. -/
theorem tidy_op_bind {o : Statement} {f : o.Resp → Async β} (ho : o.Quiet)
    (hf : ∀ a s₁ s₂, Gap t s s₁ → Heard t pre ⟨o, .ok a, s₁, s₂⟩ →
      Tidy t (pre ++ [⟨o, .ok a, s₁, s₂⟩]) s₂ (f a)) : Tidy t pre s (await o >>= f) := by
  refine tidy_bind_of_uses (Prog.uses_op ho) fun a L h => ?_
  obtain ⟨s₁, s₂, rfl, hgap, hheard⟩ := h.of_op
  exact hf a s₁ s₂ hgap hheard

/-- What comes after changes nothing. -/
theorem tidy_bind (hp : Tidy t pre s p) (hf : ∀ a, (f a).Uses Statement.Quiet) :
    Tidy t pre s (p >>= f) := by
  intro L r h
  obtain ⟨L₁, L₂, r₁, rfl, h₁, hgo⟩ := h.of_bind
  refine Announced.bind (hp L₁ r₁ h₁) ?_
  cases r₁ with
  | error e =>
    obtain ⟨rfl, -⟩ := hgo
    exact fun e he => by cases he
  | ok a => exact unchanged_of_uses (hf a) hgo

/-- A statement whose changes the rest reports. -/
theorem tidy_write {o : Statement} {f : o.Resp → Async β}
    (hf : ∀ a s₁ s₂ L r, Gap t s s₁ → Heard t pre ⟨o, .ok a, s₁, s₂⟩ →
      Told t (pre ++ [⟨o, .ok a, s₁, s₂⟩]) s₂ (f a) L r →
      Announced (f a) L ∧ ∀ v ∈ changes ⟨o, .ok a, s₁, s₂⟩, Reports (f a) L v) :
    Tidy t pre s (await o >>= f) := by
  intro L r h
  obtain ⟨r₁, s₁, s₂, L', rfl, hgap, hheard, hgo⟩ := h.of_op_bind
  cases r₁ with
  | error e =>
    obtain ⟨rfl, -⟩ := hgo
    refine announced_of_unchanged fun e he => ?_
    rw [List.mem_singleton.mp he]
    exact unchanged_of_error hheard
  | ok a =>
    obtain ⟨hann, hreports⟩ := hf a s₁ s₂ L' r hgap hheard hgo
    refine announced_bind (Prog.leads_op (.ok a) s₁ s₂) (fun e he v hv => ?_) hann
    rw [List.mem_singleton.mp he] at hv
    exact hreports v hv

end Rules

/-! ## The announcement -/

section Publishing

variable {t : Nat} {pre L : Transcript} {s : Store} {v : Reservation}

/-- An announcement never fails. -/
theorem publish_ok {listingId reservationId : Id} {status : ReservationStatus}
    {r : Except Err Unit}
    (h : (publishReservationChanged listingId reservationId status).Leads L (.done r)) :
    r = .ok () := by
  obtain ⟨L₁, L₂, r₁, -, -, hrest⟩ := h.of_tryCatch
  cases r₁ with
  | ok u => exact hrest.2
  | error e => exact (Prog.Leads.done_inv hrest).2

/-- What a statement has written is reported with what it answered. -/
theorem eq_of_update {id : Id} {status seen : ReservationStatus} {answer : Reservation}
    {s₁ s₂ : Store}
    (h : Heard t pre ⟨.db (.reservationUpdate id status seen), .ok answer, s₁, s₂⟩)
    (hv : v ∈ changes ⟨.db (.reservationUpdate id status seen), .ok answer, s₁, s₂⟩) :
    v = answer ∧ v.status = status := by
  obtain ⟨ch, hx⟩ := h.exec
  rcases cases_of_changes hx hv with ⟨tx, ho, -⟩ | ⟨o', row, status', ho, hrow, hw, hval⟩
  · cases ho
  · cases ho
    simp only [DbStatement.writes, Option.ite_none_right_eq_some, Option.some.injEq] at hw
    obtain ⟨hid, rfl⟩ := hw
    have hvid : v.id = id := (Table.key_of_find? hrow).symm.trans hid
    rw [hvid] at hrow
    obtain ⟨d, hd, -⟩ := Statement.perform_db (Statement.perform_of_exec_ok hx)
    cases Database.effect_of_perform hd with
    | read _ _ hread => cases hread
    | reservationUpdate _ _ _ r hr =>
      rw [hr] at hrow
      cases hrow
      exact ⟨hval, by rw [hval]⟩

/-- A statement between a change and its announcement does not fail. -/
theorem ok_of_between {o : Statement} {r : Except Err o.Resp} {s₁ s₂ : Store}
    (ho : between o = true) (hok : ∀ {ch r' s'}, o.perform t ch s₁ = some (r', s') → ∃ a, r' = .ok a)
    (h : Heard t pre ⟨o, r, s₁, s₂⟩) (hpre : ∃ e ∈ pre, changes e ≠ []) :
    ∃ ch, o.perform t ch s₁ = some (r, s₂) ∧ ∃ a, r = .ok a := by
  obtain ⟨ch, -, hint, -, hx⟩ := h
  have hany : (pre.any fun e => !(changes e).isEmpty) = true := by
    obtain ⟨e, he, hne⟩ := hpre
    exact List.any_eq_true.mpr ⟨e, he, by simpa using hne⟩
  have hfault : ch.fault = .none := by
    simp only [interrupted, ho, hany, Bool.true_and, Bool.and_true, decide_eq_false_iff_not,
      not_not] at hint
    exact hint
  have hp := (Statement.exec_of_fault_none hfault).symm.trans hx
  exact ⟨ch, hp, hok hp⟩

end Publishing

/-! ## cancel -/

section Cancel

variable {t : Nat} {pre L : Transcript} {s : Store} {v : Reservation}

theorem compensate_quiet (id : Id) (wasPaid : Bool) (v : Reservation) :
    (compensate id wasPaid v).Uses Statement.Quiet :=
  compensate_uses (fun _ => trivial) (fun _ => trivial) fun _ => trivial

/-- The refund does not stand in the way. -/
theorem reports_compensate {id : Id} {wasPaid : Bool} {r : Except Err Reservation}
    (hv : v.status = .cancelled) (hpre : ∃ e ∈ pre, changes e ≠ [])
    (h : Told t pre s (compensate id wasPaid v) L r) : Reports (compensate id wasPaid v) L v := by
  have hpub : ∀ L, Reports (publishReservationChanged v.listingId v.id .cancelled >>=
      fun _ => pure v) L v := fun L => by
    rw [← hv]
    exact reports_publish _ L v
  cases wasPaid with
  | false => exact hpub L
  | true =>
    obtain ⟨r₁, s₁, s₂, L', rfl, -, hheard, hgo⟩ := Tells.of_op_bind h
    obtain ⟨ch, -, a, rfl⟩ := ok_of_between rfl (fun hp => ⟨(), by cases hp; rfl⟩) hheard hpre
    exact (hpub L').after (Prog.leads_op (.ok a) s₁ s₂)

theorem tidy_cancelSeen (id : Id) (seen : ReservationStatus) :
    Tidy t pre s (cancelSeen id seen) := by
  unfold cancelSeen assertTransition
  by_cases hseen : ReservationStatus.cancelled ∈ allowedTransitions seen
  · rw [if_pos hseen]
    refine tidy_write fun answer s₁ s₂ L r hgap hheard htold => ⟨?_, fun v hv => ?_⟩
    · exact tidy_of_uses (compensate_quiet id _ answer) L r htold
    · obtain ⟨rfl, hstatus⟩ := eq_of_update hheard hv
      have hpre := List.mem_append_right pre (List.mem_singleton_self
        (⟨.db (.reservationUpdate id .cancelled seen), .ok v, s₁, s₂⟩ : Exchange))
      exact reports_compensate hstatus ⟨_, hpre, List.ne_nil_of_mem hv⟩ htold
  · rw [if_neg hseen]
    exact tidy_of_uses (Prog.uses_throw _)

theorem tidy_cancel (guestId id : Id) : Tidy t pre s (cancel guestId id) := by
  refine tidy_bind_of_uses ?_ fun current L htold => ?_
  · refine Prog.Uses.bind (Prog.uses_op trivial) fun row => ?_
    cases row with
    | none => exact Prog.uses_throw _
    | some row => exact Prog.uses_pure row
  · exact tidy_ite (fun _ => tidy_of_uses (Prog.uses_pure _)) fun _ => tidy_cancelSeen id _

end Cancel

/-! ## Settlements -/

section Settlements

variable {t : Nat} {pre L : Transcript} {s : Store} {v : Reservation}

/-- What a bulk write has changed. -/
theorem of_updateMany {filter : ReservationWhere} {status : ReservationStatus} {n : Nat}
    {s₁ s₂ : Store}
    (h : Heard t pre ⟨.db (.reservationUpdateMany filter status), .ok n, s₁, s₂⟩)
    (hv : v ∈ changes ⟨.db (.reservationUpdateMany filter status), .ok n, s₁, s₂⟩) :
    ∃ row, s₁.db.reservations.find? v.id = some row ∧ filter.matches row = true ∧
      v = { row with status := status } := by
  obtain ⟨ch, hx⟩ := h.exec
  rcases cases_of_changes hx hv with ⟨tx, ho, -⟩ | ⟨o', row, status', ho, hrow, hw, hval⟩
  · cases ho
  · cases ho
    simp only [DbStatement.writes, Option.ite_none_right_eq_some, Option.some.injEq] at hw
    obtain ⟨hm, rfl⟩ := hw
    exact ⟨row, hrow, hm, hval⟩

theorem of_heldById {id : Id} {status : ReservationStatus} {n : Nat} {s₁ s₂ : Store}
    (h : Heard t pre ⟨.db (.reservationUpdateMany (heldById id) status), .ok n, s₁, s₂⟩)
    (hv : v ∈ changes ⟨.db (.reservationUpdateMany (heldById id) status), .ok n, s₁, s₂⟩) :
    v.id = id ∧ v.status = status := by
  obtain ⟨row, -, hm, rfl⟩ := of_updateMany h hv
  exact ⟨(matches_heldById.mp hm).1, rfl⟩

/-- A settlement that has changed a row has counted it. -/
theorem one_of_heldById {id : Id} {status : ReservationStatus} {n : Nat} {s₁ s₂ : Store}
    (h : Heard t pre ⟨.db (.reservationUpdateMany (heldById id) status), .ok n, s₁, s₂⟩)
    (hv : v ∈ changes ⟨.db (.reservationUpdateMany (heldById id) status), .ok n, s₁, s₂⟩) :
    n = 1 := by
  obtain ⟨ch, hx⟩ := h.exec
  rcases of_updateMany_heldById (Statement.perform_of_exec_ok hx) with ⟨-, hn, -⟩ | ⟨-, -, hs⟩
  · exact Except.ok.inj hn
  · have hnone := unchanged_of_rows (o := .db (.reservationUpdateMany (heldById id) status))
      (r := .ok n) (congrArg (fun s : Store => s.db.reservations) hs)
    rw [hnone] at hv
    cases hv

theorem announce_quiet (id : Id) (status : ReservationStatus) :
    (announce id status).Uses Statement.Quiet :=
  announce_uses id status trivial (fun _ => trivial) fun _ => trivial

/-- The listing of a row that is there is found. -/
theorem reports_announce {r : Except Err Unit} (hpre : ∃ e ∈ pre, changes e ≠ [])
    (hrow : s.db.reservations.find? v.id = some v) (h : Told t pre s (announce v.id v.status) L r) :
    Reports (announce v.id v.status) L v := by
  obtain ⟨r₁, s₁, s₂, L', rfl, hgap, hheard, hgo⟩ := Tells.of_op_bind h
  obtain ⟨ch, hp, a, rfl⟩ := ok_of_between rfl (fun hp => ⟨_, by cases hp; rfl⟩) hheard hpre
  obtain ⟨row, hfind, hlisting⟩ := hgap.rows _ v hrow
  have ha : a = some v.listingId := by
    cases hp
    rw [hfind]
    exact congrArg some hlisting
  subst ha
  have hpub : Reports (publishReservationChanged v.listingId v.id v.status) L' v := by
    rw [← Prog.bind_pure (publishReservationChanged _ _ _)]
    exact reports_publish pure L' v
  exact hpub.after (Prog.leads_op _ s₁ s₂)

/-- The shape of the two settlements: a write by id, and its announcement where it took. -/
theorem tidy_settlement {id : Id} {status : ReservationStatus} {done : SettlementOutcome}
    {rest : Async SettlementOutcome} (hrest : rest.Uses Statement.Quiet) :
    Tidy t pre s (do
      let count ← prisma.reservationUpdateMany (heldById id) status
      if count = 1 then
        announce id status
        pure done
      else rest) := by
  refine tidy_write fun n s₁ s₂ L r hgap hheard htold => ⟨?_, fun v hv => ?_⟩
  · refine tidy_of_uses (Prog.uses_ite (fun _ => ?_) fun _ => hrest) L r htold
    exact Prog.Uses.bind (announce_quiet id status) fun _ => Prog.uses_pure _
  · obtain ⟨hid, hstatus⟩ := of_heldById hheard hv
    have hone : n = 1 := one_of_heldById hheard hv
    subst hid hstatus hone
    have hrow : s₂.db.reservations.find? v.id = some v := Table.find?_of_mem (mem_moved.mp hv).1
    obtain ⟨L₁, L₂, r₁, rfl, h₁, -⟩ := Tells.of_bind htold
    have hpre := List.mem_append_right pre (List.mem_singleton_self
      (⟨.db (.reservationUpdateMany (heldById v.id) v.status), .ok 1, s₁, s₂⟩ : Exchange))
    exact (reports_announce ⟨_, hpre, List.ne_nil_of_mem hv⟩ hrow h₁).bind

theorem tidy_applyPaymentSucceeded (id : Id) : Tidy t pre s (applyPaymentSucceeded id) := by
  refine tidy_settlement (Prog.Uses.bind (Prog.uses_op trivial) fun status => ?_)
  cases status with
  | none => exact Prog.uses_pure _
  | some status => exact Prog.uses_ite (fun _ => Prog.uses_pure _) fun _ => Prog.uses_pure _

theorem tidy_applyPaymentFailed (id : Id) : Tidy t pre s (applyPaymentFailed id) := by
  refine tidy_settlement (Prog.Uses.bind (Prog.uses_op trivial) fun status => ?_)
  cases status <;> exact Prog.uses_pure _

theorem tidy_processPaymentResult (data : PaymentResult) :
    Tidy t pre s (processPaymentResult data) := by
  unfold processPaymentResult
  cases paymentResultSchema data with
  | error e => exact tidy_of_uses (Prog.uses_throw e)
  | ok result =>
    refine tidy_bind ?_ fun outcome => ?_
    · cases result with
      | succeeded m => exact tidy_applyPaymentSucceeded m.reservationId
      | failed m => exact tidy_applyPaymentFailed m.reservationId
    · cases outcome with
      | refundRequired status => exact Prog.uses_op trivial
      | _ => exact Prog.uses_pure ()

end Settlements

/-! ## Sweeps -/

section Sweeps

variable {t : Nat} {pre L : Transcript} {s : Store} {v : Reservation}

/-- A sweep moves only what it has seen. -/
theorem candidate_of_sweep {filter : ReservationWhere} {status : ReservationStatus} {n : Nat}
    {s₁ s₂ : Store} (hid : filter.id = none)
    (h : Heard t pre ⟨.db (.reservationUpdateMany filter status), .ok n, s₁, s₂⟩)
    (hv : v ∈ changes ⟨.db (.reservationUpdateMany filter status), .ok n, s₁, s₂⟩) :
    ∃ r ∈ candidates pre, r.id = v.id := by
  obtain ⟨ch, -, -, hover, hx⟩ := h
  have hchanging : changing t ch (.db (.reservationUpdateMany filter status)) s₁ =
      changes ⟨.db (.reservationUpdateMany filter status), .ok n, s₁, s₂⟩ := by
    simp only [changing, hx, changes]
  simp only [overlooked, hid, hchanging, Option.isNone_none, Bool.true_and] at hover
  have hseen := List.any_eq_false.mp hover v hv
  simp only [Bool.not_eq_true', Bool.not_eq_false, List.any_eq_true, beq_iff_eq] at hseen
  exact hseen

theorem of_findMany {filter : ReservationWhere} {rows : List Reservation} {s₁ s₂ : Store}
    (h : Heard t pre ⟨.db (.reservationFindMany filter), .ok rows, s₁, s₂⟩) :
    s₂ = s₁ ∧ ∀ r ∈ rows, s₁.db.reservations.find? r.id = some r := by
  obtain ⟨ch, hx⟩ := h.exec
  obtain ⟨d, hd, hs⟩ := Statement.perform_db (Statement.perform_of_exec_ok hx)
  simp only [Database.perform, Option.some.injEq, Prod.mk.injEq, Except.ok.injEq] at hd
  obtain ⟨rfl, rfl⟩ := hd
  exact ⟨hs, fun r hr => Table.find?_of_mem (List.mem_filter.mp hr).1⟩

theorem Heard.rows {o : Statement} {r : Except Err o.Resp} {s₁ s₂ : Store}
    (h : Heard t pre ⟨o, r, s₁, s₂⟩) :
    Table.Extends SameListing s₁.db.reservations s₂.db.reservations := by
  obtain ⟨ch, hx⟩ := h.exec
  exact rows_of_exec hx

/-- A row of a later moment has the listing it had. -/
theorem listing_of_extends {T T' : Table Reservation} (h : Table.Extends SameListing T T')
    {r row : Reservation} (hr : T.find? r.id = some r) (hrow : T'.find? r.id = some row) :
    row.listingId = r.listingId := by
  obtain ⟨row', hrow', hl⟩ := h _ r hr
  rw [hrow] at hrow'
  cases hrow'
  exact hl

/-- Every candidate is announced. -/
theorem reports_candidates {cands : List Reservation} {status : ReservationStatus} {n : Nat}
    {r : Except Err Nat} {c : Reservation} (hc : c ∈ cands) (hid : v.id = c.id)
    (hlisting : v.listingId = c.listingId) (hstatus : v.status = status)
    (h : Told t pre s (do
      cands.forM fun c => publishReservationChanged c.listingId c.id status
      pure n) L r) :
    Reports (do
      cands.forM fun c => publishReservationChanged c.listingId c.id status
      pure n : Async Nat) L v := by
  obtain ⟨L₁, L₂, r₁, rfl, h₁, -⟩ := Tells.of_bind h
  obtain ⟨mid, rest, g, rfl, hg⟩ := Prog.leads_forM (fun _ _ _ => publish_ok) h₁.leads hc
  have hreports : Reports (cands.forM fun c => publishReservationChanged c.listingId c.id status)
      (mid ++ rest) v := by
    refine ⟨mid, rest, rfl, g, ?_⟩
    rw [hid, hlisting, hstatus]
    exact hg
  exact hreports.bind

theorem tidy_sweep {filter : Int → ReservationWhere} {status : ReservationStatus}
    (hid : ∀ now, (filter now).id = none) : Tidy t [] s (sweep filter status) := by
  refine tidy_op_bind trivial fun readAt s₁ s₁' _ _ => ?_
  refine tidy_op_bind trivial fun cands s₂ s₂' _ hread => ?_
  refine tidy_op_bind trivial fun writeAt s₃ s₃' hgap₃ hclock => ?_
  refine tidy_write fun n s₄ s₄' L r hgap₄ hwrite htold => ⟨?_, fun v hv => ?_⟩
  · refine tidy_of_uses (Prog.Uses.bind (Prog.uses_forM fun c => ?_) fun _ => Prog.uses_pure n) L r htold
    exact publish_quiet _ _ _
  · obtain ⟨c, hc, hcid⟩ := candidate_of_sweep (hid writeAt) hwrite hv
    have hcands : c ∈ cands := by simpa [candidates, found] using hc
    obtain ⟨rfl, hfound⟩ := of_findMany hread
    obtain ⟨row, hrow, -, rfl⟩ := of_updateMany hwrite hv
    -- the candidate and the row are one reservation, read before and after the gap
    have hrows : Table.Extends SameListing s₂'.db.reservations s₄.db.reservations :=
      Table.Extends.trans SameListing.trans hgap₃.rows
        (Table.Extends.trans SameListing.trans hclock.rows hgap₄.rows)
    rw [← show c.id = row.id from hcid] at hrow
    have hlisting := listing_of_extends hrows (hfound c hcands) hrow
    exact reports_candidates hcands hcid.symm hlisting rfl htold

end Sweeps

/-! ## Transactions -/

/-- Thread `t` has a transaction open that has inserted these reservations, all of them held. -/
def Holding (t : Nat) (rs : List Reservation) (s : Store) : Prop :=
  ∃ tx, s.db.transactions.find? t = some tx ∧ tx.reservations = rs ∧ ∀ r ∈ rs, r.status = .held

/-- The statements that insert no reservation and end no transaction. -/
def Steady : Statement → Prop
  | .db (.reservationCreate _) | .db .commit | .db .rollback => False
  | _ => True

section Transactions

variable {t : Nat} {pre L : Transcript} {s s₁ s₂ : Store} {rs : List Reservation}

theorem Holding.gap (h : Holding t rs s) (hgap : Gap t s s₁) : Holding t rs s₁ := by
  obtain ⟨tx, ht, hrs, hheld⟩ := h
  exact ⟨tx, hgap.transaction.trans ht, hrs, hheld⟩

theorem Holding.steady {o : Statement} {r : Except Err o.Resp} (h : Holding t rs s₁) (ho : Steady o)
    (hx : Heard t pre ⟨o, r, s₁, s₂⟩) : Holding t rs s₂ := by
  obtain ⟨ch, hx⟩ := hx.exec
  obtain ⟨tx, ht, hrs, hheld⟩ := h
  rcases Statement.exec_db hx with he | ⟨o', rfl, r', hd⟩
  · exact ⟨tx, (congrArg (fun d : Database => d.transactions.find? t) he).trans ht, hrs, hheld⟩
  · have heff := Database.effect_of_perform hd
    have hset : ∀ {f : Transaction → Transaction} {hf : ∀ tx, (f tx).tid = tx.tid},
        s₂.db = s₁.db.setTransaction t f hf → (f tx).reservations = tx.reservations →
          Holding t rs s₂ := by
      intro f hf he hsame
      refine ⟨f tx, ?_, hsame.trans hrs, hheld⟩
      rw [he]
      exact Database.find?_setTransaction_self ht
    have hkeep : s₂.db.transactions.find? t = s₁.db.transactions.find? t → Holding t rs s₂ :=
      fun he => ⟨tx, he.trans ht, hrs, hheld⟩
    generalize hdb : s₂.db = d at heff hset hkeep
    cases heff with
    | begin => exact hkeep ((Table.find?_insert_of_some ht).trans ht.symm)
    | reservationCreate => exact ho.elim
    | commit => exact ho.elim
    | rollback => exact ho.elim
    | outboxCreate | selectUnpublished | outboxMarkPublished => exact hset rfl rfl
    | reservationUpdate id status seen r hr => exact hkeep (by simp only [Database.reservationUpdate, hr])
    | paymentUpdate key data p hp => exact hkeep (by simp only [Database.paymentUpdate, hp])
    | _ => exact hkeep rfl

/-- A program of such statements. -/
theorem Holding.told {α : Type} {p : Async α} {r : Except Err α} (h : Holding t rs s)
    (hp : p.Uses Steady) (htold : Told t pre s p L r) : Holding t rs (last s L) := by
  refine htold.chained.keeps (K := Holding t rs) (fun _ _ hgap hs => hs.gap hgap) ?_ h
  intro e he pre' hheard hs
  exact hs.steady (htold.uses hp e he) hheard

theorem Holding.of_begin (h : Seam.Idle t s₁) (hx : Heard t pre ⟨.db .begin, .ok (), s₁, s₂⟩) :
    Holding t [] s₂ := by
  obtain ⟨ch, hx⟩ := hx.exec
  obtain ⟨d, hd, he⟩ := Statement.perform_db (Statement.perform_of_exec_ok hx)
  cases hd
  rw [show s₂ = { s₁ with db := s₁.db.begin t } from he]
  exact ⟨Seam.blank t, Database.find?_begin_self h, rfl, fun r hr => by cases hr⟩

theorem Holding.of_create {data : ReservationData} {row : Reservation} (h : Holding t [] s₁)
    (hx : Heard t pre ⟨.db (.reservationCreate data), .ok row, s₁, s₂⟩) : Holding t [row] s₂ := by
  obtain ⟨ch, hx⟩ := hx.exec
  obtain ⟨tx, ht, hrs, -⟩ := h
  obtain ⟨d, hd, he⟩ := Statement.perform_db (Statement.perform_of_exec_ok hx)
  rw [show s₂ = { s₁ with db := d } from he]
  cases Database.effect_of_perform hd with
  | read _ _ hread => cases hread
  | reservationCreate _ tx' _ _ hheld =>
    refine ⟨_, Database.find?_setTransaction_self ht, by rw [hrs, List.nil_append], fun r hr => ?_⟩
    rw [List.mem_singleton.mp hr, hheld]

/-- A commit changes the status of what it has inserted. -/
theorem mem_of_commit {r : Except Err Unit} {v : Reservation} (h : Holding t rs s₁)
    (hx : Heard t pre ⟨.db .commit, r, s₁, s₂⟩) (hv : v ∈ changes ⟨.db .commit, r, s₁, s₂⟩) :
    v ∈ rs ∧ v.status = .held := by
  obtain ⟨ch, hx⟩ := hx.exec
  obtain ⟨tx, ht, rfl, hheld⟩ := h
  rcases cases_of_changes hx hv with ⟨tx', -, ht', hmem⟩ | ⟨o', row, status, ho, -, hw, -⟩
  · rw [ht] at ht'
    cases ht'
    exact ⟨hmem, hheld v hmem⟩
  · cases ho
    cases hw

theorem idle_of_rollback {r : Except Err Unit} (h : Heard t pre ⟨.db .rollback, r, s₁, s₂⟩) :
    r = .ok () ∧ Seam.Idle t s₂ := by
  obtain ⟨ch, hx⟩ := h.exec
  rw [Statement.exec_of_not_fallible rfl] at hx
  cases hx
  exact ⟨rfl, Database.find?_rollback_self⟩

/-- The statements of a transaction before its handler: what they change is what the body has
inserted, and they change it only by returning. -/
theorem changes_of_committed {α : Type} {body : Async α} {r : Except Err α}
    (ins : α → List Reservation) (hquiet : body.Uses Statement.Quiet)
    (hbody : ∀ {pre s L a}, Holding t [] s → Told t pre s body L (.ok a) →
      Holding t (ins a) (last s L)) (hs : Seam.Idle t s)
    (h : Told t pre s (do
      tx.begin
      let a ← body
      tx.commit
      pure a) L r) : ∀ e ∈ L, ∀ v ∈ changes e, ∃ a, r = .ok a ∧ v ∈ ins a ∧ v.status = .held := by
  obtain ⟨r₁, s₁, s₂, L', rfl, hgap, hbegin, hgo⟩ := Tells.of_op_bind h
  have hfirst : changes ⟨.db .begin, r₁, s₁, s₂⟩ = [] := unchanged_of_quiet trivial hbegin
  cases r₁ with
  | error e =>
    obtain ⟨rfl, -⟩ := hgo
    intro e he v hv
    rw [List.mem_singleton.mp he, hfirst] at hv
    cases hv
  | ok u =>
    have hopen := Holding.of_begin (hgap.transaction.trans hs) hbegin
    obtain ⟨L₁, L₂, r₂, rfl, hrun, hgo⟩ := Tells.of_bind hgo
    have hnone := unchanged_of_uses hquiet hrun
    intro e he v hv
    rcases List.mem_cons.mp he with rfl | he
    · rw [hfirst] at hv
      cases hv
    rcases List.mem_append.mp he with he | he
    · rw [hnone e he] at hv
      cases hv
    cases r₂ with
    | error e =>
      obtain ⟨rfl, -⟩ := hgo
      cases he
    | ok a =>
      obtain ⟨r₃, s₃, s₄, L₃, rfl, hgap₃, hcommit, hgo⟩ := Tells.of_op_bind hgo
      have hheld := (hbody hopen hrun).gap hgap₃
      cases r₃ with
      | error e' =>
        obtain ⟨rfl, -⟩ := hgo
        rw [List.mem_singleton.mp he, unchanged_of_error hcommit] at hv
        cases hv
      | ok u =>
        obtain ⟨rfl, rfl⟩ := Tells.of_pure hgo
        rw [List.mem_singleton.mp he] at hv
        exact ⟨a, rfl, mem_of_commit hheld hcommit hv⟩

/-- A transaction changes what its body has inserted, if it returns, and nothing if it fails. -/
theorem changes_of_transaction {α : Type} {body : Async α} {r : Except Err α}
    (ins : α → List Reservation) (hquiet : body.Uses Statement.Quiet)
    (hbody : ∀ {pre s L a}, Holding t [] s → Told t pre s body L (.ok a) →
      Holding t (ins a) (last s L)) (hs : Seam.Idle t s) (h : Told t pre s (transaction body) L r) :
    (∀ e ∈ L, ∀ v ∈ changes e, ∃ a, r = .ok a ∧ v ∈ ins a ∧ v.status = .held) ∧
      ∀ e, r = .error e → Seam.Idle t (last s L) := by
  obtain ⟨L₁, L₂, r₁, rfl, h₁, hcase⟩ := Tells.of_tryCatch h
  have hinner := changes_of_committed ins hquiet hbody hs h₁
  rcases hcase with ⟨a, rfl, rfl, rfl⟩ | ⟨e, rfl, hback⟩
  · rw [List.append_nil]
    exact ⟨hinner, fun e he => by cases he⟩
  · obtain ⟨r₂, s₁, s₂, L', rfl, -, hrollback, hgo⟩ := Tells.of_op_bind hback
    obtain ⟨rfl, hidle⟩ := idle_of_rollback hrollback
    obtain ⟨rfl, rfl⟩ := Tells.of_throw hgo
    have hnone : changes ⟨.db .rollback, .ok (), s₁, s₂⟩ = [] :=
      unchanged_of_quiet trivial hrollback
    refine ⟨fun e' he v hv => ?_, fun _ _ => by rwa [last_append]⟩
    rcases List.mem_append.mp he with he | he
    · obtain ⟨a, hr, -⟩ := hinner e' he v hv
      cases hr
    · rw [List.mem_singleton.mp he, hnone] at hv
      cases hv

/-- No statement but `begin` opens a transaction. -/
theorem idle_of_quiet {o : Statement} {r : Except Err o.Resp} (ho : o.transactional = false)
    (h : Seam.Idle t s) (hgap : Gap t s s₁) (hx : Heard t pre ⟨o, r, s₁, s₂⟩) : Seam.Idle t s₂ := by
  obtain ⟨ch, hx⟩ := hx.exec
  have heq : s₂.db.transactions = s₁.db.transactions := by
    rcases Statement.exec_db hx with he | ⟨o', rfl, r', hd⟩
    · rw [he]
    · exact (Database.effect_of_perform hd).transactions_eq ho
  rw [Seam.Idle, heq]
  exact hgap.transaction.trans h

end Transactions

/-! ## hold -/

section Hold

variable {t : Nat} {pre L : Transcript} {s : Store} {ttl : Int} {guestId : Id}
  {dto : CreateReservationDto} {price : Option Int} {r : Except Err Reservation}

/-- What an attempt does in its transaction. -/
def attempt (ttl : Int) (guestId : Id) (dto : CreateReservationDto) (price : Option Int) :
    Async Reservation := do
  let now ← newDate
  let reservation ← tx.reservationCreate
    { listingId := dto.listingId, guestId := guestId, checkIn := dto.checkIn,
      checkOut := dto.checkOut, priceTotalCents := price, holdExpiresAt := some (now + ttl) }
  let trace ← inject
  tx.outboxCreate reservation.id (bookingHeld reservation trace)
  pure reservation

theorem claimSlot_eq :
    claimSlot ttl guestId dto price = transaction (attempt ttl guestId dto price) :=
  rfl

/-- What it does after its insert. -/
theorem recorded_quiet (a : Reservation) :
    (do
      let trace ← inject
      tx.outboxCreate a.id (bookingHeld a trace)
      pure a : Async Reservation).Uses fun o => o.Quiet ∧ Steady o :=
  Prog.Uses.bind (Prog.uses_op ⟨trivial, trivial⟩) fun _ =>
    Prog.Uses.bind (Prog.uses_op ⟨trivial, trivial⟩) fun _ => Prog.uses_pure a

/-- An attempt that returns has inserted what it returns. -/
theorem holding_of_claim {s : Store} {v : Reservation} (hopen : Holding t [] s)
    (h : Told t pre s (attempt ttl guestId dto price) L (.ok v)) :
    Holding t [v] (last s L) := by
  unfold attempt at h
  obtain ⟨r₁, s₁, s₂, L₁, rfl, hgap₁, hnow, hgo⟩ := Tells.of_op_bind h
  cases r₁ with
  | error e => cases hgo.2
  | ok now =>
  obtain ⟨r₂, s₃, s₄, L₂, rfl, hgap₂, hcreate, hgo⟩ := Tells.of_op_bind hgo
  cases r₂ with
  | error e => cases hgo.2
  | ok row =>
  have hclock : Holding t [] s₂ := (hopen.gap hgap₁).steady (o := .host .newDate) trivial hnow
  have hrow := (hclock.gap hgap₂).of_create hcreate
  have hsame : v = row := by
    obtain ⟨r₃, s₅, s₆, L₃, rfl, -, -, hgo⟩ := Tells.of_op_bind hgo
    cases r₃ with
    | error e => cases hgo.2
    | ok trace =>
    obtain ⟨r₄, s₇, s₈, L₄, rfl, -, -, hgo⟩ := Tells.of_op_bind hgo
    cases r₄ with
    | error e => cases hgo.2
    | ok u => exact Except.ok.inj (Tells.of_pure hgo).2
  rw [hsame]
  exact hrow.told ((recorded_quiet row).mono fun _ ho => ho.2) hgo

/-- An attempt changes one status, of the reservation it returns, and none if it fails. -/
theorem changes_of_claimSlot (hs : Seam.Idle t s)
    (h : Told t pre s (claimSlot ttl guestId dto price) L r) :
    (∀ e ∈ L, ∀ v ∈ changes e, r = .ok v ∧ v.status = .held) ∧
      ∀ e, r = .error e → Seam.Idle t (last s L) := by
  rw [claimSlot_eq] at h
  have hquiet : (attempt ttl guestId dto price).Uses Statement.Quiet := by
    refine Prog.Uses.bind (Prog.uses_op trivial) fun now =>
      Prog.Uses.bind (Prog.uses_op trivial) fun a => ?_
    exact (recorded_quiet a).mono fun _ ho => ho.1
  obtain ⟨hchanges, hidle⟩ := changes_of_transaction (fun v => [v]) hquiet
    (fun hopen htold => holding_of_claim hopen htold) hs h
  refine ⟨fun e he v hv => ?_, hidle⟩
  obtain ⟨a, hr, hmem, hheld⟩ := hchanges e he v hv
  exact ⟨by rw [hr, List.mem_singleton.mp hmem], hheld⟩

/-- So do the two attempts together. -/
theorem changes_of_claimWithRetry (hs : Seam.Idle t s)
    (h : Told t pre s (claimWithRetry ttl guestId dto price) L r) :
    ∀ e ∈ L, ∀ v ∈ changes e, r = .ok v ∧ v.status = .held := by
  obtain ⟨L₁, L₂, r₁, rfl, h₁, hcase⟩ := Tells.of_tryCatch h
  have hinner : ∀ e ∈ L₁, ∀ v ∈ changes e, r₁ = .ok v ∧ v.status = .held := by
    obtain ⟨La, Lb, ra, rfl, ha, hcase⟩ := Tells.of_tryCatch h₁
    obtain ⟨hchanges, hidle⟩ := changes_of_claimSlot hs ha
    rcases hcase with ⟨a, rfl, rfl, rfl⟩ | ⟨err, rfl, hretry⟩
    · rwa [List.append_nil]
    · intro e he v hv
      rcases List.mem_append.mp he with he | he
      · cases (hchanges e he v hv).1
      split at hretry
      · obtain ⟨rfl, -⟩ := Tells.of_throw hretry
        cases he
      · obtain ⟨r₂, s₁, s₂, L', rfl, hgap, hcount, hgo⟩ := Tells.of_op_bind hretry
        have hquiet : changes ⟨.host .recordDeadlockRetry, r₂, s₁, s₂⟩ = [] :=
          unchanged_of_quiet trivial hcount
        rcases List.mem_cons.mp he with rfl | hmem
        · rw [hquiet] at hv
          cases hv
        cases r₂ with
        | error e' =>
          obtain ⟨hnil, -⟩ := hgo
          rw [hnil] at hmem
          cases hmem
        | ok u =>
          have hidle' := idle_of_quiet rfl (hidle err rfl) hgap hcount
          exact (changes_of_claimSlot hidle' hgo).1 e hmem v hv
  rcases hcase with ⟨a, rfl, rfl, rfl⟩ | ⟨err, rfl, hback⟩
  · rwa [List.append_nil]
  · intro e he v hv
    rcases List.mem_append.mp he with he | he
    · cases (hinner e he v hv).1
    · have hnone : ∀ e ∈ L₂, changes e = [] := by
        refine unchanged_of_uses (Prog.uses_ite (fun _ => ?_) fun _ => Prog.uses_throw _) hback
        exact Prog.Uses.bind (Prog.uses_op trivial) fun _ => Prog.uses_throw _
      rw [hnone e he] at hv
      cases hv

/-- `hold` after its attempts. -/
def settled (held : Reservation) : Async Reservation := do
  recordAttempt .held
  publishReservationChanged held.listingId held.id .held
  pure held

theorem settled_quiet (held : Reservation) : (settled held).Uses Statement.Quiet :=
  Prog.Uses.bind (Prog.uses_op trivial) fun _ =>
    Prog.Uses.bind (publish_quiet _ _ _) fun _ => Prog.uses_pure held

/-- The counter does not stand in the way. -/
theorem reports_settled {held : Reservation} (hheld : held.status = .held)
    (h : Told t pre s (settled held) L r) : Reports (settled held) L held := by
  obtain ⟨r₁, s₁, s₂, L', rfl, -, hcount, hgo⟩ := Tells.of_op_bind h
  obtain ⟨ch, hx⟩ := hcount.exec
  rw [Statement.exec_of_not_fallible rfl] at hx
  cases hx
  have hpub := reports_publish (fun _ => pure held : Unit → Async Reservation) L' held
  rw [hheld] at hpub
  exact Reports.after (f := fun _ => publishReservationChanged held.listingId held.id .held >>=
    fun _ => pure held) (Prog.leads_op (o := .host (.recordAttempt .held)) (.ok ()) s₁ _) hpub

theorem tidy_settled (hs : Seam.Idle t s) :
    Tidy t pre s (claimWithRetry ttl guestId dto price >>= settled) := by
  intro L r h
  obtain ⟨L₁, L₂, r₁, rfl, h₁, hgo⟩ := Tells.of_bind h
  have hchanges := changes_of_claimWithRetry hs h₁
  cases r₁ with
  | error e =>
    obtain ⟨rfl, -⟩ := hgo
    rw [List.append_nil]
    refine announced_of_unchanged fun e' he => List.eq_nil_iff_forall_not_mem.mpr fun v hv => ?_
    cases (hchanges e' he v hv).1
  | ok held =>
    refine announced_bind h₁.leads (fun e he v hv => ?_)
      (tidy_of_uses (settled_quiet held) L₂ r hgo)
    obtain ⟨hr, hheld⟩ := hchanges e he v hv
    cases hr
    exact reports_settled hheld hgo

theorem tidy_hold (hs : Seam.Idle t s) : Tidy t pre s (hold ttl guestId dto) := by
  refine tidy_op_bind trivial fun now s₁ s₁' hgap₁ hclock => ?_
  have hidle₁ : Seam.Idle t s₁' := idle_of_quiet rfl hs hgap₁ hclock
  refine tidy_ite (fun _ => tidy_of_uses (Prog.uses_throw _)) fun _ => ?_
  refine tidy_ite (fun _ => tidy_of_uses (Prog.uses_throw _)) fun _ => ?_
  refine tidy_op_bind trivial fun listing s₂ s₂' hgap₂ hread => ?_
  have hidle₂ : Seam.Idle t s₂' := idle_of_quiet rfl hidle₁ hgap₂ hread
  cases listing with
  | none => exact tidy_of_uses (Prog.uses_throw _)
  | some listing =>
    exact tidy_ite (fun _ => tidy_of_uses (Prog.uses_throw _)) fun _ => tidy_settled hidle₂

end Hold

/-! ## Every call -/

section Calls

variable {t : Nat} {pre L : Transcript} {s : Store}

theorem publishBatch_steady : (do
    let rows ← tx.selectUnpublished relayBatchSize
    if rows.length = 0 then pure 0
    else
      chargeQueueAddBulk rows
      let now ← newDate
      let _ ← tx.outboxMarkPublished (rows.map (·.id)) now
      pure rows.length : Async Nat).Uses fun o => o.Quiet ∧ Steady o := by
  refine Prog.Uses.bind (Prog.uses_op ⟨trivial, trivial⟩) fun rows =>
    Prog.uses_ite (fun _ => Prog.uses_pure 0) fun _ => ?_
  refine Prog.Uses.bind (Prog.uses_op ⟨trivial, trivial⟩) fun _ =>
    Prog.Uses.bind (Prog.uses_op ⟨trivial, trivial⟩) fun now => ?_
  exact Prog.Uses.bind (Prog.uses_op ⟨trivial, trivial⟩) fun _ => Prog.uses_pure _

/-- The relay commits no reservation. -/
theorem unchanged_of_publishBatch {r : Except Err Nat} (hs : Seam.Idle t s)
    (h : Told t pre s publishBatch L r) : ∀ e ∈ L, changes e = [] := by
  have hnone := (changes_of_transaction (fun _ => []) (publishBatch_steady.mono fun _ ho => ho.1)
    (fun hopen htold => hopen.told (publishBatch_steady.mono fun _ ho => ho.2) htold) hs h).1
  intro e he
  refine List.eq_nil_iff_forall_not_mem.mpr fun v hv => ?_
  obtain ⟨a, -, hmem, -⟩ := hnone e he v hv
  cases hmem

theorem tidy_relayTick (hs : Seam.Idle t s) : Tidy t pre s relayTick := by
  intro L r h
  obtain ⟨L₁, L₂, r₁, rfl, h₁, hcase⟩ := Tells.of_tryCatch h
  obtain ⟨La, Lb, ra, rfl, ha, hgo⟩ := Tells.of_bind h₁
  have hnone := unchanged_of_publishBatch hs ha
  have hb : Lb = [] := by
    cases ra with
    | ok n => exact (Tells.of_pure hgo).1
    | error e => exact hgo.1
  have h₂ : L₂ = [] := by
    rcases hcase with ⟨a, -, hnil, -⟩ | ⟨err, -, hback⟩
    · exact hnil
    · exact (Tells.of_pure hback).1
  rw [hb, h₂, List.append_nil, List.append_nil]
  exact announced_of_unchanged hnone

/-- A consumer of the payment queues changes no status. -/
theorem quiet_of_worker {c : Call} (hc : c.ofWorker = true) {o : Statement} (ho : c.Issues o) :
    o.Quiet := by
  cases o with
  | db o =>
    cases o with
    | commit => cases c <;> cases hc <;> cases ho
    | reservationUpdate id status seen =>
      obtain ⟨⟨guestId, rfl⟩, -⟩ := ho
      cases hc
    | reservationUpdateMany filter status => cases c <;> cases hc <;> cases ho
    | _ => trivial
  | _ => trivial

theorem tidy_worker (cfg : Config) {c : Call} (hc : c.ofWorker = true) :
    Tidy t pre s (c.program cfg) :=
  tidy_of_uses ((program_issues cfg c).mono fun _ ho => quiet_of_worker hc ho)

theorem tidy_answer {α : Type} {p : Async α} {f : α → Reply} (h : Tidy t pre s p) :
    Tidy t pre s (answer p f) := tidy_bind h fun _ => Prog.uses_pure _

theorem tidy_program (cfg : Config) (c : Call) (hs : Seam.Idle t s) :
    Tidy t [] s (c.program cfg) := by
  cases c with
  | hold guestId dto => exact tidy_answer (tidy_hold hs)
  | cancel guestId id => exact tidy_answer (tidy_cancel guestId id)
  | applyPaymentSucceeded id => exact tidy_answer (tidy_applyPaymentSucceeded id)
  | applyPaymentFailed id => exact tidy_answer (tidy_applyPaymentFailed id)
  | sweepExpiredHolds => exact tidy_answer (tidy_sweep fun _ => rfl)
  | sweepCompletedStays => exact tidy_answer (tidy_sweep fun _ => rfl)
  | relayTick => exact tidy_answer (tidy_relayTick hs)
  | processResult jobId data => exact tidy_answer (tidy_processPaymentResult data)
  | charge | refund | processCharge | processRefund => exact tidy_worker cfg rfl

/-- In every run in which no step fails between a change and its announcement and no sweep moves
a row that it has not seen, a call that has returned has announced every status it has changed. -/
theorem status_changes_announced (cfg : Config) (listings : Table Listing) {w : RecordedWorld}
    (h : (recorded cfg).Reaches attentive (World.start (Store.init listings, fun _ => [])) w)
    {t : Nat} {c : Call} {r : Except Err Reply} (ht : w.threads[t]? = some (.returned c r)) :
    Announced (c.program cfg) (w.shared.2 t) := by
  obtain ⟨s, hidle, htold⟩ := (interference cfg listings).tells h ht
  have hheard : Told t [] s (c.program cfg) (w.shared.2 t) r :=
    ⟨htold.chained.imp fun _ _ => heard_of_noted, htold.leads⟩
  exact tidy_program cfg c hidle _ _ hheard

/-- The thread has returned. -/
def hasReturned (th : Option (Concurrency.Thread Call Statement.Resp Err Reply)) : Bool :=
  match th with
  | some (.returned _ _) => true
  | _ => false

theorem of_hasReturned {th : Option (Concurrency.Thread Call Statement.Resp Err Reply)}
    (h : hasReturned th = true) : ∃ c r, th = some (.returned c r) := by
  unfold hasReturned at h
  split at h
  · exact ⟨_, _, rfl⟩
  · cases h

/-- A hold that is cancelled: the two calls have changed a status, and announced it. -/
theorem hold_and_cancel_announced : ∃ w c r, (recorded Scenario.cfg).Reaches attentive
    (World.start (Store.init Scenario.listings, fun _ => [])) w ∧
      w.threads[1]? = some (.returned c r) ∧ (w.shared.2 1).any (fun e => !(changes e).isEmpty) ∧
        Announced (c.program Scenario.cfg) (w.shared.2 1) := by
  have hrun : ((recorded Scenario.cfg).run attentive
      (World.start (Store.init Scenario.listings, fun _ => []))
      (Scenario.place 0 Scenario.stay 10 11 ++
        .spawn (.cancel 1 10) :: Scenario.steps 1 4 ++ [.ret 1])).any
      (fun w => hasReturned w.threads[1]? &&
        (w.shared.2 1).any fun e => !(changes e).isEmpty) = true := by
    decide +kernel
  obtain ⟨w, hr, hw⟩ := Machine.exists_reaches_of_run hrun
  obtain ⟨hret, hany⟩ := Bool.and_eq_true_iff.mp hw
  obtain ⟨c, r, ht⟩ := of_hasReturned hret
  exact ⟨w, c, r, hr, ht, hany, status_changes_announced _ _ hr ht⟩

end Calls

/-! ## What a sweep overlooks -/

section Overlooked

variable {α : Type} {p : Async α} {L : Transcript} {v : Reservation}

/-- A program that ends with a change has not announced it. -/
theorem not_announced_of_last {e : Exchange} {r : Except Err α} (hp : p.Leads (L ++ [e]) (.done r))
    (hv : v ∈ changes e) : ¬Announced p (L ++ [e]) := by
  intro h
  obtain ⟨mid, rest, hpost, g, hg⟩ := h L e [] rfl v hv
  obtain ⟨rfl, -⟩ := List.append_eq_nil_iff.mp hpost.symm
  have hend := hp.unique hg
  cases hend

/-- Any call at any time, no failure and no crash. -/
def smooth : RecordedPolicy :=
  { spawn := fun _ _ => true
    op := fun _ ch _ _ => decide (ch.fault = .none)
    kill := fun _ _ _ => false }

/-- A reading of the clock. -/
def reading : Exchange → Option Int
  | ⟨.host .newDate, .ok now, _, _⟩ => some now
  | _ => none

/-- A hold runs out between the two clock readings of a sweep. -/
def overlookedHold : List Event :=
  Scenario.place 0 Scenario.stay 10 11 ++ .spawn .sweepExpiredHolds ::
    [.step 1 { now := 900000 }, .step 1 {}, .step 1 { now := 900001 }, .step 1 {}, .ret 1]

/-- No call has failed and no clock has gone back, and the sweep has not announced what it has
moved. -/
theorem sweep_not_announced : ∃ w c r, (recorded Scenario.cfg).Reaches smooth
    (World.start (Store.init Scenario.listings, fun _ => [])) w ∧
      w.threads[1]? = some (.returned c r) ∧
        ((w.shared.2 1).filterMap reading).Pairwise (· ≤ ·) ∧
          ¬Announced (c.program Scenario.cfg) (w.shared.2 1) := by
  have hrun : ((recorded Scenario.cfg).run smooth
      (World.start (Store.init Scenario.listings, fun _ => [])) overlookedHold).any
      (fun w => hasReturned w.threads[1]? &&
        (decide (((w.shared.2 1).filterMap reading).Pairwise (· ≤ ·)) &&
          (w.shared.2 1).getLast?.any fun e => !(changes e).isEmpty)) = true := by
    decide +kernel
  obtain ⟨w, hr, hw⟩ := Machine.exists_reaches_of_run hrun
  obtain ⟨hret, hw⟩ := Bool.and_eq_true_iff.mp hw
  obtain ⟨hclock, hlast⟩ := Bool.and_eq_true_iff.mp hw
  obtain ⟨c, r, ht⟩ := of_hasReturned hret
  obtain ⟨e, he, hchanged⟩ := (Option.any_eq_true _ _).mp hlast
  obtain ⟨L, hL⟩ := List.getLast?_eq_some_iff.mp he
  obtain ⟨v, hv⟩ := List.exists_mem_of_ne_nil (changes e) (by simpa using hchanged)
  obtain ⟨s, -, htold⟩ := (interference Scenario.cfg Scenario.listings).tells hr ht
  refine ⟨w, c, r, hr, ht, of_decide_eq_true hclock, ?_⟩
  have hleads := htold.leads
  rw [hL] at hleads ⊢
  exact not_announced_of_last hleads hv

end Overlooked

end Announcing

end NoOverlap
