import NoOverlap.Concurrency.RelyGuarantee
import NoOverlap.Holds.Account
import NoOverlap.Lifecycle.Desk

/-!
# Bookings are atomic

Every call is many statements, between which others run, fail and crash.  At the desk each of
them is one visit: the chronicle of a run is a history of the roster, and what a call has
answered is what it has asked there.  A stay that the guest is told is theirs was free at that
moment; a stay that the guest is told is taken was not.

The walk through the programs follows `Holds.Account`, with the visits in place of the deeds.
-/

namespace NoOverlap

open Relational Concurrency
open Concurrency.RelyGuarantee
open Roster (Claim Standing)
open Holds (slotTaken holding error_of_exec error_of_perform)

abbrev Chronicled := Store × List (Nat × Desk.Op)

/-- Any call at any time, any crash, and every failure that tells no lie. -/
def telling : Policy := { anything with op := fun _ ch o _ => truthful o ch.fault }

namespace Desk

/-- What holds of the database and of the chronicle at any time. -/
structure Kept (s : Chronicled) : Prop where
  apart : Apart s.1.db
  single : Single s.1.db
  shows : ∃ R, History Roster.Step .empty (s.2.map Prod.snd) R ∧ Shows R s.1.db

/-- What no other thread touches. -/
structure Same (t : Nat) (s s' : Chronicled) : Prop where
  transaction : s'.1.db.transactions.find? t = s.1.db.transactions.find? t
  own : own t s'.2 = own t s.2

/-! ## What a call has asked -/

/-- The stay that a guest asks for, if its dates are valid. -/
def wanted (dto : CreateReservationDto) : Option (Claim Id Int) :=
  match dto.checkIn, dto.checkOut with
  | some a, some b => some { resource := dto.listingId, start := a, stop := b }
  | _, _ => none

/-- What a hold has asked of the desk, by its answer.  Unless the slot is taken, an error leaves
open whether the stay has been entered. -/
def HoldAsks (dto : CreateReservationDto) : Except Err Reservation → List Op → Prop
  | .ok v, L => wanted dto = some v.claim ∧ L = [.grant v.id v.claim]
  | .error e, L =>
    if e = slotTaken then ∃ c, wanted dto = some c ∧ L = [.refuse c]
    else L = [] ∨ ∃ id c, wanted dto = some c ∧ L = [.grant id c]

/-- What a cancel has asked, by its answer.  A reservation that is cancelled already is left
alone. -/
def CancelAsks (id : Id) : Except Err Reservation → List Op → Prop
  | .ok v, L => v.id = id ∧ v.status = .cancelled ∧ (L = [] ∨ L = [.cancel id])
  | .error _, L => L = [] ∨ L = [.cancel id]

/-- What a settlement has asked, by its answer. -/
def SettlementAsks (x : Op) : Except Err SettlementOutcome → List Op → Prop
  | .ok o, L => L = if o = .applied then [x] else []
  | .error _, L => L = [] ∨ L = [x]

/-- What a sweep has asked, by its answer: it counts the stays that it has ended. -/
def SweepAsks (x : Standing) (r : Except Err Nat) (L : List Op) : Prop :=
  ∃ ids : List Id, L = ids.map (.withdraw · x) ∧ ∀ n, r = .ok n → n = ids.length

/-- What a call has asked, by its answer. -/
def Asks : Call → Except Err Reply → List Op → Prop
  | .hold _ dto, r, L => ∃ r' : Except Err Reservation, r = r'.map .reservation ∧ HoldAsks dto r' L
  | .cancel _ id, r, L =>
    ∃ r' : Except Err Reservation, r = r'.map .reservation ∧ CancelAsks id r' L
  | .applyPaymentSucceeded id, r, L =>
    ∃ r' : Except Err SettlementOutcome, r = r'.map .settlement ∧
      SettlementAsks (.confirm id) r' L
  | .applyPaymentFailed id, r, L =>
    ∃ r' : Except Err SettlementOutcome, r = r'.map .settlement ∧
      SettlementAsks (.withdraw id .tentative) r' L
  | .sweepExpiredHolds, r, L =>
    ∃ r' : Except Err Nat, r = r'.map .count ∧ SweepAsks .tentative r' L
  | .sweepCompletedStays, r, L =>
    ∃ r' : Except Err Nat, r = r'.map .count ∧ SweepAsks .firm r' L
  | .processResult _ (.succeeded m), _, L => L = [] ∨ L = [.confirm m.reservationId]
  | .processResult _ (.failed m), _, L => L = [] ∨ L = [.withdraw m.reservationId .tentative]
  | _, _, L => L = []

/-! ## The rules -/

def rules : RelyGuarantee Chronicled Call Statement.Resp Err Reply :=
  { Step := fun a s o r s' => a.call.Issues o ∧ ∃ ch : Choice, truthful o ch.fault = true ∧
      o.exec a.tid ch s.1 = some (r, s'.1) ∧
        s'.2 = s.2 ++ (noted o r s.1 s'.1).map (Prod.mk a.tid)
    Inv := Kept
    Rely := Same
    Guar := fun a s _ _ s' => ∀ t, t ≠ a.tid → Same t s s'
    Post := fun a r s => Asks a.call r (own a.tid s.2)
    Fresh := fun t s => s.1.db.transactions.find? t = none ∧ own t s.2 = []
    Lost := fun _ _ => True }

variable {a : Agent} {s s' s'' : Chronicled} {e : Err} {L K : List Op}
  {cur : Option Transaction} {dto : CreateReservationDto}

theorem Same.refl (t : Nat) (s : Chronicled) : Same t s s := ⟨rfl, rfl⟩

theorem Same.trans {t : Nat} (h : Same t s s') (h' : Same t s' s'') : Same t s s'' :=
  ⟨h'.transaction.trans h.transaction, h'.own.trans h.own⟩

theorem own_of_step {o : Statement} {r : Except Err o.Resp} (hs : rules.Step a s o r s') :
    own a.tid s'.2 = own a.tid s.2 ++ noted o r s.1 s'.1 := by
  obtain ⟨-, ch, -, -, hlog⟩ := hs
  rw [hlog, own_append, own_self]

/-- Every statement keeps the chronicle a history, and its hands off the other threads. -/
theorem kept_of_step {o : Statement} {r : Except Err o.Resp} (hs : rules.Step a s o r s')
    (hi : Kept s) (hblank : Inserts o → Blank a.tid s.1.db) :
    Kept s' ∧ ∀ t, t ≠ a.tid → Same t s s' := by
  obtain ⟨hissues, ch, htrue, hx, hlog⟩ := hs
  obtain ⟨R, hhist, hshows⟩ := hi.shows
  obtain ⟨R', hhist', hshows'⟩ :=
    follows_of_exec hshows hi.apart hi.single hissues hblank htrue hx
  have hall : ∃ R', History Roster.Step .empty (s'.2.map Prod.snd) R' ∧ Shows R' s'.1.db := by
    refine ⟨R', ?_, hshows'⟩
    rw [hlog, labels_append]
    exact hhist.append hhist'
  have hown : ∀ t, t ≠ a.tid → own t s'.2 = own t s.2 := fun t ht => by
    rw [hlog, own_append, own_ne (Ne.symm ht), List.append_nil]
  rcases Statement.exec_db hx with he | ⟨o', rfl, r', hd⟩
  · exact ⟨⟨he ▸ hi.apart, he ▸ hi.single, hall⟩, fun t ht => ⟨by rw [he], hown t ht⟩⟩
  · have heff := Database.effect_of_perform hd
    exact ⟨⟨hi.apart.effect hissues heff, hi.single.effect hblank heff, hall⟩,
      fun t ht => ⟨heff.transaction_ne ht, hown t ht⟩⟩

theorem safe_insert {β : Type} {Q : Except Err β → Chronicled → Prop} {o : Statement}
    {f : o.Resp → Async β} (ho : ∀ s₁, Same a.tid s s₁ → Inserts o → Blank a.tid s₁.1.db)
    (h : ∀ s₁, Same a.tid s s₁ → Kept s₁ → ∀ r s₂, rules.Step a s₁ o r s₂ →
      rules.Cont a Q f r s₂) : rules.Safe a Q (await o >>= f) s := by
  refine Safe.op_bind fun s₁ hr hi r s₂ hs => ?_
  obtain ⟨hi', hg⟩ := kept_of_step hs hi (ho s₁ hr)
  exact ⟨hi', hg, h s₁ hr hi r s₂ hs⟩

theorem safe_op {β : Type} {Q : Except Err β → Chronicled → Prop} {o : Statement}
    {f : o.Resp → Async β} (ho : ¬Inserts o)
    (h : ∀ s₁, Same a.tid s s₁ → Kept s₁ → ∀ r s₂, rules.Step a s₁ o r s₂ →
      rules.Cont a Q f r s₂) : rules.Safe a Q (await o >>= f) s :=
  safe_insert (fun _ _ hi => (ho hi).elim) h

/-- What a thread has asked so far stays what it is while nothing is asked. -/
theorem safe_quiet {β : Type} {p : Async β} (hp : p.Uses fun o => asks o = false)
    (h : own a.tid s.2 = L) : rules.Safe a (fun _ s => own a.tid s.2 = L) p s := by
  have hrely : ∀ s s' : Chronicled, Same a.tid s s' → own a.tid s.2 = L → own a.tid s'.2 = L :=
    fun s s' hr hk => hr.own.trans hk
  refine Safe.of_uses hrely ?_ hp h
  intro s₁ o r s₂ ho hi hk hs
  have hno : ¬Inserts o := fun hins => by
    cases o with
    | db o => cases o <;> first | exact hins.elim | cases ho
    | _ => exact hins.elim
  obtain ⟨hi', hg⟩ := kept_of_step hs hi fun hins => (hno hins).elim
  refine ⟨hi', hg, ?_⟩
  rw [own_of_step hs, noted_of_not_asks ho, List.append_nil]
  exact hk

/-- A statement that asks nothing. -/
theorem own_of_quiet {o : Statement} {r : Except Err o.Resp} (ho : asks o = false)
    (h : own a.tid s.2 = L) (hs : rules.Step a s o r s') : own a.tid s'.2 = L := by
  rw [own_of_step hs, noted_of_not_asks ho, List.append_nil]
  exact h

/-! ## A hold -/

/-- The open transaction of a thread, and what it has asked so far. -/
structure At (t : Nat) (tx : Option Transaction) (L : List Op) (s : Chronicled) : Prop where
  transaction : s.1.db.transactions.find? t = tx
  own : own t s.2 = L

theorem At.same (h : At a.tid cur L s) (hr : Same a.tid s s') : At a.tid cur L s' :=
  ⟨hr.transaction.trans h.transaction, hr.own.trans h.own⟩

theorem At.blank {os : List OutboxRow} (h : At a.tid (some (holding a.tid [] os)) L s) :
    Blank a.tid s.1.db := by
  intro tx ht
  rw [h.transaction] at ht
  cases ht
  rfl

/-- A statement that asks nothing, and leaves the database alone. -/
theorem At.read {o : Statement} {r : Except Err o.Resp} (h : At a.tid cur L s)
    (ho : asks o = false) (hdb : s'.1.db = s.1.db) (hs : rules.Step a s o r s') :
    At a.tid cur L s' := by
  refine ⟨by rw [hdb]; exact h.transaction, ?_⟩
  rw [own_of_step hs, noted_of_not_asks ho, List.append_nil]
  exact h.own

theorem db_of_host {o : HostStatement} {r : Except Err o.Resp}
    (hs : rules.Step a s (.host o) r s') : s'.1.db = s.1.db := by
  obtain ⟨-, ch, -, hx, -⟩ := hs
  rcases Statement.exec_db hx with he | ⟨o', ho, -⟩
  · exact he
  · cases ho

theorem db_of_listing {id : Id} {r : Except Err (Option Listing)}
    (hs : rules.Step a s (.db (.listingFindUnique id)) r s') : s'.1.db = s.1.db := by
  obtain ⟨-, ch, -, hx, -⟩ := hs
  rcases Statement.exec_db hx with he | ⟨o', ho, r', hd⟩
  · exact he
  · cases ho
    simp only [Database.perform, Option.some.injEq, Prod.mk.injEq] at hd
    exact hd.2.symm

/-- A value is the answer of a statement that took place. -/
theorem perform_of_step {o : DbStatement} {v : o.Resp} (hs : rules.Step a s (.db o) (.ok v) s') :
    ∃ ch : Choice, Database.perform a.tid ch.id ch.now o s.1.db = some (.ok v, s'.1.db) := by
  obtain ⟨-, ch, -, hx, -⟩ := hs
  obtain ⟨d, hd, he⟩ := Statement.perform_db (Statement.perform_of_exec_ok hx)
  exact ⟨ch, by rw [he]; exact hd⟩

/-- What an attempt that fails has asked of the desk. -/
def Left (dto : CreateReservationDto) (e : Err) (K : List Op) : Prop :=
  if e.isExclusionViolation = true then ∃ c, wanted dto = some c ∧ K = [.refuse c]
  else K = [] ∨ e.isDeadlock = false ∧ ∃ id c, wanted dto = some c ∧ K = [.grant id c]

theorem left_nil (h : e.isExclusionViolation = false) : Left dto e [] := by
  rw [Left, h]
  exact .inl rfl

/-- Only an insert can be refused by the constraint. -/
theorem error_of_step {o : Statement} (ho : ¬Inserts o) (hs : rules.Step a s o (.error e) s') :
    e.isApp = false ∧ e.isExclusionViolation = false := by
  obtain ⟨-, ch, htrue, hx, -⟩ := hs
  refine ⟨not_app_of_truthful htrue hx, ?_⟩
  rcases error_of_exec hx with hfault | ⟨o', d, rfl, hp⟩
  · exact not_exclusion_of_truthful htrue hfault
  · by_contra hexcl
    obtain ⟨data, rfl, -⟩ := (error_of_perform hp).2 (by simpa using hexcl)
    exact ho trivial

/-- A transaction is about to be rolled back. -/
structure Threw (t : Nat) (dto : CreateReservationDto) (e : Err) (L : List Op) (s : Chronicled) :
    Prop where
  app : e.isApp = false
  own : ∃ K, Left dto e K ∧ own t s.2 = L ++ K

/-- An attempt has failed. -/
structure Failed (t : Nat) (dto : CreateReservationDto) (e : Err) (L : List Op)
    (s : Chronicled) : Prop where
  app : e.isApp = false
  left : ∃ K, Left dto e K ∧ At t none (L ++ K) s

theorem At.threw {o : Statement} (h : At a.tid cur L s) (ho : asks o = false)
    (hno : ¬Inserts o) (hs : rules.Step a s o (.error e) s') : Threw a.tid dto e L s' := by
  obtain ⟨happ, hexcl⟩ := error_of_step hno hs
  refine ⟨happ, [], left_nil hexcl, ?_⟩
  rw [own_of_step hs, noted_of_not_asks ho, h.own]

theorem At.begin (h : At a.tid none L s) (hs : rules.Step a s (.db .begin) (.ok ()) s') :
    At a.tid (some (holding a.tid [] [])) L s' := by
  obtain ⟨ch, hp⟩ := perform_of_step hs
  refine ⟨?_, ?_⟩
  · generalize s'.1.db = d' at hp ⊢
    cases hp
    exact Database.find?_begin_self h.transaction
  · rw [own_of_step hs, noted_of_not_asks rfl, List.append_nil]
    exact h.own

theorem At.outboxCreate {id : Id} {payload : BookingHeld} {v : Reservation}
    (h : At a.tid (some (holding a.tid [v] [])) L s)
    (hs : rules.Step a s (.db (.outboxCreate id payload)) (.ok ()) s') :
    ∃ o, At a.tid (some (holding a.tid [v] [o])) L s' := by
  obtain ⟨ch, hp⟩ := perform_of_step hs
  have hown : Concurrency.own a.tid s'.2 = L := by
    rw [own_of_step hs, noted_of_not_asks rfl, List.append_nil]
    exact h.own
  generalize hd : s'.1.db = d' at hp
  cases Database.effect_of_perform hp with
  | read _ _ hread => cases hread
  | outboxCreate _ _ _ o ht ha hpayload =>
    refine ⟨o, ?_, hown⟩
    rw [hd]
    exact Database.find?_setTransaction_self h.transaction

/-- The insert: the row is what was asked for, or the desk has been asked in vain. -/
theorem At.reservationCreate (dto : CreateReservationDto) {data : ReservationData}
    {r : Except Err Reservation}
    (hdata : data.claim = wanted dto) (hi : Kept s)
    (h : At a.tid (some (holding a.tid [] [])) L s)
    (hs : rules.Step a s (.db (.reservationCreate data)) r s') :
    (∃ v, r = .ok v ∧ wanted dto = some v.claim ∧ At a.tid (some (holding a.tid [v] [])) L s') ∨
      ∃ e, r = .error e ∧ Threw a.tid dto e L s' := by
  have hown := own_of_step hs
  cases r with
  | ok v =>
    obtain ⟨ch, hp⟩ := perform_of_step hs
    have hins := Database.inserted_of_reservationCreate hp
    refine .inl ⟨v, rfl, ?_, ?_, ?_⟩
    · rw [← hdata]
      simp only [ReservationData.claim, hins.checkIn, hins.checkOut, Reservation.claim,
        hins.listingId]
    · generalize s'.1.db = d' at hp ⊢
      cases Database.effect_of_perform hp with
      | read _ _ hread => cases hread
      | reservationCreate _ _ _ ht => exact Database.find?_setTransaction_self h.transaction
    · rw [hown, h.own]
      exact List.append_nil L
  | error e =>
    obtain ⟨-, ch, htrue, hx, -⟩ := hs
    obtain ⟨R, -, hshows⟩ := hi.shows
    have hclaim := (follows_of_exec_create hshows h.blank htrue hx).2 e rfl
    refine .inr ⟨e, rfl, not_app_of_truthful htrue hx, ?_⟩
    refine ⟨noted (.db (.reservationCreate data)) (.error e) s.1 s'.1, ?_, by rw [hown, h.own]⟩
    simp only [Left, noted]
    by_cases hexcl : e.isExclusionViolation = true
    · obtain ⟨c, hc⟩ := hclaim hexcl
      rw [if_pos hexcl, if_pos hexcl]
      exact ⟨c, hdata.symm.trans hc, by rw [hc]; rfl⟩
    · rw [if_neg hexcl, if_neg hexcl]
      exact .inl rfl

/-- A commit that reports a failure has left the store alone, or has taken effect. -/
theorem commit_error {t : Nat} {ch : Choice} {s s' : Store} {tx : Transaction}
    (ht : s.db.transactions.find? t = some tx)
    (hx : (Statement.db .commit).exec t ch s = some (.error e, s')) :
    s' = s ∨ ch.fault = .after e ∧ s'.db = s.db.apply tx := by
  have hperform : ∀ {r s''}, (Statement.db .commit).perform t ch s = some (r, s'') →
      r = .ok () ∧ s''.db = s.db.apply tx := by
    intro r s'' hp
    obtain ⟨d, hd, rfl⟩ := Statement.perform_db hp
    simp only [Database.perform, Database.commit, ht] at hd
    cases hd
    exact ⟨rfl, rfl⟩
  unfold Statement.exec at hx
  split at hx
  · cases hx
    exact .inl rfl
  · next e' he _ =>
    obtain ⟨x, hp, hxe⟩ := Option.map_eq_some_iff.mp hx
    cases hxe
    exact .inr ⟨he, (hperform hp).2⟩
  · cases (hperform hx).1

/-- The commit: the stay has been entered, or has not, or nobody knows. -/
theorem At.commit {v : Reservation} {os : List OutboxRow} {r : Except Err Unit}
    (hv : wanted dto = some v.claim) (hi : Kept s)
    (h : At a.tid (some (holding a.tid [v] os)) L s)
    (hs : rules.Step a s (.db .commit) r s') :
    (r = .ok () ∧ At a.tid none (L ++ [.grant v.id v.claim]) s') ∨
      ∃ e, r = .error e ∧ Threw a.tid dto e L s' := by
  have hown := own_of_step hs
  have hadded := added_of_commit hi.apart h.transaction
  cases r with
  | ok u =>
    obtain ⟨ch, hp⟩ := perform_of_step hs
    have hd : s'.1.db = s.1.db.apply (holding a.tid [v] os) := by
      simp only [Database.perform, Database.commit, h.transaction, Option.some.injEq,
        Prod.mk.injEq] at hp
      exact hp.2.symm
    refine .inl ⟨rfl, by rw [hd]; exact Database.find?_rollback_self, ?_⟩
    rw [hown, h.own]
    simp only [noted, hd, hadded]
    rfl
  | error e =>
    obtain ⟨happ, hexcl⟩ := error_of_step id hs
    obtain ⟨-, ch, htrue, hx, -⟩ := hs
    refine .inr ⟨e, rfl, happ, _, ?_, by rw [hown, h.own]⟩
    rw [Left, hexcl]
    rcases commit_error h.transaction hx with hsame | ⟨he, hd⟩
    · simp [noted, hsame, Table.added_self]
    · -- It took effect, so the environment may not call it a deadlock.
      refine .inr ⟨?_, v.id, v.claim, hv, ?_⟩
      · simp only [truthful, he, Bool.and_eq_true, Bool.not_eq_true'] at htrue
        exact htrue.2
      · simp only [noted, hd, hadded]
        rfl

theorem safe_rollback {α : Type} {Q : Except Err α → Chronicled → Prop}
    (h : Threw a.tid dto e L s) (hQ : ∀ s', Failed a.tid dto e L s' → Q (.error e) s') :
    rules.Safe a Q (do tx.rollback; throw e) s := by
  refine safe_op id fun s₁ hr hi r s₂ hs => ?_
  have hown := own_of_step hs
  obtain ⟨-, ch, -, hx, -⟩ := hs
  obtain ⟨rfl, ht, -⟩ := Holds.tally_of_rollback (g := Holds.Deed.zero) hx
  obtain ⟨K, hleft, hK⟩ := h.own
  refine hQ s₂ ⟨h.app, K, hleft, ht, ?_⟩
  rw [hown, noted_of_not_asks rfl, List.append_nil, hr.own, hK]

/-- What an attempt comes to. -/
def Claimed (t : Nat) (dto : CreateReservationDto) (L : List Op) :
    Except Err Reservation → Chronicled → Prop
  | .ok v, s => wanted dto = some v.claim ∧ At t none (L ++ [.grant v.id v.claim]) s
  | .error e, s => Failed t dto e L s

theorem safe_claimSlot (ttl : Int) (guestId : Id) (dto : CreateReservationDto)
    (price : Option Int) (h : At a.tid none L s) :
    rules.Safe a (Claimed a.tid dto L) (claimSlot ttl guestId dto price) s := by
  have hback : ∀ {e : Err} {s : Chronicled}, Threw a.tid dto e L s →
      rules.Safe a (Claimed a.tid dto L) (do tx.rollback; throw e) s :=
    fun hthrew => safe_rollback hthrew fun _ hfailed => hfailed
  refine Safe.tryCatch (safe_op id fun s₁ hr₁ _ r₁ s₁' hs₁ => ?_)
  have h₁ := h.same hr₁
  cases r₁ with
  | error e => exact hback (h₁.threw rfl id hs₁)
  | ok u =>
  have hopen := h₁.begin hs₁
  refine Safe.bind (safe_op id fun s₂ hr₂ _ r₂ s₂' hs₂ => ?_)
  have h₂ := hopen.same hr₂
  cases r₂ with
  | error e => exact hback (h₂.threw rfl id hs₂)
  | ok now =>
  have hnow := h₂.read rfl (db_of_host hs₂) hs₂
  refine safe_insert (fun s' hr _ => (hnow.same hr).blank) fun s₃ hr₃ hi₃ r₃ s₃' hs₃ => ?_
  have hinsert := At.reservationCreate dto rfl hi₃ (hnow.same hr₃) hs₃
  rcases hinsert with ⟨v, rfl, hv, hrow⟩ | ⟨e, rfl, hthrew⟩
  · refine safe_op id fun s₄ hr₄ _ r₄ s₄' hs₄ => ?_
    have h₄ := hrow.same hr₄
    cases r₄ with
    | error e => exact hback (h₄.threw rfl id hs₄)
    | ok trace =>
    have htrace := h₄.read rfl (db_of_host hs₄) hs₄
    refine safe_op id fun s₅ hr₅ _ r₅ s₅' hs₅ => ?_
    have h₅ := htrace.same hr₅
    cases r₅ with
    | error e => exact hback (h₅.threw rfl id hs₅)
    | ok u =>
    obtain ⟨o, hout⟩ := h₅.outboxCreate hs₅
    refine safe_op id fun s₆ hr₆ hi₆ r₆ s₆' hs₆ => ?_
    rcases (hout.same hr₆).commit hv hi₆ hs₆ with ⟨rfl, hdone⟩ | ⟨e, rfl, hthrew⟩
    · exact ⟨hv, hdone⟩
    · exact hback hthrew
  · exact hback hthrew

/-- What a hold has asked of the desk, by its answer. -/
def Held (t : Nat) (dto : CreateReservationDto) (r : Except Err Reservation) (s : Chronicled) :
    Prop := HoldAsks dto r (own t s.2)

theorem held_of_error (hne : e ≠ slotTaken) (h : Concurrency.own a.tid s.2 = []) :
    Held a.tid dto (.error e) s := by
  simp only [Held, HoldAsks, if_neg hne]
  exact .inl h

/-- An attempt that has failed, and whose failure is passed on. -/
theorem Failed.held (h : Failed a.tid dto e [] s) (hexcl : ¬e.isExclusionViolation = true) :
    Held a.tid dto (.error e) s := by
  obtain ⟨K, hleft, hat⟩ := h.left
  rw [Left, if_neg hexcl] at hleft
  simp only [Held, HoldAsks, if_neg (Holds.ne_slotTaken h.app), hat.own, List.nil_append]
  rcases hleft with hnil | ⟨-, hgrant⟩
  · exact .inl hnil
  · exact .inr hgrant

/-- An attempt that the constraint has refused. -/
theorem Failed.refused (h : Failed a.tid dto e [] s) (hexcl : e.isExclusionViolation = true) :
    ∃ c, wanted dto = some c ∧ At a.tid none [.refuse c] s := by
  obtain ⟨K, hleft, hat⟩ := h.left
  rw [Left, if_pos hexcl] at hleft
  obtain ⟨c, hc, rfl⟩ := hleft
  exact ⟨c, hc, hat⟩

/-- An attempt that a deadlock has ended has asked nothing. -/
theorem Failed.of_deadlock (h : Failed a.tid dto e [] s) (hdead : e.isDeadlock = true) :
    At a.tid none [] s := by
  obtain ⟨K, hleft, hat⟩ := h.left
  rw [Left, Holds.not_exclusion_of_deadlock hdead] at hleft
  rcases hleft with rfl | ⟨hnot, -⟩
  · exact hat
  · rw [hdead] at hnot
    cases hnot

theorem safe_claimWithRetry (ttl : Int) (guestId : Id) (dto : CreateReservationDto)
    (price : Option Int) (h : At a.tid none [] s) :
    rules.Safe a (Held a.tid dto) (claimWithRetry ttl guestId dto price) s := by
  refine Safe.tryCatch (Safe.imp (Q := Claimed a.tid dto []) (Safe.tryCatch
    ((safe_claimSlot ttl guestId dto price h).imp fun r s₁ h₁ => ?_)) fun r s₁ h₁ => ?_)
  · cases r with
    | ok v => exact h₁
    | error e =>
      have hfailed : Failed a.tid dto e [] s₁ := h₁
      rw [caught_error]
      by_cases hdead : e.isDeadlock = true
      · simp only [hdead, Bool.not_true, Bool.false_eq_true, if_false]
        refine safe_op id fun s₂ hr₂ _ r₂ s₂' hs₂ => ?_
        have h₂ := ((hfailed.of_deadlock hdead).same hr₂).read rfl (db_of_host hs₂) hs₂
        cases r₂ with
        | error e' =>
          obtain ⟨happ, hexcl⟩ := error_of_step id hs₂
          exact ⟨happ, [], left_nil hexcl, h₂⟩
        | ok u => exact safe_claimSlot ttl guestId dto price h₂
      · have hdead : e.isDeadlock = false := by simpa using hdead
        simp only [hdead, Bool.not_false, if_true]
        exact hfailed
  · cases r with
    | ok v =>
      obtain ⟨hv, hat⟩ := h₁
      exact ⟨hv, hat.own⟩
    | error e =>
      have hfailed : Failed a.tid dto e [] s₁ := h₁
      rw [caught_error]
      by_cases hexcl : e.isExclusionViolation = true
      · rw [if_pos hexcl]
        obtain ⟨c, hc, hat⟩ := hfailed.refused hexcl
        refine safe_op id fun s₂ hr₂ _ r₂ s₂' hs₂ => ?_
        have h₂ := (hat.same hr₂).read rfl (db_of_host hs₂) hs₂
        have hcounted : r₂ = .ok () := by
          obtain ⟨-, ch, -, hx, -⟩ := hs₂
          rw [Statement.exec_of_not_fallible rfl] at hx
          exact (Prod.mk.inj (Option.some.inj hx)).1.symm
        rw [hcounted]
        have hheld : Held a.tid dto (.error slotTaken) s₂' := by
          simp only [Held, HoldAsks, if_true]
          exact ⟨c, hc, h₂.own⟩
        exact hheld
      · rw [if_neg hexcl]
        exact hfailed.held hexcl

/-- An announcement asks nothing, and always returns. -/
theorem safe_publish {listingId reservationId : Id} {status : ReservationStatus}
    (h : own a.tid s.2 = L) :
    rules.Safe a (fun r s => r = .ok () ∧ own a.tid s.2 = L)
      (publishReservationChanged listingId reservationId status) s := by
  have hbody : rules.Safe a (fun _ s => own a.tid s.2 = L)
      (do
        let seq ← redis.incr listingId
        redis.emit { listingId := listingId, reservationId := reservationId, status := status,
                     seq := seq }) s :=
    safe_quiet (Prog.Uses.bind (Prog.uses_op rfl) fun _ => Prog.uses_op rfl) h
  refine Safe.tryCatch (hbody.imp fun r s' hk => ?_)
  cases r with
  | ok u => exact ⟨rfl, hk⟩
  | error e => exact ⟨rfl, hk⟩

theorem safe_hold (ttl : Int) (guestId : Id) (dto : CreateReservationDto)
    (h : At a.tid none [] s) :
    rules.Safe a (Held a.tid dto) (hold ttl guestId dto) s := by
  refine safe_op id fun s₁ hr₁ _ r₁ s₁' hs₁ => ?_
  have h₁ := (h.same hr₁).read rfl (db_of_host hs₁) hs₁
  cases r₁ with
  | error e => exact held_of_error (Holds.ne_slotTaken (error_of_step id hs₁).1) h₁.own
  | ok now =>
  rw [cont_ok]
  split
  · exact held_of_error (by decide) h₁.own
  split
  · exact held_of_error (by decide) h₁.own
  refine safe_op id fun s₂ hr₂ _ r₂ s₂' hs₂ => ?_
  have h₂ := (h₁.same hr₂).read rfl (db_of_listing hs₂) hs₂
  cases r₂ with
  | error e => exact held_of_error (Holds.ne_slotTaken (error_of_step id hs₂).1) h₂.own
  | ok l =>
  cases l with
  | none => exact held_of_error (e := .app .notFound none) (by decide) h₂.own
  | some listing =>
  simp only [cont_ok]
  split
  · exact held_of_error (e := .app .notFound none) (by decide) h₂.own
  refine Safe.bind ((safe_claimWithRetry ttl guestId dto _ h₂).imp fun r s₃ h₃ => ?_)
  cases r with
  | error e => exact h₃
  | ok v =>
  obtain ⟨hv, hown⟩ : wanted dto = some v.claim ∧ own a.tid s₃.2 = [.grant v.id v.claim] := h₃
  refine safe_op id fun s₄ hr₄ _ r₄ s₄' hs₄ => ?_
  have hcounted : r₄ = .ok () := by
    obtain ⟨-, ch, -, hx, -⟩ := hs₄
    rw [Statement.exec_of_not_fallible rfl] at hx
    exact (Prod.mk.inj (Option.some.inj hx)).1.symm
  have hown₄ : own a.tid s₄'.2 = [.grant v.id v.claim] := by
    rw [own_of_step hs₄, noted_of_not_asks rfl, List.append_nil, hr₄.own, hown]
  rw [hcounted]
  refine Safe.bind ((safe_publish hown₄).imp fun r s₅ h₅ => ?_)
  obtain ⟨rfl, hown₅⟩ := h₅
  exact ⟨hv, hown₅⟩

/-! ## A cancel -/

def Cancelled (t : Nat) (id : Id) (r : Except Err Reservation) (s : Chronicled) : Prop :=
  CancelAsks id r (own t s.2)

/-- The write of a cancel: the stay is given up, or nothing has happened. -/
theorem own_of_cancel {id : Id} {seen : ReservationStatus} {r : Except Err Reservation}
    (h : own a.tid s.2 = [])
    (hs : rules.Step a s (.db (.reservationUpdate id .cancelled seen)) r s') :
    (own a.tid s'.2 = [] ∨ own a.tid s'.2 = [.cancel id]) ∧
      ∀ v, r = .ok v → v.id = id ∧ v.status = .cancelled := by
  constructor
  · rw [own_of_step hs, h, List.nil_append]
    simp only [noted]
    by_cases hw : wrote s.1 s'.1 = true
    · rw [if_pos hw]
      exact .inr rfl
    · rw [if_neg hw]
      exact .inl rfl
  · rintro v rfl
    obtain ⟨ch, hp⟩ := perform_of_step hs
    generalize s'.1.db = d' at hp
    cases Database.effect_of_perform hp with
    | read _ _ hread => cases hread
    | reservationUpdate _ _ _ v hv => exact ⟨Table.key_of_find? hv, rfl⟩

theorem safe_cancelSeen {id : Id} {seen : ReservationStatus} (h : own a.tid s.2 = []) :
    rules.Safe a (Cancelled a.tid id) (cancelSeen id seen) s := by
  unfold cancelSeen assertTransition
  by_cases hlegal : ReservationStatus.cancelled ∈ allowedTransitions seen
  · rw [if_pos hlegal]
    refine safe_op (fun h => h) fun s₁ hr₁ _ r₁ s₁' hs₁ => ?_
    obtain ⟨hown, hrow⟩ := own_of_cancel (hr₁.own.trans h) hs₁
    cases r₁ with
    | error e => exact hown
    | ok v =>
      obtain ⟨hid, hst⟩ := hrow v rfl
      have hquiet : (compensate id (seen == .confirmed) v).Uses fun o => asks o = false :=
        compensate_uses (fun _ => rfl) (fun _ => rfl) fun _ => rfl
      have hreturns : (compensate id (seen == .confirmed) v).Returns (· = v) := by
        unfold compensate
        split
        · exact Prog.returns_bind fun _ => Prog.returns_bind fun _ => Prog.returns_pure rfl
        · exact Prog.returns_bind fun _ => Prog.returns_pure rfl
      refine ((safe_quiet hquiet rfl).of_returns hreturns).imp fun r s₂ h₂ => ?_
      obtain ⟨hown₂, hv⟩ := h₂
      rw [Cancelled, hown₂]
      cases r with
      | error e => exact hown
      | ok v' =>
        cases hv v' rfl
        exact ⟨hid, hst, hown⟩
  · rw [if_neg hlegal]
    exact .inl h

theorem safe_cancel {guestId id : Id} (h : own a.tid s.2 = []) :
    rules.Safe a (Cancelled a.tid id) (cancel guestId id) s := by
  refine Safe.bind (safe_op (fun h => h) fun s₁ hr₁ _ r₁ s₁' hs₁ => ?_)
  have hown := own_of_quiet rfl (hr₁.own.trans h) hs₁
  cases r₁ with
  | error e => exact .inl hown
  | ok found =>
  cases found with
  | none => exact .inl hown
  | some v =>
    have hid : v.id = id := by
      obtain ⟨ch, hp⟩ := perform_of_step hs₁
      simp only [Database.perform, Option.some.injEq, Prod.mk.injEq, Except.ok.injEq] at hp
      exact Table.key_of_find? (Option.filter_eq_some_iff.mp hp.1).1
    show rules.Safe a _ (ite _ _ _) _
    by_cases hst : v.status = .cancelled
    · rw [if_pos hst]
      exact ⟨hid, hst, .inl hown⟩
    · rw [if_neg hst]
      exact safe_cancelSeen hown

/-! ## Settlements and sweeps -/

/-- A bulk write asks for the rows it has selected, or has not taken place. -/
theorem own_of_updateMany {f : ReservationWhere} {status : ReservationStatus}
    {r : Except Err Nat} (h : own a.tid s.2 = [])
    (hs : rules.Step a s (.db (.reservationUpdateMany f status)) r s') :
    ∃ rs : List Reservation, own a.tid s'.2 = rs.map (fun r => move f.status status r.id) ∧
      (∀ n, r = .ok n → n = rs.length) ∧
      (rs = [] ∨ rs = s.1.db.reservations.rows.filter f.matches) := by
  have hown := own_of_step hs
  rw [h, List.nil_append] at hown
  cases r with
  | ok n =>
    obtain ⟨ch, hp⟩ := perform_of_step hs
    obtain ⟨hn, hd⟩ := Prod.mk.inj (Option.some.inj hp)
    rw [noted_updateMany hd.symm] at hown
    refine ⟨_, hown, fun n' he => ?_, .inr rfl⟩
    cases he
    cases hn
    rfl
  | error e =>
    simp only [noted] at hown
    by_cases hw : wrote s.1 s'.1 = true
    · rw [if_pos hw] at hown
      exact ⟨_, hown, fun n he => (by cases he), .inr rfl⟩
    · rw [if_neg hw] at hown
      exact ⟨[], hown, fun n he => (by cases he), .inl rfl⟩

/-- The write of a settlement. -/
theorem own_of_settle {id : Id} {status : ReservationStatus} {r : Except Err Nat}
    (h : own a.tid s.2 = [])
    (hs : rules.Step a s (.db (.reservationUpdateMany (heldById id) status)) r s') :
    (own a.tid s'.2 = [] ∨ own a.tid s'.2 = [move .held status id]) ∧
      ∀ n, r = .ok n → own a.tid s'.2 = if n = 1 then [move .held status id] else [] := by
  obtain ⟨rs, hown, hcount, hrows⟩ := own_of_updateMany h hs
  have hone : rs = [] ∨ ∃ v, rs = [v] ∧ v.id = id := by
    rcases hrows with rfl | rfl
    · exact .inl rfl
    · rcases filter_heldById s.1.db id with hnil | ⟨v, hv, -, hv'⟩
      · exact .inl hnil
      · exact .inr ⟨v, hv', Table.key_of_find? hv⟩
  rw [hown]
  rcases hone with rfl | ⟨v, rfl, rfl⟩
  · refine ⟨.inl rfl, fun n hn => ?_⟩
    rw [hcount n hn]
    rfl
  · refine ⟨.inr rfl, fun n hn => ?_⟩
    rw [hcount n hn]
    rfl

/-- What a settlement has asked, by its answer. -/
def Settled (t : Nat) (x : Op) (r : Except Err SettlementOutcome) (s : Chronicled) : Prop :=
  SettlementAsks x r (own t s.2)

/-- What a settlement goes on to do once its write has answered. -/
theorem settled_of_quiet {x : Op} {p : Async SettlementOutcome} {R : SettlementOutcome → Prop}
    (hp : p.Uses fun o => asks o = false) (hret : p.Returns R)
    (hown : own a.tid s.2 = [] ∨ own a.tid s.2 = [x])
    (hR : ∀ o, R o → own a.tid s.2 = if o = .applied then [x] else []) :
    rules.Safe a (Settled a.tid x) p s := by
  refine ((safe_quiet hp rfl).of_returns hret).imp fun r s₁ h₁ => ?_
  obtain ⟨hsame, ho⟩ := h₁
  rw [Settled, hsame]
  cases r with
  | ok o => exact hR o (ho o rfl)
  | error e => exact hown

theorem safe_applyPaymentSucceeded {id : Id} (h : own a.tid s.2 = []) :
    rules.Safe a (Settled a.tid (.confirm id)) (applyPaymentSucceeded id) s := by
  refine safe_op (fun h => h) fun s₁ hr₁ _ r₁ s₁' hs₁ => ?_
  obtain ⟨hown, hcount⟩ := own_of_settle (hr₁.own.trans h) hs₁
  cases r₁ with
  | error e => exact hown
  | ok n =>
    have hn := hcount n rfl
    show rules.Safe a _ (ite _ _ _) _
    by_cases h1 : n = 1
    · rw [if_pos h1] at hn ⊢
      refine settled_of_quiet (R := (· = .applied)) ?_ ?_ hown fun o ho => ?_
      · exact Prog.Uses.bind (announce_uses id .confirmed rfl (fun _ => rfl) fun _ => rfl)
          fun _ => Prog.uses_pure _
      · exact Prog.returns_bind fun _ => Prog.returns_pure rfl
      · rw [if_pos ho]
        exact hn
    · rw [if_neg h1] at hn ⊢
      refine settled_of_quiet (R := (· ≠ .applied)) ?_ ?_ hown fun o ho => ?_
      · refine Prog.Uses.bind (Prog.uses_op rfl) fun status => ?_
        cases status with
        | none => exact Prog.uses_pure _
        | some status => exact Prog.uses_ite (fun _ => Prog.uses_pure _) fun _ => Prog.uses_pure _
      · refine Prog.returns_bind fun status => ?_
        cases status with
        | none => exact Prog.returns_pure (by decide)
        | some status =>
          by_cases hst : status = .confirmed
          · simp only [hst, if_true]
            exact Prog.returns_pure (by decide)
          · simp only [hst, if_false]
            exact Prog.returns_pure (by simp)
      · rw [if_neg ho]
        exact hn

theorem safe_applyPaymentFailed {id : Id} (h : own a.tid s.2 = []) :
    rules.Safe a (Settled a.tid (.withdraw id .tentative)) (applyPaymentFailed id) s := by
  refine safe_op (fun h => h) fun s₁ hr₁ _ r₁ s₁' hs₁ => ?_
  obtain ⟨hown, hcount⟩ := own_of_settle (hr₁.own.trans h) hs₁
  cases r₁ with
  | error e => exact hown
  | ok n =>
    have hn := hcount n rfl
    show rules.Safe a _ (ite _ _ _) _
    by_cases h1 : n = 1
    · rw [if_pos h1] at hn ⊢
      refine settled_of_quiet (R := (· = .applied)) ?_ ?_ hown fun o ho => ?_
      · exact Prog.Uses.bind (announce_uses id .cancelled rfl (fun _ => rfl) fun _ => rfl)
          fun _ => Prog.uses_pure _
      · exact Prog.returns_bind fun _ => Prog.returns_pure rfl
      · rw [if_pos ho]
        exact hn
    · rw [if_neg h1] at hn ⊢
      refine settled_of_quiet (R := (· ≠ .applied)) ?_ ?_ hown fun o ho => ?_
      · refine Prog.Uses.bind (Prog.uses_op rfl) fun status => ?_
        cases status with
        | none => exact Prog.uses_pure _
        | some status => exact Prog.uses_pure _
      · refine Prog.returns_bind fun status => ?_
        cases status with
        | none => exact Prog.returns_pure (by decide)
        | some status => exact Prog.returns_pure (by decide)
      · rw [if_neg ho]
        exact hn

/-- What a sweep has asked, by its answer. -/
def Swept (t : Nat) (x : Standing) (r : Except Err Nat) (s : Chronicled) : Prop :=
  SweepAsks x r (own t s.2)

theorem swept_of_error {x : Standing} (h : own a.tid s.2 = []) :
    Swept a.tid x (.error e) s := ⟨[], h, fun n he => by cases he⟩

theorem safe_sweep {f : Int → ReservationWhere} {status : ReservationStatus} {x : Standing}
    (hmove : ∀ now id, move (f now).status status id = .withdraw id x)
    (h : own a.tid s.2 = []) :
    rules.Safe a (Swept a.tid x) (sweep f status) s := by
  refine safe_op id fun s₁ hr₁ _ r₁ s₁' hs₁ => ?_
  have h₁ := own_of_quiet rfl (hr₁.own.trans h) hs₁
  cases r₁ with
  | error e => exact swept_of_error h₁
  | ok readAt =>
  refine safe_op id fun s₂ hr₂ _ r₂ s₂' hs₂ => ?_
  have h₂ := own_of_quiet rfl (hr₂.own.trans h₁) hs₂
  cases r₂ with
  | error e => exact swept_of_error h₂
  | ok candidates =>
  refine safe_op id fun s₃ hr₃ _ r₃ s₃' hs₃ => ?_
  have h₃ := own_of_quiet rfl (hr₃.own.trans h₂) hs₃
  cases r₃ with
  | error e => exact swept_of_error h₃
  | ok writeAt =>
  refine safe_op id fun s₄ hr₄ _ r₄ s₄' hs₄ => ?_
  obtain ⟨rs, hown, hcount, -⟩ := own_of_updateMany (hr₄.own.trans h₃) hs₄
  have hids : own a.tid s₄'.2 = (rs.map (·.id)).map (.withdraw · x) := by
    rw [hown, List.map_map]
    exact List.map_congr_left fun r _ => hmove writeAt r.id
  cases r₄ with
  | error e => exact ⟨_, hids, fun n he => by cases he⟩
  | ok n =>
    have hn : n = (rs.map (·.id)).length := by
      rw [List.length_map]
      exact hcount n rfl
    have hquiet : (do
        candidates.forM fun r => publishReservationChanged r.listingId r.id status
        pure n : Async Nat).Uses fun o => asks o = false :=
      Prog.Uses.bind (Prog.uses_forM fun _ =>
        publishReservationChanged_uses _ _ _ rfl fun _ => rfl) fun _ => Prog.uses_pure _
    have hreturns : (do
        candidates.forM fun r => publishReservationChanged r.listingId r.id status
        pure n : Async Nat).Returns (· = n) := Prog.returns_bind fun _ => Prog.returns_pure rfl
    refine ((safe_quiet hquiet rfl).of_returns hreturns).imp fun r s₅ h₅ => ?_
    obtain ⟨hsame, hret⟩ := h₅
    refine ⟨_, hsame.trans hids, fun n' he => ?_⟩
    rw [hret n' he]
    exact hn

/-! ## The other calls -/

/-- What a payment result asks for. -/
def verdict : PaymentResult → Op
  | .succeeded m => .confirm m.reservationId
  | .failed m => .withdraw m.reservationId .tentative

theorem Settled.asked {t : Nat} {x : Op} {r : Except Err SettlementOutcome}
    (h : Settled t x r s) : own t s.2 = [] ∨ own t s.2 = [x] := by
  cases r with
  | error e => exact h
  | ok o =>
    have hown : own t s.2 = if o = .applied then [x] else [] := h
    rw [hown]
    by_cases ho : o = .applied
    · rw [if_pos ho]
      exact .inr rfl
    · rw [if_neg ho]
      exact .inl rfl

theorem safe_settle (result : PaymentResult) (h : own a.tid s.2 = []) :
    rules.Safe a (Settled a.tid (verdict result)) (settle result) s := by
  cases result with
  | succeeded m => exact safe_applyPaymentSucceeded h
  | failed m => exact safe_applyPaymentFailed h

theorem safe_processPaymentResult (data : PaymentResult) (h : own a.tid s.2 = []) :
    rules.Safe a (fun _ s => own a.tid s.2 = [] ∨ own a.tid s.2 = [verdict data])
      (processPaymentResult data) s := by
  unfold processPaymentResult
  cases hp : paymentResultSchema data with
  | error e => exact .inl h
  | ok result =>
    cases paymentResultSchema_eq_ok hp
    refine Safe.bind ((safe_settle data h).imp fun r s₁ h₁ => ?_)
    have hown := h₁.asked
    cases r with
    | error e => exact hown
    | ok o =>
      cases o with
      | refundRequired status =>
        have hquiet : (requestRefund data.reservationId data.idempotencyKey).Uses fun o =>
            asks o = false := Prog.uses_op rfl
        refine (safe_quiet hquiet rfl).imp fun r s₂ h₂ => ?_
        rw [h₂]
        exact hown
      | _ => exact hown

/-- A call that inserts nothing and writes no status asks nothing: not even its commits do. -/
theorem noted_of_blank {o : Statement} {r : Except Err o.Resp} (ho : ¬Inserts o)
    (hmoves : ∀ f status, ¬a.call.Moves f status) (hcancel : ∀ guestId id, a.call ≠ .cancel guestId id)
    (hi : Kept s) (hblank : Blank a.tid s.1.db) (hs : rules.Step a s o r s') :
    noted o r s.1 s'.1 = [] := by
  by_cases hasks : asks o = true
  · obtain ⟨hissues, ch, -, hx, -⟩ := hs
    cases o with
    | db o =>
      cases o with
      | commit =>
        have hadded : s.1.db.reservations.added s'.1.db.reservations = [] := by
          rcases Statement.exec_db hx with he | ⟨o', he, r', hp⟩
          · rw [he, Table.added_self]
          · cases he
            generalize s'.1.db = d' at hp ⊢
            cases Database.effect_of_perform hp with
            | read _ _ hread => cases hread
            | refused => exact Table.added_self _
            | commit tx ht => rw [added_of_commit hi.apart ht, hblank tx ht]
        simp only [noted, hadded, List.map_nil]
      | reservationCreate data => exact (ho trivial).elim
      | reservationUpdate id status seen =>
        obtain ⟨⟨guestId, hc⟩, -⟩ := hissues
        exact (hcancel guestId id hc).elim
      | reservationUpdateMany f status => exact (hmoves f status hissues).elim
      | _ => cases hasks
    | _ => cases hasks
  · exact noted_of_not_asks (by simpa using hasks)

theorem blank_of_step {o : Statement} {r : Except Err o.Resp} (ho : ¬Inserts o)
    (hblank : Blank a.tid s.1.db) (hs : rules.Step a s o r s') : Blank a.tid s'.1.db := by
  obtain ⟨-, ch, -, hx, -⟩ := hs
  rcases Statement.exec_db hx with he | ⟨o', rfl, r', hp⟩
  · rw [he]
    exact hblank
  · intro tx ht
    refine List.eq_nil_iff_forall_not_mem.mpr fun v hv => ?_
    have htid : tx.tid = a.tid := Table.key_of_find? ht
    rcases Database.pending_of_perform hp (Table.mem_of_find? ht) hv with
      ⟨tx₀, hmem, htid₀, hv₀⟩ | ⟨data, he, -⟩
    · have hfind : s.1.db.transactions.find? a.tid = some tx₀ :=
        Table.find?_eq_some.mpr ⟨hmem, htid₀.trans htid⟩
      rw [hblank tx₀ hfind] at hv₀
      cases hv₀
    · subst he
      exact ho trivial

theorem safe_blank {β : Type} {p : Async β} (hp : p.Uses fun o => ¬Inserts o)
    (hmoves : ∀ f status, ¬a.call.Moves f status)
    (hcancel : ∀ guestId id, a.call ≠ .cancel guestId id) (h : At a.tid none [] s) :
    rules.Safe a (fun _ s => own a.tid s.2 = []) p s := by
  let K (s : Chronicled) : Prop := own a.tid s.2 = [] ∧ Blank a.tid s.1.db
  have hrely : ∀ s s', Same a.tid s s' → K s → K s' := by
    rintro s s' hr ⟨hown, hblank⟩
    refine ⟨hr.own.trans hown, fun tx ht => hblank tx ?_⟩
    rw [← hr.transaction]
    exact ht
  refine (Safe.of_uses hrely ?_ hp ⟨h.own, fun tx ht => ?_⟩).imp fun r s' hk => hk.1
  · rintro s₁ o r s₂ ho hi ⟨hown, hblank⟩ hs
    obtain ⟨hi', hg⟩ := kept_of_step hs hi fun hins => (ho hins).elim
    refine ⟨hi', hg, ?_, blank_of_step ho hblank hs⟩
    rw [own_of_step hs, noted_of_blank ho hmoves hcancel hi hblank hs, List.append_nil]
    exact hown
  · rw [h.transaction] at ht
    cases ht

/-! ## Every call -/

theorem safe_answer {β : Type} {p : Async β} {f : β → Reply} {Q : Except Err β → Chronicled → Prop}
    {c : Call} (hcall : a.call = c) (h : rules.Safe a Q p s)
    (hQ : ∀ r s, Q r s → Asks c (r.map f) (own a.tid s.2)) :
    rules.Safe a (rules.Post a) (answer p f) s := by
  subst hcall
  refine Safe.bind (h.imp fun r s₁ h₁ => ?_)
  cases r with
  | ok b => exact hQ (.ok b) s₁ h₁
  | error e => exact hQ (.error e) s₁ h₁

theorem safe_program (cfg : Config) {c : Call} (hcall : a.call = c) (h : At a.tid none [] s) :
    rules.Safe a (rules.Post a) (c.program cfg) s := by
  -- The calls that leave the reservations alone.
  have hleave : (∀ guestId dto, c ≠ .hold guestId dto) → (∀ f status, ¬c.Moves f status) →
      (∀ guestId id, c ≠ .cancel guestId id) →
        rules.Safe a (fun _ s => own a.tid s.2 = []) (c.program cfg) s := by
    intro hhold hmoves hcancel
    subst hcall
    exact safe_blank (program_inserts_nothing cfg hhold) hmoves hcancel h
  have hpost : ∀ {r s'}, Asks c r (own a.tid s'.2) → rules.Post a r s' := by
    intro r s' hasks
    subst hcall
    exact hasks
  cases c with
  | hold guestId dto =>
    exact safe_answer hcall (safe_hold _ guestId dto h) fun r s' hr => ⟨r, rfl, hr⟩
  | cancel guestId id =>
    exact safe_answer hcall (safe_cancel h.own) fun r s' hr => ⟨r, rfl, hr⟩
  | applyPaymentSucceeded id =>
    exact safe_answer hcall (safe_applyPaymentSucceeded h.own) fun r s' hr => ⟨r, rfl, hr⟩
  | applyPaymentFailed id =>
    exact safe_answer hcall (safe_applyPaymentFailed h.own) fun r s' hr => ⟨r, rfl, hr⟩
  | sweepExpiredHolds =>
    exact safe_answer hcall (safe_sweep (fun _ _ => rfl) h.own) fun r s' hr => ⟨r, rfl, hr⟩
  | sweepCompletedStays =>
    exact safe_answer hcall (safe_sweep (fun _ _ => rfl) h.own) fun r s' hr => ⟨r, rfl, hr⟩
  | processResult jobId data =>
    refine safe_answer hcall (safe_processPaymentResult data h.own) fun r s' hr => ?_
    cases data with
    | succeeded m => exact hr
    | failed m => exact hr
  | relayTick | charge | refund | processCharge | processRefund =>
    refine (hleave ?_ ?_ ?_).imp fun r s' hown => hpost hown
    · exact fun _ _ hc => by cases hc
    · exact fun _ _ hm => hm
    · exact fun _ _ hc => by cases hc

/-- The account of a call holds of every run. -/
theorem sound (cfg : Config) (listings : Table Listing) :
    Sound rules ((system cfg).chronicling noted) (Policy.unaware telling)
      (Store.init listings, []) where
  start :=
    { apart := apart_init listings
      single := fun tx htx => by cases htx
      shows := ⟨.empty, .nil _, fun id => rfl⟩ }
  fresh_start := fun t => ⟨Table.find?_eq_none.mpr (by intro _ h; cases h), rfl⟩
  rely_refl := Same.refl
  rely_trans := fun _ _ _ _ h h' => h.trans h'
  guar_rely := fun a t s o r s' hne hg => hg t (Ne.symm hne)
  fresh_stable := fun t s s' hr hf => ⟨hr.transaction.trans hf.1, hr.own.trans hf.2⟩
  post_stable := fun a r s s' hr _ hp => show Asks _ _ _ by rw [hr.own]; exact hp
  lost_stable := fun _ _ _ _ _ => trivial
  step := by
    intro w hreach t c o k ch r s' ht hp hx
    obtain ⟨hexec, hlog⟩ := Machine.exec_chronicling hx
    exact ⟨Machine.Reaches.uses_head (M := (system cfg).chronicling noted) (program_issues cfg)
      hreach ht, ch, hp, hexec, hlog⟩
  spawn := by
    intro t c s s' hi hf _ hs
    obtain ⟨hs', hlog⟩ := Machine.spawned_chronicling hs
    have hdb : s'.1.db = s.1.db := spawned_db hs'
    have hsame : ∀ u, Same u s s' := fun u => ⟨by rw [hdb], by rw [hlog]⟩
    refine ⟨⟨hdb ▸ hi.apart, hdb ▸ hi.single, ?_⟩, hsame, safe_program cfg rfl ?_⟩
    · rw [hlog, hdb]
      exact hi.shows
    · exact ⟨(hsame t).transaction.trans hf.1, (hsame t).own.trans hf.2⟩
  ret := by
    intro t c r s hi _
    have hdb : (Store.returned t c r s.1).db = s.1.db := returned_db t c r s.1
    refine ⟨⟨?_, ?_, ?_⟩, fun u => ⟨?_, rfl⟩⟩
    · exact show Apart (Store.returned t c r s.1).db from hdb ▸ hi.apart
    · exact show Single (Store.returned t c r s.1).db from hdb ▸ hi.single
    · obtain ⟨R, hhist, hshows⟩ := hi.shows
      exact ⟨R, hhist, show Shows R (Store.returned t c r s.1).db from hdb ▸ hshows⟩
    · exact congrArg (fun d : Database => d.transactions.find? u) hdb
  kill := fun t c p s hi _ =>
    ⟨⟨hi.apart.rollback, Database.forall_rollback hi.single, hi.shows⟩,
      fun u hu => ⟨Database.find?_rollback_ne hu, rfl⟩, trivial⟩

end Desk

end NoOverlap
