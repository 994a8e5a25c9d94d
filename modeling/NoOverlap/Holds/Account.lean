import NoOverlap.Holds.Deeds
import NoOverlap.Lifecycle.Claim

/-!
# The account of a hold

A walk through the program of a hold, along its record.  What the walk knows between two
statements is which transaction the thread has open and what its record is; no other thread
touches either.  On the way it shows that an insert is the first write of its transaction.
-/

namespace NoOverlap

open Relational Concurrency
open Concurrency.RelyGuarantee

namespace Holds

/-- Any call at any time, any crash, and every failure that `failing` allows. -/
def reporting (may : Err → Bool) : Policy :=
  { anything with op := fun _ ch o _ => failing may o ch.fault }

/-- What no other thread touches. -/
structure Same (t : Nat) (s s' : Recorded) : Prop where
  transaction : s'.1.db.transactions.find? t = s.1.db.transactions.find? t
  deed : s'.2 t = s.2 t

/-- The transaction of the thread has inserted no reservation. -/
def Unwritten (t : Nat) (s : Recorded) : Prop :=
  ∀ tx, s.1.db.transactions.find? t = some tx → tx.reservations = []

def deeds (may : Err → Bool) : RelyGuarantee Recorded Call Statement.Resp Err Reply :=
  { Step := fun a s o r s' => a.call.Issues o ∧ ∃ ch : Choice, failing may o ch.fault = true ∧
      o.exec a.tid ch s.1 = some (r, s'.1) ∧
        s'.2 = Function.update s.2 a.tid (Deed.note o r s.1 s'.1 (s.2 a.tid))
    Inv := fun s => Apart s.1.db
    Rely := Same
    Guar := fun a s o _ s' => (∀ t, t ≠ a.tid → Same t s s') ∧ (Inserts o → Unwritten a.tid s)
    Post := fun a r s => ∀ guestId dto, a.call = .hold guestId dto →
      ∃ r' : Except Err Reservation, r = r'.map Reply.reservation ∧ Ended may r' (s.2 a.tid).toTally
    Fresh := fun t s => s.1.db.transactions.find? t = none ∧ s.2 t = Deed.zero
    Lost := fun _ _ => True }

variable {may : Err → Bool} {a : Agent} {s s' s'' : Recorded} {T : Tally}
  {cur : Option Transaction} {e : Err}

theorem Same.refl (t : Nat) (s : Recorded) : Same t s s := ⟨rfl, rfl⟩

theorem Same.trans {t : Nat} (h : Same t s s') (h' : Same t s' s'') : Same t s s'' :=
  ⟨h'.transaction.trans h.transaction, h'.deed.trans h.deed⟩

theorem deed_of_step {o : Statement} {r : Except Err o.Resp} (hs : (deeds may).Step a s o r s') :
    s'.2 a.tid = Deed.note o r s.1 s'.1 (s.2 a.tid) := by
  obtain ⟨-, ch, -, -, hnote⟩ := hs
  rw [hnote, Function.update_self]

/-- Every statement keeps the tables apart, and its hands off the other threads. -/
theorem kept_of_step {o : Statement} {r : Except Err o.Resp} (hs : (deeds may).Step a s o r s')
    (hi : Apart s.1.db) : Apart s'.1.db ∧ ∀ t, t ≠ a.tid → Same t s s' := by
  obtain ⟨hissues, ch, -, hx, hnote⟩ := hs
  have hdeed : ∀ t, t ≠ a.tid → s'.2 t = s.2 t := fun t ht => by
    rw [hnote, Function.update_of_ne ht]
  rcases Statement.exec_db hx with he | ⟨o', rfl, r', hd⟩
  · exact ⟨he ▸ hi, fun t ht => ⟨by rw [he], hdeed t ht⟩⟩
  · have heff := Database.effect_of_perform hd
    exact ⟨hi.effect hissues heff, fun t ht => ⟨heff.transaction_ne ht, hdeed t ht⟩⟩

theorem safe_insert {β : Type} {Q : Except Err β → Recorded → Prop} {o : Statement}
    {f : o.Resp → Async β} (ho : ∀ s₁, Same a.tid s s₁ → Inserts o → Unwritten a.tid s₁)
    (h : ∀ s₁, Same a.tid s s₁ → Apart s₁.1.db → ∀ r s₂, (deeds may).Step a s₁ o r s₂ →
      (deeds may).Cont a Q f r s₂) : (deeds may).Safe a Q (await o >>= f) s := by
  refine Safe.op_bind fun s₁ hr hi r s₂ hs => ?_
  obtain ⟨hi', hg⟩ := kept_of_step hs hi
  exact ⟨hi', ⟨hg, ho s₁ hr⟩, h s₁ hr hi r s₂ hs⟩

theorem safe_op {β : Type} {Q : Except Err β → Recorded → Prop} {o : Statement}
    {f : o.Resp → Async β} (ho : ¬Inserts o)
    (h : ∀ s₁, Same a.tid s s₁ → Apart s₁.1.db → ∀ r s₂, (deeds may).Step a s₁ o r s₂ →
      (deeds may).Cont a Q f r s₂) : (deeds may).Safe a Q (await o >>= f) s :=
  safe_insert (fun _ _ hi => (ho hi).elim) h

/-! ## What is known between two statements -/

/-- The open transaction of a thread, and its record. -/
structure At (t : Nat) (tx : Option Transaction) (T : Tally) (s : Recorded) : Prop where
  transaction : s.1.db.transactions.find? t = tx
  tally : (s.2 t).toTally = T

/-- A statement has failed and has left the record alone. -/
structure Failed (t : Nat) (e : Err) (T : Tally) (s : Recorded) : Prop where
  app : e.isApp = false
  failure : (s.2 t).failure = some e
  tally : (s.2 t).toTally = T

/-- A transaction is about to be rolled back. -/
structure Threw (may : Err → Bool) (t : Nat) (e : Err) (T : Tally) (s : Recorded) : Prop where
  app : e.isApp = false
  failure : (s.2 t).failure = some e
  tally : may e = false → (s.2 t).toTally = T

/-- The transaction of an attempt. -/
def holding (t : Nat) (rs : List Reservation) (os : List OutboxRow) : Transaction :=
  { tid := t, reservations := rs, outbox := os, locked := [], published := [], publishedAt := 0 }

theorem At.same (h : At a.tid cur T s) (hr : Same a.tid s s') : At a.tid cur T s' :=
  ⟨hr.transaction.trans h.transaction, by rw [hr.deed]; exact h.tally⟩

theorem At.unwritten {os : List OutboxRow} (h : At a.tid (some (holding a.tid [] os)) T s) :
    Unwritten a.tid s := by
  intro tx ht
  rw [h.transaction] at ht
  cases ht
  rfl

theorem Failed.threw (h : Failed a.tid e T s) : Threw may a.tid e T s :=
  ⟨h.app, h.failure, fun _ => h.tally⟩

theorem tally_of_step {o : Statement} {r : Except Err o.Resp} (ho : quiet o = true)
    (hs : (deeds may).Step a s o r s') : (s'.2 a.tid).toTally = (s.2 a.tid).toTally := by
  rw [deed_of_step hs]
  obtain ⟨-, ch, -, hx, -⟩ := hs
  exact tally_of_quiet ho hx

theorem failed_of_step {o : Statement} (ho : quiet o = true) (h : At a.tid cur T s)
    (hs : (deeds may).Step a s o (.error e) s') : Failed a.tid e T s' := by
  refine ⟨?_, by rw [deed_of_step hs]; rfl, (tally_of_step ho hs).trans h.tally⟩
  obtain ⟨-, ch, hf, hx, -⟩ := hs
  exact isApp_of_exec hf hx

/-- A quiet statement that leaves the database alone. -/
theorem At.read {o : Statement} {r : Except Err o.Resp} (ho : quiet o = true)
    (h : At a.tid cur T s) (hdb : s'.1.db = s.1.db) (hs : (deeds may).Step a s o r s') :
    At a.tid cur T s' :=
  ⟨by rw [hdb]; exact h.transaction, (tally_of_step ho hs).trans h.tally⟩

theorem db_of_host {o : HostStatement} {r : Except Err o.Resp}
    (hs : (deeds may).Step a s (.host o) r s') : s'.1.db = s.1.db := by
  obtain ⟨-, ch, -, hx, -⟩ := hs
  rcases Statement.exec_db hx with he | ⟨o', ho, -⟩
  · exact he
  · cases ho

theorem db_of_listing {id : Id} {r : Except Err (Option Listing)}
    (hs : (deeds may).Step a s (.db (.listingFindUnique id)) r s') : s'.1.db = s.1.db := by
  obtain ⟨-, ch, -, hx, -⟩ := hs
  rcases Statement.exec_db hx with he | ⟨o', ho, r', hd⟩
  · exact he
  · cases ho
    simp only [Database.perform, Option.some.injEq, Prod.mk.injEq] at hd
    exact hd.2.symm

theorem At.begin (h : At a.tid none T s) (hs : (deeds may).Step a s (.db .begin) (.ok ()) s') :
    At a.tid (some (holding a.tid [] [])) T s' := by
  refine ⟨?_, (tally_of_step rfl hs).trans h.tally⟩
  obtain ⟨-, ch, -, hx, -⟩ := hs
  obtain ⟨d, hd, he⟩ := Statement.perform_db (Statement.perform_of_exec_ok hx)
  cases hd
  rw [he]
  exact Database.find?_begin_self h.transaction

theorem At.reservationCreate {data : ReservationData} {v : Reservation}
    (h : At a.tid (some (holding a.tid [] [])) T s)
    (hs : (deeds may).Step a s (.db (.reservationCreate data)) (.ok v) s') :
    At a.tid (some (holding a.tid [v] [])) T s' := by
  refine ⟨?_, (tally_of_step rfl hs).trans h.tally⟩
  obtain ⟨-, ch, -, hx, -⟩ := hs
  obtain ⟨d, hd, he⟩ := Statement.perform_db (Statement.perform_of_exec_ok hx)
  have heff := Database.effect_of_perform hd
  rw [he]
  cases heff with
  | read _ _ hread => cases hread
  | reservationCreate _ _ _ ht => exact Database.find?_setTransaction_self h.transaction

theorem At.outboxCreate {id : Id} {payload : BookingHeld} {v : Reservation}
    (h : At a.tid (some (holding a.tid [v] [])) T s)
    (hs : (deeds may).Step a s (.db (.outboxCreate id payload)) (.ok ()) s') :
    ∃ o : OutboxRow, o.aggregateId = id ∧ o.payload = payload ∧
      At a.tid (some (holding a.tid [v] [o])) T s' := by
  have htally := (tally_of_step rfl hs).trans h.tally
  obtain ⟨-, ch, -, hx, -⟩ := hs
  obtain ⟨d, hd, he⟩ := Statement.perform_db (Statement.perform_of_exec_ok hx)
  have heff := Database.effect_of_perform hd
  cases heff with
  | read _ _ hread => cases hread
  | outboxCreate _ _ _ o ht ha hp =>
    refine ⟨o, ha, hp, ?_, htally⟩
    rw [he]
    exact Database.find?_setTransaction_self h.transaction

theorem At.commit {rs : List Reservation} {os : List OutboxRow} {r : Except Err Unit}
    (hi : Apart s.1.db) (h : At a.tid (some (holding a.tid rs os)) T s)
    (hs : (deeds may).Step a s (.db .commit) r s') :
    (r = .ok () ∧ At a.tid none (T.committed rs os) s') ∨
      ∃ e, r = .error e ∧ Threw may a.tid e T s' := by
  have hdeed := deed_of_step hs
  obtain ⟨-, ch, hf, hx, -⟩ := hs
  rcases of_commit hf h.transaction hx with ⟨rfl, hd, hm⟩ | ⟨e, rfl, hsame⟩
  · refine .inl ⟨rfl, ?_, ?_⟩
    · rw [hd]
      exact Database.find?_rollback_self
    · rw [hdeed, tally_of_commit hi h.transaction rfl hd hm, h.tally]
      rfl
  · refine .inr ⟨e, rfl, isApp_of_exec hf hx, by rw [hdeed]; rfl, fun hm => ?_⟩
    rcases hsame with hs | hm'
    · rw [hdeed, hs, tally_of_same rfl rfl rfl, h.tally]
      simp [outcome]
    · rw [hm] at hm'
      cases hm'

/-! The counters of the process. -/

/-- A statement of the host leaves the transaction, and the counters move by what it adds. -/
theorem At.host {o : HostStatement} {r : Except Err o.Resp} (h : At a.tid cur T s)
    (hs : (deeds may).Step a s (.host o) r s') :
    At a.tid cur { T with
      held := T.held + (s'.1.metrics.held - s.1.metrics.held)
      conflict := T.conflict + (s'.1.metrics.conflict - s.1.metrics.conflict)
      deadlockRetries :=
        T.deadlockRetries + (s'.1.metrics.deadlockRetries - s.1.metrics.deadlockRetries) } s' := by
  have hdb := db_of_host hs
  refine ⟨by rw [hdb]; exact h.transaction, ?_⟩
  rw [deed_of_step hs, tally_of_host hdb, ← h.tally]

theorem At.recordDeadlockRetry {r : Except Err Unit} (h : At a.tid cur T s)
    (hs : (deeds may).Step a s (.host .recordDeadlockRetry) r s') :
    r = .ok () ∧ At a.tid cur { T with deadlockRetries := T.deadlockRetries + 1 } s' := by
  have hat := h.host hs
  obtain ⟨-, ch, -, hx, -⟩ := hs
  rw [Statement.exec_of_not_fallible rfl] at hx
  obtain ⟨rfl, he⟩ := Prod.mk.inj (Option.some.inj hx)
  rw [← he] at hat
  exact ⟨rfl, by simpa using hat⟩

theorem At.recordHeld {r : Except Err Unit} (h : At a.tid cur T s)
    (hs : (deeds may).Step a s (.host (.recordAttempt .held)) r s') :
    r = .ok () ∧ At a.tid cur { T with held := T.held + 1 } s' := by
  have hat := h.host hs
  obtain ⟨-, ch, -, hx, -⟩ := hs
  rw [Statement.exec_of_not_fallible rfl] at hx
  obtain ⟨rfl, he⟩ := Prod.mk.inj (Option.some.inj hx)
  rw [← he] at hat
  exact ⟨rfl, by simpa using hat⟩

theorem At.recordConflict {r : Except Err Unit} (h : At a.tid cur T s)
    (hs : (deeds may).Step a s (.host (.recordAttempt .conflict)) r s') :
    r = .ok () ∧ At a.tid cur { T with conflict := T.conflict + 1 } s' := by
  have hat := h.host hs
  obtain ⟨-, ch, -, hx, -⟩ := hs
  rw [Statement.exec_of_not_fallible rfl] at hx
  obtain ⟨rfl, he⟩ := Prod.mk.inj (Option.some.inj hx)
  rw [← he] at hat
  exact ⟨rfl, by simpa using hat⟩

/-- What is known of an attempt that has failed. -/
structure Rejected (may : Err → Bool) (t : Nat) (e : Err) (T : Tally) (s : Recorded) : Prop where
  app : e.isApp = false
  record : may e = false → At t none (T.rejected e) s

theorem safe_rollback {α : Type} {Q : Except Err α → Recorded → Prop} (h : Threw may a.tid e T s)
    (hQ : ∀ s', Rejected may a.tid e T s' → Q (.error e) s') :
    (deeds may).Safe a Q (do tx.rollback; throw e) s := by
  refine safe_op id fun s₁ hr hi r s₂ hs => ?_
  have hdeed := deed_of_step hs
  obtain ⟨-, ch, -, hx, -⟩ := hs
  obtain ⟨rfl, ht, htally⟩ := tally_of_rollback (g := s₁.2 a.tid) hx
  refine hQ s₂ ⟨h.app, fun hm => ⟨ht, ?_⟩⟩
  rw [hdeed, htally, hr.deed, h.failure, h.tally hm, ← h.tally hm]
  rfl

/-! ## The walk -/

/-- What one attempt comes to. -/
def Claim (may : Err → Bool) (t : Nat) (T : Tally) : Except Err Reservation → Recorded → Prop
  | .ok v, s => ∃ o, Describes v o ∧ At t none (T.committed [v] [o]) s
  | .error e, s => Rejected may t e T s

theorem safe_claimSlot (ttl : Int) (guestId : Id) (dto : CreateReservationDto)
    (price : Option Int) (h : At a.tid none T s) :
    (deeds may).Safe a (Claim may a.tid T) (claimSlot ttl guestId dto price) s := by
  have hback : ∀ {e : Err} {s : Recorded}, Threw may a.tid e T s →
      (deeds may).Safe a (Claim may a.tid T) (do tx.rollback; throw e) s :=
    fun hthrew => safe_rollback hthrew fun _ hrejected => hrejected
  refine Safe.tryCatch (safe_op id fun s₁ hr₁ _ r₁ s₁' hs₁ => ?_)
  have h₁ := h.same hr₁
  cases r₁ with
  | error e => exact hback (failed_of_step rfl h₁ hs₁).threw
  | ok u =>
  have hopen := h₁.begin hs₁
  refine Safe.bind (safe_op id fun s₂ hr₂ _ r₂ s₂' hs₂ => ?_)
  have h₂ := hopen.same hr₂
  cases r₂ with
  | error e => exact hback (failed_of_step rfl h₂ hs₂).threw
  | ok now =>
  have hnow := h₂.read rfl (db_of_host hs₂) hs₂
  refine safe_insert (fun s' hr _ => (hnow.same hr).unwritten) fun s₃ hr₃ _ r₃ s₃' hs₃ => ?_
  have h₃ := hnow.same hr₃
  cases r₃ with
  | error e => exact hback (failed_of_step rfl h₃ hs₃).threw
  | ok v =>
  have hrow := h₃.reservationCreate hs₃
  refine safe_op id fun s₄ hr₄ _ r₄ s₄' hs₄ => ?_
  have h₄ := hrow.same hr₄
  cases r₄ with
  | error e => exact hback (failed_of_step rfl h₄ hs₄).threw
  | ok trace =>
  have htrace := h₄.read rfl (db_of_host hs₄) hs₄
  refine safe_op id fun s₅ hr₅ _ r₅ s₅' hs₅ => ?_
  have h₅ := htrace.same hr₅
  cases r₅ with
  | error e => exact hback (failed_of_step rfl h₅ hs₅).threw
  | ok u =>
  obtain ⟨o, ho, hp, hout⟩ := h₅.outboxCreate hs₅
  refine safe_op id fun s₆ hr₆ hi₆ r₆ s₆' hs₆ => ?_
  rcases (hout.same hr₆).commit hi₆ hs₆ with ⟨rfl, hdone⟩ | ⟨e, rfl, hthrew⟩
  · exact ⟨o, ⟨ho, trace, hp⟩, hdone⟩
  · exact hback hthrew

/-- The errors with which the database aborts a transaction are never those of a commit that
took effect. -/
structure Conclusive (may : Err → Bool) : Prop where
  deadlock : ∀ e, e.isDeadlock = true → may e = false
  exclusion : ∀ e, e.isExclusionViolation = true → may e = false

/-- What the attempts come to. -/
def Tried (may : Err → Bool) (t : Nat) : Except Err Reservation → Recorded → Prop
  | .ok v, s => ∃ rs o, Retried rs ∧ Describes v o ∧ At t none ((Tally.after rs).committed [v] [o]) s
  | .error e, s => e.isApp = false ∧ (may e = false → ∃ rs, Retried rs ∧
      (rs = [] → e.isDeadlock = false) ∧ At t none ((Tally.after rs).rejected e) s)

theorem Claim.tried {r : Except Err Reservation} {rs : List (Option Err)} {t : Nat}
    (h : Claim may t (.after rs) r s) (hrs : Retried rs)
    (hd : ∀ e, r = .error e → rs = [] → e.isDeadlock = false) : Tried may t r s := by
  cases r with
  | ok v =>
    obtain ⟨o, ho, hat⟩ := h
    exact ⟨rs, o, hrs, ho, hat⟩
  | error e => exact ⟨h.app, fun hm => ⟨rs, hrs, hd e rfl, h.record hm⟩⟩

/-- The hold has been refused, or has failed. -/
def Given (may : Err → Bool) (t : Nat) : Except Err Reservation → Recorded → Prop
  | .ok v, s => ∃ rs o, Retried rs ∧ Describes v o ∧ At t none ((Tally.after rs).committed [v] [o]) s
  | .error e, s => Ended may (.error e) (s.2 t).toTally

theorem ne_slotTaken {e : Err} (h : e.isApp = false) : e ≠ slotTaken := by
  rintro rfl
  cases h

theorem safe_claimWithRetry (hc : Conclusive may) (ttl : Int) (guestId : Id)
    (dto : CreateReservationDto) (price : Option Int) (h : At a.tid none .zero s) :
    (deeds may).Safe a (Given may a.tid) (claimWithRetry ttl guestId dto price) s := by
  have hfirst : At a.tid none (.after []) s := h
  refine Safe.tryCatch (Safe.imp (Q := Tried may a.tid) (Safe.tryCatch
    ((safe_claimSlot ttl guestId dto price hfirst).imp fun r s₁ h₁ => ?_)) fun r s₁ h₁ => ?_)
  · cases r with
    | ok v => exact h₁.tried .first fun e he => by cases he
    | error e =>
      rw [caught_error]
      split
      · next hdead =>
        have hdead : e.isDeadlock = false := by simpa using hdead
        exact Claim.tried (r := .error e) h₁ .first fun e' he _ => by cases he; exact hdead
      · next hdead =>
        -- The deadlock is counted, and the slot is claimed once more.
        have hdead : e.isDeadlock = true := by simpa using hdead
        refine safe_op id fun s₂ hr₂ _ r₂ s₂' hs₂ => ?_
        obtain ⟨rfl, hcounted⟩ :=
          ((h₁.record (hc.deadlock e hdead)).same hr₂).recordDeadlockRetry hs₂
        have hagain : At a.tid none (.after [some e]) s₂' := hcounted
        refine (safe_claimSlot ttl guestId dto price hagain).imp fun r s₃ h₃ => ?_
        exact h₃.tried (.again hdead) fun _ _ hnil => by cases hnil
  · cases r with
    | ok v => exact h₁
    | error e =>
      rw [caught_error]
      obtain ⟨happ, hrecord⟩ := h₁
      split
      · next hexcl =>
        obtain ⟨rs, hrs, -, hat⟩ := hrecord (hc.exclusion e hexcl)
        refine safe_op id fun s₂ hr₂ _ r₂ s₂' hs₂ => ?_
        obtain ⟨rfl, hcounted⟩ := (hat.same hr₂).recordConflict hs₂
        have hended : Ended may (.error slotTaken) (s₂'.2 a.tid).toTally := by
          rw [hcounted.tally]
          exact .taken hrs hexcl
        exact hended
      · next hexcl =>
        have hexcl : e.isExclusionViolation = false := by simpa using hexcl
        have hended : Ended may (.error e) (s₁.2 a.tid).toTally := by
          cases hm : may e with
          | true => exact .unknown (ne_slotTaken happ) hm
          | false =>
            obtain ⟨rs, hrs, hdead, hat⟩ := hrecord hm
            rw [hat.tally]
            exact .failed hrs (ne_slotTaken happ) hexcl hdead
        exact hended

/-- An announcement returns and leaves the record alone, whatever becomes of it. -/
theorem safe_publish {listingId reservationId : Id} {status : ReservationStatus}
    (h : (s.2 a.tid).toTally = T) :
    (deeds may).Safe a (fun r s => r = .ok () ∧ (s.2 a.tid).toTally = T)
      (publishReservationChanged listingId reservationId status) s := by
  let K (s : Recorded) : Prop := (s.2 a.tid).toTally = T
  have hbody : (deeds may).Safe a (fun _ => K)
      (do
        let seq ← redis.incr listingId
        redis.emit { listingId := listingId, reservationId := reservationId, status := status,
                     seq := seq }) s := by
    have hrely : ∀ s s', Same a.tid s s' → K s → K s' := fun s s' hr hk =>
      show (s'.2 a.tid).toTally = T by rw [hr.deed]; exact hk
    refine Safe.of_uses (A := fun o => quiet o = true ∧ ¬Inserts o) (K := K) hrely ?_
      (Prog.Uses.bind (Prog.uses_op ⟨rfl, id⟩) fun _ => Prog.uses_op ⟨rfl, id⟩) h
    intro s₁ o r s₂ ho hi hk hs
    obtain ⟨hi', hg⟩ := kept_of_step hs hi
    exact ⟨hi', ⟨hg, fun hins => (ho.2 hins).elim⟩, (tally_of_step ho.1 hs).trans hk⟩
  refine Safe.tryCatch (hbody.imp fun r s' hk => ?_)
  cases r with
  | ok u => exact ⟨rfl, hk⟩
  | error e => exact ⟨rfl, hk⟩

theorem safe_hold (hc : Conclusive may) (ttl : Int) (guestId : Id) (dto : CreateReservationDto)
    (h : At a.tid none .zero s) :
    (deeds may).Safe a (fun r s => Ended may r (s.2 a.tid).toTally) (hold ttl guestId dto) s := by
  have hearly : ∀ {e : Err} {s : Recorded}, e ≠ slotTaken → (s.2 a.tid).toTally = .zero →
      Ended may (.error e) (s.2 a.tid).toTally := fun hne hz => by
    rw [hz]
    exact .unasked hne
  refine safe_op id fun s₁ hr₁ _ r₁ s₁' hs₁ => ?_
  have h₁ := h.same hr₁
  cases r₁ with
  | error e =>
    have hfailed := failed_of_step rfl h₁ hs₁
    exact hearly (ne_slotTaken hfailed.app) hfailed.tally
  | ok now =>
  have hnow := h₁.read rfl (db_of_host hs₁) hs₁
  rw [cont_ok]
  split
  · exact hearly (by decide) hnow.tally
  · split
    · exact hearly (by decide) hnow.tally
    · refine safe_op id fun s₂ hr₂ _ r₂ s₂' hs₂ => ?_
      have h₂ := hnow.same hr₂
      cases r₂ with
      | error e =>
        have hfailed := failed_of_step rfl h₂ hs₂
        exact hearly (ne_slotTaken hfailed.app) hfailed.tally
      | ok l =>
      have hread := h₂.read rfl (db_of_listing hs₂) hs₂
      cases l with
      | none => exact hearly (by decide) hread.tally
      | some listing =>
        simp only [cont_ok]
        split
        · exact hearly (by decide) hread.tally
        · refine Safe.bind ((safe_claimWithRetry hc ttl guestId dto _ hread).imp fun r s₃ h₃ => ?_)
          cases r with
          | error e => exact h₃
          | ok v =>
            obtain ⟨rs, o, hrs, ho, hat⟩ := h₃
            refine safe_op id fun s₄ hr₄ _ r₄ s₄' hs₄ => ?_
            obtain ⟨rfl, hheld⟩ := (hat.same hr₄).recordHeld hs₄
            refine Safe.bind ((safe_publish hheld.tally).imp fun r s₅ h₅ => ?_)
            obtain ⟨rfl, htally⟩ := h₅
            have hended : Ended may (.ok v) (s₅.2 a.tid).toTally := by
              rw [htally]
              exact .won hrs ho
            exact hended

/-! ## Every run -/

theorem safe_program (hc : Conclusive may) (cfg : Config) {c : Call} (hcall : a.call = c)
    (hi : At a.tid none .zero s) :
    (deeds may).Safe a ((deeds may).Post a) (c.program cfg) s := by
  by_cases hhold : ∃ guestId dto, c = .hold guestId dto
  · obtain ⟨guestId, dto, rfl⟩ := hhold
    refine Safe.bind ((safe_hold hc cfg.holdTtlMs guestId dto hi).imp fun r s' hended => ?_)
    cases r with
    | ok v => exact fun _ _ _ => ⟨.ok v, rfl, hended⟩
    | error e => exact fun _ _ _ => ⟨.error e, rfl, hended⟩
  · have hpost : ∀ (r : Except Err Reply) (s' : Recorded), True → (deeds may).Post a r s' :=
      fun _ _ _ guestId dto hc => (hhold ⟨guestId, dto, hcall.symm.trans hc⟩).elim
    refine Safe.imp (Q := fun _ _ => True) ?_ hpost
    have huses : (c.program cfg).Uses fun o => ¬Inserts o :=
      program_inserts_nothing cfg fun guestId dto hc => hhold ⟨guestId, dto, hc⟩
    refine Safe.of_uses (K := fun _ => True) (fun _ _ _ h => h) ?_ huses trivial
    intro s₁ o r s₂ ho hi _ hs
    obtain ⟨hi', hg⟩ := kept_of_step hs hi
    exact ⟨hi', ⟨hg, fun hins => (ho hins).elim⟩, trivial⟩

theorem sound (hc : Conclusive may) (cfg : Config) {s₀ : Store} (h₀ : Apart s₀.db)
    (hq : s₀.db.transactions.rows = []) :
    Sound (deeds may) (recorded cfg) (Policy.forgetful (reporting may))
      (s₀, fun _ => Deed.zero) where
  start := h₀
  fresh_start := fun t => ⟨Table.find?_eq_none.mpr (by rw [hq]; intro _ h; cases h), rfl⟩
  rely_refl := Same.refl
  rely_trans := fun _ _ _ _ h h' => h.trans h'
  guar_rely := fun a t s o r s' hne hg => hg.1 t (Ne.symm hne)
  fresh_stable := fun t s s' hr hf =>
    ⟨hr.transaction.trans hf.1, hr.deed.trans hf.2⟩
  post_stable := fun a r s s' hr _ hp guestId dto hc => by
    rw [hr.deed]
    exact hp guestId dto hc
  lost_stable := fun _ _ _ _ _ => trivial
  step := fun w hreach t c o k ch r s' ht hp hx =>
    ⟨Machine.Reaches.uses_head (M := recorded cfg) (program_issues cfg) hreach ht, ch, hp,
      Machine.exec_recording hx⟩
  spawn := by
    intro t c s s' hi hf _ hs
    obtain ⟨hs', hdeeds⟩ := Machine.spawned_recording hs
    have hdb : s'.1.db = s.1.db := spawned_db hs'
    have hsame : ∀ u, Same u s s' := fun u => ⟨by rw [hdb], congrFun hdeeds u⟩
    refine ⟨show Apart s'.1.db from hdb ▸ hi, hsame, safe_program hc cfg rfl ?_⟩
    exact ⟨(hsame t).transaction.trans hf.1, by rw [(hsame t).deed, hf.2]; rfl⟩
  ret := by
    intro t c r s hi _
    have hdb : (Store.returned t c r s.1).db = s.1.db := returned_db t c r s.1
    refine ⟨show Apart (Store.returned t c r s.1).db from hdb ▸ hi, fun u => ⟨?_, rfl⟩⟩
    exact congrArg (fun d : Database => d.transactions.find? u) hdb
  kill := fun t c p s hi _ =>
    ⟨Apart.rollback hi, fun u hu => ⟨Database.find?_rollback_ne hu, rfl⟩, trivial⟩

/-! ## All or nothing -/

/-- What a hold answers, and what its record shows.  A check-out beyond the year 9999 is stored as
well, although the client reads it back as an invalid date. -/
structure AllOrNothing (r : Except Err Reservation) (T : Tally) : Prop where
  returns : ∀ v, r = .ok v ↔
    T.rewritten = false ∧ T.reservations = [v] ∧ ∃ o, T.outbox = [o] ∧ Describes v o
  throws : (∃ e, r = .error e) ↔ T.rewritten = false ∧ T.reservations = [] ∧ T.outbox = []
  taken : r = .error slotTaken ↔
    ∃ e, e.isExclusionViolation = true ∧ T.attempts.getLast? = some (some e)
  attempts : T.attempts.length ≤ 2
  retry : T.attempts.length = 2 ↔ ∃ e, e.isDeadlock = true ∧ T.attempts.head? = some (some e)
  held : T.held = T.attempts.countP fun x => x.isNone
  conflict : T.conflict = T.attempts.countP fun x => x.any Err.isExclusionViolation
  deadlockRetries : T.deadlockRetries = T.attempts.length - 1

theorem not_exclusion_of_deadlock {e : Err} (h : e.isDeadlock = true) :
    e.isExclusionViolation = false := by
  simp only [Err.isDeadlock, beq_iff_eq] at h
  simp [Err.isExclusionViolation, h]

theorem not_deadlock_of_exclusion {e : Err} (h : e.isExclusionViolation = true) :
    e.isDeadlock = false := by
  rw [Bool.eq_false_iff]
  intro hd
  rw [not_exclusion_of_deadlock hd] at h
  cases h

theorem Ended.reservations_of_ok {v : Reservation} (h : Ended may (.ok v) T) :
    T.reservations = [v] := by
  cases h
  rfl

/-- A hold that is told the slot is taken has added nothing and was refused by the constraint. -/
theorem Ended.refused {T : Tally} (h : Ended may (.error slotTaken) T) :
    T.reservations = [] ∧ ∃ e, e.isExclusionViolation = true ∧ some e ∈ T.attempts := by
  cases h with
  | unasked hne => exact (hne rfl).elim
  | @taken rs e hr he =>
    exact ⟨rfl, e, he, List.mem_append_right _ (List.mem_singleton_self _)⟩
  | failed _ hne => exact (hne rfl).elim
  | unknown hne => exact (hne rfl).elim

theorem Ended.allOrNothing {r : Except Err Reservation}
    (h : Ended (fun _ => false) r T) : AllOrNothing r T := by
  cases h with
  | unasked hne => constructor <;> simp [Tally.zero, hne]
  | @won rs v o hr ho =>
    have hreturns : ∀ v', (Except.ok v : Except Err Reservation) = .ok v' ↔
        false = false ∧ [v] = [v'] ∧ ∃ o', [o] = [o'] ∧ Describes v' o' := by
      intro v'
      constructor
      · intro h
        cases h
        exact ⟨rfl, rfl, o, rfl, ho⟩
      · rintro ⟨-, h, -⟩
        cases h
        rfl
    cases hr with
    | first =>
      refine ⟨hreturns, ?_, ?_, ?_, ?_, ?_, ?_, ?_⟩ <;>
        simp [Tally.after, Tally.committed, Tally.zero]
    | again hd =>
      have hx := not_exclusion_of_deadlock hd
      refine ⟨hreturns, ?_, ?_, ?_, ?_, ?_, ?_, ?_⟩ <;>
        simp [Tally.after, Tally.committed, Tally.zero, hd, hx]
  | @taken rs e hr he =>
    cases hr with
    | first =>
      have hd := not_deadlock_of_exclusion he
      constructor <;> simp [Tally.after, Tally.rejected, Tally.zero, he, hd]
    | again hd =>
      have hx := not_exclusion_of_deadlock hd
      constructor <;> simp [Tally.after, Tally.rejected, Tally.zero, he, hd, hx]
  | @failed rs e hr hne he hd =>
    cases hr with
    | first => constructor <;> simp [Tally.after, Tally.rejected, Tally.zero, hne, he, hd]
    | again hd' =>
      have hx := not_exclusion_of_deadlock hd'
      constructor <;> simp [Tally.after, Tally.rejected, Tally.zero, hne, he, hd', hx]
  | unknown hne hm => cases hm

theorem conclusive_never : Conclusive fun _ => false := ⟨fun _ _ => rfl, fun _ _ => rfl⟩

/-- Any call at any time, any crash and any failure, but a transaction that is rejected has
written nothing. -/
def rejecting : RecordedPolicy := Policy.forgetful (reporting fun _ => false)

/-- Whatever becomes of its attempts and of its announcement, and whatever the other calls do in
between: a hold returns a reservation exactly if it has added that reservation and one outbox
row for it, and throws exactly if it has changed neither table. -/
theorem hold_is_all_or_nothing {cfg : Config} {s₀ : Store} {w : RecordedWorld}
    (h₀ : Apart s₀.db) (hq : s₀.db.transactions.rows = [])
    (hr : (recorded cfg).Reaches rejecting (World.start (s₀, fun _ => Deed.zero)) w) {t : Nat}
    {guestId : Id} {dto : CreateReservationDto} {r : Except Err Reply}
    (ht : w.threads[t]? = some (.returned (.hold guestId dto) r)) :
    ∃ r' : Except Err Reservation, r = r'.map Reply.reservation ∧
      AllOrNothing r' (w.shared.2 t).toTally := by
  obtain ⟨r', hr', hended⟩ := (sound conclusive_never cfg h₀ hq).post hr ht guestId dto rfl
  exact ⟨r', hr', hended.allOrNothing⟩

/-! ## A hold that is retried -/

namespace Retry

def deadlock : Err := .driver none (some "40P01")

/-- The first insert is aborted, the second commits, and Redis does not answer. -/
def schedule : List Event :=
  .spawn (.hold 1 Scenario.stay) :: Scenario.steps 0 4 ++
    [.step 0 { fault := .before deadlock }] ++ Scenario.steps 0 4 ++
    [.step 0 { id := 5 }, .step 0 {}, .step 0 { id := 6 }] ++ Scenario.steps 0 2 ++
    [.step 0 { fault := .before (.other "timed out after 2000ms") }, .ret 0]

def done (w : RecordedWorld) : Bool :=
  match w.threads[(0 : Nat)]? with
  | some (.returned (.hold 1 _) (.ok (.reservation v))) =>
    v.id == 5 && (w.shared.2 0).attempts == [some deadlock, none]
  | _ => false

end Retry

open Retry in
theorem hold_is_all_or_nothing_retried :
    ∃ w : RecordedWorld, (recorded Scenario.cfg).Reaches rejecting
        (World.start (Store.init Scenario.listings, fun _ => Deed.zero)) w ∧
      done w = true ∧ ∃ r, AllOrNothing r (w.shared.2 0).toTally := by
  have hrun : ((recorded Scenario.cfg).run rejecting
      (World.start (Store.init Scenario.listings, fun _ => Deed.zero)) schedule).any done = true := by
    decide +kernel
  obtain ⟨w, hr, hd⟩ := Machine.exists_reaches_of_run hrun
  refine ⟨w, hr, hd, ?_⟩
  simp only [done] at hd
  split at hd
  · next dto v ht =>
    obtain ⟨r, -, hlaw⟩ := hold_is_all_or_nothing (apart_init _) rfl hr ht
    exact ⟨r, hlaw⟩
  · cases hd

end Holds

end NoOverlap
