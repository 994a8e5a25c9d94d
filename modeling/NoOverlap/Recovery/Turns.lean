import NoOverlap.Lifecycle.Desk
import NoOverlap.Seam.Programs

/-!
# Whose turn it is

What of the transactions a scheduler has to know, whatever provider the worker uses and whatever
has failed so far.  A call that has ended has no transaction open, and a row is inserted into a
transaction that has inserted none.  So a call that waits for an insert keeps nobody else
waiting: there is always one that can go on.

Beside that, every event that counts as published has a job.
-/

namespace NoOverlap

open Relational Concurrency
open Concurrency.RelyGuarantee
open Seam (Idle Opened)

namespace Recovery

def HasJob (s : Store) (id : Id) : Prop := ∃ j, s.queues.charge.find? id = some j

/-- The events that are published, or about to be, have their jobs. -/
structure Forwarded (s : Store) : Prop where
  published : ∀ o ∈ s.db.outbox.rows, o.publishedAt.isSome = true → HasJob s o.id
  marked : ∀ tx ∈ s.db.transactions.rows, ∀ id ∈ tx.published, HasJob s id
  written : ∀ tx ∈ s.db.transactions.rows, ∀ o ∈ tx.outbox, o.publishedAt = none

def turns : RelyGuarantee Store Call Statement.Resp Err Reply :=
  { Step := fun a s o r s' => a.call.Issues o ∧ ∃ ch : Choice, o.exec a.tid ch s = some (r, s')
    Inv := Forwarded
    Rely := Seam.Rely
    Guar := fun a s o _ s' => (∀ t, t ≠ a.tid → Seam.Rely t s s') ∧ (Inserts o → Blank a.tid s.db)
    Post := fun a _ s => Idle a.tid s
    Fresh := Idle
    Lost := fun a s => Idle a.tid s }

variable {a : Agent} {s s' : Store}

theorem HasJob.grows {id : Id} (h : HasJob s id) (hg : Grows s s') : HasJob s' id := by
  obtain ⟨j, hj⟩ := h
  obtain ⟨j', hj', -⟩ := hg.charge id j hj
  exact ⟨j', hj'⟩

/-- What a statement may mark as published. -/
def Marks (s : Store) : Statement → Prop
  | .db (.outboxMarkPublished ids _) => ∀ id ∈ ids, HasJob s id
  | _ => True

theorem Forwarded.of_db_eq (h : Forwarded s) (hg : Grows s s') (hdb : s'.db = s.db) :
    Forwarded s' where
  published := by
    rw [hdb]
    exact fun o ho hp => (h.published o ho hp).grows hg
  marked := by
    rw [hdb]
    exact fun tx htx id hid => (h.marked tx htx id hid).grows hg
  written := by
    rw [hdb]
    exact h.written

/-- A commit publishes what its transaction has marked. -/
theorem published_of_apply {tx : Transaction} (h : Forwarded s) (htx : tx ∈ s.db.transactions.rows)
    {o : OutboxRow} (ho : o ∈ (s.db.apply tx).outbox.rows) (hp : o.publishedAt.isSome = true) :
    HasJob s o.id := by
  obtain ⟨o₀, ho₀, rfl⟩ := List.mem_map.mp ho
  by_cases hmarked : tx.published.contains o₀.id = true
  · simp only [hmarked, if_true]
    exact h.marked tx htx _ (by simpa using hmarked)
  · simp only [hmarked] at hp ⊢
    rcases Table.find?_of_insertAll (Table.find?_of_mem ho₀) with hold | ⟨-, hnew⟩
    · exact h.published o₀ (Table.mem_of_find? hold) hp
    · have hnone := h.written tx htx o₀ hnew
      simp [hnone] at hp

theorem Forwarded.effect {t : Nat} {o : DbStatement} {r : Except Err o.Resp} {d : Database}
    (h : Forwarded s) (hmarks : Marks s (.db o)) (hx : s.db.Effect t o r d) :
    Forwarded { s with db := d } := by
  have hpublished : d.outbox = s.db.outbox →
      ∀ o ∈ d.outbox.rows, o.publishedAt.isSome = true → HasJob s o.id := fun he => by
    rw [he]
    exact h.published
  cases hx with
  | begin =>
    refine ⟨hpublished rfl, ?_, ?_⟩
    · exact Database.forall_begin (P := fun tx => ∀ id ∈ tx.published, HasJob s id) h.marked
        (by simp)
    · exact Database.forall_begin (P := fun tx => ∀ o ∈ tx.outbox, o.publishedAt = none) h.written
        (by simp)
  | reservationCreate | selectUnpublished =>
    refine ⟨hpublished rfl, ?_, ?_⟩
    · exact Database.forall_setTransaction h.marked fun _ _ _ htx => htx
    · exact Database.forall_setTransaction h.written fun _ _ _ htx => htx
  | outboxCreate _ _ _ row _ _ _ hn =>
    refine ⟨hpublished rfl, Database.forall_setTransaction h.marked fun _ _ _ htx => htx, ?_⟩
    refine Database.forall_setTransaction h.written fun tx _ _ htx o ho => ?_
    rcases List.mem_append.mp ho with ho | ho
    · exact htx o ho
    · rw [List.mem_singleton.mp ho]
      exact hn
  | outboxMarkPublished ids now =>
    refine ⟨hpublished rfl, ?_, Database.forall_setTransaction h.written fun _ _ _ htx => htx⟩
    refine Database.forall_setTransaction h.marked fun tx _ _ htx id hid => ?_
    rcases List.mem_append.mp hid with hid | hid
    · exact htx id hid
    · exact hmarks id hid
  | commit tx ht =>
    refine ⟨fun o ho hp => published_of_apply h (Table.mem_of_find? ht) ho hp, ?_, ?_⟩
    · exact fun tx' htx' => h.marked tx' (Table.mem_erase.mp htx').1
    · exact fun tx' htx' => h.written tx' (Table.mem_erase.mp htx').1
  | rollback =>
    exact ⟨hpublished rfl, Database.forall_rollback h.marked, Database.forall_rollback h.written⟩
  | reservationUpdate id status seen r hr =>
    simp only [Database.reservationUpdate, hr]
    exact ⟨h.published, h.marked, h.written⟩
  | paymentUpdate key data p hp =>
    simp only [Database.paymentUpdate, hp]
    exact ⟨h.published, h.marked, h.written⟩
  | _ => exact ⟨h.published, h.marked, h.written⟩

theorem Forwarded.exec {c : Call} {t : Nat} {ch : Choice} {o : Statement} {r : Except Err o.Resp}
    (h : Forwarded s) (hissues : c.Issues o) (hmarks : Marks s o)
    (hx : o.exec t ch s = some (r, s')) : Forwarded s' := by
  have hg := Grows.of_exec hissues hx
  rcases Statement.exec_cases hx with ⟨rfl, -⟩ | ⟨r', hp, -⟩
  · exact h
  · cases o with
    | db o =>
      obtain ⟨d, hd, rfl⟩ := Statement.perform_db hp
      exact h.effect hmarks (Database.effect_of_perform hd)
    | queue o | provider o | redis o =>
      cases hp
      exact h.of_db_eq hg rfl
    | host o =>
      obtain ⟨m, rfl⟩ := Statement.perform_host hp
      exact h.of_db_eq hg rfl

/-! ## Rules -/

theorem safe_op {β : Type} {Q : Except Err β → Store → Prop} {o : Statement} {f : o.Resp → Async β}
    (hmarks : ∀ s₁, Seam.Rely a.tid s s₁ → Marks s₁ o)
    (hblank : ∀ s₁, Seam.Rely a.tid s s₁ → Inserts o → Blank a.tid s₁.db)
    (h : ∀ s₁ ch r s₂, Seam.Rely a.tid s s₁ → o.exec a.tid ch s₁ = some (r, s₂) →
      Grows s₁ s₂ → turns.Cont a Q f r s₂) : turns.Safe a Q (await o >>= f) s := by
  refine Safe.op_bind fun s₁ hr hi r s₂ hs => ?_
  obtain ⟨hissues, ch, hx⟩ := hs
  have hg := Grows.of_exec hissues hx
  refine ⟨hi.exec hissues (hmarks s₁ hr) hx, ⟨fun u hu => ⟨hg, ?_⟩, hblank s₁ hr⟩, ?_⟩
  · exact Seam.transaction_ne hx hu
  · exact h s₁ ch r s₂ hr hx hg

/-- A program that neither inserts nor marks anything. -/
theorem safe_of_uses {β : Type} {A : Statement → Prop} {K : Store → Prop} {p : Async β}
    (hp : p.Uses A) (hA : ∀ o, A o → ¬Inserts o ∧ ∀ s, Marks s o)
    (hrely : ∀ s s', Seam.Rely a.tid s s' → K s → K s')
    (hstep : ∀ s ch (o : Statement) r s', A o → K s → o.exec a.tid ch s = some (r, s') → K s')
    (hk : K s) : turns.Safe a (fun _ => K) p s := by
  refine Safe.of_uses hrely ?_ hp hk
  rintro s o r s' ho hi hk ⟨hissues, ch, hx⟩
  obtain ⟨hno, hmarks⟩ := hA o ho
  have hg := Grows.of_exec hissues hx
  refine ⟨hi.exec hissues (hmarks s) hx, ⟨fun u hu => ⟨hg, Seam.transaction_ne hx hu⟩, ?_⟩, ?_⟩
  · exact fun hins => (hno hins).elim
  · exact hstep s ch o r s' ho hk hx

theorem harmless_of_not_transactional {o : Statement} (h : o.transactional = false) :
    ¬Inserts o ∧ ∀ s, Marks s o := by
  cases o with
  | db o =>
    cases o with
    | reservationCreate | outboxMarkPublished => cases h
    | _ => exact ⟨id, fun _ => trivial⟩
  | _ => exact ⟨id, fun _ => trivial⟩

/-- A program that has nothing to do with transactions. -/
theorem safe_idle {β : Type} {p : Async β} (hp : p.Uses fun o => o.transactional = false)
    (hs : Idle a.tid s) : turns.Safe a (fun _ => Idle a.tid) p s := by
  refine safe_of_uses hp (fun o => harmless_of_not_transactional)
    (fun _ _ hr hs => hr.idle hs) (fun s ch o r s' ho hs hx => ?_) hs
  rw [Idle, Seam.transactions_eq hx ho]
  exact hs

/-- One statement outside any transaction. -/
theorem idle_op {β : Type} {o : Statement} {f : o.Resp → Async β} (ho : o.transactional = false)
    (hs : Idle a.tid s) (h : ∀ v s₂, Idle a.tid s₂ → turns.Safe a (fun _ => Idle a.tid) (f v) s₂) :
    turns.Safe a (fun _ => Idle a.tid) (await o >>= f) s :=
  Safe.seq (safe_idle (Prog.uses_op ho) hs) h

theorem safe_rollback {β : Type} {e : Err} :
    turns.Safe a (fun _ => Idle a.tid) (do tx.rollback; throw e : Async β) s := by
  refine safe_op (o := .db .rollback) (fun _ _ => trivial) (fun _ _ => False.elim)
    fun s₁ ch r s₂ _ hx _ => ?_
  have hidle : Idle a.tid s₂ := by
    rw [Statement.exec_of_not_fallible rfl] at hx
    cases hx
    exact Database.find?_rollback_self
  cases r with
  | ok v => exact hidle
  | error e => exact hidle

/-- Whatever its body does, a transaction is closed in the end. -/
theorem safe_transaction {β : Type} {body : Async β} (hs : Idle a.tid s)
    (hbody : ∀ s₁, Opened a.tid (Seam.blank a.tid) s₁ → turns.Safe a (fun _ _ => True) body s₁) :
    turns.Safe a (fun _ => Idle a.tid) (transaction body) s := by
  refine Safe.tryCatch (safe_op (o := .db .begin) (fun _ _ => trivial) (fun _ _ => False.elim)
    fun s₁ ch r s₂ hr hx _ => ?_)
  cases r with
  | error e => exact safe_rollback
  | ok u =>
    have hopen : Opened a.tid (Seam.blank a.tid) s₂ := by
      obtain ⟨d, hd, rfl⟩ := Statement.perform_db (Statement.perform_of_exec_ok hx)
      cases hd
      exact Database.find?_begin_self (hr.idle hs)
    refine Safe.bind ((hbody s₂ hopen).imp fun r s₃ _ => ?_)
    cases r with
    | error e => exact safe_rollback
    | ok v =>
      refine safe_op (o := .db .commit) (fun _ _ => trivial) (fun _ _ => False.elim)
        fun s₄ ch r s₅ _ hx _ => ?_
      cases r with
      | error e => exact safe_rollback
      | ok u => exact Seam.idle_of_commit hx

theorem blank_of_opened {s₁ : Store} (h : Opened a.tid (Seam.blank a.tid) s)
    (hr : Seam.Rely a.tid s s₁) : Blank a.tid s₁.db := by
  intro tx ht
  rw [hr.own.trans h] at ht
  cases ht
  rfl

theorem safe_claimSlot (ttl : Int) (guestId : Id) (dto : CreateReservationDto)
    (price : Option Int) (hs : Idle a.tid s) :
    turns.Safe a (fun _ => Idle a.tid) (claimSlot ttl guestId dto price) s := by
  refine safe_transaction hs fun s₁ hopen => ?_
  refine safe_op (o := .host .newDate) (fun _ _ => trivial) (fun _ _ => False.elim)
    fun s₂ ch r s₃ hr hx _ => ?_
  have hopen₃ : Opened a.tid (Seam.blank a.tid) s₃ := Seam.opened_of_exec rfl hr hopen hx
  cases r with
  | error e => trivial
  | ok now =>
  refine safe_op (fun _ _ => trivial) (fun s₄ hr _ => blank_of_opened hopen₃ hr)
    fun s₄ ch r s₅ _ _ _ => ?_
  cases r with
  | error e => trivial
  | ok v =>
    refine safe_of_uses (A := fun o => ¬Inserts o ∧ ∀ s, Marks s o) (K := fun _ => True) ?_
      (fun _ h => h) (fun _ _ _ h => h) (fun _ _ _ _ _ _ h _ => h) trivial
    exact Prog.Uses.bind (Prog.uses_op ⟨id, fun _ => trivial⟩) fun _ =>
      Prog.Uses.bind (Prog.uses_op ⟨id, fun _ => trivial⟩) fun _ => Prog.uses_pure v

theorem safe_claimWithRetry (ttl : Int) (guestId : Id) (dto : CreateReservationDto)
    (price : Option Int) (hs : Idle a.tid s) :
    turns.Safe a (fun _ => Idle a.tid) (claimWithRetry ttl guestId dto price) s := by
  refine Safe.rescue (Safe.rescue (safe_claimSlot ttl guestId dto price hs) fun e s₁ hs => ?_)
    fun e s₁ hs => ?_
  · by_cases hdead : (!e.isDeadlock) = true
    · simp only [if_pos hdead, safe_throw]
      exact hs
    · simp only [if_neg hdead]
      exact idle_op rfl hs fun _ s₂ hs => safe_claimSlot ttl guestId dto price hs
  · by_cases hexcl : e.isExclusionViolation = true
    · simp only [if_pos hexcl]
      exact idle_op rfl hs fun _ s₂ hs => hs
    · simp only [if_neg hexcl, safe_throw]
      exact hs

theorem safe_hold (ttl : Int) (guestId : Id) (dto : CreateReservationDto) (hs : Idle a.tid s) :
    turns.Safe a (fun _ => Idle a.tid) (hold ttl guestId dto) s := by
  refine idle_op (o := .host .newDate) rfl hs fun now s₁ hs => ?_
  by_cases hlate : dto.checkOut.le dto.checkIn = true
  · simp only [if_pos hlate, safe_throw]
    exact hs
  by_cases hpast : dto.checkIn.lt (some now) = true
  · simp only [if_neg hlate, if_pos hpast, safe_throw]
    exact hs
  simp only [if_neg hlate, if_neg hpast]
  refine idle_op (o := .db (.listingFindUnique _)) rfl hs fun listing s₂ hs => ?_
  cases listing with
  | none => exact hs
  | some listing =>
    by_cases hactive : (!listing.active) = true
    · simp only [if_pos hactive, safe_throw]
      exact hs
    simp only [if_neg hactive]
    refine Safe.seq (safe_claimWithRetry ttl guestId dto _ hs) fun held s₃ hs => ?_
    refine safe_idle (Prog.Uses.bind (Prog.uses_op rfl) fun _ => ?_) hs
    exact Prog.Uses.bind (publishReservationChanged_uses _ _ _ rfl fun _ => rfl)
      fun _ => Prog.uses_pure held

/-- A pass marks the rows whose jobs it has added. -/
theorem safe_publishBatch (hs : Idle a.tid s) :
    turns.Safe a (fun _ => Idle a.tid) publishBatch s := by
  refine safe_transaction hs fun s₁ _ => ?_
  refine safe_op (o := .db (.selectUnpublished _)) (fun _ _ => trivial) (fun _ _ => False.elim)
    fun s₂ ch r s₃ _ _ _ => ?_
  cases r with
  | error e => trivial
  | ok rows =>
  by_cases hn : rows.length = 0
  · simp only [cont_ok, if_pos hn, safe_pure]
  simp only [cont_ok, if_neg hn]
  refine safe_op (o := .queue (.chargeAddBulk rows)) (fun _ _ => trivial) (fun _ _ => False.elim)
    fun s₄ ch r s₅ _ hx _ => ?_
  cases r with
  | error e => trivial
  | ok u =>
  have hjobs : ∀ row ∈ rows, HasJob s₅ row.id := by
    have hp := Statement.perform_of_exec_ok hx
    cases hp
    exact fun row hrow => Seam.find?_chargeAddBulk_isSome _ hrow
  refine safe_op (o := .host .newDate) (fun _ _ => trivial) (fun _ _ => False.elim)
    fun s₆ ch r s₇ hr _ hg => ?_
  cases r with
  | error e => trivial
  | ok now =>
  refine safe_op (o := .db (.outboxMarkPublished _ _)) (fun s₈ hr' id hid => ?_)
    (fun _ _ => False.elim) fun s₈ ch r s₉ _ _ _ => ?_
  · obtain ⟨row, hrow, rfl⟩ := List.mem_map.mp hid
    exact (hjobs row hrow).grows (hr.grows.trans (hg.trans hr'.grows))
  · cases r with
    | error e => trivial
    | ok n => trivial

theorem transactional_of_issues {c : Call} (hc : c.transacts = false) {o : Statement}
    (ho : c.Issues o) : o.transactional = false := by
  cases o with
  | db o =>
    cases o with
    | begin | reservationCreate | outboxCreate | selectUnpublished | outboxMarkPublished | commit
    | rollback => cases hc.symm.trans ho
    | _ => rfl
  | _ => rfl

theorem safe_program (cfg : Config) (c : Call) (hs : Idle a.tid s) :
    turns.Safe a (fun _ => Idle a.tid) (c.program cfg) s := by
  by_cases hc : c.transacts = false
  · exact safe_idle ((program_issues cfg c).mono fun _ => transactional_of_issues hc) hs
  · cases c with
    | hold guestId dto => exact Safe.seq (safe_hold _ guestId dto hs) fun _ _ hs => hs
    | relayTick =>
      refine Safe.seq (Safe.rescue (Safe.seq (safe_publishBatch hs) fun _ _ hs => hs) ?_) ?_
      · exact fun _ _ hs => hs
      · exact fun _ _ hs => hs
    | _ => exact (hc rfl).elim

theorem forwarded_init (listings : Table Listing) : Forwarded (Store.init listings) where
  published := by simp [Store.init]
  marked := by simp [Store.init]
  written := by simp [Store.init]

theorem sound (cfg : Config) (listings : Table Listing) :
    Sound turns (system cfg) anything (Store.init listings) where
  start := forwarded_init listings
  fresh_start := fun t => by simp [turns, Idle, Store.init]
  rely_refl := Seam.Rely.refl
  rely_trans := fun _ _ _ _ h h' => h.trans h'
  guar_rely := fun a t s o r s' hne hg => hg.1 t (Ne.symm hne)
  fresh_stable := fun _ _ _ hr hs => hr.idle hs
  post_stable := fun _ _ _ _ hr _ hs => hr.idle hs
  lost_stable := fun _ _ _ hr hs => hr.idle hs
  step := fun w hreach t c o k ch r s' ht _ hx =>
    ⟨Machine.Reaches.uses_head (M := system cfg) (program_issues cfg) hreach ht, ch, hx⟩
  spawn := by
    intro t c s s' hi hf _ hs
    obtain ⟨q, rfl, hsame⟩ := same_of_spawned hs
    have hg := Grows.of_same hsame
    exact ⟨hi.of_db_eq hg rfl, fun u => ⟨hg, rfl⟩, safe_program cfg c hf⟩
  ret := by
    intro t c r s hi _
    obtain ⟨q, he, hsame⟩ := same_of_returned t c r s
    have hg := Grows.of_same hsame
    show Forwarded (Store.returned t c r s) ∧ ∀ u, Seam.Rely u s (Store.returned t c r s)
    rw [he]
    exact ⟨hi.of_db_eq hg rfl, fun u => ⟨hg, rfl⟩⟩
  kill := by
    intro t c p s hi _
    have hg := Grows.of_rollback t s
    refine ⟨?_, fun u hu => ⟨hg, Database.find?_rollback_ne hu⟩, Database.find?_rollback_self⟩
    exact ⟨hi.published, Database.forall_rollback hi.marked, Database.forall_rollback hi.written⟩

/-! ## Every run -/

variable {cfg : Config} {listings : Table Listing} {w : World}

/-- A thread that does not run any more has no transaction open. -/
theorem idle_of_over (hr : (system cfg).Reaches anything (initial listings) w) {t : Nat}
    (ht : ∀ c p, w.threads[t]? ≠ some (.running c p)) : Idle t w.shared := by
  obtain ⟨-, hthreads, hfresh⟩ := (sound cfg listings).holds hr
  cases hth : w.threads[t]? with
  | none => exact hfresh t (List.getElem?_eq_none_iff.mp hth)
  | some th =>
    have hok := hthreads t th hth
    cases th with
    | running c p => exact (ht c p hth).elim
    | returned c r => exact hok
    | killed c => exact hok

/-- Nor has one that has come to its end. -/
theorem idle_of_done (hr : (system cfg).Reaches anything (initial listings) w) {t : Nat} {c : Call}
    {r : Except Err Reply} (ht : w.threads[t]? = some (.running c (.done r))) : Idle t w.shared :=
  ((sound cfg listings).holds hr).2.1 t _ ht

/-- A thread that is about to insert has inserted nothing before. -/
theorem blank_of_insert (hr : (system cfg).Reaches anything (initial listings) w) {t : Nat}
    {c : Call} {o : Statement} {k : Except Err o.Resp → Async Reply}
    (ht : w.threads[t]? = some (.running c (.call o k))) (ho : Inserts o) :
    Blank t w.shared.db := by
  obtain ⟨hi, hthreads, -⟩ := (sound cfg listings).holds hr
  have hsafe : turns.Safe ⟨t, c⟩ (turns.Post ⟨t, c⟩) (.call o k) w.shared := hthreads t _ ht
  have hissues : c.Issues o :=
    Machine.Reaches.uses_head (M := system cfg) (program_issues cfg) hr ht
  -- Even an insert that would have to wait can be made to fail.
  have hfails : o.exec t { fault := .before .transient } w.shared =
      some (.error .transient, w.shared) := by
    cases o with
    | db o => cases o <;> first | rfl | exact ho.elim
    | _ => exact ho.elim
  exact (hsafe _ (Seam.Rely.refl _ _) hi _ _ ⟨hissues, _, hfails⟩).2.1.2 ho

/-- The events that count as published have their jobs. -/
theorem forwarded_of_reaches (hr : (system cfg).Reaches anything (initial listings) w) :
    Forwarded w.shared := (sound cfg listings).inv hr

end Recovery

end NoOverlap
