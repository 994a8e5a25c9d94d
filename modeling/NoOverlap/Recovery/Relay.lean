import NoOverlap.Data.Backlog
import NoOverlap.Recovery.Waiting

/-!
# A pass of the relay

One pass of the outbox relay, with nothing else going on and nothing failing: `passed` is the
store it leaves, whatever the clock reads.  A pass takes the hundred oldest events of the
backlog, and the backlog after it is what was left of the backlog before it.  So the passes that
the timer makes drain the backlog from its old end, a hundred at a time.
-/

namespace NoOverlap

open Relational Concurrency
open Concurrency.Prog

/-- The unpublished events, oldest first. -/
def Database.backlog (d : Database) : List OutboxRow :=
  d.outbox.backlog OutboxRow.createdAt fun o => o.publishedAt.isNone

/-- What the gauge `outbox_unpublished_rows` shows. -/
def outboxUnpublishedRows (d : Database) : Nat :=
  d.outbox.rows.countP fun o => o.publishedAt.isNone

namespace Recovery

/-- The store that a pass leaves whose clock reads `now`. -/
def passed (s : Store) (now : Int) : Store :=
  let batch := s.db.backlog.take relayBatchSize
  { s with
    db := { s.db with
      outbox := s.db.outbox.update (fun o => (batch.map key).contains (key o))
        (fun o => { o with publishedAt := some now }) fun _ => rfl }
    queues := { s.queues with charge := Queues.chargeAddBulk s.queues.charge batch } }

/-- The store with this transaction open, and no other. -/
def inside (s : Store) (tx : Transaction) : Store :=
  { s with db := { s.db with transactions := Table.empty.insert tx } }

variable {s : Store} {t : Nat} {tx : Transaction} {now : Int}

theorem rows_inside : (inside s tx).db.transactions.rows = [tx] := rfl

theorem find?_inside (s : Store) (tx : Transaction) :
    (inside s tx).db.transactions.find? tx.tid = some tx :=
  Table.find?_eq_some.mpr ⟨by rw [rows_inside]; exact List.mem_singleton_self tx, rfl⟩

theorem begin_eq_inside (h : s.db.transactions.rows = []) :
    { s with db := s.db.begin t } = inside s (Seam.blank t) := by
  have hempty : s.db.transactions = .empty := Table.eq_of_rows h
  simp only [inside, Database.begin, hempty, Seam.blank]

theorem setTransaction_inside (s : Store) (tx : Transaction) (f : Transaction → Transaction)
    (hf : ∀ tx, (f tx).tid = tx.tid) :
    (inside s tx).db.setTransaction tx.tid f hf = (inside s (f tx)).db := by
  have hrows : ((Table.empty.insert tx).update (fun tx' => tx'.tid == tx.tid) f hf) =
      Table.empty.insert (f tx) := by
    refine Table.eq_of_rows ?_
    show [if (tx.tid == tx.tid) = true then f tx else tx] = [f tx]
    simp
  simp only [inside, Database.setTransaction, hrows]

/-- Within its own transaction a pass sees the whole backlog. -/
theorem unpublished_inside (s : Store) (tx : Transaction) (limit : Nat) :
    (inside s tx).db.unpublished tx.tid limit = s.db.backlog.take limit := by
  have hfilter : s.db.outbox.rows.filter (fun o => o.publishedAt.isNone &&
      [tx].all fun tx' => tx'.tid == tx.tid || !tx'.locked.contains o.id) =
      s.db.outbox.rows.filter fun o => o.publishedAt.isNone := by
    refine List.filter_congr fun o _ => ?_
    simp
  show ((s.db.outbox.rows.filter (fun o => o.publishedAt.isNone &&
    [tx].all fun tx' => tx'.tid == tx.tid || !tx'.locked.contains o.id)).insertionSort
      (byAge OutboxRow.createdAt)).take limit = _
  rw [hfilter]
  rfl

/-- The end of a pass, which has inserted nothing and marked its batch. -/
theorem apply_inside (tx : Transaction) (h : s.db.transactions.rows = [])
    (hr : tx.reservations = []) (ho : tx.outbox = [])
    (hp : tx.published = (s.db.backlog.take relayBatchSize).map key) :
    { s with
      db := (inside s tx).db.apply tx
      queues := { s.queues with
        charge := Queues.chargeAddBulk s.queues.charge (s.db.backlog.take relayBatchSize) } } =
      passed s tx.publishedAt := by
  have hempty : (Table.empty.insert tx).erase (fun tx' => tx'.tid == tx.tid) =
      s.db.transactions := by
    refine Table.eq_of_rows (Eq.trans ?_ h.symm)
    show [tx].filter (fun tx' => !(tx'.tid == tx.tid)) = []
    simp
  simp only [passed, inside, Database.apply, hempty, hr, ho, hp]
  rfl

/-- Nothing fails. -/
def Unfailing (ch : Choice) : Prop := ch.fault = .none

theorem exec_db {o : DbStatement} {r : Except Err o.Resp} {d : Database} {ch : Choice}
    (hch : Unfailing ch) (h : Database.perform t ch.id ch.now o s.db = some (r, d)) :
    (Statement.db o).exec t ch s = some (r, { s with db := d }) := by
  rw [Statement.exec_of_fault_none hch]
  simp only [Statement.perform, h, Option.map_some]

theorem exec_begin {ch : Choice} (hch : Unfailing ch) (h : s.db.transactions.rows = []) :
    (Statement.db .begin).exec t ch s = some (.ok (), inside s (Seam.blank t)) := by
  rw [← begin_eq_inside h]
  exact exec_db (o := .begin) hch rfl

/-- The transaction that has locked its batch. -/
def locking (t : Nat) (batch : List OutboxRow) : Transaction :=
  { Seam.blank t with locked := batch.map (·.id) }

/-- The transaction that has marked its batch as well. -/
def marking (t : Nat) (batch : List OutboxRow) (now : Int) : Transaction :=
  { locking t batch with published := batch.map (·.id), publishedAt := now }

theorem exec_select {ch : Choice} (hch : Unfailing ch) (limit : Nat) :
    (Statement.db (.selectUnpublished limit)).exec t ch (inside s (Seam.blank t)) =
      some (.ok (s.db.backlog.take limit), inside s (locking t (s.db.backlog.take limit))) := by
  refine exec_db (o := .selectUnpublished limit) hch ?_
  have hfind := find?_inside s (Seam.blank t)
  have hunpublished := unpublished_inside s (Seam.blank t) limit
  have hset := setTransaction_inside s (Seam.blank t)
  simp only [Seam.blank] at hfind hunpublished hset
  simp only [Database.perform, Database.selectUnpublished, Seam.blank, hfind, hunpublished, hset]
  rfl

theorem exec_mark {ch : Choice} (hch : Unfailing ch) (batch : List OutboxRow) (now : Int) :
    (Statement.db (.outboxMarkPublished (batch.map (·.id)) now)).exec t ch
        (inside s (locking t batch)) =
      some (.ok (s.db.outbox.rows.countP fun o => (batch.map (·.id)).contains o.id),
        inside s (marking t batch now)) := by
  refine exec_db (o := .outboxMarkPublished (batch.map (·.id)) now) hch ?_
  have hfind := find?_inside s (locking t batch)
  have hset := setTransaction_inside s (locking t batch)
  simp only [locking, Seam.blank] at hfind hset
  simp only [Database.perform, Database.outboxMarkPublished, locking, Seam.blank, hfind, hset]
  rfl

theorem exec_commit {ch : Choice} (hch : Unfailing ch) (h : tx.tid = t) :
    (Statement.db .commit).exec t ch (inside s tx) =
      some (.ok (), { s with db := (inside s tx).db.apply tx }) := by
  subst h
  refine exec_db (o := .commit) hch ?_
  simp only [Database.perform, Database.commit, find?_inside]

/-- A pass, statement by statement. -/
theorem completes_publishBatch (h : s.db.transactions.rows = []) :
    Completes (Statement.exec t) Unfailing
      (fun r s' => (∃ n, r = .ok n) ∧ ∃ now, s' = passed s now) publishBatch s := by
  let batch := s.db.backlog.take relayBatchSize
  refine Completes.tryCatch (Completes.op_bind fun ch₁ hch₁ => ⟨_, _, exec_begin hch₁ h, ?_⟩)
  refine Completes.bind (Completes.op_bind fun ch₂ hch₂ => ⟨_, _, exec_select hch₂ _, ?_⟩)
  show Completes _ _ _ (ite (batch.length = 0) _ _) (inside s (locking t batch))
  by_cases hn : batch.length = 0
  · rw [if_pos hn]
    -- There is nothing to do.
    have hnil : batch = [] := List.eq_nil_of_length_eq_zero hn
    refine Completes.op_bind fun ch₃ hch₃ => ⟨_, _, exec_commit hch₃ rfl, ⟨0, rfl⟩, 0, ?_⟩
    have hnone : (locking t batch).published = batch.map key := by rw [hnil]; rfl
    refine Eq.trans ?_ (apply_inside (locking t batch) h rfl rfl hnone)
    show _ = { s with db := _, queues := { s.queues with
      charge := Queues.chargeAddBulk s.queues.charge batch } }
    rw [hnil]
    rfl
  · rw [if_neg hn]
    let q : Queues := { s.queues with charge := Queues.chargeAddBulk s.queues.charge batch }
    refine Completes.op_bind fun ch₃ hch₃ => ⟨.ok (), inside { s with queues := q } _,
      Statement.exec_of_fault_none hch₃, ?_⟩
    refine Completes.op_bind fun ch₄ hch₄ => ⟨.ok ch₄.now, _,
      Statement.exec_of_fault_none hch₄, ?_⟩
    refine Completes.op_bind fun ch₅ hch₅ => ⟨_, _, exec_mark hch₅ batch ch₄.now, ?_⟩
    refine Completes.op_bind fun ch₆ hch₆ =>
      ⟨_, _, exec_commit hch₆ rfl, ⟨batch.length, rfl⟩, ch₄.now, ?_⟩
    exact apply_inside (marking t batch ch₄.now) h rfl rfl rfl

theorem completes_relayTick (h : s.db.transactions.rows = []) :
    Completes (Statement.exec t) Unfailing (fun r s' => r = .ok () ∧ ∃ now, s' = passed s now)
      relayTick s := by
  refine Completes.tryCatch (Completes.bind ((completes_publishBatch h).imp fun r s' hr => ?_))
  obtain ⟨⟨n, rfl⟩, now, rfl⟩ := hr
  exact ⟨rfl, now, rfl⟩

/-! ## Pass after pass -/

/-- What `n` passes of the timer make of a store, whoever makes them, as long as nothing fails. -/
inductive Passes (s : Store) : Nat → Store → Prop where
  | none : Passes s 0 s
  | pass {n t : Nat} {c : Nat → Choice} {r : Except Err Unit} {s' s'' : Store} (h : Passes s n s')
      (hc : ∀ i, Unfailing (c i))
      (hx : relayTick.alone (Statement.exec t) c s' = some (r, s'')) : Passes s (n + 1) s''

variable {n : Nat} {s' : Store}

theorem backlog_passed (s : Store) (now : Int) :
    (passed s now).db.backlog = s.db.backlog.drop relayBatchSize := by
  refine Table.backlog_update (p := fun o : OutboxRow => o.publishedAt.isNone)
    (f := fun o : OutboxRow => { o with publishedAt := some now }) ?_ ?_ relayBatchSize
  · exact fun o => rfl
  · exact fun o => rfl

theorem length_backlog (d : Database) : d.backlog.length = outboxUnpublishedRows d :=
  Table.length_backlog

/-- The job that a pass adds for an event. -/
def charging (o : OutboxRow) : Job Id BookingHeld :=
  { id := o.id, data := o.payload, attempts := chargeAttempts, attemptsMade := 0
    state := .waiting }

theorem find?_chargeAddBulk_of_notMem (q : JobQueue Id BookingHeld) {rows : List OutboxRow}
    {id : Id} (h : id ∉ rows.map (·.id)) : (Queues.chargeAddBulk q rows).find? id = q.find? id := by
  induction rows generalizing q with
  | nil => rfl
  | cons row rows ih =>
    rw [List.map_cons, List.mem_cons, not_or] at h
    exact (ih (q.add row.id row.payload _) h.2).trans (JobQueue.find?_add_ne h.1)

/-- A row whose id is stored already gets no other job. -/
theorem find?_chargeAddBulk (q : JobQueue Id BookingHeld) {rows : List OutboxRow} {o : OutboxRow}
    (hrows : (rows.map (·.id)).Nodup) (h : o ∈ rows) :
    (Queues.chargeAddBulk q rows).find? o.id = some ((q.find? o.id).getD (charging o)) := by
  induction rows generalizing q with
  | nil => cases h
  | cons row rows ih =>
    rw [List.map_cons, List.nodup_cons] at hrows
    rcases List.mem_cons.mp h with rfl | hrest
    · exact (find?_chargeAddBulk_of_notMem _ hrows.1).trans JobQueue.find?_add_self
    · have hne : o.id ≠ row.id := fun heq =>
        hrows.1 (heq ▸ List.mem_map_of_mem (f := fun o : OutboxRow => o.id) hrest)
      refine (ih (q.add row.id row.payload _) hrows.2 hrest).trans ?_
      rw [JobQueue.find?_add_ne hne]

theorem find?_outbox_passed (s : Store) (now : Int) (id : Id) :
    (passed s now).db.outbox.find? id = (s.db.outbox.find? id).map fun o =>
      if ((s.db.backlog.take relayBatchSize).map key).contains (key o) then
        { o with publishedAt := some now }
      else o := by
  have hf : ∀ o : OutboxRow, key { o with publishedAt := some now } = key o := fun _ => rfl
  show (s.db.outbox.update _ _ hf).find? id = _
  exact Table.find?_update

/-- What a pass takes is marked, and has a job. -/
theorem passed_of_mem (now : Int) {o : OutboxRow} (ho : o ∈ s.db.backlog.take relayBatchSize) :
    (passed s now).db.outbox.find? o.id = some { o with publishedAt := some now } ∧
      (passed s now).queues.charge.find? o.id =
        some ((s.queues.charge.find? o.id).getD (charging o)) := by
  have hstored : s.db.outbox.find? o.id = some o :=
    Table.find?_of_mem (Table.mem_backlog.mp (List.mem_of_mem_take ho)).1
  have hin : ((s.db.backlog.take relayBatchSize).map key).contains (key o) = true :=
    List.contains_iff_mem.mpr (List.mem_map_of_mem ho)
  refine ⟨?_, find?_chargeAddBulk _ ?_ ho⟩
  · rw [find?_outbox_passed, hstored, Option.map_some, if_pos hin]
  · exact (Table.nodup_backlog (T := s.db.outbox)).sublist ((List.take_sublist _ _).map _)

/-- What it leaves is as it was. -/
theorem passed_of_notMem (now : Int) {id : Id}
    (h : id ∉ (s.db.backlog.take relayBatchSize).map (·.id)) :
    (passed s now).db.outbox.find? id = s.db.outbox.find? id ∧
      (passed s now).queues.charge.find? id = s.queues.charge.find? id := by
  refine ⟨?_, find?_chargeAddBulk_of_notMem _ h⟩
  rw [find?_outbox_passed]
  cases hf : s.db.outbox.find? id with
  | none => rfl
  | some o =>
    have hid : key o = id := Table.key_of_find? hf
    have hout : ¬((s.db.backlog.take relayBatchSize).map key).contains (key o) = true := by
      rw [hid, List.contains_iff_mem]
      exact h
    rw [Option.map_some, if_neg hout]

/-- What passes whose clocks have read `nows` have made of a store. -/
structure Drained (s : Store) (nows : List Int) (s' : Store) : Prop where
  rest : s' = { s with
    db := { s.db with outbox := s'.db.outbox }
    queues := { s.queues with charge := s'.queues.charge } }
  backlog : s'.db.backlog = s.db.backlog.drop (relayBatchSize * nows.length)
  taken : ∀ o ∈ s.db.backlog.take (relayBatchSize * nows.length),
    (∃ now ∈ nows, s'.db.outbox.find? o.id = some { o with publishedAt := some now }) ∧
      s'.queues.charge.find? o.id = some ((s.queues.charge.find? o.id).getD (charging o))
  left : ∀ id ∉ (s.db.backlog.take (relayBatchSize * nows.length)).map (·.id),
    s'.db.outbox.find? id = s.db.outbox.find? id ∧
      s'.queues.charge.find? id = s.queues.charge.find? id

variable {nows : List Int}

theorem Drained.pass (h : Drained s nows s') (now : Int) :
    Drained s (nows ++ [now]) (passed s' now) := by
  -- The next batch are the hundred events that come after those taken so far.
  have htake : s.db.backlog.take (relayBatchSize * (nows ++ [now]).length) =
      s.db.backlog.take (relayBatchSize * nows.length) ++ s'.db.backlog.take relayBatchSize := by
    rw [h.backlog, List.length_append, List.length_singleton, Nat.mul_succ, List.take_add]
  have hafter : ∀ o ∈ s'.db.backlog.take relayBatchSize,
      o.id ∉ (s.db.backlog.take (relayBatchSize * nows.length)).map (·.id) := fun o ho =>
    Table.key_notMem_of_drop_backlog (h.backlog ▸ List.mem_of_mem_take ho)
  refine ⟨?_, ?_, fun o ho => ?_, fun id hid => ?_⟩
  · rw [h.rest]
    rfl
  · rw [backlog_passed, h.backlog, List.drop_drop, List.length_append, List.length_singleton,
      Nat.mul_succ]
  · rw [htake] at ho
    rcases List.mem_append.mp ho with hold | hnew
    · obtain ⟨⟨now', hnow', hstored⟩, hjob⟩ := h.taken o hold
      have hout : o.id ∉ (s'.db.backlog.take relayBatchSize).map (·.id) := by
        intro hin
        obtain ⟨o', ho', hid⟩ := List.mem_map.mp hin
        exact hafter o' ho' (hid ▸ List.mem_map_of_mem (f := fun o : OutboxRow => o.id) hold)
      obtain ⟨hrow, hkept⟩ := passed_of_notMem now hout
      exact ⟨⟨now', List.mem_append_left _ hnow', hrow.trans hstored⟩, hkept.trans hjob⟩
    · obtain ⟨hrow, hjob⟩ := passed_of_mem now hnew
      rw [(h.left o.id (hafter o hnew)).2] at hjob
      exact ⟨⟨now, List.mem_append_right _ (List.mem_singleton_self now), hrow⟩, hjob⟩
  · rw [htake, List.map_append, List.mem_append, not_or] at hid
    obtain ⟨hrow, hkept⟩ := passed_of_notMem now hid.2
    obtain ⟨hrow', hkept'⟩ := h.left id hid.1
    exact ⟨hrow.trans hrow', hkept.trans hkept'⟩

theorem drained_passes (s : Store) (nows : List Int) : Drained s nows (nows.foldl passed s) := by
  induction nows using List.reverseRecOn with
  | nil => exact ⟨rfl, rfl, by simp, fun _ _ => ⟨rfl, rfl⟩⟩
  | append_singleton nows now ih =>
    rw [List.foldl_append]
    exact ih.pass now

theorem Drained.idle (h : Drained s nows s') (hs : s.db.transactions.rows = []) :
    s'.db.transactions.rows = [] := by
  rw [h.rest]
  exact hs

/-- The passes of the timer are passes, one after the other. -/
theorem Passes.eq_foldl (hs : s.db.transactions.rows = []) (h : Passes s n s') :
    ∃ nows : List Int, nows.length = n ∧ s' = nows.foldl passed s := by
  induction h with
  | none => exact ⟨[], rfl, rfl⟩
  | pass h hc hx ih =>
    obtain ⟨nows, rfl, rfl⟩ := ih
    obtain ⟨r, s₁, hrun, -, now, rfl⟩ :=
      (completes_relayTick ((drained_passes s nows).idle hs)).alone hc
    cases hrun.symm.trans hx
    exact ⟨nows ++ [now], by simp, by simp⟩

theorem exists_passes (hs : s.db.transactions.rows = []) (n : Nat) : ∃ s', Passes s n s' := by
  induction n with
  | zero => exact ⟨s, .none⟩
  | succ n ih =>
    obtain ⟨s', h⟩ := ih
    obtain ⟨nows, -, rfl⟩ := h.eq_foldl hs
    obtain ⟨r, s'', hrun, -⟩ := (completes_relayTick (t := 0)
      ((drained_passes s nows).idle hs)).alone (c := fun _ => { fault := .none }) fun _ => rfl
    exact ⟨s'', .pass (c := fun _ => { fault := .none }) h (fun _ => rfl) hrun⟩

/-- Where no transaction is open, pass after pass goes through, and `n` of them leave what `passed`
leaves `n` times over.  So the oldest `100 * n` events of the backlog are still stored, marked with
the time of the pass that took them, and each has the job that was stored under its id or else a
new one that carries it; every other event and job is as it was, the others of the backlog wait in
their order, the gauge has gone down by `100 * n`, and nothing else is touched. -/
theorem relay_drains (hs : s.db.transactions.rows = []) (n : Nat) :
    (∃ s', Passes s n s') ∧ ∀ s', Passes s n s' →
      ∃ nows : List Int, nows.length = n ∧ s' = nows.foldl passed s ∧
        s'.db.backlog = s.db.backlog.drop (relayBatchSize * n) ∧
        outboxUnpublishedRows s'.db = outboxUnpublishedRows s.db - relayBatchSize * n ∧
        (∀ o ∈ s.db.backlog.take (relayBatchSize * n),
          (∃ now ∈ nows, s'.db.outbox.find? o.id = some { o with publishedAt := some now }) ∧
            s'.queues.charge.find? o.id = some ((s.queues.charge.find? o.id).getD (charging o))) ∧
        (∀ id ∉ (s.db.backlog.take (relayBatchSize * n)).map (·.id),
          s'.db.outbox.find? id = s.db.outbox.find? id ∧
            s'.queues.charge.find? id = s.queues.charge.find? id) ∧
        s' = { s with
          db := { s.db with outbox := s'.db.outbox }
          queues := { s.queues with charge := s'.queues.charge } } := by
  refine ⟨exists_passes hs n, fun s' h => ?_⟩
  obtain ⟨nows, rfl, rfl⟩ := h.eq_foldl hs
  have hd := drained_passes s nows
  refine ⟨nows, rfl, rfl, hd.backlog, ?_, hd.taken, hd.left, hd.rest⟩
  rw [← length_backlog, ← length_backlog, hd.backlog, List.length_drop]

/-- The event of a reservation that is still to be handed on. -/
def unpublished (id : Id) (createdAt : Int) : OutboxRow :=
  { id := id, aggregateId := id, payload := Scenario.event id, publishedAt := none, createdAt }

/-- A store with these events, and with the jobs of some of them. -/
def queued (rows jobs : List OutboxRow) : Store :=
  { Store.init .empty with
    db := { (Store.init .empty).db with outbox := Table.empty.insertAll rows }
    queues := { (Store.init .empty).queues with
      charge := Queues.chargeAddBulk (Store.init .empty).queues.charge jobs } }

/-- Two events wait, of which a pass that was killed has queued one, and the timer fires once. -/
theorem relay_drains_two : ∃ s' : Store, ∃ now : Int,
    Passes (queued [unpublished 1 20, unpublished 2 10] [unpublished 2 10]) 1 s' ∧
      s'.db.backlog = [] ∧
      s'.db.outbox.find? 1 = some { unpublished 1 20 with publishedAt := some now } ∧
      s'.queues.charge.find? 1 = some (charging (unpublished 1 20)) ∧
      s'.queues.charge.find? 2 = some (charging (unpublished 2 10)) := by
  obtain ⟨⟨s', h⟩, hall⟩ :=
    relay_drains (s := queued [unpublished 1 20, unpublished 2 10] [unpublished 2 10]) rfl 1
  obtain ⟨nows, hlen, -, hbacklog, -, htaken, -⟩ := hall s' h
  obtain ⟨now, rfl⟩ := List.length_eq_one_iff.mp hlen
  obtain ⟨⟨now', hnow', hstored⟩, hjob⟩ := htaken (unpublished 1 20) (by decide)
  obtain ⟨-, hkept⟩ := htaken (unpublished 2 10) (by decide)
  rw [List.mem_singleton.mp hnow'] at hstored
  exact ⟨s', now, h, hbacklog, hstored, hjob, hkept⟩

end Recovery

end NoOverlap
