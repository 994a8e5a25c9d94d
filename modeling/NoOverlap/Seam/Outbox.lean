import NoOverlap.Seam.Programs

/-!
# The outbox

A job on the charge queue is the event of a committed reservation, a committed
reservation has one event, and an event that has not been enqueued is waiting for
the next pass of the relay.  What a pass may have to wait for is another pass: a
lock on an outbox row belongs to a thread that is still running.
-/

namespace NoOverlap

open Relational Concurrency RelyGuarantee

variable {ttl : Int} {listings : Table Listing} {w : World}

/-- The open transactions belong to running threads. -/
theorem running_of_transaction
    (hr : (system { holdTtlMs := ttl, provider := gateway }).Reaches anyRequest
      (initial listings) w) {tx : Transaction} (htx : tx ∈ w.shared.db.transactions.rows) :
    ∃ c p, w.threads[tx.tid]? = some (.running c p) := by
  obtain ⟨-, hthreads, hfresh⟩ := (Seam.sound ttl listings).holds hr
  have hopen : ¬ Seam.Idle tx.tid w.shared := by
    intro h
    have hf : w.shared.db.transactions.find? tx.tid = some tx := Table.find?_of_mem htx
    cases hf.symm.trans h
  cases hth : w.threads[tx.tid]? with
  | none => exact (hopen (hfresh _ (List.getElem?_eq_none_iff.mp hth))).elim
  | some th =>
    have hok := hthreads _ _ hth
    cases th with
    | running c p => exact ⟨c, p, rfl⟩
    | returned c r => exact (hopen hok).elim
    | killed c => exact (hopen hok).elim

theorem mem_take_or_full {α : Type} {l : List α} {x : α} (h : x ∈ l) (n : Nat) :
    x ∈ l.take n ∨ (l.take n).length = n := by
  rcases Nat.lt_or_ge l.length n with hlt | hge
  · rw [List.take_of_length_le (Nat.le_of_lt hlt)]
    exact .inl h
  · exact .inr (by rw [List.length_take, Nat.min_eq_left hge])

/-- A pass takes every unpublished row that nobody has locked, as far as its batch
goes. -/
theorem mem_unpublished {d : Database} {o : OutboxRow} (ho : o ∈ d.outbox.rows)
    (hn : o.publishedAt = none) (t limit : Nat) :
    o ∈ d.unpublished t limit ∨ (d.unpublished t limit).length = limit ∨
      ∃ tx ∈ d.transactions.rows, tx.tid ≠ t ∧ o.id ∈ tx.locked := by
  by_cases hlock : ∃ tx ∈ d.transactions.rows, tx.tid ≠ t ∧ o.id ∈ tx.locked
  · exact .inr (.inr hlock)
  have hfree :
      (d.transactions.rows.all fun tx => tx.tid == t || !tx.locked.contains o.id) = true := by
    refine List.all_eq_true.mpr fun tx htx => ?_
    by_cases ht : tx.tid = t
    · simp [ht]
    · have : o.id ∉ tx.locked := fun h => hlock ⟨tx, htx, ht, h⟩
      simp [this]
  unfold Database.unpublished
  refine (mem_take_or_full ?_ limit).imp_right .inl
  rw [List.mem_insertionSort]
  exact List.mem_filter.mpr ⟨ho, by rw [hn, hfree]; rfl⟩

theorem outbox_published_iff_committed
    (hr : (system { holdTtlMs := ttl, provider := gateway }).Reaches anyRequest
      (initial listings) w) :
    (∀ id j, w.shared.queues.charge.find? id = some j →
      ∃ o ∈ w.shared.db.outbox.rows, o.id = id ∧ o.payload = j.data ∧
        ∃ r ∈ w.shared.db.reservations.rows, j.data.reservationId = r.id ∧
          j.data.idempotencyKey = r.id ∧ j.data.amountCents = r.priceTotalCents) ∧
    (∀ r ∈ w.shared.db.reservations.rows,
      ∃! o, o ∈ w.shared.db.outbox.rows ∧ o.aggregateId = r.id) ∧
    ∀ o ∈ w.shared.db.outbox.rows,
      (o.publishedAt = none ∧ ∀ t limit, o ∈ w.shared.db.unpublished t limit ∨
        (w.shared.db.unpublished t limit).length = limit ∨
        ∃ u c p, u ≠ t ∧ w.threads[u]? = some (.running c p)) ∨
      ∃ j, w.shared.queues.charge.find? o.id = some j ∧ j.data = o.payload := by
  have hi : Seam.Inv w.shared := (Seam.sound ttl listings).inv hr
  refine ⟨fun id j hj => ?_, fun r hm => ?_, fun o ho => ?_⟩
  · obtain ⟨o, ho, hpl⟩ := hi.charge id j hj
    obtain ⟨r, hf, hd⟩ := hi.described o (Table.mem_of_find? ho)
    rw [← hpl]
    exact ⟨o, Table.mem_of_find? ho, Table.key_of_find? ho, rfl, r, Table.mem_of_find? hf,
      hd.reservationId, hd.idempotencyKey, hd.amountCents⟩
  · obtain ⟨o, ho, ha⟩ := hi.recorded r hm
    exact ⟨o, ⟨ho, ha⟩, fun o' ⟨ho', ha'⟩ => hi.unique o' ho' o ho (ha'.trans ha.symm)⟩
  · cases hp : o.publishedAt with
    | some publishedAt => exact .inr (hi.published o ho (by rw [hp]; rfl))
    | none =>
      refine .inl ⟨rfl, fun t limit => ?_⟩
      rcases mem_unpublished ho hp t limit with h | h | ⟨tx, htx, hne, -⟩
      · exact .inl h
      · exact .inr (.inl h)
      · obtain ⟨c, p, hth⟩ := running_of_transaction hr htx
        exact .inr (.inr ⟨tx.tid, c, p, hne, hth⟩)

section Runs

open Scenario

/-- A pass dies after it has enqueued its batch.  The event stays unpublished, the
job is there, and the next pass can take the row. -/
theorem outbox_published_iff_committed_crash :
    ∃ w, (system Scenario.cfg).Reaches anyRequest (initial Scenario.listings) w ∧
      (∃ j, w.shared.queues.charge.find? 6 = some j ∧
        ∃ o ∈ w.shared.db.outbox.rows, o.id = 6 ∧ o.payload = j.data) ∧
      (w.shared.db.unpublished 2 relayBatchSize).map (·.id) = [6] := by
  have hrun : ((system Scenario.cfg).run anyRequest (initial Scenario.listings)
      (place 0 stay 5 6 ++ .spawn .relayTick :: steps 1 3 ++ [.kill 1])).any
      (fun w => (w.shared.queues.charge.find? 6).isSome &&
        (w.shared.db.unpublished 2 relayBatchSize).map (·.id) == [6]) = true := by decide
  obtain ⟨w, hr, ht⟩ := Machine.exists_reaches_of_run hrun
  rw [Bool.and_eq_true, beq_iff_eq] at ht
  obtain ⟨j, hj⟩ := Option.isSome_iff_exists.mp ht.1
  obtain ⟨o, ho, hid, hpl, -⟩ := (outbox_published_iff_committed hr).1 6 j hj
  exact ⟨w, hr, ⟨j, hj, o, ho, hid, hpl⟩, ht.2⟩

end Runs

end NoOverlap
