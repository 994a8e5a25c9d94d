import NoOverlap.Lifecycle.Effect

/-!
# What an answer shows

What holds of the store once a statement has reported a value: the rows it has seen or
written, the answers it has put on record, the jobs it has stored.
-/

namespace NoOverlap

open Relational Concurrency

variable {t : Nat} {ch : Choice} {s s' : Store} {id : Id}

/-- A database statement that reports a value. -/
theorem effect_of_ok {ch : Choice} {o : DbStatement} {v : o.Resp}
    (hx : (Statement.db o).exec t ch s = some (.ok v, s')) : s.db.Effect t o (.ok v) s'.db := by
  obtain ⟨d, hd, rfl⟩ := Statement.perform_db (Statement.perform_of_exec_ok hx)
  exact Database.effect_of_perform hd

/-! ## Reservations -/

theorem statusOf_eq_some {status : ReservationStatus} :
    s.statusOf id = some status ↔
      ∃ r, s.db.reservations.find? id = some r ∧ r.status = status := Option.map_eq_some_iff

theorem find?_of_reservationFindFirst {guestId : Id} {r : Reservation}
    (hx : (Statement.db (.reservationFindFirst id guestId)).exec t ch s = some (.ok (some r), s')) :
    s' = s ∧ s.db.reservations.find? id = some r ∧ r.guestId = guestId := by
  obtain ⟨d, hd, rfl⟩ := Statement.perform_db (Statement.perform_of_exec_ok hx)
  simp only [Database.perform, Option.some.injEq, Prod.mk.injEq, Except.ok.injEq] at hd
  obtain ⟨hr, rfl⟩ := hd
  obtain ⟨hf, hg⟩ := Option.filter_eq_some_iff.mp hr
  exact ⟨rfl, hf, by simpa using hg⟩

theorem of_reservationFindFirst {guestId : Id} {r : Reservation}
    (hx : (Statement.db (.reservationFindFirst id guestId)).exec t ch s = some (.ok (some r), s')) :
    s' = s ∧ s.statusOf id = some r.status := by
  obtain ⟨hs, hf, -⟩ := find?_of_reservationFindFirst hx
  exact ⟨hs, statusOf_eq_some.mpr ⟨r, hf, rfl⟩⟩

theorem of_reservationFindStatus {status : Option ReservationStatus}
    (hx : (Statement.db (.reservationFindStatus id)).exec t ch s = some (.ok status, s')) :
    s' = s ∧ s.statusOf id = status := by
  obtain ⟨d, hd, rfl⟩ := Statement.perform_db (Statement.perform_of_exec_ok hx)
  simp only [Database.perform, Option.some.injEq, Prod.mk.injEq, Except.ok.injEq] at hd
  obtain ⟨hs, rfl⟩ := hd
  exact ⟨rfl, hs⟩

/-- What `cancel` has written, over whatever was there. -/
theorem of_reservationUpdate {seen : ReservationStatus} {r : Reservation}
    (hx : (Statement.db (.reservationUpdate id .cancelled seen)).exec t ch s =
      some (.ok r, s')) :
    s'.statusOf id = some .cancelled ∧ ∃ old, s.statusOf id = some old ∧
      ∀ e, e ∈ s'.db.statusLog ↔ e ∈ s.db.statusLog ∨ e = ⟨t, id, old, .cancelled⟩ := by
  obtain ⟨d, hd, rfl⟩ := Statement.perform_db (Statement.perform_of_exec_ok hx)
  simp only [Database.perform, Option.some.injEq] at hd
  cases hf : s.db.reservations.find? id with
  | none =>
    simp only [Database.reservationUpdate, hf] at hd
    cases hd
  | some r₀ =>
    have hid : r₀.id = id := Table.key_of_find? hf
    simp only [Database.reservationUpdate, hf] at hd
    cases hd
    refine ⟨?_, r₀.status, statusOf_eq_some.mpr ⟨r₀, hf, rfl⟩, fun e => ?_⟩
    · refine statusOf_eq_some.mpr ⟨{ r₀ with status := .cancelled }, ?_, rfl⟩
      simp only [Table.find?_update, hf, Option.map_some, hid, beq_self_eq_true, if_true]
    · rw [List.mem_append, List.mem_singleton]

/-- The filter of a settlement. -/
theorem matches_heldById {r : Reservation} :
    (heldById id).matches r = true ↔ r.id = id ∧ r.status = .held := by
  simp only [ReservationWhere.matches, heldById, Option.all_some, Option.all_none, Bool.and_true,
    Bool.and_eq_true, beq_iff_eq]
  exact and_comm.trans (and_congr_left fun _ => eq_comm)

/-- A conditional write of a settlement finds the reservation held and moves it, or
changes nothing. -/
theorem of_updateMany_heldById {status : ReservationStatus} {r : Except Err Nat}
    (hx : (Statement.db (.reservationUpdateMany (heldById id) status)).perform t ch s =
      some (r, s')) :
    (s.statusOf id = some .held ∧ r = .ok 1 ∧ s'.statusOf id = some status ∧
      ⟨t, id, .held, status⟩ ∈ s'.db.statusLog) ∨
    (s.statusOf id ≠ some .held ∧ r = .ok 0 ∧ s' = s) := by
  cases hx
  by_cases hs : s.statusOf id = some .held
  · obtain ⟨r, hf, hh⟩ := statusOf_eq_some.mp hs
    have hm : (heldById id).matches r = true := matches_heldById.mpr ⟨Table.key_of_find? hf, hh⟩
    have hfilter : s.db.reservations.rows.filter (heldById id).matches = [r] :=
      Table.filter_eq_singleton (fun r' h => (matches_heldById.mp h).1) hf hm
    refine .inl ⟨hs, ?_, ?_, ?_⟩
    · simp only [Database.reservationUpdateMany, hfilter, List.length_singleton]
    · refine statusOf_eq_some.mpr ⟨{ r with status := status }, ?_, rfl⟩
      simp only [Database.reservationUpdateMany]
      rw [Table.find?_update, hf, Option.map_some, if_pos hm]
    · simp only [Database.reservationUpdateMany, hfilter, List.map_singleton, hh]
      have hid : r.id = id := Table.key_of_find? hf
      rw [hid]
      exact List.mem_append_right _ (List.mem_singleton_self _)
  · have hnone : ∀ r ∈ s.db.reservations.rows, (heldById id).matches r = false := by
      intro r hr
      rw [Bool.eq_false_iff]
      intro hm
      obtain ⟨rfl, hh⟩ := matches_heldById.mp hm
      exact hs (statusOf_eq_some.mpr ⟨r, Table.find?_of_mem hr, hh⟩)
    have hfilter : s.db.reservations.rows.filter (heldById id).matches = [] :=
      List.filter_eq_nil_iff.mpr fun r hr => Bool.eq_false_iff.mp (hnone r hr)
    refine .inr ⟨hs, ?_, ?_⟩
    · simp only [Database.reservationUpdateMany, hfilter, List.length_nil]
    · simp only [Database.reservationUpdateMany, hfilter, Table.update_eq_self hnone, List.map_nil,
        List.append_nil]

/-! ## Payments -/

theorem find?_of_paymentFindUnique {ch : Choice} {k : IdempotencyKey} {p : Option Payment}
    (hx : (Statement.db (.paymentFindUnique k)).exec t ch s = some (.ok p, s')) :
    s'.db.payments.find? k = p := by
  obtain ⟨d, hd, rfl⟩ := Statement.perform_db (Statement.perform_of_exec_ok hx)
  simp only [Database.perform, Option.some.injEq, Prod.mk.injEq, Except.ok.injEq] at hd
  obtain ⟨hp, rfl⟩ := hd
  exact hp

theorem find?_of_paymentUpdate {ch : Choice} {k : IdempotencyKey} {u : PaymentUpdate}
    {p : Payment} (hx : (Statement.db (.paymentUpdate k u)).exec t ch s = some (.ok p, s')) :
    s'.db.payments.find? k = some p := by
  have heff := effect_of_ok hx
  generalize s'.db = d at heff
  cases heff with
  | read _ _ h => cases h
  | paymentUpdate _ _ p hp =>
    have hk : p.idempotencyKey = k := Table.key_of_find? hp
    simp only [Database.paymentUpdate, hp]
    rw [Table.find?_update, hp, Option.map_some, if_pos (beq_iff_eq.mpr hk)]

/-- A read finds the row where it leaves it. -/
theorem eq_of_paymentFindUnique {ch : Choice} {k : IdempotencyKey} {p : Option Payment}
    (hx : (Statement.db (.paymentFindUnique k)).exec t ch s = some (.ok p, s')) : s' = s := by
  obtain ⟨d, hd, rfl⟩ := Statement.perform_db (Statement.perform_of_exec_ok hx)
  cases hd
  rfl

theorem status_of_paymentUpdate {ch : Choice} {k : IdempotencyKey} {u : PaymentUpdate}
    {p : Payment} (hx : (Statement.db (.paymentUpdate k u)).exec t ch s = some (.ok p, s')) :
    p.status = u.status := by
  have heff := effect_of_ok hx
  generalize s'.db = d at heff
  cases heff with
  | read _ _ h => cases h
  | paymentUpdate _ _ p hp => exact u.apply_status p

/-- An insert that is refused because of its key has found the row. -/
theorem opened_of_create {data : PaymentData} {r : Except Err Unit}
    (hx : (Statement.db (.paymentCreate data)).perform t ch s = some (r, s'))
    (hr : ∀ e, r = .error e → e.isUniqueViolation = true) :
    ∃ p, s'.db.payments.find? data.idempotencyKey = some p := by
  obtain ⟨d, hd, rfl⟩ := Statement.perform_db hx
  simp only [Database.perform, Database.paymentCreate, Option.some.injEq] at hd
  split at hd
  · cases hd
    cases hr _ rfl
  · split at hd
    · next h =>
      cases hd
      exact Option.isSome_iff_exists.mp h
    · next h =>
      cases hd
      rw [Option.not_isSome_iff_eq_none] at h
      exact ⟨_, by rw [Table.find?_insert (by exact h), key_payment, if_pos rfl]⟩

/-- The answer of the provider is on record. -/
theorem mem_charges_of_charge {key : IdempotencyKey} {amountCents : Int} {outcome : ChargeOutcome}
    (hx : (Statement.provider (.charge key amountCents)).exec t ch s = some (.ok outcome, s')) :
    ⟨t, key, amountCents, outcome⟩ ∈ s'.provider.charges := by
  have hp := Statement.perform_of_exec_ok hx
  simp only [Statement.perform, Provider.perform, Option.some.injEq, Prod.mk.injEq,
    Except.ok.injEq] at hp
  obtain ⟨rfl, rfl⟩ := hp
  exact List.mem_append_right _ (List.mem_singleton_self _)

/-! ## Queues -/

/-- The two ways a statement treats the refund queue. -/
theorem refund_of_exec {o : Statement} {r : Except Err o.Resp}
    (hx : o.exec t ch s = some (r, s')) :
    s'.queues.refund = s.queues.refund ∨ ∃ m, o = .queue (.refundAdd m) ∧
      s' = { s with queues := { s.queues with
        refund := s.queues.refund.add m.reservationId m none } } := by
  rcases Statement.exec_queues hx with he | ⟨o, rfl, rfl⟩
  · exact .inl (by rw [he])
  cases o with
  | refundAdd m => exact .inr ⟨m, rfl, rfl⟩
  | _ => exact .inl rfl

/-- The same for the queue of the results. -/
theorem result_of_exec {o : Statement} {r : Except Err o.Resp}
    (hx : o.exec t ch s = some (r, s')) :
    s'.queues.result = s.queues.result ∨ ∃ m key, o = .queue (.resultAdd m key) ∧
      s' = { s with queues := { s.queues with
        result := s.queues.result.add (m.tag, key) m none } } := by
  rcases Statement.exec_queues hx with he | ⟨o, rfl, rfl⟩
  · exact .inl (by rw [he])
  cases o with
  | resultAdd m key => exact .inr ⟨m, key, rfl, rfl⟩
  | _ => exact .inl rfl

end NoOverlap
