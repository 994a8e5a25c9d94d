import NoOverlap.Payments.Gateway
import NoOverlap.Seam.Programs

/-!
# No confirmation without the payment

A reservation that is confirmed, or was and has been completed, has been paid for:
the provider has said yes to its price under its id, and the ledger has the payment.

The gateway records what it has been asked to charge and what it has answered.  A run with
another provider is a run with the gateway (`gateway_of_reaches`), and for the mock the
answers are those of its ledger (`settled_of_confirmed`).
-/

namespace NoOverlap

open Relational Concurrency

/-- Who is confirmed or completed has paid. -/
theorem Seam.Inv.paid {s : Store} (h : Seam.Inv s) {r : Reservation}
    (hm : r ∈ s.db.reservations.rows) (hs : r.status = .confirmed ∨ r.status = .completed) :
    (∃ c ∈ s.provider.charges, c.key = r.id ∧ c.amountCents = r.priceTotalCents ∧
      ∃ ref, c.outcome = .succeeded ref) ∧
    ∃ p ∈ s.db.payments.rows, p.idempotencyKey = r.id ∧ p.reservationId = r.id ∧
      p.amountCents = r.priceTotalCents := by
  have hset : r.status.settled = true := by rcases hs with hs | hs <;> rw [hs] <;> rfl
  have hf : s.db.reservations.find? r.id = some r := Table.find?_of_mem hm
  obtain ⟨r', p, hr', hp, hid, ha, -, hans⟩ := h.settled _ r hf hset
  rw [hf] at hr'
  cases hr'
  exact ⟨hans, p, Table.mem_of_find? hp, Table.key_of_find? hp, hid, ha⟩

variable {ttl : Int} {listings : Table Listing} {w : World}

theorem confirmed_only_when_paid
    (hr : (system { holdTtlMs := ttl, provider := gateway }).Reaches anyRequest
      (initial listings) w) {r : Reservation} (hm : r ∈ w.shared.db.reservations.rows)
    (hs : r.status = .confirmed ∨ r.status = .completed) :
    (∃ c ∈ w.shared.provider.charges, c.key = r.id ∧ c.amountCents = r.priceTotalCents ∧
      ∃ ref, c.outcome = .succeeded ref) ∧
    ∃ p ∈ w.shared.db.payments.rows, p.idempotencyKey = r.id ∧ p.reservationId = r.id ∧
      p.amountCents = r.priceTotalCents :=
  ((Seam.sound ttl listings).inv hr).paid hm hs

section Runs

open Scenario

/-- A booking that is paid for and confirmed. -/
theorem confirmed_only_when_paid_confirmed :
    ∃ w, (system Scenario.cfg).Reaches anyRequest (initial Scenario.listings) w ∧
      ∃ r ∈ w.shared.db.reservations.rows, r.id = 5 ∧
        ∃ c ∈ w.shared.provider.charges, c.key = r.id ∧ c.amountCents = r.priceTotalCents ∧
          ∃ ref, c.outcome = .succeeded ref := by
  have hrun : ((system Scenario.cfg).run anyRequest (initial Scenario.listings)
      (paid 5 6 ++ confirm 3 5)).any (fun w => w.shared.statusOf 5 == some .confirmed) = true := by
    decide
  obtain ⟨w, hr, ht⟩ := Machine.exists_reaches_of_run hrun
  obtain ⟨r, hf, hs⟩ := Option.map_eq_some_iff.mp (beq_iff_eq.mp ht)
  have hm := Table.mem_of_find? hf
  exact ⟨w, hr, r, hm, Table.key_of_find? hf, (confirmed_only_when_paid hr hm (.inl hs)).1⟩

end Runs

/-- With the mock, the ledger has the yes. -/
theorem settled_of_confirmed {cfg : MockConfig}
    (hr : (system { holdTtlMs := ttl, provider := mockPaymentProvider cfg }).Reaches anyRequest
      (initial listings) w) {r : Reservation} (hm : r ∈ w.shared.db.reservations.rows)
    (hs : r.status = .confirmed ∨ r.status = .completed) :
    (∃ e ∈ w.shared.redis.charges.settled, e.key = r.id ∧ ∃ ref, e.outcome = .succeeded ref) ∧
    ∃ p ∈ w.shared.db.payments.rows, p.idempotencyKey = r.id ∧ p.reservationId = r.id ∧
      p.amountCents = r.priceTotalCents := by
  obtain ⟨w', hr', hagr, hsettled⟩ := gateway_of_mock hr
  rw [← hagr.db] at hm ⊢
  obtain ⟨⟨c, hc, hk, -, ref, ho⟩, hp⟩ := ((Seam.sound ttl listings).inv hr').paid hm hs
  obtain ⟨e, he, hek, heo⟩ := hsettled c hc
  exact ⟨⟨e, he, hek.trans hk, ref, heo.trans ho⟩, hp⟩

end NoOverlap
