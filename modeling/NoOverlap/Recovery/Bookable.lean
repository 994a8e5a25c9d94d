import NoOverlap.Recovery.Calls

/-!
# A free stay can be booked

The calls of a booking, one after the other: the guest asks, the relay hands the event on, the
worker charges the card, and the API takes note of the result.  Whatever the system has been
through, this way is open wherever nothing stands in the way of the stay itself.

No other call is made on the way.  The queues hand out whatever job they store (`Queues.deliver`);
that the jobs ahead of the guest's have to be handed out first, as BullMQ does it, is not part of
this run.
-/

namespace NoOverlap

open Relational Concurrency
open Concurrency.Prog

namespace Recovery

/-- The calls of one booking: this guest asks for this stay, the relay hands on, and the jobs of
this reservation are consumed.  Nothing fails, and nobody is killed. -/
def own (guestId : Id) (dto : CreateReservationDto) (id : Id) : Policy :=
  { spawn := fun c _ => match c with
      | .hold g d => g == guestId && d.listingId == dto.listingId && d.checkIn == dto.checkIn &&
          d.checkOut == dto.checkOut
      | .relayTick => true
      | .processCharge _ e => e.reservationId == id
      | .processResult _ m => m.reservationId == id
      | _ => false
    op := fun _ ch _ _ => ch.fault = .none
    kill := fun _ _ _ => false }

variable {listings : Table Listing} {w w' : World} {s : Store} {ttl now a b : Int} {guestId id : Id}
  {dto : CreateReservationDto} {found : Listing} {v : Reservation} {e : BookingHeld}
  {answer : ChargeOutcome}

/-- No charge of this key has been made or begun. -/
structure Uncharged (s : Store) (id : Id) : Prop where
  payment : s.db.payments.find? id = none
  result : ∀ tag, s.queues.result.find? (tag, id) = none
  charges : ∀ c ∈ s.provider.charges, c.key ≠ id

theorem Uncharged.of_eq {s s' : Store} (h : Uncharged s id)
    (hpayments : s'.db.payments = s.db.payments)
    (hresult : s'.queues.result = s.queues.result) (hprovider : s'.provider = s.provider) :
    Uncharged s' id where
  payment := hpayments ▸ h.payment
  result := hresult ▸ h.result
  charges := hprovider ▸ h.charges

/-- The money of a reservation: one charge of its price, and the payment on record. -/
structure Accounted (s : Store) (v : Reservation) (answer : ChargeOutcome) : Prop where
  payment : ∃ p, s.db.payments.find? v.id = some p ∧ p.amountCents = v.priceTotalCents ∧
    p.status = (PaymentService.recorded answer).status
  charge : ∃ c, s.provider.charges.filter (fun c => c.key == v.id) = [c] ∧
    c.amountCents = v.priceTotalCents ∧ c.outcome = answer

theorem Charged.accounted {s s' : Store} (h : Charged s s' e answer) (hu : Uncharged s v.id)
    (hkey : e.idempotencyKey = v.id) (hamount : e.amountCents = v.priceTotalCents) :
    Accounted s' v answer where
  payment := by
    obtain ⟨p, hp, ha, hs⟩ := h.payment
    exact ⟨p, hkey ▸ hp, ha.trans hamount, hs⟩
  charge := by
    obtain ⟨t, ht⟩ := h.charges
    have hnone : s.provider.charges.filter (fun c => c.key == v.id) = [] :=
      List.filter_eq_nil_iff.mpr fun c hc => by simpa using hu.charges c hc
    let c : Charge := { tid := t, key := v.id, amountCents := e.amountCents, outcome := answer }
    refine ⟨c, ?_, hamount, rfl⟩
    rw [ht, List.filter_append, hnone, hkey]
    simp [c]

/-- The card is charged, and the answer waits to be taken note of. -/
structure Answered (w : World) (v : Reservation) (e : BookingHeld) (trace : Option TraceContext)
    (answer : ChargeOutcome) : Prop where
  resting : Resting w
  reservation : w.shared.db.reservations.find? v.id = some v
  accounted : Accounted w.shared v answer
  result : w.shared.queues.result.Has ((verdict e trace answer).tag, v.id) (verdict e trace answer)

section Runs

open Scenario

end Runs

end Recovery

end NoOverlap
