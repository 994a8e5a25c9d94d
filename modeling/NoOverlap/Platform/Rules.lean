import NoOverlap.Concurrency.RelyGuarantee
import NoOverlap.Platform.Effect

/-!
# How the programs of the platform are walked

`Call.Issues` lists the statements every call can issue, those of the booking module as in
their own list.  The rules below carry a proof about a function of the booking module over
to the platform.
-/

namespace NoOverlap

namespace Platform

open Concurrency RelyGuarantee
open Concurrency.Prog

def Call.Issues (c : Call) : Statement → Prop
  | .booking o =>
    match c with
    | .booking c => c.Issues o
    | .getOwned guestId id => o = .db (.reservationFindFirst id guestId)
    | .createReview guestId dto => o = .db (.reservationFindFirst dto.reservationId guestId)
    | _ => False
  | .reservationFindOwned guestId => c = .listOwnedBy guestId
  | .listing (.create hostId dto) => c = .createListing hostId dto
  | .listing (.findHost _) => True
  | .listing (.update id dto) => ∃ hostId, c = .updateListing hostId id dto
  | .listing (.delete id) => ∃ hostId, c = .removeListing hostId id
  | .listing (.blockCreate listingId startsAt endsAt kind) => ∃ hostId,
      c = .addAvailability hostId listingId { startsAt := startsAt, endsAt := endsAt, kind := kind }
  | .listing (.blockDeleteMany blockId listingId) => ∃ hostId,
      c = .removeAvailability hostId listingId blockId
  | .reviewCreate data => ∃ guestId dto, c = .createReview guestId dto ∧
      data.reservationId = dto.reservationId

theorem ofBooking_uses {α : Type} {A : NoOverlap.Statement → Prop} {B : Statement → Prop}
    {p : NoOverlap.Async α} (h : p.Uses A) (hAB : ∀ o, A o → B (.booking o)) :
    (ofBooking p).Uses B := by
  induction p with
  | done r => trivial
  | call o k ih => exact ⟨hAB o h.1, fun r => ih r (h.2 r)⟩

theorem getOwned_uses (guestId id : Id) :
    (getOwned guestId id).Uses fun o => o = .db (.reservationFindFirst id guestId) := by
  refine Uses.bind (uses_op rfl) fun r => ?_
  cases r with
  | none => exact uses_throw _
  | some r => exact uses_pure r

theorem assertOwner_uses {A : Statement → Prop} (id hostId : Id)
    (h : A (.listing (.findHost id))) : (ListingsService.assertOwner id hostId).Uses A := by
  refine Uses.bind (uses_op h) fun owner => ?_
  cases owner with
  | none => exact uses_throw _
  | some owner => exact uses_ite (fun _ => uses_throw _) fun _ => uses_pure ()

theorem answer_uses {α : Type} {A : Statement → Prop} {p : Async α} {f : α → Reply}
    (h : p.Uses A) : (answer p f).Uses A := Uses.bind h fun _ => uses_pure _

theorem deleteUnbooked_uses {A : Statement → Prop} {id : Id} (h : A (.listing (.delete id))) :
    (ListingsService.deleteUnbooked id).Uses A :=
  Uses.tryCatch (uses_op h) fun _ => uses_ite (fun _ => uses_throw _) fun _ => uses_throw _

theorem submit_uses {A : Statement → Prop} {dto : CreateReviewDto} {reservation : Reservation}
    (h : ∀ data : ReviewData, data.reservationId = dto.reservationId →
      data.listingId = reservation.listingId → A (.reviewCreate data)) :
    (ReviewsService.submit dto reservation).Uses A :=
  uses_ite (fun _ => uses_throw _) fun _ => Uses.tryCatch (uses_op (h _ rfl rfl)) fun _ =>
    uses_ite (fun _ => uses_throw _) fun _ => uses_throw _

/-- The list is complete. -/
theorem program_issues (cfg : Config) (c : Call) : (c.program cfg).Uses c.Issues := by
  cases c with
  | booking c => exact answer_uses (ofBooking_uses (NoOverlap.program_issues cfg c) fun _ h => h)
  | getOwned guestId id =>
    exact answer_uses (ofBooking_uses (getOwned_uses guestId id) fun _ h => h)
  | listOwnedBy guestId => exact answer_uses (uses_op rfl)
  | createListing hostId dto => exact answer_uses (uses_op rfl)
  | updateListing hostId id dto =>
    exact answer_uses (Uses.bind (assertOwner_uses id hostId trivial) fun _ => uses_op ⟨_, rfl⟩)
  | removeListing hostId id =>
    exact answer_uses (Uses.bind (assertOwner_uses id hostId trivial) fun _ =>
      deleteUnbooked_uses ⟨_, rfl⟩)
  | addAvailability hostId listingId dto =>
    refine answer_uses (Uses.bind (assertOwner_uses listingId hostId trivial) fun _ => ?_)
    exact uses_ite (fun _ => uses_throw _) fun _ => uses_op ⟨_, rfl⟩
  | removeAvailability hostId listingId blockId =>
    refine answer_uses (Uses.bind (assertOwner_uses listingId hostId trivial) fun _ => ?_)
    exact Uses.bind (uses_op ⟨_, rfl⟩) fun _ => uses_ite (fun _ => uses_throw _) fun _ => uses_pure ()
  | createReview guestId dto =>
    refine answer_uses (Uses.bind ?_ fun reservation => submit_uses fun _ h _ => ⟨_, _, rfl, h⟩)
    exact ofBooking_uses (getOwned_uses guestId dto.reservationId) fun _ h => h

/-! ## Functions of the booking module -/

theorem ofBooking_bind {α β : Type} (p : NoOverlap.Async α) (f : α → NoOverlap.Async β) :
    ofBooking (p >>= f) = ofBooking p >>= fun a => ofBooking (f a) := by
  induction p with
  | done r =>
    cases r with
    | error e => rfl
    | ok a => rfl
  | call o k ih => exact congrArg (Prog.call (Statement.booking o)) (funext ih)

/-- A rely-guarantee condition on the statements of the booking module alone. -/
def onBooking (D : RelyGuarantee Store Call Statement.Resp Err Reply) :
    RelyGuarantee Store Call NoOverlap.Statement.Resp Err Reply :=
  { Step := fun a s o r s' => D.Step a s (.booking o) r s'
    Inv := D.Inv
    Rely := D.Rely
    Guar := fun a s o r s' => D.Guar a s (.booking o) r s'
    Post := D.Post
    Fresh := D.Fresh
    Lost := D.Lost }

variable {D : RelyGuarantee Store Call Statement.Resp Err Reply} {a : Agent} {s : Store}

theorem safe_ofBooking {α : Type} {Q : Except Err α → Store → Prop} {p : NoOverlap.Async α}
    (h : (onBooking D).Safe a Q p s) : D.Safe a Q (ofBooking p) s := by
  induction p generalizing s with
  | done r => exact h
  | call o k ih =>
    intro s₁ hr hi r s₂ hx
    obtain ⟨hi₂, hg, hk⟩ := h s₁ hr hi r s₂ hx
    exact ⟨hi₂, hg, ih r hk⟩

/-- A guest's own reservation, read once. -/
theorem safe_getOwned {guestId id : Id} {Q : Except Err Reservation → Store → Prop}
    (h : ∀ s₁, D.Rely a.tid s s₁ → D.Inv s₁ → ∀ r s₂,
      D.Step a s₁ (.booking (.db (.reservationFindFirst id guestId))) r s₂ →
      D.Inv s₂ ∧ D.Guar a s₁ (.booking (.db (.reservationFindFirst id guestId))) r s₂ ∧
        (∀ e, Q (.error e) s₂) ∧ ∀ row, r = .ok (some row) → Q (.ok row) s₂) :
    D.Safe a Q (ofBooking (getOwned guestId id)) s := by
  refine safe_ofBooking (Safe.op_bind fun s₁ hr hi r s₂ hx => ?_)
  obtain ⟨hi₂, hg, herr, hok⟩ := h s₁ hr hi r s₂ hx
  refine ⟨hi₂, hg, ?_⟩
  cases r with
  | error e => exact herr e
  | ok found =>
    cases found with
    | none => exact herr _
    | some row => exact hok row rfl

theorem safe_answer {α : Type} {Q : Except Err Reply → Store → Prop} {p : Async α} {f : α → Reply}
    (h : D.Safe a (fun r s => Q (r.map f) s) p s) : D.Safe a Q (answer p f) s := by
  refine Safe.bind (h.imp fun r s' hq => ?_)
  cases r with
  | error e => exact hq
  | ok v => exact hq

end Platform

end NoOverlap
