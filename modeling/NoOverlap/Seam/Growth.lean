import NoOverlap.Lifecycle.Answers
import NoOverlap.Lifecycle.History

/-!
# What no statement takes back

`Grows` relates a store to a later one: rows keep what makes them what they are,
jobs stay stored, and histories are only added to.  Every statement of every call
grows the store, so whatever a thread has seen and is stable under growth is still
true when it moves again.
-/

namespace NoOverlap

open Relational Concurrency

/-- The outbox row later on. -/
structure OutboxRow.Later (o o' : OutboxRow) : Prop where
  aggregateId : o'.aggregateId = o.aggregateId
  payload : o'.payload = o.payload

/-- The payment later on. -/
structure Payment.Later (p p' : Payment) : Prop where
  reservationId : p'.reservationId = p.reservationId
  amountCents : p'.amountCents = p.amountCents
  opened : p.status ≠ .pending → p'.status ≠ .pending

theorem OutboxRow.Later.refl (o : OutboxRow) : o.Later o := ⟨rfl, rfl⟩

theorem OutboxRow.Later.trans {o o' o'' : OutboxRow} (h : o.Later o') (h' : o'.Later o'') :
    o.Later o'' := ⟨h'.1.trans h.1, h'.2.trans h.2⟩

theorem Payment.Later.refl (p : Payment) : p.Later p := ⟨rfl, rfl, fun h => h⟩

theorem Payment.Later.trans {p p' p'' : Payment} (h : p.Later p') (h' : p'.Later p'') :
    p.Later p'' := ⟨h'.1.trans h.1, h'.2.trans h.2, h'.3 ∘ h.3⟩

structure Database.Grows (d d' : Database) : Prop where
  reservations : Table.Extends Reservation.Later d.reservations d'.reservations
  outbox : Table.Extends OutboxRow.Later d.outbox d'.outbox
  payments : Table.Extends Payment.Later d.payments d'.payments
  statusLog : ∀ e ∈ d.statusLog, e ∈ d'.statusLog
  /-- What is new in the history starts from what the row was, or had become. -/
  newStatus : ∀ e ∈ d'.statusLog, e ∈ d.statusLog ∨
    ∀ r, d.reservations.find? e.id = some r → r.status.later e.old = true
  paymentLog : ∀ e ∈ d.paymentLog, e ∈ d'.paymentLog

namespace Database

variable {d d' d'' : Database} {t : Nat} {o : DbStatement} {res : Except Err o.Resp}

theorem Grows.refl (d : Database) : d.Grows d :=
  { reservations := Table.Extends.refl Reservation.Later.refl _
    outbox := Table.Extends.refl OutboxRow.Later.refl _
    payments := Table.Extends.refl Payment.Later.refl _
    statusLog := fun _ h => h
    newStatus := fun _ h => .inl h
    paymentLog := fun _ h => h }

theorem Grows.trans (h : d.Grows d') (h' : d'.Grows d'') : d.Grows d'' where
  reservations := h.reservations.trans (fun _ _ _ => Reservation.Later.trans) h'.reservations
  outbox := h.outbox.trans (fun _ _ _ => OutboxRow.Later.trans) h'.outbox
  payments := h.payments.trans (fun _ _ _ => Payment.Later.trans) h'.payments
  statusLog := fun e he => h'.statusLog e (h.statusLog e he)
  newStatus := by
    intro e he
    rcases h'.newStatus e he with he | hn
    · exact h.newStatus e he
    · refine .inr fun r hr => ?_
      obtain ⟨r', hr', hl⟩ := h.reservations _ r hr
      exact ReservationStatus.later_trans hl.2 (hn r' hr')
  paymentLog := fun e he => h'.paymentLog e (h.paymentLog e he)

theorem Effect.grows (h : d.Effect t o res d') {c : Call} (hi : c.Issues (.db o)) :
    d.Grows d' where
  reservations := h.extends Reservation.Later.refl fun _ _ hw _ =>
    Reservation.Later.setStatus (later_of_writes hi hw)
  outbox := by
    rcases h.outbox with he | ⟨tx, -, -, rfl⟩
    · rw [he]
      exact Table.Extends.refl OutboxRow.Later.refl _
    · have hkey : ∀ o : OutboxRow, key { o with publishedAt := some tx.publishedAt } = key o :=
        fun _ => rfl
      have hmark : Table.Extends OutboxRow.Later (d.outbox.insertAll tx.outbox)
          (d.apply tx).outbox := by
        refine Table.Extends.update hkey fun o _ => ?_
        split
        · exact ⟨rfl, rfl⟩
        · exact OutboxRow.Later.refl o
      exact (Table.Extends.insertAll OutboxRow.Later.refl _ _).trans
        (fun _ _ _ => OutboxRow.Later.trans) hmark
  payments := by
    rcases h.payments with ⟨he, -⟩ | ⟨data, row, -, -, -, -, -, he, -⟩ | ⟨k, u, p, -, -, he, -⟩
    · rw [he]
      exact Table.Extends.refl Payment.Later.refl _
    · rw [he]
      exact Table.Extends.insert Payment.Later.refl _ row
    · rw [he]
      refine Table.Extends.update u.apply_key fun p _ => ?_
      split
      · exact ⟨u.apply_reservationId p, u.apply_amountCents p, fun _ => u.apply_ne_pending p⟩
      · exact Payment.Later.refl p
  statusLog := by
    rcases h.reservations with ⟨-, hl⟩ | ⟨tx, -, -, rfl⟩ | hw
    · exact fun e he => hl ▸ he
    · exact fun e he => he
    · exact fun e he => (hw.log e).mpr (.inl he)
  newStatus := by
    rcases h.reservations with ⟨-, hl⟩ | ⟨tx, -, -, rfl⟩ | hw
    · exact fun e he => .inl (hl ▸ he)
    · exact fun e he => .inl he
    · intro e he
      rcases (hw.log e).mp he with he | ⟨-, r, hr, ho, -⟩
      · exact .inl he
      · refine .inr fun r' hr' => ?_
        rw [hr] at hr'
        cases hr'
        rw [ho]
        exact r.status.later_refl
  paymentLog := by
    rcases h.payments with ⟨-, hl⟩ | ⟨data, row, -, -, -, -, -, -, hl⟩ | ⟨k, u, p, -, -, -, hl⟩
    · exact fun e he => hl ▸ he
    · exact fun e he => hl ▸ he
    · exact fun e he => hl ▸ List.mem_append_left _ he

end Database

structure Grows (s s' : Store) : Prop where
  db : s.db.Grows s'.db
  charge : JobQueue.Keeps s.queues.charge s'.queues.charge
  result : JobQueue.Keeps s.queues.result s'.queues.result
  refund : JobQueue.Keeps s.queues.refund s'.queues.refund
  charges : ∀ c ∈ s.provider.charges, c ∈ s'.provider.charges
  refunds : ∀ k ∈ s.provider.refunds, k ∈ s'.provider.refunds

theorem keeps_chargeAddBulk (q : JobQueue Id BookingHeld) (rows : List OutboxRow) :
    JobQueue.Keeps q (Queues.chargeAddBulk q rows) := by
  induction rows generalizing q with
  | nil => exact JobQueue.Keeps.refl q
  | cons row rows ih =>
    exact (JobQueue.keeps_add q row.id row.payload _).trans (ih _)

namespace Grows

variable {s s' s'' : Store}

theorem refl (s : Store) : Grows s s :=
  ⟨.refl _, .refl _, .refl _, .refl _, fun _ h => h, fun _ h => h⟩

theorem trans (h : Grows s s') (h' : Grows s' s'') : Grows s s'' :=
  { db := h.db.trans h'.db
    charge := h.charge.trans h'.charge
    result := h.result.trans h'.result
    refund := h.refund.trans h'.refund
    charges := fun c hc => h'.charges c (h.charges c hc)
    refunds := fun k hk => h'.refunds k (h.refunds k hk) }

/-- Only the queues have changed. -/
theorem of_queues {q : Queues} (hc : JobQueue.Keeps s.queues.charge q.charge)
    (hr : JobQueue.Keeps s.queues.result q.result)
    (hf : JobQueue.Keeps s.queues.refund q.refund) : Grows s { s with queues := q } :=
  ⟨.refl _, hc, hr, hf, fun _ h => h, fun _ h => h⟩

theorem of_perform {t : Nat} {c : Call} {ch : Choice} {o : Statement} {r : Except Err o.Resp}
    (hi : c.Issues o) (hx : o.perform t ch s = some (r, s')) : Grows s s' := by
  cases o with
  | db o =>
    obtain ⟨d, hd, rfl⟩ := Statement.perform_db hx
    exact { refl s with db := (Database.effect_of_perform hd).grows hi }
  | queue o =>
    cases hx
    cases o with
    | chargeAddBulk rows => exact { refl s with charge := keeps_chargeAddBulk _ rows }
    | resultAdd m key => exact { refl s with result := JobQueue.keeps_add _ _ _ _ }
    | refundAdd m => exact { refl s with refund := JobQueue.keeps_add _ _ _ _ }
  | provider o =>
    cases hx
    cases o with
    | charge key amountCents =>
      exact { refl s with charges := fun c hc => List.mem_append_left _ hc }
    | refund key => exact { refl s with refunds := fun k hk => List.mem_append_left _ hk }
  | redis o => cases hx; exact { refl s with }
  | host o =>
    obtain ⟨m, rfl⟩ := Statement.perform_host hx
    exact { refl s with }

/-- Every statement of every call. -/
theorem of_exec {t : Nat} {c : Call} {ch : Choice} {o : Statement} {r : Except Err o.Resp}
    (hi : c.Issues o) (hx : o.exec t ch s = some (r, s')) : Grows s s' := by
  rcases Statement.exec_cases hx with ⟨rfl, -⟩ | ⟨r', hx, -⟩
  · exact refl _
  · exact of_perform hi hx

end Grows

/-! ## Deliveries -/

/-- The same jobs are stored, in whatever states. -/
structure Queues.Same (q q' : Queues) : Prop where
  charge : JobQueue.Keeps q.charge q'.charge ∧ JobQueue.Keeps q'.charge q.charge
  result : JobQueue.Keeps q.result q'.result ∧ JobQueue.Keeps q'.result q.result
  refund : JobQueue.Keeps q.refund q'.refund ∧ JobQueue.Keeps q'.refund q.refund

namespace Queues

theorem Same.refl (q : Queues) : q.Same q :=
  ⟨⟨.refl _, .refl _⟩, ⟨.refl _, .refl _⟩, .refl _, .refl _⟩

variable {ι δ : Type} [DecidableEq ι] {q q' : JobQueue ι δ} {id : ι} {data : δ}

theorem deliver_eq_some [DecidableEq δ] (h : deliver q id data = some q') :
    q.Has id data ∧ q' = q.take id := by
  unfold deliver at h
  split at h
  · next j hj =>
    split at h
    · next hd => cases h; exact ⟨⟨j, hj, hd⟩, rfl⟩
    · cases h
  · cases h

theorem same_take (q : JobQueue ι δ) (id : ι) :
    JobQueue.Keeps q (q.take id) ∧ JobQueue.Keeps (q.take id) q :=
  ⟨JobQueue.keeps_setState q id _, JobQueue.keeps_of_setState q id _⟩

theorem same_acknowledge {α : Type} (q : JobQueue ι δ) (id : ι) (r : Except Err α) :
    JobQueue.Keeps q (acknowledge q id r) ∧ JobQueue.Keeps (acknowledge q id r) q := by
  cases r with
  | ok v => exact ⟨JobQueue.keeps_setState q id _, JobQueue.keeps_of_setState q id _⟩
  | error e => exact ⟨JobQueue.keeps_setState q id _, JobQueue.keeps_of_setState q id _⟩

end Queues

/-- A call that starts has been handed a stored job, if it serves one. -/
theorem same_of_spawned {c : Call} {s s' : Store} (h : s.spawned c = some s') :
    ∃ q, s' = { s with queues := q } ∧ s.queues.Same q := by
  cases c with
  | processCharge id data =>
    obtain ⟨q, hq, rfl⟩ := Option.map_eq_some_iff.mp h
    obtain ⟨-, rfl⟩ := Queues.deliver_eq_some hq
    exact ⟨_, rfl, { Queues.Same.refl _ with charge := Queues.same_take _ _ }⟩
  | processResult id data =>
    obtain ⟨q, hq, rfl⟩ := Option.map_eq_some_iff.mp h
    obtain ⟨-, rfl⟩ := Queues.deliver_eq_some hq
    exact ⟨_, rfl, { Queues.Same.refl _ with result := Queues.same_take _ _ }⟩
  | processRefund id data =>
    obtain ⟨q, hq, rfl⟩ := Option.map_eq_some_iff.mp h
    obtain ⟨-, rfl⟩ := Queues.deliver_eq_some hq
    exact ⟨_, rfl, { Queues.Same.refl _ with refund := Queues.same_take _ _ }⟩
  | _ => cases h; exact ⟨s.queues, rfl, .refl _⟩

theorem same_of_returned (t : Nat) (c : Call) (r : Except Err Reply) (s : Store) :
    ∃ q, Store.returned t c r s = { s with queues := q } ∧ s.queues.Same q := by
  cases c with
  | processCharge id data =>
    exact ⟨_, rfl, { Queues.Same.refl _ with charge := Queues.same_acknowledge _ _ _ }⟩
  | processResult id data =>
    exact ⟨_, rfl, { Queues.Same.refl _ with result := Queues.same_acknowledge _ _ _ }⟩
  | processRefund id data =>
    exact ⟨_, rfl, { Queues.Same.refl _ with refund := Queues.same_acknowledge _ _ _ }⟩
  | _ => exact ⟨s.queues, rfl, .refl _⟩

theorem Grows.of_same {s : Store} {q : Queues} (h : s.queues.Same q) :
    Grows s { s with queues := q } := .of_queues h.charge.1 h.result.1 h.refund.1

/-- A thread that dies takes nothing along. -/
theorem Grows.of_rollback (t : Nat) (s : Store) : Grows s { s with db := s.db.rollback t } :=
  { Grows.refl s with db := { Database.Grows.refl s.db with } }

/-- Nothing that happens in a run takes anything away. -/
theorem Grows.of_next {cfg : Config} {P : Policy} {listings : Table Listing} {w w' : World}
    {e : Event} (hr : (system cfg).Reaches P (initial listings) w)
    (hn : (system cfg).next P w e = some w') : Grows w.shared w'.shared := by
  cases Machine.next_moves _ _ hn with
  | spawn hp hs =>
    obtain ⟨q, rfl, hq⟩ := same_of_spawned hs
    exact .of_same hq
  | step ht hp hx => exact .of_exec (hr.uses_head (program_issues _) ht) hx
  | @ret t c r ht =>
    obtain ⟨q, he, hq⟩ := same_of_returned t c r w.shared
    rw [show (system cfg).returned t c r w.shared = _ from he]
    exact .of_same hq
  | @kill t c p ht hp => exact .of_rollback t w.shared

/-! ## What stays known -/

section Known

variable {t : Nat} {ch : Choice} {s s' : Store} {id : Id}

/-- The slot of the reservation has been given back. -/
def Released (s : Store) (id : Id) : Prop :=
  ∃ status, s.statusOf id = some status ∧ status.released = true

/-- The reservation has left HELD. -/
def Moved (s : Store) (id : Id) : Prop := ∃ status, s.statusOf id = some status ∧ status ≠ .held

theorem Grows.statusOf (hg : Grows s s') {status : ReservationStatus}
    (h : s.statusOf id = some status) :
    ∃ status', s'.statusOf id = some status' ∧ status.later status' = true := by
  obtain ⟨r, hr, rfl⟩ := statusOf_eq_some.mp h
  obtain ⟨r', hr', hl⟩ := hg.db.reservations id r hr
  exact ⟨r'.status, statusOf_eq_some.mpr ⟨r', hr', rfl⟩, hl.2⟩

theorem Released.grows (h : Released s id) (hg : Grows s s') : Released s' id := by
  obtain ⟨status, hs, hr⟩ := h
  obtain ⟨status', hs', hl⟩ := hg.statusOf hs
  exact ⟨status', hs', ReservationStatus.released_of_later hl hr⟩

theorem Moved.grows (h : Moved s id) (hg : Grows s s') : Moved s' id := by
  obtain ⟨status, hs, hn⟩ := h
  obtain ⟨status', hs', hl⟩ := hg.statusOf hs
  refine ⟨status', hs', ?_⟩
  rintro rfl
  exact hn (ReservationStatus.eq_held_of_later hl)

theorem Grows.cancelled (hg : Grows s s') (h : s.statusOf id = some .cancelled) :
    s'.statusOf id = some .cancelled := by
  obtain ⟨status', hs', hl⟩ := hg.statusOf h
  rw [hs', ReservationStatus.eq_cancelled_of_later hl]

/-- A refund has been asked for. -/
def Requested (s : Store) (id : Id) : Prop := ∃ j, s.queues.refund.find? id = some j

theorem Requested.grows (h : Requested s id) (hg : Grows s s') : Requested s' id := by
  obtain ⟨j, hj⟩ := h
  obtain ⟨j', hj', -⟩ := hg.refund id j hj
  exact ⟨j', hj'⟩

theorem requested_of_refundAdd {m : RefundRequested} {r : Except Err Unit}
    (hx : (Statement.queue (.refundAdd m)).perform t ch s = some (r, s')) :
    Requested s' m.reservationId := by
  cases hx
  exact JobQueue.add_find?_isSome _ _ _ _

end Known

end NoOverlap
