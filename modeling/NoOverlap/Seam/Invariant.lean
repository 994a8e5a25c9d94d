import NoOverlap.Seam.Growth

/-!
# From the hold to the confirmation

What every hop of a booking carries to the next.  An outbox row is the event of a
committed reservation, a charge job carries the payload of an outbox row, a
payment is of the price of its reservation, a payment that took the money rests on
an answer of the provider, a result message speaks of such a payment, and only such
a message confirms.  `Inv` states this of the store as it is.  `Pre` is what a
thread has to know for a statement to keep it that way, and `step_inv` is the proof
that it does.
-/

namespace NoOverlap

open Relational Concurrency

/-- The row is the `BookingHeld` event of this reservation. -/
structure OutboxRow.Describes (o : OutboxRow) (r : Reservation) : Prop where
  aggregateId : o.aggregateId = r.id
  reservationId : o.payload.reservationId = r.id
  idempotencyKey : o.payload.idempotencyKey = r.id
  amountCents : o.payload.amountCents = r.priceTotalCents

theorem OutboxRow.Describes.later {o o' : OutboxRow} {r : Reservation} (hd : o.Describes r)
    (hl : o.Later o') : o'.Describes r where
  aggregateId := hl.aggregateId.trans hd.aggregateId
  reservationId := by rw [hl.payload, hd.reservationId]
  idempotencyKey := by rw [hl.payload, hd.idempotencyKey]
  amountCents := by rw [hl.payload, hd.amountCents]

namespace Seam

/-- The event of a reservation that exists. -/
def Backed (s : Store) (e : BookingHeld) : Prop :=
  e.idempotencyKey = e.reservationId ∧
    ∃ r, s.db.reservations.find? e.reservationId = some r ∧ e.amountCents = r.priceTotalCents

/-- The provider has said yes to this amount under this key. -/
def Answered (s : Store) (key : IdempotencyKey) (amountCents : Int) : Prop :=
  ∃ c ∈ s.provider.charges, c.key = key ∧ c.amountCents = amountCents ∧
    ∃ ref, c.outcome = .succeeded ref

/-- The payment has been recorded as taken. -/
def Taken (s : Store) (key : IdempotencyKey) : Prop :=
  ∃ e ∈ s.db.paymentLog, e.key = key ∧ e.new.took = true

/-- The provider has said yes to the price of this reservation, and the answer is on
record. -/
def Paid (s : Store) (id : Id) : Prop :=
  ∃ r p, s.db.reservations.find? id = some r ∧ s.db.payments.find? id = some p ∧
    p.reservationId = id ∧ p.amountCents = r.priceTotalCents ∧ Taken s id ∧
    Answered s id r.priceTotalCents

/-- The payment is of the price of its reservation, and its status rests on what the
provider did. -/
structure Booked (s : Store) (key : IdempotencyKey) (p : Payment) : Prop where
  reservationId : p.reservationId = key
  amountCents : ∃ r, s.db.reservations.find? key = some r ∧ p.amountCents = r.priceTotalCents
  took : p.status.took = true → Answered s key p.amountCents
  declined : p.status = .failed → s.provider.Declined key
  refunded : p.status = .refunded → key ∈ s.provider.refunds

/-- The history of the payments agrees with the provider and with the rows. -/
structure Journal (s : Store) : Prop where
  provider : ∀ e ∈ s.db.paymentLog, e.new = .refunded → e.key ∈ s.provider.refunds
  row : ∀ k p, s.db.payments.find? k = some p → p.status ≠ .pending →
    ∃ e ∈ s.db.paymentLog, e.key = k ∧ e.new = p.status

/-- A result that the worker may send. -/
def Sent (s : Store) (m : PaymentResult) : Prop :=
  m.idempotencyKey = m.reservationId ∧
    (∃ r, s.db.reservations.find? m.reservationId = some r) ∧
    (m.tag = .paymentSucceeded → Paid s m.reservationId ∧ paymentResultSchema m = .ok m)

section Growth

variable {s s' : Store}

theorem Backed.grows {e : BookingHeld} (h : Backed s e) (hg : Grows s s') : Backed s' e := by
  obtain ⟨hk, r, hr, ha⟩ := h
  obtain ⟨r', hr', hl⟩ := hg.db.reservations _ r hr
  exact ⟨hk, r', hr', ha.trans hl.priceTotalCents.symm⟩

theorem Answered.grows {key : IdempotencyKey} {amountCents : Int} (h : Answered s key amountCents)
    (hg : Grows s s') : Answered s' key amountCents := by
  obtain ⟨c, hc, h⟩ := h
  exact ⟨c, hg.charges c hc, h⟩

theorem Taken.grows {key : IdempotencyKey} (h : Taken s key) (hg : Grows s s') : Taken s' key := by
  obtain ⟨e, he, h⟩ := h
  exact ⟨e, hg.db.paymentLog e he, h⟩

theorem Paid.grows {id : Id} (h : Paid s id) (hg : Grows s s') : Paid s' id := by
  obtain ⟨r, p, hr, hp, hi, ha, ht, hans⟩ := h
  obtain ⟨r', hr', hl⟩ := hg.db.reservations _ r hr
  obtain ⟨p', hp', hlp⟩ := hg.db.payments _ p hp
  refine ⟨r', p', hr', hp', hlp.reservationId.trans hi, ?_, ht.grows hg, ?_⟩
  · rw [hlp.amountCents, ha, hl.priceTotalCents]
  · rw [hl.priceTotalCents]
    exact hans.grows hg

theorem Booked.grows {key : IdempotencyKey} {p : Payment} (h : Booked s key p)
    (hg : Grows s s') : Booked s' key p where
  reservationId := h.reservationId
  amountCents := by
    obtain ⟨r, hr, ha⟩ := h.amountCents
    obtain ⟨r', hr', hl⟩ := hg.db.reservations _ r hr
    exact ⟨r', hr', ha.trans hl.priceTotalCents.symm⟩
  took := fun ht => (h.took ht).grows hg
  declined := by
    intro hs
    obtain ⟨c, hc, hk⟩ := h.declined hs
    exact ⟨c, hg.charges c hc, hk⟩
  refunded := fun hs => hg.refunds _ (h.refunded hs)

theorem Journal.of_eq (h : Journal s) (hg : Grows s s') (hl : s'.db.paymentLog = s.db.paymentLog)
    (hp : s'.db.payments = s.db.payments) : Journal s' where
  provider := by
    rw [hl]
    exact fun e he hn => hg.refunds _ (h.provider e he hn)
  row := by
    rw [hl, hp]
    exact h.row

theorem Sent.grows {m : PaymentResult} (h : Sent s m) (hg : Grows s s') : Sent s' m := by
  obtain ⟨hk, ⟨r, hr⟩, hp⟩ := h
  obtain ⟨r', hr', -⟩ := hg.db.reservations _ r hr
  exact ⟨hk, ⟨r', hr'⟩, fun ht => ⟨(hp ht).1.grows hg, (hp ht).2⟩⟩

end Growth

structure Inv (s : Store) : Prop where
  described : ∀ o ∈ s.db.outbox.rows, ∃ r, s.db.reservations.find? o.aggregateId = some r ∧
    o.Describes r
  recorded : ∀ r ∈ s.db.reservations.rows, ∃ o ∈ s.db.outbox.rows, o.aggregateId = r.id
  unique : ∀ o ∈ s.db.outbox.rows, ∀ o' ∈ s.db.outbox.rows, o.aggregateId = o'.aggregateId → o = o'
  published : ∀ o ∈ s.db.outbox.rows, o.publishedAt.isSome = true →
    s.queues.charge.Has o.id o.payload
  charge : ∀ id j, s.queues.charge.find? id = some j →
    ∃ o, s.db.outbox.find? id = some o ∧ o.payload = j.data
  payment : ∀ k p, s.db.payments.find? k = some p → Booked s k p
  result : ∀ id j, s.queues.result.find? id = some j →
    id = (j.data.tag, j.data.idempotencyKey) ∧ Sent s j.data
  refund : ∀ id j, s.queues.refund.find? id = some j →
    j.data = { reservationId := id, idempotencyKey := id } ∧ Paid s id
  returned : ∀ k ∈ s.provider.refunds, ∃ j, s.queues.refund.find? k = some j
  journal : Journal s
  settled : ∀ id r, s.db.reservations.find? id = some r → r.status.settled = true → Paid s id

namespace Inv

variable {s s' : Store}

theorem init (listings : Table Listing) : Inv (Store.init listings) := by
  have hj : Journal (Store.init listings) := by constructor <;> simp [Store.init]
  constructor <;> first | exact hj | simp [Store.init]

/-- The outbox has not changed, and of everything else one knows where it comes
from. -/
theorem of_grows (h : Inv s) (hg : Grows s s') (ho : s'.db.outbox = s.db.outbox)
    (hr : ∀ id r', s'.db.reservations.find? id = some r' → ∃ r,
      s.db.reservations.find? id = some r ∧
        (r'.status.settled = true → r.status.settled = true ∨ Paid s' id))
    (hp : ∀ k p', s'.db.payments.find? k = some p' → Booked s' k p')
    (hc : ∀ id j', s'.queues.charge.find? id = some j' →
      ∃ o, s.db.outbox.find? id = some o ∧ o.payload = j'.data)
    (hm : ∀ id j', s'.queues.result.find? id = some j' →
      id = (j'.data.tag, j'.data.idempotencyKey) ∧ Sent s' j'.data)
    (hf : ∀ id j', s'.queues.refund.find? id = some j' →
      j'.data = { reservationId := id, idempotencyKey := id } ∧ Paid s' id)
    (hret : ∀ k ∈ s'.provider.refunds, ∃ j, s'.queues.refund.find? k = some j)
    (hj : Journal s') : Inv s' where
  described := by
    intro o hmem
    rw [ho] at hmem
    obtain ⟨r, hr, hd⟩ := h.described o hmem
    obtain ⟨r', hr', hl⟩ := hg.db.reservations _ r hr
    refine ⟨r', hr', ?_⟩
    constructor
    · rw [hl.id, hd.aggregateId]
    · rw [hl.id, hd.reservationId]
    · rw [hl.id, hd.idempotencyKey]
    · rw [hl.priceTotalCents, hd.amountCents]
  recorded := by
    intro r' hmem
    obtain ⟨r, hr, -⟩ := hr _ r' (Table.find?_of_mem hmem)
    obtain ⟨o, hom, ha⟩ := h.recorded r (Table.mem_of_find? hr)
    exact ⟨o, by rwa [ho], ha.trans (Table.key_of_find? hr)⟩
  unique := by
    rw [ho]
    exact h.unique
  published := by
    rw [ho]
    exact fun o hmem hs => (h.published o hmem hs).keeps hg.charge
  charge := by
    rw [ho]
    exact hc
  payment := hp
  result := hm
  refund := hf
  returned := hret
  journal := hj
  settled := by
    intro id r' hr' hs
    obtain ⟨r, hr, hset⟩ := hr id r' hr'
    rcases hset hs with hs | hpaid
    · exact (h.settled id r hr hs).grows hg
    · exact hpaid

/-! The hypotheses of `of_grows`, where nothing has changed. -/

theorem reservations_unchanged (he : s'.db.reservations = s.db.reservations) :
    ∀ id r', s'.db.reservations.find? id = some r' → ∃ r,
      s.db.reservations.find? id = some r ∧
        (r'.status.settled = true → r.status.settled = true ∨ Paid s' id) := by
  intro id r' hr'
  rw [he] at hr'
  exact ⟨r', hr', .inl⟩

theorem payments_unchanged (h : Inv s) (hg : Grows s s')
    (he : s'.db.payments = s.db.payments) :
    ∀ k p', s'.db.payments.find? k = some p' → Booked s' k p' := by
  rw [he]
  exact fun k p hp => (h.payment k p hp).grows hg

theorem charge_unchanged (h : Inv s) (he : s'.queues.charge = s.queues.charge) :
    ∀ id j', s'.queues.charge.find? id = some j' →
      ∃ o, s.db.outbox.find? id = some o ∧ o.payload = j'.data := by
  rw [he]
  exact h.charge

theorem charge_grows (h : Inv s) (hg : Grows s s')
    (he : s'.queues.charge = s.queues.charge) :
    ∀ id j', s'.queues.charge.find? id = some j' →
      ∃ o, s'.db.outbox.find? id = some o ∧ o.payload = j'.data := by
  intro id j hj
  rw [he] at hj
  obtain ⟨o, ho, hpl⟩ := h.charge id j hj
  obtain ⟨o', ho', hl⟩ := hg.db.outbox id o ho
  exact ⟨o', ho', hl.payload.trans hpl⟩

theorem result_unchanged (h : Inv s) (hg : Grows s s')
    (he : s'.queues.result = s.queues.result) :
    ∀ id j', s'.queues.result.find? id = some j' →
      id = (j'.data.tag, j'.data.idempotencyKey) ∧ Sent s' j'.data := by
  rw [he]
  exact fun id j hj => ⟨(h.result id j hj).1, (h.result id j hj).2.grows hg⟩

theorem refund_unchanged (h : Inv s) (hg : Grows s s')
    (he : s'.queues.refund = s.queues.refund) :
    ∀ id j', s'.queues.refund.find? id = some j' →
      j'.data = { reservationId := id, idempotencyKey := id } ∧ Paid s' id := by
  rw [he]
  exact fun id j hj => ⟨(h.refund id j hj).1, (h.refund id j hj).2.grows hg⟩

theorem returned_unchanged (h : Inv s) (hg : Grows s s')
    (he : s'.provider.refunds = s.provider.refunds) :
    ∀ k ∈ s'.provider.refunds, ∃ j, s'.queues.refund.find? k = some j := by
  rw [he]
  intro k hk
  obtain ⟨j, hj⟩ := h.returned k hk
  obtain ⟨j', hj', -⟩ := hg.refund k j hj
  exact ⟨j', hj'⟩

/-- Only the queues have changed. -/
theorem of_db_eq (h : Inv s) (hg : Grows s s') (he : s'.db = s.db)
    (hpr : s'.provider = s.provider)
    (hc : ∀ id j', s'.queues.charge.find? id = some j' →
      ∃ o, s.db.outbox.find? id = some o ∧ o.payload = j'.data)
    (hm : ∀ id j', s'.queues.result.find? id = some j' →
      id = (j'.data.tag, j'.data.idempotencyKey) ∧ Sent s' j'.data)
    (hf : ∀ id j', s'.queues.refund.find? id = some j' →
      j'.data = { reservationId := id, idempotencyKey := id } ∧ Paid s' id) : Inv s' :=
  h.of_grows hg (by rw [he]) (reservations_unchanged (by rw [he]))
    (h.payments_unchanged hg (by rw [he])) hc hm hf (h.returned_unchanged hg (by rw [hpr]))
    (h.journal.of_eq hg (by rw [he]) (by rw [he]))

/-- Neither the queues nor the outbox have changed, and no money was returned. -/
theorem of_queues_eq (h : Inv s) (hg : Grows s s') (hq : s'.queues = s.queues)
    (ho : s'.db.outbox = s.db.outbox) (hpr : s'.provider.refunds = s.provider.refunds)
    (hr : ∀ id r', s'.db.reservations.find? id = some r' → ∃ r,
      s.db.reservations.find? id = some r ∧
        (r'.status.settled = true → r.status.settled = true ∨ Paid s' id))
    (hp : ∀ k p', s'.db.payments.find? k = some p' → Booked s' k p') (hj : Journal s') : Inv s' :=
  h.of_grows hg ho hr hp (h.charge_unchanged (by rw [hq])) (h.result_unchanged hg (by rw [hq]))
    (h.refund_unchanged hg (by rw [hq])) (h.returned_unchanged hg hpr) hj

end Inv

/-- What a transaction must look like to be committed: a reservation and its event,
or a pass of the relay over rows whose jobs are stored. -/
inductive Ready (s : Store) (tx : Transaction) : Prop where
  | claims (r : Reservation) (o : OutboxRow) (hr : tx.reservations = [r]) (ho : tx.outbox = [o])
      (hd : o.Describes r) (hn : o.publishedAt = none) (hp : tx.published = [])
  | publishes (hr : tx.reservations = []) (ho : tx.outbox = [])
      (hp : ∀ id ∈ tx.published, ∃ o, s.db.outbox.find? id = some o ∧
        s.queues.charge.Has id o.payload)

theorem Ready.grows {s s' : Store} {tx : Transaction} (h : Ready s tx) (hg : Grows s s') :
    Ready s' tx := by
  cases h with
  | claims r o hr ho hd hn hp => exact .claims r o hr ho hd hn hp
  | publishes hr ho hp =>
    refine .publishes hr ho fun id hid => ?_
    obtain ⟨o, ho, hhas⟩ := hp id hid
    obtain ⟨o', ho', hl⟩ := hg.db.outbox id o ho
    exact ⟨o', ho', hl.payload ▸ hhas.keeps hg.charge⟩

/-- What the thread of a statement has to know. -/
def Pre (t : Nat) (s : Store) : Statement → Prop
  | .db .commit => ∀ tx, s.db.transactions.find? t = some tx → Ready s tx
  | .db (.reservationUpdateMany filter status) => status = .confirmed → ∀ id r,
      s.db.reservations.find? id = some r → filter.matches r = true → Paid s id
  | .db (.paymentCreate data) => data.idempotencyKey = data.reservationId ∧
      ∃ r, s.db.reservations.find? data.reservationId = some r ∧
        data.amountCents = r.priceTotalCents
  | .db (.paymentUpdate k u) => ∀ p, s.db.payments.find? k = some p → Booked s k (u.apply p)
  | .queue (.chargeAddBulk rows) => ∀ row ∈ rows, ∃ o, s.db.outbox.find? row.id = some o ∧
      o.payload = row.payload
  | .queue (.resultAdd m key) => key = m.idempotencyKey ∧ Sent s m
  | .queue (.refundAdd m) => m.idempotencyKey = m.reservationId ∧ Paid s m.reservationId
  | .provider (.refund key) => ∃ j, s.queues.refund.find? key = some j
  | _ => True

variable {s s' : Store} {t : Nat}

/-- A commit of a reservation with its event. -/
theorem commit_claims {tx : Transaction} {r : Reservation} {o : OutboxRow} (h : Inv s)
    (hg : Grows s { s with db := s.db.apply tx }) (ha : Apart s.db) (hl : Logged s.db)
    (ht : s.db.transactions.find? t = some tx) (hr : tx.reservations = [r])
    (ho : tx.outbox = [o]) (hd : o.Describes r) (hn : o.publishedAt = none)
    (hp : tx.published = []) : Inv { s with db := s.db.apply tx } := by
  have hrows : (s.db.apply tx).reservations.rows = s.db.reservations.rows ++ [r] :=
    hr ▸ Table.rows_insertAll (ha.new_reservations ht)
  have horows : (s.db.apply tx).outbox.rows = s.db.outbox.rows ++ [o] := by
    have hi := Table.rows_insertAll (ha.new_outbox ht)
    rw [ho] at hi
    simp only [Database.apply, Table.update, hp, List.contains_nil, Bool.false_eq_true, if_false,
      List.map_id', hi, ho]
  have hfresh : s.db.reservations.find? r.id = none := by
    have hk := ha.new_reservations ht
    rw [hr] at hk
    exact Table.find?_eq_none.mpr fun r' hr' =>
      (List.pairwise_append.mp hk).2.2 r' hr' r (List.mem_singleton_self r)
  have hnew : (s.db.apply tx).reservations.find? r.id = some r :=
    Table.find?_of_mem (by rw [hrows]; exact List.mem_append_right _ (List.mem_singleton_self r))
  -- No event speaks of a reservation that is not there yet.
  have hother : ∀ o' ∈ s.db.outbox.rows, o'.aggregateId ≠ r.id := by
    intro o' ho' he
    obtain ⟨r', hr', -⟩ := h.described o' ho'
    rw [he, hfresh] at hr'
    cases hr'
  have hheld : r.status = .held :=
    hl.pending tx (Table.mem_of_find? ht) r (by rw [hr]; exact List.mem_singleton_self r)
  constructor
  case described =>
    intro o' ho'
    simp only [horows, List.mem_append, List.mem_singleton] at ho'
    rcases ho' with ho' | rfl
    · obtain ⟨r', hr', hd'⟩ := h.described o' ho'
      exact ⟨r', Table.find?_insertAll_of_some hr', hd'⟩
    · exact ⟨r, by rw [hd.aggregateId]; exact hnew, hd⟩
  case recorded =>
    intro r' hr'
    simp only [hrows, List.mem_append, List.mem_singleton] at hr'
    rcases hr' with hr' | rfl
    · obtain ⟨o', ho', he⟩ := h.recorded r' hr'
      exact ⟨o', by rw [horows]; exact List.mem_append_left _ ho', he⟩
    · exact ⟨o, by rw [horows]; exact List.mem_append_right _ (List.mem_singleton_self o),
        hd.aggregateId⟩
  case unique =>
    intro o₁ h₁ o₂ h₂ he
    simp only [horows, List.mem_append, List.mem_singleton] at h₁ h₂
    rcases h₁ with h₁ | rfl <;> rcases h₂ with h₂ | rfl
    · exact h.unique o₁ h₁ o₂ h₂ he
    · exact (hother o₁ h₁ (he.trans hd.aggregateId)).elim
    · exact (hother o₂ h₂ (he.symm.trans hd.aggregateId)).elim
    · rfl
  case published =>
    intro o' ho' hs
    simp only [horows, List.mem_append, List.mem_singleton] at ho'
    rcases ho' with ho' | rfl
    · exact h.published o' ho' hs
    · rw [hn] at hs
      cases hs
  case charge => exact h.charge_grows hg rfl
  case payment => exact h.payments_unchanged hg rfl
  case result => exact h.result_unchanged hg rfl
  case refund => exact h.refund_unchanged hg rfl
  case returned => exact h.returned_unchanged hg rfl
  case journal => exact h.journal.of_eq hg rfl rfl
  case settled =>
    intro id r' hr' hs
    rcases Table.find?_of_insertAll hr' with hr' | ⟨-, hm⟩
    · exact (h.settled id r' hr' hs).grows hg
    · rw [hr, List.mem_singleton] at hm
      rw [hm, hheld] at hs
      cases hs

/-- A commit of a pass of the relay. -/
theorem commit_publishes {tx : Transaction} (h : Inv s)
    (hg : Grows s { s with db := s.db.apply tx }) (hr : tx.reservations = [])
    (ho : tx.outbox = []) (hp : ∀ id ∈ tx.published, ∃ o, s.db.outbox.find? id = some o ∧
      s.queues.charge.Has id o.payload) : Inv { s with db := s.db.apply tx } := by
  have hres : (s.db.apply tx).reservations = s.db.reservations := by
    simp only [Database.apply, hr, Table.insertAll, List.foldl_nil]
  have hmem : ∀ o' ∈ (s.db.apply tx).outbox.rows, ∃ o ∈ s.db.outbox.rows, o.Later o' ∧
      o'.id = o.id ∧ (o'.publishedAt.isSome = true →
        o.publishedAt.isSome = true ∨ o.id ∈ tx.published) := by
    intro o' ho'
    simp only [Database.apply, ho, Table.insertAll, List.foldl_nil] at ho'
    obtain ⟨o, hom, rfl⟩ := Table.mem_update.mp ho'
    refine ⟨o, hom, ?_⟩
    split
    · next hc => exact ⟨⟨rfl, rfl⟩, rfl, fun _ => .inr (by simpa using hc)⟩
    · exact ⟨.refl o, rfl, .inl⟩
  constructor
  case described =>
    intro o' ho'
    obtain ⟨o, hom, hl, -⟩ := hmem o' ho'
    obtain ⟨r, hr, hd⟩ := h.described o hom
    exact ⟨r, by rw [hl.aggregateId, hres]; exact hr, hd.later hl⟩
  case recorded =>
    intro r hr
    rw [hres] at hr
    obtain ⟨o, hom, he⟩ := h.recorded r hr
    obtain ⟨o', ho', hl⟩ := hg.db.outbox _ o (Table.find?_of_mem hom)
    exact ⟨o', Table.mem_of_find? ho', hl.aggregateId.trans he⟩
  case unique =>
    intro o₁ h₁ o₂ h₂ he
    obtain ⟨p₁, hp₁, hl₁, hid₁, -⟩ := hmem o₁ h₁
    obtain ⟨p₂, hp₂, hl₂, hid₂, -⟩ := hmem o₂ h₂
    have : p₁ = p₂ := h.unique p₁ hp₁ p₂ hp₂
      (hl₁.aggregateId.symm.trans (he.trans hl₂.aggregateId))
    exact Table.eq_of_key_eq h₁ h₂ (hid₁.trans (this ▸ hid₂.symm))
  case published =>
    intro o' ho' hs
    obtain ⟨o, hom, hl, hid, hpub⟩ := hmem o' ho'
    rw [hid, hl.payload]
    rcases hpub hs with hs | hin
    · exact h.published o hom hs
    · obtain ⟨o₀, ho₀, hhas⟩ := hp o.id hin
      rw [show s.db.outbox.find? o.id = some o from Table.find?_of_mem hom] at ho₀
      cases ho₀
      exact hhas
  case charge => exact h.charge_grows hg rfl
  case payment => exact h.payments_unchanged hg rfl
  case result => exact h.result_unchanged hg rfl
  case refund => exact h.refund_unchanged hg rfl
  case returned => exact h.returned_unchanged hg rfl
  case journal => exact h.journal.of_eq hg rfl rfl
  case settled =>
    intro id r hr hs
    rw [hres] at hr
    exact (h.settled id r hr hs).grows hg

theorem commit_ready {tx : Transaction} (h : Inv s)
    (hg : Grows s { s with db := s.db.apply tx }) (ha : Apart s.db) (hl : Logged s.db)
    (ht : s.db.transactions.find? t = some tx) (hr : Ready s tx) :
    Inv { s with db := s.db.apply tx } := by
  cases hr with
  | claims r o hr ho hd hn hp => exact commit_claims h hg ha hl ht hr ho hd hn hp
  | publishes hr ho hp => exact commit_publishes h hg hr ho hp

/-- A status write settles a row that was settled, or that is paid for. -/
theorem settled_of_rewrites {c : Call} {o : DbStatement} {d : Database}
    (hi : c.Issues (.db o)) (hpre : Pre t s (.db o)) (hw : s.db.Rewrites t o d)
    (hg : Grows s { s with db := d }) :
    ∀ id r', d.reservations.find? id = some r' → ∃ r, s.db.reservations.find? id = some r ∧
      (r'.status.settled = true → r.status.settled = true ∨ Paid { s with db := d } id) := by
  intro id r' hr'
  rw [hw.find] at hr'
  obtain ⟨r, hr, rfl⟩ := Option.map_eq_some_iff.mp hr'
  refine ⟨r, hr, fun hs => ?_⟩
  cases hws : o.writes r with
  | none =>
    rw [Database.rewrite_none hws] at hs
    exact .inl hs
  | some status =>
    rw [Database.rewrite_some hws] at hs
    rcases cancelled_or_legal_of_writes hi hws with rfl | hl
    · cases hs
    · rcases ReservationStatus.confirm_or_complete hl hs with rfl | hs
      · cases o with
        | reservationUpdateMany filter st =>
          simp only [DbStatement.writes, Option.ite_none_right_eq_some, Option.some.injEq] at hws
          exact .inr ((hpre hws.2 id r hr hws.1).grows hg)
        | reservationUpdate rid st seen =>
          simp only [DbStatement.writes, Option.ite_none_right_eq_some, Option.some.injEq] at hws
          rw [hws.2] at hi
          cases hi.2.1
        | _ => cases hws
      · exact .inl hs

/-- A payment is opened for the price, and a status is recorded on good grounds. -/
theorem booked_of_effect {o : DbStatement} {res : Except Err o.Resp} {d : Database} (h : Inv s)
    (hpre : Pre t s (.db o)) (hx : s.db.Effect t o res d) (hg : Grows s { s with db := d }) :
    ∀ k p', d.payments.find? k = some p' → Booked { s with db := d } k p' := by
  intro k p' hp'
  have hkey : p'.idempotencyKey = k := Table.key_of_find? hp'
  rcases hx.payments with ⟨he, -⟩ | ⟨data, row, rfl, hs, hk, hid, ha, he, -⟩ |
    ⟨k₀, u, p₀, rfl, hp₀, he, -⟩
  · exact h.payments_unchanged hg he k p' hp'
  · rw [he] at hp'
    rcases Table.find?_of_insert hp' with hp' | ⟨-, rfl⟩
    · exact (h.payment k p' hp').grows hg
    · obtain ⟨hdata, r, hr, hprice⟩ := hpre
      have hk' : data.reservationId = k := (hdata.symm.trans hk.symm).trans hkey
      have hb : Booked s k p' :=
        { reservationId := hid.trans hk'
          amountCents := ⟨r, by rw [← hk']; exact hr, ha.trans hprice⟩
          took := fun ht => by rw [hs] at ht; cases ht
          declined := fun ht => by rw [hs] at ht; cases ht
          refunded := fun ht => by rw [hs] at ht; cases ht }
      exact hb.grows hg
  · rw [he, Table.find?_update] at hp'
    obtain ⟨p, hp, rfl⟩ := Option.map_eq_some_iff.mp hp'
    split
    · next hc =>
      have hkk : k = k₀ := (Table.key_of_find? hp).symm.trans (beq_iff_eq.mp hc)
      subst hkk
      exact (hpre p hp).grows hg
    · exact (h.payment k p hp).grows hg

theorem journal_of_effect {o : DbStatement} {res : Except Err o.Resp} {d : Database} (h : Inv s)
    (hpre : Pre t s (.db o)) (hx : s.db.Effect t o res d) (hg : Grows s { s with db := d }) :
    Journal { s with db := d } := by
  rcases hx.payments with ⟨he, hl⟩ | ⟨data, row, -, hs, -, -, -, he, hl⟩ | ⟨k, u, p, rfl, hp, he, hl⟩
  · exact h.journal.of_eq hg hl he
  · constructor
    · simp only [hl]
      exact h.journal.provider
    · simp only [he, hl]
      intro k p hp ht
      rcases Table.find?_of_insert hp with hp | ⟨-, rfl⟩
      · exact h.journal.row k p hp ht
      · exact (ht hs).elim
  · constructor
    · simp only [hl, List.mem_append, List.mem_singleton]
      rintro e (hm | rfl) hn
      · exact h.journal.provider e hm hn
      · exact (hpre p hp).refunded (by rw [PaymentUpdate.apply_status]; exact hn)
    · simp only [he, hl, Table.find?_update]
      intro k' p' hp' ht
      obtain ⟨p₀, hp₀, rfl⟩ := Option.map_eq_some_iff.mp hp'
      by_cases hc : (p₀.idempotencyKey == k) = true
      · have hk : k' = k := (Table.key_of_find? hp₀).symm.trans (beq_iff_eq.mp hc)
        rw [if_pos hc, PaymentUpdate.apply_status]
        exact ⟨_, List.mem_append_right _ (List.mem_singleton_self _), hk.symm, rfl⟩
      · rw [if_neg hc] at ht ⊢
        obtain ⟨e, hm, h⟩ := h.journal.row k' p₀ hp₀ ht
        exact ⟨e, List.mem_append_left _ hm, h⟩

/-- A database statement whose precondition is known. -/
theorem step_db {c : Call} {o : DbStatement} {res : Except Err o.Resp} {d : Database}
    (h : Inv s) (hi : c.Issues (.db o)) (ha : Apart s.db) (hl : Logged s.db)
    (hpre : Pre t s (.db o)) (hx : s.db.Effect t o res d) : Inv { s with db := d } := by
  have hg : Grows s { s with db := d } := { Grows.refl s with db := hx.grows hi }
  have hpay := booked_of_effect h hpre hx hg
  have hjour := journal_of_effect h hpre hx hg
  rcases hx.outbox with hout | ⟨tx, rfl, ht, rfl⟩
  · rcases hx.reservations with ⟨he, -⟩ | ⟨tx, rfl, ht, rfl⟩ | hw
    · exact h.of_queues_eq hg rfl hout rfl (Inv.reservations_unchanged he) hpay hjour
    · exact commit_ready h hg ha hl ht (hpre tx ht)
    · exact h.of_queues_eq hg rfl hout rfl (settled_of_rewrites hi hpre hw hg) hpay hjour
  · exact commit_ready h hg ha hl ht (hpre tx ht)

theorem mem_chargeAddBulk {q : JobQueue Id BookingHeld} {rows : List OutboxRow} {id : Id}
    {j : Job Id BookingHeld} (h : (Queues.chargeAddBulk q rows).find? id = some j) :
    q.find? id = some j ∨ ∃ row ∈ rows, row.id = id ∧ row.payload = j.data := by
  induction rows generalizing q with
  | nil => exact .inl h
  | cons row rows ih =>
    rcases ih h with h | ⟨row', hm, h⟩
    · rcases JobQueue.find?_add h with h | ⟨rfl, rfl⟩
      · exact .inl h
      · exact .inr ⟨row, List.mem_cons_self, rfl, rfl⟩
    · exact .inr ⟨row', List.mem_cons_of_mem _ hm, h⟩

theorem step_queue {o : QueueStatement} (h : Inv s) (hpre : Pre t s (.queue o))
    (hg : Grows s { s with queues := Queues.perform o s.queues }) :
    Inv { s with queues := Queues.perform o s.queues } := by
  cases o with
  | chargeAddBulk rows =>
    refine h.of_db_eq hg rfl rfl (fun id j hj => ?_) (h.result_unchanged hg rfl)
      (h.refund_unchanged hg rfl)
    rcases mem_chargeAddBulk hj with hj | ⟨row, hm, rfl, hp⟩
    · exact h.charge id j hj
    · obtain ⟨o, ho, hpl⟩ := hpre row hm
      exact ⟨o, ho, hpl.trans hp⟩
  | resultAdd m key =>
    refine h.of_db_eq hg rfl rfl (h.charge_unchanged rfl) (fun id j hj => ?_)
      (h.refund_unchanged hg rfl)
    rcases JobQueue.find?_add hj with hj | ⟨rfl, rfl⟩
    · exact ⟨(h.result id j hj).1, (h.result id j hj).2.grows hg⟩
    · obtain ⟨rfl, hs⟩ := hpre
      exact ⟨rfl, hs.grows hg⟩
  | refundAdd m =>
    refine h.of_db_eq hg rfl rfl (h.charge_unchanged rfl) (h.result_unchanged hg rfl)
      (fun id j hj => ?_)
    rcases JobQueue.find?_add hj with hj | ⟨rfl, rfl⟩
    · exact ⟨(h.refund id j hj).1, (h.refund id j hj).2.grows hg⟩
    · obtain ⟨hkey, hpaid⟩ := hpre
      cases m
      cases hkey
      exact ⟨rfl, hpaid.grows hg⟩

/-- A statement whose precondition is known keeps the invariant. -/
theorem step_inv {c : Call} {ch : Choice} {o : Statement} {r : Except Err o.Resp} (h : Inv s)
    (hi : c.Issues o) (ha : Apart s.db) (hl : Logged s.db) (hpre : Pre t s o)
    (hx : o.exec t ch s = some (r, s')) : Inv s' := by
  rcases Statement.exec_cases hx with ⟨rfl, -⟩ | ⟨r', hx, -⟩
  · exact h
  have hg := Grows.of_perform hi hx
  cases o with
  | db o =>
    obtain ⟨d, hd, rfl⟩ := Statement.perform_db hx
    exact step_db h hi ha hl hpre (Database.effect_of_perform hd)
  | queue o => cases hx; exact step_queue h hpre hg
  | provider o =>
    cases hx
    cases o with
    | charge key amountCents =>
      exact h.of_queues_eq hg rfl rfl rfl (Inv.reservations_unchanged rfl)
        (h.payments_unchanged hg rfl) (h.journal.of_eq hg rfl rfl)
    | refund key =>
      refine h.of_grows hg rfl (Inv.reservations_unchanged rfl) (h.payments_unchanged hg rfl)
        (h.charge_unchanged rfl) (h.result_unchanged hg rfl) (h.refund_unchanged hg rfl)
        (fun k hk => ?_) (h.journal.of_eq hg rfl rfl)
      rcases List.mem_append.mp hk with hk | hk
      · exact h.returned k hk
      · rw [List.mem_singleton.mp hk]
        exact hpre
  | redis o =>
    cases hx
    exact h.of_queues_eq hg rfl rfl rfl (Inv.reservations_unchanged rfl)
      (h.payments_unchanged hg rfl) (h.journal.of_eq hg rfl rfl)
  | host o =>
    obtain ⟨m, rfl⟩ := Statement.perform_host hx
    exact h.of_queues_eq hg rfl rfl rfl (Inv.reservations_unchanged rfl)
      (h.payments_unchanged hg rfl) (h.journal.of_eq hg rfl rfl)

end Seam

end NoOverlap
