import NoOverlap.Lifecycle.Footprint

/-!
# What a statement can do

`Database.Effect` lists every way a statement of a thread can change the
database, with the checks it passed.  `effect_of_perform` is the only place where
the statements are taken apart; the invariants are read off the list.
-/

namespace NoOverlap

open Relational Concurrency

/-- The statements that change nothing. -/
def DbStatement.isRead : DbStatement → Bool
  | listingFindUnique _ | reservationFindFirst _ _ | reservationFindMany _
  | reservationFindListing _ | reservationFindStatus _ | paymentFindUnique _ => true
  | _ => false

/-- The statements that open, use or close a transaction. -/
def DbStatement.transactional : DbStatement → Bool
  | begin | reservationCreate _ | outboxCreate _ _ | selectUnpublished _
  | outboxMarkPublished _ _ | commit | rollback => true
  | _ => false

namespace Database

/-- A statement of thread `t`, what it reports and what it leaves. -/
inductive Effect (d : Database) (t : Nat) :
    (o : DbStatement) → Except Err o.Resp → Database → Prop where
  | read (o : DbStatement) (res : Except Err o.Resp) (h : o.isRead = true) : Effect d t o res d
  | refused (o : DbStatement) (e : Err) : Effect d t o (.error e) d
  | begin : Effect d t .begin (.ok ()) (d.begin t)
  | reservationCreate (data : ReservationData) (tx : Transaction) (row : Reservation)
      (ht : d.transactions.find? t = some tx) (hs : row.status = .held)
      (hown : (d.reservations.rows.any row.conflicts || tx.reservations.any row.conflicts) = false)
      (hother : d.transactions.rows.any (fun tx' =>
        tx'.tid != t && tx'.reservations.any row.conflicts) = false)
      (hid : d.freshReservationId row.id = true) :
      Effect d t (.reservationCreate data) (.ok row) (d.setTransaction t
        (fun tx => { tx with reservations := tx.reservations ++ [row] }) fun _ => rfl)
  | outboxCreate (aggregateId : Id) (payload : BookingHeld) (tx : Transaction) (row : OutboxRow)
      (ht : d.transactions.find? t = some tx) (ha : row.aggregateId = aggregateId)
      (hp : row.payload = payload) (hn : row.publishedAt = none)
      (hid : d.freshOutboxId row.id = true) :
      Effect d t (.outboxCreate aggregateId payload) (.ok ()) (d.setTransaction t
        (fun tx => { tx with outbox := tx.outbox ++ [row] }) fun _ => rfl)
  | selectUnpublished (limit : Nat) (tx : Transaction) (ht : d.transactions.find? t = some tx) :
      Effect d t (.selectUnpublished limit) (.ok (d.unpublished t limit)) (d.setTransaction t
        (fun tx => { tx with locked := tx.locked ++ (d.unpublished t limit).map (·.id) })
        fun _ => rfl)
  | outboxMarkPublished (ids : List Id) (now : Int) (n : Nat) (tx : Transaction)
      (ht : d.transactions.find? t = some tx) :
      Effect d t (.outboxMarkPublished ids now) (.ok n) (d.setTransaction t
        (fun tx => { tx with published := tx.published ++ ids, publishedAt := now }) fun _ => rfl)
  | commit (tx : Transaction) (ht : d.transactions.find? t = some tx) :
      Effect d t .commit (.ok ()) (d.apply tx)
  | rollback : Effect d t .rollback (.ok ()) (d.rollback t)
  | reservationUpdate (id : Id) (status seen : ReservationStatus) (r : Reservation)
      (hr : d.reservations.find? id = some r) :
      Effect d t (.reservationUpdate id status seen) (.ok { r with status := status })
        (d.reservationUpdate t id status).2
  | reservationUpdateMany (filter : ReservationWhere) (status : ReservationStatus) :
      Effect d t (.reservationUpdateMany filter status)
        (.ok (d.reservations.rows.filter filter.matches).length)
        (d.reservationUpdateMany t filter status).2
  | paymentCreate (data : PaymentData) (row : Payment)
      (hr : (d.reservations.find? data.reservationId).isSome = true)
      (hp : d.payments.find? data.idempotencyKey = none) (hs : row.status = .pending)
      (hk : row.idempotencyKey = data.idempotencyKey)
      (hi : row.reservationId = data.reservationId) (ha : row.amountCents = data.amountCents) :
      Effect d t (.paymentCreate data) (.ok ()) { d with payments := d.payments.insert row }
  | paymentUpdate (key : IdempotencyKey) (data : PaymentUpdate) (p : Payment)
      (hp : d.payments.find? key = some p) :
      Effect d t (.paymentUpdate key data) (.ok (data.apply p)) (d.paymentUpdate key data).2

variable {d d' : Database} {t : Nat} {id : Id} {now : Int}

theorem effect_of_perform {o : DbStatement} {res : Except Err o.Resp}
    (hx : perform t id now o d = some (res, d')) : d.Effect t o res d' := by
  cases o with
  | begin => cases hx; exact .begin
  | reservationCreate data =>
    simp only [perform, reservationCreate] at hx
    split at hx
    · next tx checkIn checkOut price holdExpiresAt ht _ _ _ _ =>
      split_ifs at hx with h₁ h₂ h₃ h₄ h₅ h₆
      iterate 4 (cases hx; exact .refused _ _)
      cases hx
      exact .reservationCreate data tx _ ht rfl (by simpa using h₄) (by simpa using h₅)
        (by simpa using h₆)
    · cases hx
      exact .refused _ _
  | outboxCreate aggregateId payload =>
    simp only [perform, outboxCreate] at hx
    split at hx
    · cases hx
      exact .refused _ _
    · next tx ht =>
      split_ifs at hx with hid
      cases hx
      exact .outboxCreate aggregateId payload tx _ ht rfl rfl rfl (by simpa using hid)
  | selectUnpublished limit =>
    simp only [perform, selectUnpublished] at hx
    split at hx <;> cases hx
    · exact .refused _ _
    · next tx ht => exact .selectUnpublished limit tx ht
  | outboxMarkPublished ids publishedAt =>
    simp only [perform, outboxMarkPublished] at hx
    split at hx <;> cases hx
    · exact .refused _ _
    · next tx ht => exact .outboxMarkPublished ids publishedAt _ tx ht
  | commit =>
    simp only [perform, commit] at hx
    split at hx <;> cases hx
    · exact .refused _ _
    · next tx ht => exact .commit tx ht
  | rollback => cases hx; exact .rollback
  | reservationUpdate rid status seen =>
    cases hr : d.reservations.find? rid with
    | none =>
      simp only [perform, reservationUpdate, hr] at hx
      cases hx
      exact .refused _ _
    | some r =>
      have h : d.Effect t _ _ _ := .reservationUpdate rid status seen r hr
      simp only [reservationUpdate, hr] at h
      simp only [perform, reservationUpdate, hr] at hx
      cases hx
      exact h
  | reservationUpdateMany filter status => cases hx; exact .reservationUpdateMany filter status
  | paymentCreate data =>
    simp only [perform, paymentCreate] at hx
    split_ifs at hx with hr hp <;> cases hx
    · exact .refused _ _
    · exact .refused _ _
    · refine .paymentCreate data _ ?_ ?_ rfl rfl rfl rfl
      · simpa [Option.isSome_iff_ne_none] using hr
      · simpa using hp
  | paymentUpdate key data =>
    cases hp : d.payments.find? key with
    | none =>
      simp only [perform, paymentUpdate, hp] at hx
      cases hx
      exact .refused _ _
    | some p =>
      have h : d.Effect t _ _ _ := .paymentUpdate key data p hp
      simp only [paymentUpdate, hp] at h
      simp only [perform, paymentUpdate, hp] at hx
      cases hx
      exact h
  | _ => cases hx; exact .read _ _ rfl

/-- The row that an insert of `data` made. -/
structure Inserted (d : Database) (data : ReservationData) (row : Reservation) : Prop where
  listingId : row.listingId = data.listingId
  guestId : row.guestId = data.guestId
  checkIn : data.checkIn = some row.checkIn
  checkOut : data.checkOut = some row.checkOut
  price : data.priceTotalCents = some row.priceTotalCents
  fits : fitsInteger row.priceTotalCents = true
  listing : (d.listings.find? data.listingId).isSome = true

theorem inserted_of_reservationCreate {data : ReservationData} {row : Reservation}
    (hx : d.reservationCreate t id now data = some (.ok row, d')) : d.Inserted data row := by
  simp only [reservationCreate] at hx
  split at hx
  · next tx checkIn checkOut price holdExpiresAt _ hin hout hprice _ =>
    split_ifs at hx with h₁ h₂ h₃ h₄ h₅ h₆
    iterate 4 (cases hx)
    cases hx
    exact ⟨rfl, rfl, hin, hout, hprice, by simpa using h₁,
      by simpa [Option.isSome_iff_ne_none] using h₃⟩
  · cases hx

end Database

/-! ## Transactions -/

namespace Database

variable {d : Database} {t : Nat} {P : Transaction → Prop}

theorem forall_setTransaction {f : Transaction → Transaction} {hf : ∀ tx, (f tx).tid = tx.tid}
    (h : ∀ tx ∈ d.transactions.rows, P tx)
    (hstep : ∀ tx ∈ d.transactions.rows, tx.tid = t → P tx → P (f tx)) :
    ∀ tx ∈ (d.setTransaction t f hf).transactions.rows, P tx := by
  intro tx' htx'
  obtain ⟨tx, htx, rfl⟩ :
      ∃ tx ∈ d.transactions.rows, (if (tx.tid == t) = true then f tx else tx) = tx' :=
    List.mem_map.mp htx'
  split
  · next ht => exact hstep tx htx (beq_iff_eq.mp ht) (h tx htx)
  · exact h tx htx

theorem forall_begin (h : ∀ tx ∈ d.transactions.rows, P tx)
    (hnew : P { tid := t, reservations := [], outbox := [], locked := [], published := [],
                publishedAt := 0 }) :
    ∀ tx ∈ (d.begin t).transactions.rows, P tx := by
  intro tx htx
  simp only [begin, Table.insert] at htx
  split at htx
  · rcases List.mem_append.mp htx with htx | htx
    · exact h tx htx
    · rw [List.mem_singleton.mp htx]
      exact hnew
  · exact h tx htx

theorem forall_rollback (h : ∀ tx ∈ d.transactions.rows, P tx) :
    ∀ tx ∈ (d.rollback t).transactions.rows, P tx :=
  fun tx htx => h tx (Table.mem_erase.mp htx).1

theorem find?_setTransaction_self {f : Transaction → Transaction}
    {hf : ∀ tx, (f tx).tid = tx.tid} {tx : Transaction} (h : d.transactions.find? t = some tx) :
    (d.setTransaction t f hf).transactions.find? t = some (f tx) := by
  have ht : tx.tid = t := Table.key_of_find? h
  rw [setTransaction, Table.find?_update, h]
  simp [ht]

theorem find?_setTransaction_ne {f : Transaction → Transaction}
    {hf : ∀ tx, (f tx).tid = tx.tid} {u : Nat} (hu : u ≠ t) :
    (d.setTransaction t f hf).transactions.find? u = d.transactions.find? u := by
  rw [setTransaction, Table.find?_update]
  cases h : d.transactions.find? u with
  | none => rfl
  | some tx =>
    have ht : tx.tid ≠ t := (Table.key_of_find? h).trans_ne hu
    simp [ht]

theorem find?_rollback_self : (d.rollback t).transactions.find? t = none := by
  rw [rollback, Table.find?_erase]
  cases h : d.transactions.find? t with
  | none => rfl
  | some tx =>
    have ht : tx.tid = t := Table.key_of_find? h
    simp [ht]

theorem find?_rollback_ne {u : Nat} (hu : u ≠ t) :
    (d.rollback t).transactions.find? u = d.transactions.find? u := by
  rw [rollback, Table.find?_erase]
  cases h : d.transactions.find? u with
  | none => rfl
  | some tx =>
    have ht : tx.tid ≠ t := (Table.key_of_find? h).trans_ne hu
    simp [ht]

theorem find?_begin_self (h : d.transactions.find? t = none) :
    (d.begin t).transactions.find? t =
      some { tid := t, reservations := [], outbox := [], locked := [], published := [],
             publishedAt := 0 } := by
  simp only [begin]
  rw [Table.find?_insert (by exact h), key_transaction, if_pos rfl]

theorem find?_begin_ne {u : Nat} (hu : u ≠ t) :
    (d.begin t).transactions.find? u = d.transactions.find? u := by
  simp only [begin]
  by_cases h : d.transactions.find? t = none
  · rw [Table.find?_insert (by exact h), if_neg (by exact fun ht => hu ht.symm)]
  · simp only [Table.insert, key_transaction, h, dif_neg, not_false_eq_true]

/-- No statement touches the transaction of another thread. -/
theorem Effect.transaction_ne {d' : Database} {o : DbStatement} {res : Except Err o.Resp}
    (h : d.Effect t o res d') {u : Nat} (hu : u ≠ t) :
    d'.transactions.find? u = d.transactions.find? u := by
  cases h with
  | begin => exact find?_begin_ne hu
  | reservationCreate | outboxCreate | selectUnpublished | outboxMarkPublished =>
    exact find?_setTransaction_ne hu
  | commit tx ht =>
    have htid : tx.tid = t := Table.key_of_find? ht
    subst htid
    exact find?_rollback_ne hu
  | rollback => exact find?_rollback_ne hu
  | reservationUpdate id status seen r hr => simp only [Database.reservationUpdate, hr]
  | paymentUpdate key data p hp => simp only [Database.paymentUpdate, hp]
  | _ => rfl

end Database

/-! ## Status writes -/

/-- The status a statement gives to a row, if it rewrites the row. -/
def DbStatement.writes : DbStatement → Reservation → Option ReservationStatus
  | reservationUpdate id status _, r => if r.id = id then some status else none
  | reservationUpdateMany filter status, r => if filter.matches r = true then some status else none
  | _, _ => none

/-- A row after a statement. -/
def DbStatement.rewrite (o : DbStatement) (r : Reservation) : Reservation :=
  match o.writes r with
  | some status => { r with status := status }
  | none => r

namespace Database

variable {d d' : Database} {t : Nat} {o : DbStatement} {res : Except Err o.Resp}

theorem rewrite_none {r : Reservation} (h : o.writes r = none) : o.rewrite r = r := by
  simp only [DbStatement.rewrite, h]

theorem rewrite_some {r : Reservation} {status : ReservationStatus}
    (h : o.writes r = some status) : o.rewrite r = { r with status := status } := by
  simp only [DbStatement.rewrite, h]

/-- `o` has rewritten the rows it selects and recorded every rewrite. -/
structure Rewrites (d : Database) (t : Nat) (o : DbStatement) (d' : Database) : Prop where
  find : ∀ id, d'.reservations.find? id = (d.reservations.find? id).map o.rewrite
  log : ∀ e, e ∈ d'.statusLog ↔ e ∈ d.statusLog ∨ e.tid = t ∧
    ∃ r, d.reservations.find? e.id = some r ∧ e.old = r.status ∧ o.writes r = some e.new

/-- `e` is the record of a rewrite by thread `t`. -/
def Recorded (d : Database) (t : Nat) (o : DbStatement) (e : StatusChange) : Prop :=
  e.tid = t ∧ ∃ r, d.reservations.find? e.id = some r ∧ e.old = r.status ∧ o.writes r = some e.new

theorem recorded_update {id : Id} {status seen : ReservationStatus} {r : Reservation}
    (hr : d.reservations.find? id = some r) {e : StatusChange} :
    e = { tid := t, id := id, old := r.status, new := status } ↔
      d.Recorded t (.reservationUpdate id status seen) e := by
  constructor
  · rintro rfl
    have hid : r.id = id := Table.key_of_find? hr
    exact ⟨rfl, r, hr, rfl, by simp [DbStatement.writes, hid]⟩
  · rintro ⟨ht, r', hr', ho, hw⟩
    simp only [DbStatement.writes, Option.ite_none_right_eq_some, Option.some.injEq] at hw
    have hid : e.id = id := (Table.key_of_find? hr').symm.trans hw.1
    rw [hid, hr] at hr'
    cases hr'
    cases e
    simp only at ht ho hid hw
    rw [ht, ho, hid, hw.2]

theorem recorded_updateMany {filter : ReservationWhere} {status : ReservationStatus}
    {e : StatusChange} :
    (∃ r, (r ∈ d.reservations.rows ∧ filter.matches r = true) ∧
      ({ tid := t, id := r.id, old := r.status, new := status } : StatusChange) = e) ↔
      d.Recorded t (.reservationUpdateMany filter status) e := by
  constructor
  · rintro ⟨r, ⟨hr, hm⟩, rfl⟩
    exact ⟨rfl, r, Table.find?_of_mem hr, rfl, by simp [DbStatement.writes, hm]⟩
  · rintro ⟨ht, r, hr, ho, hw⟩
    simp only [DbStatement.writes, Option.ite_none_right_eq_some, Option.some.injEq] at hw
    have hid : r.id = e.id := Table.key_of_find? hr
    refine ⟨r, ⟨Table.mem_of_find? hr, hw.1⟩, ?_⟩
    cases e
    simp only at ht ho hid hw
    rw [ht, ho, ← hid, hw.2]

/-- Every rewrite is recorded at the end of the history. -/
theorem Effect.appended {d' : Database} (h : d.Effect t o res d') :
    d'.statusLog = d.statusLog ∨
      ∃ new, d'.statusLog = d.statusLog ++ new ∧ ∀ e, e ∈ new ↔ d.Recorded t o e := by
  cases h with
  | reservationUpdate id status seen r hr =>
    simp only [Database.reservationUpdate, hr]
    exact .inr ⟨_, rfl, fun e => List.mem_singleton.trans (recorded_update hr)⟩
  | reservationUpdateMany filter status =>
    refine .inr ⟨_, rfl, fun e => ?_⟩
    simp only [List.mem_map, List.mem_filter]
    exact recorded_updateMany
  | paymentUpdate key data p hp => exact .inl (by simp only [Database.paymentUpdate, hp])
  | _ => exact .inl rfl

theorem rewrites_update {id : Id} {status seen : ReservationStatus} {r : Reservation}
    (hr : d.reservations.find? id = some r) :
    d.Rewrites t (.reservationUpdate id status seen) (d.reservationUpdate t id status).2 := by
  simp only [reservationUpdate, hr]
  constructor
  · intro i
    rw [Table.find?_update]
    congr 1
    funext r'
    by_cases h : r'.id = id <;> simp [DbStatement.rewrite, DbStatement.writes, h]
  · intro e
    rw [List.mem_append, List.mem_singleton]
    exact or_congr_right (recorded_update hr)

theorem rewrites_updateMany (filter : ReservationWhere) (status : ReservationStatus) :
    d.Rewrites t (.reservationUpdateMany filter status)
      (d.reservationUpdateMany t filter status).2 := by
  constructor
  · intro i
    simp only [reservationUpdateMany]
    rw [Table.find?_update]
    congr 1
    funext r'
    by_cases h : filter.matches r' = true <;> simp [DbStatement.rewrite, DbStatement.writes, h]
  · intro e
    simp only [reservationUpdateMany, List.mem_append, List.mem_map, List.mem_filter]
    exact or_congr_right recorded_updateMany

/-- Outside the statements that open, use or close a transaction, none changes. -/
theorem Effect.transactions_eq (h : d.Effect t o res d') (ho : o.transactional = false) :
    d'.transactions = d.transactions := by
  cases h with
  | begin | reservationCreate | outboxCreate | selectUnpublished | outboxMarkPublished | commit
  | rollback => cases ho
  | reservationUpdate id status seen r hr => simp only [Database.reservationUpdate, hr]
  | paymentUpdate key data p hp => simp only [Database.paymentUpdate, hp]
  | _ => rfl

/-- The two ways a statement treats the outbox. -/
theorem Effect.outbox (h : d.Effect t o res d') :
    d'.outbox = d.outbox ∨
      ∃ tx, o = .commit ∧ d.transactions.find? t = some tx ∧ d' = d.apply tx := by
  cases h with
  | commit tx ht => exact .inr ⟨tx, rfl, ht, rfl⟩
  | reservationUpdate id status seen r hr => exact .inl (by simp only [Database.reservationUpdate, hr])
  | paymentUpdate key data p hp => exact .inl (by simp only [Database.paymentUpdate, hp])
  | _ => exact .inl rfl

/-- No statement touches the listings. -/
theorem Effect.listings (h : d.Effect t o res d') : d'.listings = d.listings := by
  cases h with
  | reservationUpdate id status seen r hr => simp only [Database.reservationUpdate, hr]
  | paymentUpdate key data p hp => simp only [Database.paymentUpdate, hp]
  | _ => rfl

/-- The three ways a statement treats the payments. -/
theorem Effect.payments (h : d.Effect t o res d') :
    (d'.payments = d.payments ∧ d'.paymentLog = d.paymentLog) ∨
      (∃ data row, o = .paymentCreate data ∧ row.status = .pending ∧
        row.idempotencyKey = data.idempotencyKey ∧ row.reservationId = data.reservationId ∧
        row.amountCents = data.amountCents ∧ d'.payments = d.payments.insert row ∧
        d'.paymentLog = d.paymentLog) ∨
      ∃ k u p, o = .paymentUpdate k u ∧ d.payments.find? k = some p ∧
        d'.payments = d.payments.update (fun p => p.idempotencyKey == k) u.apply u.apply_key ∧
        d'.paymentLog = d.paymentLog ++ [⟨k, p.status, u.status⟩] := by
  cases h with
  | paymentCreate data row hr hp hs hk hi ha =>
    exact .inr (.inl ⟨data, row, rfl, hs, hk, hi, ha, rfl, rfl⟩)
  | paymentUpdate k u p hp =>
    refine .inr (.inr ⟨k, u, p, rfl, hp, ?_⟩)
    simp only [Database.paymentUpdate, hp, and_self]
  | reservationUpdate id status seen r hr =>
    refine .inl ?_
    simp only [Database.reservationUpdate, hr, and_self]
  | _ => exact .inl ⟨rfl, rfl⟩

/-- The three ways a statement treats the reservations. -/
theorem Effect.reservations (h : d.Effect t o res d') :
    (d'.reservations = d.reservations ∧ d'.statusLog = d.statusLog) ∨
      (∃ tx, o = .commit ∧ d.transactions.find? t = some tx ∧ d' = d.apply tx) ∨
      d.Rewrites t o d' := by
  cases h with
  | commit tx ht => exact .inr (.inl ⟨tx, rfl, ht, rfl⟩)
  | reservationUpdate id status seen r hr => exact .inr (.inr (rewrites_update hr))
  | reservationUpdateMany filter status => exact .inr (.inr (rewrites_updateMany filter status))
  | paymentUpdate key data p hp => exact .inl (by simp [Database.paymentUpdate, hp])
  | _ => exact .inl ⟨rfl, rfl⟩

end Database

/-! ## Invariants of the database -/

/-- A call that starts takes a job at most. -/
theorem exists_queues_of_spawned {c : Call} {s s' : Store} (h : s.spawned c = some s') :
    ∃ q, s' = { s with queues := q } := by
  cases c with
  | processCharge id data =>
    obtain ⟨q, -, rfl⟩ := Option.map_eq_some_iff.mp h
    exact ⟨_, rfl⟩
  | processResult id data =>
    obtain ⟨q, -, rfl⟩ := Option.map_eq_some_iff.mp h
    exact ⟨_, rfl⟩
  | processRefund id data =>
    obtain ⟨q, -, rfl⟩ := Option.map_eq_some_iff.mp h
    exact ⟨_, rfl⟩
  | _ => cases h; exact ⟨s.queues, rfl⟩

/-- A call that returns settles a job at most. -/
theorem exists_queues_of_returned (t : Nat) (c : Call) (r : Except Err Reply) (s : Store) :
    ∃ q, Store.returned t c r s = { s with queues := q } := by
  cases c with
  | processCharge | processResult | processRefund => exact ⟨_, rfl⟩
  | _ => exact ⟨s.queues, rfl⟩

/-- No statement of a booking touches the listings. -/
theorem Statement.listings_of_exec {t : Nat} {ch : Choice} {o : Statement} {s s' : Store}
    {r : Except Err o.Resp} (hx : o.exec t ch s = some (r, s')) :
    s'.db.listings = s.db.listings := by
  rcases Statement.exec_db hx with he | ⟨o', rfl, r', hd⟩
  · rw [he]
  · exact (Database.effect_of_perform hd).listings

theorem spawned_db {c : Call} {s s' : Store} (h : s.spawned c = some s') : s'.db = s.db := by
  obtain ⟨q, rfl⟩ := exists_queues_of_spawned h
  rfl

theorem returned_db (t : Nat) (c : Call) (r : Except Err Reply) (s : Store) :
    (Store.returned t c r s).db = s.db := by
  obtain ⟨q, hq⟩ := exists_queues_of_returned t c r s
  rw [hq]

theorem returned_provider (t : Nat) (c : Call) (r : Except Err Reply) (s : Store) :
    (Store.returned t c r s).provider = s.provider := by
  obtain ⟨q, hq⟩ := exists_queues_of_returned t c r s
  rw [hq]

theorem returned_redis (t : Nat) (c : Call) (r : Except Err Reply) (s : Store) :
    (Store.returned t c r s).redis = s.redis := by
  obtain ⟨q, hq⟩ := exists_queues_of_returned t c r s
  rw [hq]

/-- A property that every statement within its footprint and every rollback keep
holds in every reachable state. -/
theorem inv_of_effect {I : Database → Prop} {cfg : Config} {listings : Table Listing} {w : World}
    (h₀ : I (Store.init listings).db)
    (heffect : ∀ {c : Call} {t : Nat} {o : DbStatement} {res : Except Err o.Resp}
      {d d' : Database}, c.Issues (.db o) → I d → d.Effect t o res d' → I d')
    (hrollback : ∀ {t : Nat} {d : Database}, I d → I (d.rollback t))
    (hr : (system cfg).Reaches anything (initial listings) w) : I w.shared.db := by
  refine Machine.Reaches.inv (I := fun s => I s.db) (program_issues cfg) h₀ ?_ ?_ ?_ ?_ hr
  · intro c s s' h hs
    rw [spawned_db hs]
    exact h
  · intro t c ch o s r s' hi _ h hx
    rcases Statement.exec_db hx with he | ⟨o', rfl, r', hp⟩
    · rw [he]
      exact h
    · exact heffect hi h (Database.effect_of_perform hp)
  · intro t c r s h
    rw [show ((system cfg).returned t c r s).db = s.db from returned_db t c r s]
    exact h
  · exact fun t c s h => hrollback h

end NoOverlap
