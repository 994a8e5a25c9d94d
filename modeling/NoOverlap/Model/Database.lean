import Mathlib.Data.List.Sort
import NoOverlap.Model.Schema

/-!
# The database

The tables, the open transactions, and the statements the two processes issue.
What a transaction has written but not committed lives in its own row and is
invisible to every read.  Two things look past that boundary, as they do in
PostgreSQL: an insert meeting an uncommitted row that it would conflict with has
to wait, and `FOR UPDATE SKIP LOCKED` passes over rows another transaction has
locked.

The exclusion constraint refuses an insert whose half-open range intersects that
of a committed active row of the same listing.  It is not checked on updates:
nothing below relies on PostgreSQL doing so.

`statusLog` and `paymentLog` are history variables.  No statement reads them.
-/

namespace NoOverlap

open Relational

/-- What a transaction has done so far.  A thread has at most one open. -/
structure Transaction where
  tid : Nat
  reservations : List Reservation
  outbox : List OutboxRow
  /-- Outbox rows held by `FOR UPDATE`. -/
  locked : List Id
  /-- Outbox rows to be marked published, and when. -/
  published : List Id
  publishedAt : Int

instance : Keyed Transaction Nat := ⟨Transaction.tid⟩

@[simp] theorem key_transaction (tx : Transaction) : key tx = tx.tid := rfl

/-- A write of a reservation's status. -/
structure StatusChange where
  tid : Nat
  id : Id
  old : ReservationStatus
  new : ReservationStatus
  deriving DecidableEq

/-- A write of a payment's status. -/
structure PaymentChange where
  key : IdempotencyKey
  old : PaymentStatus
  new : PaymentStatus
  deriving DecidableEq

structure Database where
  listings : Table Listing
  reservations : Table Reservation
  outbox : Table OutboxRow
  payments : Table Payment
  transactions : Table Transaction
  statusLog : List StatusChange
  paymentLog : List PaymentChange

/-- `tstzrange(a, b, '[)') && tstzrange(c, d, '[)')`. -/
def rangesIntersect (a b c d : Int) : Bool := decide (max a c < min b d)

/-- The two rows cannot both be in the constraint's active set. -/
def Reservation.conflicts (r r' : Reservation) : Bool :=
  r.status.active && r'.status.active && r.listingId == r'.listingId &&
    rangesIntersect r.checkIn r.checkOut r'.checkIn r'.checkOut

/-- A Prisma filter on reservations.  An absent field does not restrict. -/
structure ReservationWhere where
  status : ReservationStatus
  id : Option Id
  holdExpiresBefore : Option Int
  checkOutBefore : Option Int

def ReservationWhere.matches (w : ReservationWhere) (r : Reservation) : Bool :=
  r.status == w.status && w.id.all (· == r.id) &&
    w.holdExpiresBefore.all (fun t => decide (r.holdExpiresAt < t)) &&
    w.checkOutBefore.all fun t => decide (r.checkOut < t)

/-- The data of `tx.reservation.create`.  The price is `none` when it is NaN. -/
structure ReservationData where
  listingId : Id
  guestId : Id
  checkIn : JsDate
  checkOut : JsDate
  priceTotalCents : Option Int
  holdExpiresAt : JsDate

structure PaymentData where
  reservationId : Id
  idempotencyKey : IdempotencyKey
  amountCents : Int

/-- The three ways `prisma.payment.update` is called. -/
inductive PaymentUpdate where
  | succeeded (providerRef : String)
  | failed (failureReason : String)
  | refunded

def PaymentUpdate.status : PaymentUpdate → PaymentStatus
  | succeeded _ => .succeeded
  | failed _ => .failed
  | refunded => .refunded

def PaymentUpdate.apply : PaymentUpdate → Payment → Payment
  | succeeded ref, p => { p with status := .succeeded, providerRef := some ref }
  | failed reason, p => { p with status := .failed, failureReason := some reason }
  | refunded, p => { p with status := .refunded }

@[simp] theorem PaymentUpdate.apply_status (u : PaymentUpdate) (p : Payment) :
    (u.apply p).status = u.status := by cases u <;> rfl

theorem PaymentUpdate.apply_ne_pending (u : PaymentUpdate) (p : Payment) :
    (u.apply p).status ≠ .pending := by cases u <;> simp [PaymentUpdate.status]

@[simp] theorem PaymentUpdate.apply_key (u : PaymentUpdate) (p : Payment) :
    (u.apply p).idempotencyKey = p.idempotencyKey := by cases u <;> rfl

@[simp] theorem PaymentUpdate.apply_reservationId (u : PaymentUpdate) (p : Payment) :
    (u.apply p).reservationId = p.reservationId := by cases u <;> rfl

@[simp] theorem PaymentUpdate.apply_amountCents (u : PaymentUpdate) (p : Payment) :
    (u.apply p).amountCents = p.amountCents := by cases u <;> rfl

/-! ## Statements -/

inductive DbStatement where
  | listingFindUnique (id : Id)
  | begin
  | reservationCreate (data : ReservationData)
  | outboxCreate (aggregateId : Id) (payload : BookingHeld)
  | selectUnpublished (limit : Nat)
  | outboxMarkPublished (ids : List Id) (now : Int)
  | commit
  | rollback
  | reservationFindFirst (id guestId : Id)
  /-- `seen` is the status the caller read before; the statement ignores it. -/
  | reservationUpdate (id : Id) (status seen : ReservationStatus)
  | reservationUpdateMany (filter : ReservationWhere) (status : ReservationStatus)
  | reservationFindMany (filter : ReservationWhere)
  | reservationFindListing (id : Id)
  | reservationFindStatus (id : Id)
  | paymentFindUnique (key : IdempotencyKey)
  | paymentCreate (data : PaymentData)
  | paymentUpdate (key : IdempotencyKey) (data : PaymentUpdate)

namespace DbStatement

/-- What a statement answers with. -/
@[reducible] def Resp : DbStatement → Type
  | listingFindUnique _ => Option Listing
  | begin => Unit
  | reservationCreate _ => Reservation
  | outboxCreate _ _ => Unit
  | selectUnpublished _ => List OutboxRow
  | outboxMarkPublished _ _ => Nat
  | commit => Unit
  | rollback => Unit
  | reservationFindFirst _ _ => Option Reservation
  | reservationUpdate _ _ _ => Reservation
  | reservationUpdateMany _ _ => Nat
  | reservationFindMany _ => List Reservation
  | reservationFindListing _ => Option Id
  | reservationFindStatus _ => Option ReservationStatus
  | paymentFindUnique _ => Option Payment
  | paymentCreate _ => Unit
  | paymentUpdate _ _ => Payment

end DbStatement

namespace Database

/-- The columns of `priceTotalCents` and `amountCents` are 32-bit integers. -/
def fitsInteger (n : Int) : Bool := decide (-2147483648 ≤ n ∧ n ≤ 2147483647)

/-- No committed or pending row has this id. -/
def freshReservationId (d : Database) (id : Id) : Bool :=
  (d.reservations.find? id).isNone &&
    d.transactions.rows.all fun tx => tx.reservations.all fun r => r.id != id

def freshOutboxId (d : Database) (id : Id) : Bool :=
  (d.outbox.find? id).isNone &&
    d.transactions.rows.all fun tx => tx.outbox.all fun o => o.id != id

def setTransaction (d : Database) (t : Nat) (f : Transaction → Transaction)
    (hf : ∀ tx, (f tx).tid = tx.tid) : Database :=
  { d with transactions := d.transactions.update (fun tx => tx.tid == t) f hf }

def begin (d : Database) (t : Nat) : Database :=
  let tx : Transaction :=
    { tid := t, reservations := [], outbox := [], locked := [], published := [], publishedAt := 0 }
  { d with transactions := d.transactions.insert tx }

/-- `INSERT INTO reservations` inside the transaction of thread `t`.  `id` is the
generated UUID and `now` the clock of the database. -/
def reservationCreate (d : Database) (t : Nat) (id : Id) (now : Int) (data : ReservationData) :
    Option (Except Err Reservation × Database) :=
  match d.transactions.find? t, data.checkIn, data.checkOut, data.priceTotalCents,
    data.holdExpiresAt with
  | some tx, some checkIn, some checkOut, some price, some holdExpiresAt =>
    let row : Reservation :=
      { id := id, listingId := data.listingId, guestId := data.guestId, checkIn := checkIn,
        checkOut := checkOut, status := .held, priceTotalCents := price,
        holdExpiresAt := holdExpiresAt, createdAt := now }
    if !fitsInteger price then some (.error (.other "out of range for INTEGER"), d)
    else if checkOut < checkIn then some (.error (.driver none (some "22000")), d)
    else if (d.listings.find? data.listingId).isNone then some (.error (.known "P2003"), d)
    else if d.reservations.rows.any row.conflicts || tx.reservations.any row.conflicts then
      some (.error (.driver none (some "23P01")), d)
    -- An uncommitted row of another transaction decides nothing yet: wait for it.
    else if d.transactions.rows.any (fun tx' =>
        tx'.tid != t && tx'.reservations.any row.conflicts) then none
    else if !d.freshReservationId id then none
    else some (.ok row, d.setTransaction t
      (fun tx => { tx with reservations := tx.reservations ++ [row] }) fun _ => rfl)
  | _, _, _, _, _ => some (.error (.other "invalid value"), d)

/-- `INSERT INTO outbox` inside the transaction of thread `t`. -/
def outboxCreate (d : Database) (t : Nat) (id : Id) (now : Int) (aggregateId : Id)
    (payload : BookingHeld) : Option (Except Err Unit × Database) :=
  match d.transactions.find? t with
  | none => some (.error (.other "no transaction"), d)
  | some _ =>
    if !d.freshOutboxId id then none
    else
      let row : OutboxRow :=
        { id := id, aggregateId := aggregateId, payload := payload, publishedAt := none,
          createdAt := now }
      some (.ok (), d.setTransaction t (fun tx => { tx with outbox := tx.outbox ++ [row] })
        fun _ => rfl)

/-- The outbox rows of the relay's query, for thread `t`: unpublished, not locked
by another open transaction, oldest first. -/
def unpublished (d : Database) (t limit : Nat) : List OutboxRow :=
  ((d.outbox.rows.filter fun o => o.publishedAt.isNone &&
      d.transactions.rows.all fun tx => tx.tid == t || !tx.locked.contains o.id).insertionSort
    fun a b => a.createdAt ≤ b.createdAt).take limit

def selectUnpublished (d : Database) (t limit : Nat) : Except Err (List OutboxRow) × Database :=
  match d.transactions.find? t with
  | none => (.error (.other "no transaction"), d)
  | some _ =>
    let rows := d.unpublished t limit
    (.ok rows, d.setTransaction t
      (fun tx => { tx with locked := tx.locked ++ rows.map (·.id) }) fun _ => rfl)

def outboxMarkPublished (d : Database) (t : Nat) (ids : List Id) (now : Int) :
    Except Err Nat × Database :=
  match d.transactions.find? t with
  | none => (.error (.other "no transaction"), d)
  | some _ =>
    (.ok (d.outbox.rows.countP fun o => ids.contains o.id), d.setTransaction t
      (fun tx => { tx with published := tx.published ++ ids, publishedAt := now }) fun _ => rfl)

/-- Make the writes of a transaction visible. -/
def apply (d : Database) (tx : Transaction) : Database :=
  { d with
    reservations := d.reservations.insertAll tx.reservations,
    outbox := (d.outbox.insertAll tx.outbox).update (fun o => tx.published.contains o.id)
      (fun o => { o with publishedAt := some tx.publishedAt }) fun _ => rfl,
    transactions := d.transactions.erase fun tx' => tx'.tid == tx.tid }

def commit (d : Database) (t : Nat) : Except Err Unit × Database :=
  match d.transactions.find? t with
  | none => (.error (.other "no transaction"), d)
  | some tx => (.ok (), d.apply tx)

/-- Also what the server does when the connection of thread `t` is lost. -/
def rollback (d : Database) (t : Nat) : Database :=
  { d with transactions := d.transactions.erase fun tx => tx.tid == t }

def reservationUpdate (d : Database) (t : Nat) (id : Id) (status : ReservationStatus) :
    Except Err Reservation × Database :=
  match d.reservations.find? id with
  | none => (.error (.known "P2025"), d)
  | some r =>
    let change : StatusChange := { tid := t, id := id, old := r.status, new := status }
    (.ok { r with status := status },
      { d with
        reservations := d.reservations.update (fun r => r.id == id)
          (fun r => { r with status := status }) fun _ => rfl,
        statusLog := d.statusLog ++ [change] })

def reservationUpdateMany (d : Database) (t : Nat) (filter : ReservationWhere)
    (status : ReservationStatus) : Nat × Database :=
  let rows := d.reservations.rows.filter filter.matches
  let change (r : Reservation) : StatusChange :=
    { tid := t, id := r.id, old := r.status, new := status }
  (rows.length,
    { d with
      reservations := d.reservations.update filter.matches
        (fun r => { r with status := status }) fun _ => rfl,
      statusLog := d.statusLog ++ rows.map change })

def paymentCreate (d : Database) (id : Id) (data : PaymentData) : Except Err Unit × Database :=
  if (d.reservations.find? data.reservationId).isNone then (.error (.known "P2003"), d)
  else if (d.payments.find? data.idempotencyKey).isSome then (.error (.known "P2002"), d)
  else
    let row : Payment :=
      { id := id, reservationId := data.reservationId, status := .pending, providerRef := none,
        idempotencyKey := data.idempotencyKey, amountCents := data.amountCents,
        failureReason := none }
    (.ok (), { d with payments := d.payments.insert row })

def paymentUpdate (d : Database) (key : IdempotencyKey) (data : PaymentUpdate) :
    Except Err Payment × Database :=
  match d.payments.find? key with
  | none => (.error (.known "P2025"), d)
  | some p =>
    let change : PaymentChange := { key := key, old := p.status, new := data.status }
    (.ok (data.apply p),
      { d with
        payments := d.payments.update (fun p => p.idempotencyKey == key) data.apply
          data.apply_key,
        paymentLog := d.paymentLog ++ [change] })

/-- One statement of thread `t`.  `id` is the UUID a created row gets, `now` the
clock.  `none` means that the statement has to wait. -/
def perform (t : Nat) (id : Id) (now : Int) :
    (o : DbStatement) → Database → Option (Except Err o.Resp × Database)
  | .listingFindUnique lid, d => some (.ok (d.listings.find? lid), d)
  | .begin, d =>
    some (.ok (), d.begin t)
  | .reservationCreate data, d => d.reservationCreate t id now data
  | .outboxCreate aggregateId payload, d => d.outboxCreate t id now aggregateId payload
  | .selectUnpublished limit, d => some (d.selectUnpublished t limit)
  | .outboxMarkPublished ids at', d => some (d.outboxMarkPublished t ids at')
  | .commit, d => some (d.commit t)
  | .rollback, d => some (.ok (), d.rollback t)
  | .reservationFindFirst rid guestId, d =>
    some (.ok ((d.reservations.find? rid).filter fun r => r.guestId == guestId), d)
  | .reservationUpdate rid status _, d => some (d.reservationUpdate t rid status)
  | .reservationUpdateMany filter status, d =>
    some ((fun nd => (.ok nd.1, nd.2)) (d.reservationUpdateMany t filter status))
  | .reservationFindMany filter, d => some (.ok (d.reservations.rows.filter filter.matches), d)
  | .reservationFindListing rid, d =>
    some (.ok ((d.reservations.find? rid).map (·.listingId)), d)
  | .reservationFindStatus rid, d => some (.ok ((d.reservations.find? rid).map (·.status)), d)
  | .paymentFindUnique key, d => some (.ok (d.payments.find? key), d)
  | .paymentCreate data, d => some (d.paymentCreate id data)
  | .paymentUpdate key data, d => some (d.paymentUpdate key data)

end Database

end NoOverlap
