import NoOverlap.Concurrency.Alone
import NoOverlap.Holds.Account
import NoOverlap.Platform.Bodies
import NoOverlap.Stays.Nights

/-!
# Holds on validated input

A hold that runs alone on a healthy database, from the body of its request on.  The two
comparisons that guard the dates let an invalid date pass, and nothing bounds the price.
`Overlooked` is what they let through that the insert then refuses; every other request ends
with a reservation or with one of the three errors meant for the guest.
-/

namespace NoOverlap

open Relational Calendar Concurrency
open Concurrency.Prog

/-! ## The body of a request -/

section Bodies

open Platform Json

/-- `@IsUUID()` or `@IsDateString()`. -/
def isStringOf (check : String → Bool) : Check
  | .string s => check s
  | _ => false

/-- The decorators of `CreateReservationDto`. -/
def CreateReservationDto.declared (isUUID isDateString : String → Bool) : Declared :=
  [("listingId", isStringOf isUUID), ("checkIn", isStringOf isDateString),
    ("checkOut", isStringOf isDateString)]

/-- The data of a hold: the id, and `new Date(…)` of the two dates. -/
def CreateReservationDto.read (ofId : String → Id) (ofDate : String → JsDate) (data : Value) :
    Option CreateReservationDto := do
  let listingId ← Schema.string (data.get "listingId")
  let checkIn ← Schema.string (data.get "checkIn")
  let checkOut ← Schema.string (data.get "checkOut")
  pure { listingId := ofId listingId, checkIn := ofDate checkIn, checkOut := ofDate checkOut }

theorem string_of_check {check : String → Bool} {v : Value} (h : isStringOf check v = true) :
    ∃ s, v = .string s := by
  cases v with
  | string s => exact ⟨s, rfl⟩
  | _ => cases h

/-- Every body that passes the pipe can be read. -/
theorem read_of_pipe {isUUID isDateString : String → Bool} {body data : Value}
    (h : pipe (CreateReservationDto.declared isUUID isDateString) body = some data)
    (ofId : String → Id) (ofDate : String → JsDate) :
    ∃ dto, CreateReservationDto.read ofId ofDate data = some dto := by
  obtain ⟨l, hl⟩ := string_of_check (check_of_pipe h (p := ("listingId", _)) List.mem_cons_self)
  obtain ⟨i, hi⟩ := string_of_check (check_of_pipe h (p := ("checkIn", _))
    (List.mem_cons_of_mem _ List.mem_cons_self))
  obtain ⟨o, ho⟩ := string_of_check (check_of_pipe h (p := ("checkOut", _))
    (List.mem_cons_of_mem _ (List.mem_cons_of_mem _ List.mem_cons_self)))
  exact ⟨_, by simp only [CreateReservationDto.read, hl, hi, ho]; rfl⟩

end Bodies

namespace Holds

/-! ## A healthy database -/

/-- The database does not fail.  Redis may. -/
def healthy (o : Statement) (ch : Choice) : Choice :=
  match o with
  | .redis _ => ch
  | _ => { ch with fault := .none }

def serve (t : Nat) (ch : Choice) (o : Statement) (s : Store) :
    Option (Except Err o.Resp × Store) :=
  o.exec t (healthy o ch) s

/-- The UUIDs that are drawn are new. -/
def Fresh (d : Database) (ch : Choice) : Prop :=
  d.freshReservationId ch.id = true ∧ d.freshOutboxId ch.id = true

/-- The store within the transaction `tx`, which nothing else runs beside. -/
structure Within (d : Database) (tx : Transaction) (s : Store) : Prop where
  listings : s.db.listings = d.listings
  reservations : s.db.reservations = d.reservations
  outbox : s.db.outbox = d.outbox
  transactions : s.db.transactions.rows = [tx]

variable {d : Database} {s s' : Store} {t : Nat} {ch : Choice} {tx : Transaction}
  {rs : List Reservation}

theorem Within.find (h : Within d tx s) : s.db.transactions.find? tx.tid = some tx := by
  refine Table.find?_eq_some.mpr ⟨?_, rfl⟩
  rw [h.transactions]
  exact List.mem_singleton_self tx

theorem serve_db {o : DbStatement} :
    serve t ch (.db o) s = (Database.perform t ch.id ch.now o s.db).map fun x =>
      (x.1, { s with db := x.2 }) := Statement.exec_of_fault_none rfl

theorem Within.update (h : Within d tx s) (f : Transaction → Transaction)
    (hf : ∀ tx, (f tx).tid = tx.tid) :
    Within d (f tx) { s with db := s.db.setTransaction tx.tid f hf } := by
  refine ⟨h.listings, h.reservations, h.outbox, ?_⟩
  simp [Database.setTransaction, Table.update, h.transactions]

theorem within_begin (hq : s.db.transactions.rows = []) :
    Within s.db (holding t [] []) { s with db := s.db.begin t } := by
  refine ⟨rfl, rfl, rfl, ?_⟩
  have hnone : s.db.transactions.find? t = none :=
    Table.find?_eq_none.mpr (by rw [hq]; intro _ h; cases h)
  simp only [Database.begin]
  rw [Table.insert_of_fresh (by exact hnone), hq]
  rfl

/-! ## The insert -/

variable {dto : CreateReservationDto} {price : Option Int}

/-- The dates are valid and the price fits its column. -/
structure Storable (dto : CreateReservationDto) (price : Option Int) : Prop where
  checkIn : dto.checkIn.isSome = true
  checkOut : dto.checkOut.isSome = true
  price : price.any Database.fitsInteger = true

/-- The row is what was asked for. -/
structure RowOf (dto : CreateReservationDto) (price : Option Int) (v : Reservation) : Prop where
  checkIn : dto.checkIn = some v.checkIn
  checkOut : dto.checkOut = some v.checkOut
  price : price = some v.priceTotalCents

/-- Neither a refusal by the constraint nor a deadlock, nor an exception of the application. -/
def internal (e : Err) : Bool := !e.isExclusionViolation && !e.isDeadlock && !e.isApp

/-- What an insert that runs alone fails with. -/
def Refused (dto : CreateReservationDto) (price : Option Int) (e : Err) : Prop :=
  Storable dto price ∧ e.isExclusionViolation = true ∨ ¬Storable dto price ∧ internal e = true

/-- How an insert ends that runs alone. -/
def Inserted (d : Database) (t : Nat) (ch : Choice) (dto : CreateReservationDto)
    (price : Option Int) : Except Err Reservation → Store → Prop
  | .ok v, s => Storable dto price ∧ RowOf dto price v ∧ v.id = ch.id ∧
      Within d (holding t [v] []) s
  | .error e, _ => Refused dto price e

theorem insert_cases (price : Option Int) (hin : Within d (holding t [] []) s) (hfresh : Fresh d ch)
    (hl : (d.listings.find? dto.listingId).isSome = true)
    (hord : dto.checkOut.lt dto.checkIn = false) (guestId : Id) (expires : Int) :
    ∃ r s', serve t ch (.db (.reservationCreate ⟨dto.listingId, guestId, dto.checkIn,
      dto.checkOut, price, some expires⟩)) s = some (r, s') ∧ Inserted d t ch dto price r s' := by
  have hfind : s.db.transactions.find? t = some (holding t [] []) := hin.find
  obtain ⟨lid, checkIn, checkOut⟩ := dto
  rw [serve_db]
  simp only [Database.perform, Database.reservationCreate, hfind]
  have hinvalid : ¬Storable ⟨lid, checkIn, checkOut⟩ price →
      Inserted d t ch ⟨lid, checkIn, checkOut⟩ price (.error (.other "invalid value")) s :=
    fun h => .inr ⟨h, rfl⟩
  cases checkIn with
  | none => exact ⟨_, _, rfl, hinvalid fun h => by cases h.checkIn⟩
  | some a =>
  cases checkOut with
  | none => exact ⟨_, _, rfl, hinvalid fun h => by cases h.checkOut⟩
  | some b =>
  cases price with
  | none => exact ⟨_, _, rfl, hinvalid fun h => by cases h.price⟩
  | some p =>
  have hle : ¬b < a := by simpa [JsDate.lt] using hord
  have hlisting : (s.db.listings.find? lid).isNone = false := by
    rw [hin.listings, ← Option.not_isSome, hl]
    rfl
  by_cases hfits : Database.fitsInteger p = true
  · have hstorable : Storable ⟨lid, some a, some b⟩ (some p) := ⟨rfl, rfl, hfits⟩
    have hnobody : s.db.transactions.rows.any (fun tx' => tx'.tid != t &&
        tx'.reservations.any (Reservation.conflicts
          ⟨ch.id, lid, guestId, a, b, .held, p, expires, ch.now⟩)) = false := by
      rw [hin.transactions]
      simp [holding]
    have hid : s.db.freshReservationId ch.id = true := by
      have hnone := (Bool.and_eq_true_iff.mp hfresh.1).1
      rw [Database.freshReservationId, hin.reservations, hin.transactions, hnone]
      rfl
    simp only [hfits, hle, hlisting, hnobody, hid, Bool.not_true, Bool.false_eq_true, if_false,
      holding, List.any_nil, Bool.or_false]
    by_cases hconf : (s.db.reservations.rows.any (Reservation.conflicts
        ⟨ch.id, lid, guestId, a, b, .held, p, expires, ch.now⟩)) = true
    · rw [if_pos hconf]
      have hrefused : Inserted d t ch ⟨lid, some a, some b⟩ (some p)
          (.error (.driver none (some "23P01"))) s := .inl ⟨hstorable, rfl⟩
      exact ⟨_, _, rfl, hrefused⟩
    · rw [if_neg hconf]
      have hadded := hin.update (fun tx => { tx with reservations := tx.reservations ++
        [⟨ch.id, lid, guestId, a, b, .held, p, expires, ch.now⟩] }) fun _ => rfl
      exact ⟨_, _, rfl, hstorable, ⟨rfl, rfl, rfl⟩, rfl, hadded⟩
  · have hlarge : Inserted d t ch ⟨lid, some a, some b⟩ (some p)
        (.error (.other "out of range for INTEGER")) s := .inr ⟨fun h => hfits h.price, rfl⟩
    exact ⟨_, s, by simp [hfits], hlarge⟩

/-! ## The attempt -/

/-- A statement that answers and leaves the store alone. -/
theorem serve_newDate : serve t ch (.host .newDate) s = some (.ok ch.now, s) := rfl

theorem serve_inject : serve t ch (.host .inject) s = some (.ok ch.trace, s) := rfl

theorem outbox_of_within (hin : Within d (holding t rs []) s) (hfresh : Fresh d ch) (id : Id)
    (payload : BookingHeld) :
    ∃ s' o, serve t ch (.db (.outboxCreate id payload)) s = some (.ok (), s') ∧
      Within d (holding t rs [o]) s' := by
  have hfind : s.db.transactions.find? t = some (holding t rs []) := hin.find
  have hid : s.db.freshOutboxId ch.id = true := by
    have hnone := (Bool.and_eq_true_iff.mp hfresh.2).1
    rw [Database.freshOutboxId, hin.outbox, hin.transactions, hnone]
    rfl
  rw [serve_db]
  simp only [Database.perform, Database.outboxCreate, hfind, hid, Bool.not_true,
    Bool.false_eq_true, if_false]
  have hadded := hin.update (fun tx => { tx with outbox := tx.outbox ++
    [⟨ch.id, id, payload, none, ch.now⟩] }) fun _ => rfl
  exact ⟨_, _, rfl, hadded⟩

/-- A commit that runs alone makes the row visible. -/
theorem commit_of_within {v : Reservation} {os : List OutboxRow}
    (hin : Within d (holding t [v] os) s) (hnew : d.reservations.find? v.id = none) :
    ∃ s', serve t ch (.db .commit) s = some (.ok (), s') ∧ v ∈ s'.db.reservations.rows := by
  have hfind : s.db.transactions.find? t = some (holding t [v] os) := hin.find
  have hnone : s.db.reservations.find? (key v) = none := by
    rw [hin.reservations]
    exact hnew
  rw [serve_db]
  simp only [Database.perform, Database.commit, hfind]
  refine ⟨_, rfl, ?_⟩
  show v ∈ (s.db.reservations.insert v).rows
  rw [Table.insert_of_fresh hnone]
  exact List.mem_append_right _ (List.mem_singleton_self v)

/-- How an attempt ends that runs alone. -/
def Attempted (dto : CreateReservationDto) (price : Option Int) :
    Except Err Reservation → Store → Prop
  | .ok v, s => Storable dto price ∧ RowOf dto price v ∧ v ∈ s.db.reservations.rows
  | .error e, _ => Refused dto price e

theorem completes_claimSlot (price : Option Int) (hq : s.db.transactions.rows = [])
    (hl : (s.db.listings.find? dto.listingId).isSome = true)
    (hord : dto.checkOut.lt dto.checkIn = false) (ttl : Int) (guestId : Id) :
    Completes (serve t) (Fresh s.db) (Attempted dto price) (claimSlot ttl guestId dto price) s := by
  refine Completes.tryCatch (Completes.op_bind fun ch₁ _ => ⟨_, _, serve_db.trans rfl, ?_⟩)
  have hbegin := within_begin (t := t) hq
  refine Completes.bind (Completes.op_bind fun ch₂ _ => ⟨_, _, serve_newDate, ?_⟩)
  refine Completes.op_bind fun ch₃ hfresh₃ => ?_
  obtain ⟨r, s₃, hx, hinserted⟩ :=
    insert_cases price hbegin hfresh₃ hl hord guestId (ch₂.now + ttl)
  refine ⟨r, s₃, hx, ?_⟩
  cases r with
  | error e => exact Completes.op_bind fun ch₄ _ => ⟨_, _, serve_db.trans rfl, hinserted⟩
  | ok v =>
  obtain ⟨hstorable, hrow, hid, hin⟩ := hinserted
  refine Completes.op_bind fun ch₄ _ => ⟨_, _, serve_inject, ?_⟩
  refine Completes.op_bind fun ch₅ hfresh₅ => ?_
  obtain ⟨s₅, o, hout, hin₅⟩ := outbox_of_within hin hfresh₅ v.id (bookingHeld v ch₄.trace)
  refine ⟨_, s₅, hout, ?_⟩
  have hnew : s.db.reservations.find? v.id = none := by
    rw [hid]
    exact Option.isNone_iff_eq_none.mp (Bool.and_eq_true_iff.mp hfresh₃.1).1
  refine Completes.op_bind fun ch₆ _ => ?_
  have hcommits : ∃ s', serve t ch₆ (.db .commit) s₅ = some (.ok (), s') ∧
      v ∈ s'.db.reservations.rows := commit_of_within hin₅ hnew
  obtain ⟨s₆, hcommit, hmem⟩ := hcommits
  exact ⟨_, s₆, hcommit, hstorable, hrow, hmem⟩

/-! ## The hold -/

/-- How the attempts end of a hold that runs alone. -/
def Claimed (dto : CreateReservationDto) (price : Option Int) :
    Except Err Reservation → Store → Prop
  | .ok v, s => Storable dto price ∧ RowOf dto price v ∧ v ∈ s.db.reservations.rows
  | .error e, _ => Storable dto price ∧ e = slotTaken ∨ ¬Storable dto price ∧ internal e = true

theorem completes_claimWithRetry (hq : s.db.transactions.rows = [])
    (hl : (s.db.listings.find? dto.listingId).isSome = true)
    (hord : dto.checkOut.lt dto.checkIn = false) (ttl : Int) (guestId : Id) :
    Completes (serve t) (Fresh s.db) (Claimed dto price)
      (claimWithRetry ttl guestId dto price) s := by
  refine Completes.tryCatch (Completes.tryCatch
    ((completes_claimSlot price hq hl hord ttl guestId).imp fun r s' h => ?_))
  cases r with
  | ok v => exact h
  | error e =>
    have hdead : e.isDeadlock = false := by
      rcases h with ⟨-, hexcl⟩ | ⟨-, hinternal⟩
      · exact not_deadlock_of_exclusion hexcl
      · simp only [internal, Bool.and_eq_true, Bool.not_eq_true'] at hinternal
        exact hinternal.1.2
    -- No attempt follows the first.
    simp only [Handled, hdead, Bool.not_false, if_true]
    rcases h with ⟨hstorable, hexcl⟩ | ⟨hnot, hinternal⟩
    · show Completes (serve t) (Fresh s.db) _ (ite _ _ _) s'
      rw [if_pos hexcl]
      exact Completes.op_bind fun ch _ => ⟨_, _, rfl, .inl ⟨hstorable, rfl⟩⟩
    · have hexcl : ¬e.isExclusionViolation = true := by
        simp only [internal, Bool.and_eq_true, Bool.not_eq_true'] at hinternal
        simp [hinternal.1.1]
      show Completes (serve t) (Fresh s.db) _ (ite _ _ _) s'
      rw [if_neg hexcl]
      exact .inr ⟨hnot, hinternal⟩

theorem completes_publish {C : Choice → Prop} {listingId reservationId : Id}
    {status : ReservationStatus} :
    Completes (serve t) C (fun r s' => r = .ok () ∧ s'.db = s.db)
      (publishReservationChanged listingId reservationId status) s := by
  have hanswers : ∀ (o : RedisStatement) (ch : Choice) (s : Store),
      ∃ r s', serve t ch (.redis o) s = some (r, s') ∧ s'.db = s.db := by
    intro o ch s
    simp only [serve, healthy, Statement.exec, Statement.fallible]
    split <;> exact ⟨_, _, rfl, rfl⟩
  refine Completes.tryCatch (Completes.op_bind fun ch _ => ?_)
  obtain ⟨r, s₁, hx, hdb⟩ := hanswers (.incr listingId) ch s
  refine ⟨r, s₁, hx, ?_⟩
  cases r with
  | error e => exact ⟨rfl, hdb⟩
  | ok seq =>
    intro ch' _
    obtain ⟨r', s₂, hx', hdb'⟩ := hanswers (.emit ⟨listingId, reservationId, status, seq⟩) ch' s₁
    refine ⟨r', s₂, hx', ?_⟩
    cases r' with
    | error e => exact ⟨rfl, hdb'.trans hdb⟩
    | ok u => exact ⟨rfl, hdb'.trans hdb⟩

/-- What a hold may come to: a reservation within its bounds, or an error that is meant for
the guest.  A check-out beyond the year 9999 is within them, although what is answered to it
reads back as an invalid date. -/
def Meant (now : Int) : Except Err Reservation → Store → Prop
  | .ok v, s => v ∈ s.db.reservations.rows ∧ now ≤ v.checkIn ∧ v.checkIn < v.checkOut ∧
      Database.fitsInteger v.priceTotalCents = true
  | .error e, _ => ∃ code detail, e = .app code detail ∧
      code ∈ [ErrorCode.validationFailed, .notFound, .reservationSlotTaken]

/-- The two comparisons and the listing let through what the insert refuses: a date that is no
date, or a stay whose price leaves its column. -/
def Overlooked (now : Int) (dto : CreateReservationDto) (listings : Table Listing) : Prop :=
  dto.checkOut.le dto.checkIn = false ∧ dto.checkIn.lt (some now) = false ∧
    ∃ l, listings.find? dto.listingId = some l ∧ l.active = true ∧
      ∀ a b, dto.checkIn = some a → dto.checkOut = some b →
        Database.fitsInteger ((readDay b - readDay a) * l.nightlyPriceCents) = false

theorem lt_of_le_false {a b : JsDate} (h : a.le b = false) : a.lt b = false := by
  cases a with
  | none => rfl
  | some a =>
    cases b with
    | none => rfl
    | some b =>
      have hlt : ¬a ≤ b := by simpa [JsDate.le] using h
      exact decide_eq_false fun hab => hlt hab.le

theorem storable_iff {rate : Int} :
    Storable dto (priceTotal dto.checkIn dto.checkOut rate) ↔
      ¬∀ a b, dto.checkIn = some a → dto.checkOut = some b →
        Database.fitsInteger ((readDay b - readDay a) * rate) = false := by
  obtain ⟨lid, checkIn, checkOut⟩ := dto
  constructor
  · rintro ⟨hin, hout, hprice⟩ hall
    obtain ⟨a, rfl⟩ := Option.isSome_iff_exists.mp hin
    obtain ⟨b, rfl⟩ := Option.isSome_iff_exists.mp hout
    simp only [priceTotal, nights_eq_readDay, Option.any_some, hall a b rfl rfl] at hprice
    cases hprice
  · intro h
    push Not at h
    obtain ⟨a, b, rfl, rfl, hfits⟩ := h
    refine ⟨rfl, rfl, ?_⟩
    simpa only [priceTotal, nights_eq_readDay, Option.any_some, Bool.not_eq_false] using hfits

theorem meant_of_claimed {now : Int} {l : Listing} {r : Except Err Reservation}
    (hlate : dto.checkOut.le dto.checkIn = false) (hpast : dto.checkIn.lt (some now) = false)
    (hfind : s.db.listings.find? dto.listingId = some l) (hactive : l.active = true)
    (h : Claimed dto (priceTotal dto.checkIn dto.checkOut l.nightlyPriceCents) r s') :
    Meant now r s' ↔ ¬Overlooked now dto s.db.listings := by
  have hover : Overlooked now dto s.db.listings ↔
      ¬Storable dto (priceTotal dto.checkIn dto.checkOut l.nightlyPriceCents) := by
    rw [storable_iff, not_not]
    constructor
    · rintro ⟨-, -, l', hl', -, hall⟩
      cases hfind.symm.trans hl'
      exact hall
    · exact fun hall => ⟨hlate, hpast, l, hfind, hactive, hall⟩
  rw [hover, not_not]
  cases r with
  | ok v =>
    obtain ⟨hstorable, hrow, hmem⟩ := h
    refine ⟨fun _ => hstorable, fun _ => ⟨hmem, ?_, ?_, ?_⟩⟩
    · simpa [JsDate.lt, hrow.checkIn] using hpast
    · simpa [JsDate.le, hrow.checkIn, hrow.checkOut] using hlate
    · simpa [hrow.price] using hstorable.price
  | error e =>
    rcases h with ⟨hstorable, rfl⟩ | ⟨hnot, hinternal⟩
    · exact ⟨fun _ => hstorable, fun _ => ⟨_, _, rfl, by decide⟩⟩
    · refine ⟨?_, fun h => (hnot h).elim⟩
      rintro ⟨code, detail, rfl, -⟩
      cases hinternal

/-- `hold` after it has read its clock. -/
def holdAt (now ttl : Int) (guestId : Id) (dto : CreateReservationDto) : Async Reservation :=
  if dto.checkOut.le dto.checkIn then
    throw (.app .validationFailed (some "checkOut must be after checkIn."))
  else if dto.checkIn.lt (some now) then
    throw (.app .validationFailed (some "checkIn must be in the future."))
  else do
    match ← prisma.listingFindUnique dto.listingId with
    | none => throw (.app .notFound none)
    | some listing =>
      if !listing.active then throw (.app .notFound none)
      else
        let held ← claimWithRetry ttl guestId dto
          (priceTotal dto.checkIn dto.checkOut listing.nightlyPriceCents)
        recordAttempt .held
        publishReservationChanged held.listingId held.id .held
        pure held

theorem hold_eq (ttl : Int) (guestId : Id) (dto : CreateReservationDto) :
    hold ttl guestId dto = newDate >>= fun now => holdAt now ttl guestId dto := rfl

theorem completes_holdAt (hq : s.db.transactions.rows = []) (now ttl : Int) (guestId : Id)
    (dto : CreateReservationDto) :
    Completes (serve t) (Fresh s.db)
      (fun r s' => Meant now r s' ↔ ¬Overlooked now dto s.db.listings)
      (holdAt now ttl guestId dto) s := by
  have hmeant : ∀ {code : ErrorCode} {detail : Option String} {s' : Store},
      code ∈ [ErrorCode.validationFailed, .notFound, .reservationSlotTaken] →
      ¬Overlooked now dto s.db.listings →
      (Meant now (.error (.app code detail)) s' ↔ ¬Overlooked now dto s.db.listings) :=
    fun hcode hnot => iff_of_true ⟨_, _, rfl, hcode⟩ hnot
  unfold holdAt
  by_cases hlate : dto.checkOut.le dto.checkIn = true
  · rw [if_pos hlate]
    exact hmeant (by decide) fun h => by rw [h.1] at hlate; cases hlate
  rw [if_neg hlate]
  by_cases hpast : dto.checkIn.lt (some now) = true
  · rw [if_pos hpast]
    exact hmeant (by decide) fun h => by rw [h.2.1] at hpast; cases hpast
  rw [if_neg hpast]
  refine Completes.op_bind fun ch _ => ⟨_, _, serve_db.trans rfl, ?_⟩
  have hread : ∀ l, s.db.listings.find? dto.listingId = l →
      Completes (serve t) (Fresh s.db)
        (fun r s' => Meant now r s' ↔ ¬Overlooked now dto s.db.listings)
        (match l with
          | none => throw (.app .notFound none)
          | some listing =>
            if !listing.active then throw (.app .notFound none)
            else do
              let held ← claimWithRetry ttl guestId dto
                (priceTotal dto.checkIn dto.checkOut listing.nightlyPriceCents)
              recordAttempt .held
              publishReservationChanged held.listingId held.id .held
              pure held) s := by
    intro l hfind
    cases l with
    | none =>
      refine hmeant (by decide) fun h => ?_
      obtain ⟨-, -, l, hl, -⟩ := h
      cases hfind.symm.trans hl
    | some l =>
    by_cases hactive : l.active = true
    · simp only [hactive, Bool.not_true, Bool.false_eq_true, if_false]
      have hlisted : (s.db.listings.find? dto.listingId).isSome = true := by rw [hfind]; rfl
      have hlate : dto.checkOut.le dto.checkIn = false := by simpa using hlate
      have hpast : dto.checkIn.lt (some now) = false := by simpa using hpast
      have hord : dto.checkOut.lt dto.checkIn = false := lt_of_le_false hlate
      refine Completes.bind ((completes_claimWithRetry hq hlisted hord ttl guestId).imp
        fun r s₁ hclaimed => ?_)
      have hiff := meant_of_claimed hlate hpast hfind hactive hclaimed
      cases r with
      | error e => exact hiff
      | ok v =>
        refine Completes.op_bind fun ch₂ _ => ⟨_, _, rfl, ?_⟩
        refine Completes.bind (completes_publish.imp fun r s₂ hpublished => ?_)
        obtain ⟨rfl, hdb⟩ := hpublished
        have hsame : Meant now (.ok v) s₂ ↔ Meant now (.ok v) s₁ := by
          simp only [Meant, hdb]
        exact hsame.trans hiff
    · have hinactive : l.active = false := by simpa using hactive
      simp only [hinactive, Bool.not_false, if_true]
      refine hmeant (by decide) fun h => ?_
      obtain ⟨-, -, l', hl, hactive', -⟩ := h
      cases hfind.symm.trans hl
      exact hactive hactive'
  exact hread _ rfl

/-- A hold on a body that passed the pipe, on a healthy database where no other call runs. -/
theorem holds_on_validated_input {isUUID isDateString : String → Bool} {ofId : String → Id}
    {ofDate : String → JsDate} {body data : Json.Value} {c : Nat → Choice}
    (hpipe : Platform.pipe (CreateReservationDto.declared isUUID isDateString) body = some data)
    (hq : s.db.transactions.rows = []) (hfresh : ∀ n, Fresh s.db (c n)) (ttl : Int)
    (guestId : Id) :
    ∃ dto r s', CreateReservationDto.read ofId ofDate data = some dto ∧
      (hold ttl guestId dto).alone (serve t) c s = some (r, s') ∧
      (Meant (c 0).now r s' ↔ ¬Overlooked (c 0).now dto s.db.listings) := by
  obtain ⟨dto, hread⟩ := read_of_pipe hpipe ofId ofDate
  obtain ⟨r, s', hrun, hiff⟩ := (completes_holdAt (t := t) hq (c 0).now ttl guestId dto).alone
    fun n => hfresh (n + 1)
  exact ⟨dto, r, s', hread, hrun, hiff⟩

namespace Scenario

/-- `new Date`, as far as it is used below.  It cannot read the week `2026-W31`. -/
def date (text : String) : JsDate :=
  if text = "2026-08-01" then some 1785542400000
  else if text = "2026-08-03" then some 1785715200000
  else none

def body (checkIn checkOut : String) : Json.Value :=
  .object [("listingId", .string "7"), ("checkIn", .string checkIn), ("checkOut", .string checkOut)]

/-- A store with one listing at this rate. -/
def store (rate : Int) : Store :=
  Store.init (Table.empty.insert { id := 7, nightlyPriceCents := rate, active := true })

/-- On the day before, and the row gets the id 10. -/
def choices (_ : Nat) : Choice := { id := 10, now := 1785456000000 }

def asked (checkIn checkOut : String) : CreateReservationDto :=
  { listingId := 7, checkIn := date checkIn, checkOut := date checkOut }

/-- The body passes the pipe, is read, and its hold ends with this error. -/
def EndsWith (rate : Int) (checkIn checkOut : String) (e : Err) : Prop :=
  Platform.pipe (CreateReservationDto.declared (fun _ => true) fun _ => true)
      (body checkIn checkOut) = some (body checkIn checkOut) ∧
    CreateReservationDto.read (fun _ => 7) date (body checkIn checkOut) =
      some (asked checkIn checkOut) ∧
    ∃ s', (hold 900000 1 (asked checkIn checkOut)).alone (serve 0) choices (store rate) =
      some (.error e, s')

theorem fresh (rate : Int) (n : Nat) : Fresh (store rate).db (choices n) := ⟨rfl, rfl⟩

end Scenario

/-- Two nights at a hundred cents. -/
theorem holds_on_validated_input_two_nights :
    ∃ dto r s', CreateReservationDto.read (fun _ => 7) Scenario.date
        (Scenario.body "2026-08-01" "2026-08-03") = some dto ∧
      (hold 900000 1 dto).alone (serve 0) Scenario.choices (Scenario.store 100) = some (r, s') ∧
      (Meant (Scenario.choices 0).now r s' ↔
        ¬Overlooked (Scenario.choices 0).now dto (Scenario.store 100).db.listings) :=
  have hpipe : Platform.pipe (CreateReservationDto.declared (fun _ => true) fun _ => true)
      (Scenario.body "2026-08-01" "2026-08-03") = some (Scenario.body "2026-08-01" "2026-08-03") :=
    rfl
  holds_on_validated_input hpipe rfl (Scenario.fresh 100) 900000 1

/-- A week for a date, and two nights at the highest rate that a listing can have. -/
theorem not_holds_on_validated_input :
    Scenario.EndsWith 100 "2026-08-01" "2026-W31" (.other "invalid value") ∧
      Scenario.EndsWith 2147483647 "2026-08-01" "2026-08-03" (.other "out of range for INTEGER") ∧
      ∀ message s, ¬Meant (Scenario.choices 0).now (.error (.other message)) s := by
  refine ⟨⟨rfl, rfl, _, rfl⟩, ⟨rfl, rfl, _, rfl⟩, ?_⟩
  rintro message s ⟨code, detail, he, -⟩
  cases he

end Holds

end NoOverlap
