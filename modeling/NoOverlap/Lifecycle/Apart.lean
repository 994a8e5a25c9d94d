import Mathlib.Data.List.Flatten
import Mathlib.Data.List.Pairwise
import NoOverlap.Lifecycle.Effect

/-!
# Rows that stand side by side

The exclusion constraint is checked on inserts only, so the invariant has to
cover the rows that are inserted but not yet committed: of the rows that exist or
may still come to exist, no two have one id, and no two active ones of a listing
intersect.  An insert is checked against all of them, a commit moves rows from
one side to the other, and a status write never makes a row active that was not.
-/

namespace NoOverlap

open Relational Concurrency

/-- `r` is a later form of `r₀` that is in nobody's way if `r₀` was not. -/
structure Reservation.Weaker (r r₀ : Reservation) : Prop where
  id : r.id = r₀.id
  listingId : r.listingId = r₀.listingId
  checkIn : r.checkIn = r₀.checkIn
  checkOut : r.checkOut = r₀.checkOut
  active : r.status.active = true → r₀.status.active = true

/-- Two rows that may stand side by side. -/
def Reservation.Separate (r r' : Reservation) : Prop := r.id ≠ r'.id ∧ r.conflicts r' = false

namespace Reservation

theorem Weaker.refl (r : Reservation) : r.Weaker r := ⟨rfl, rfl, rfl, rfl, fun h => h⟩

theorem rangesIntersect_comm (a b c d : Int) :
    rangesIntersect a b c d = rangesIntersect c d a b := by
  rw [rangesIntersect, rangesIntersect, max_comm, min_comm]

theorem conflicts_comm (r r' : Reservation) : r.conflicts r' = r'.conflicts r := by
  have hl : (r.listingId == r'.listingId) = (r'.listingId == r.listingId) := BEq.comm
  rw [conflicts, conflicts, rangesIntersect_comm r.checkIn, Bool.and_comm r.status.active, hl]

theorem Separate.symm {r r' : Reservation} (h : r.Separate r') : r'.Separate r :=
  ⟨h.1.symm, by rw [conflicts_comm]; exact h.2⟩

instance : Std.Symm Separate := ⟨fun _ _ h => h.symm⟩

theorem Separate.weaken {r r₀ r' r₀' : Reservation} (h : r₀.Separate r₀') (hr : r.Weaker r₀)
    (hr' : r'.Weaker r₀') : r.Separate r' := by
  refine ⟨by rw [hr.id, hr'.id]; exact h.1, ?_⟩
  rw [Bool.eq_false_iff]
  intro hc
  refine Bool.eq_false_iff.mp h.2 ?_
  simp only [conflicts, Bool.and_eq_true, beq_iff_eq] at hc ⊢
  obtain ⟨⟨⟨ha, ha'⟩, hl⟩, hi⟩ := hc
  rw [← hr.listingId, ← hr'.listingId, ← hr.checkIn, ← hr.checkOut, ← hr'.checkIn, ← hr'.checkOut]
  exact ⟨⟨⟨hr.active ha, hr'.active ha'⟩, hl⟩, hi⟩

/-- Writing a status keeps a row weak unless it revives it. -/
theorem weaker_setStatus {r : Reservation} {status : ReservationStatus}
    (h : status.active = true → r.status.active = true) :
    Weaker { r with status := status } r := ⟨rfl, rfl, rfl, rfl, h⟩

end Reservation

namespace Database

variable {β : Type} {d : Database} {t : Nat} {tx : Transaction}

/-- What the open transactions have written. -/
def pending (g : Transaction → List β) (d : Database) : List β := d.transactions.rows.flatMap g

def liveReservations (d : Database) : List Reservation :=
  d.reservations.rows ++ d.pending Transaction.reservations

def liveOutbox (d : Database) : List OutboxRow := d.outbox.rows ++ d.pending Transaction.outbox

theorem tid_iff (t : Nat) (tx : Transaction) : (tx.tid == t) = true ↔ key tx = t := by simp

theorem pending_perm (g : Transaction → List β) (h : d.transactions.find? t = some tx) :
    (d.pending g).Perm (g tx ++ (d.rollback t).pending g) :=
  (Table.perm_cons_erase (tid_iff t) h).flatMap_right g

theorem pending_setTransaction (g : Transaction → List β) {f : Transaction → Transaction}
    {hf : ∀ tx, (f tx).tid = tx.tid} (h : d.transactions.find? t = some tx) :
    ((d.setTransaction t f hf).pending g).Perm (g (f tx) ++ (d.rollback t).pending g) :=
  have hp : (d.transactions.update (fun tx => tx.tid == t) f hf).rows.Perm _ :=
    Table.update_perm_cons_erase (tid_iff t) h
  hp.flatMap_right g

/-- A rewrite that leaves the list alone. -/
theorem pending_setTransaction_eq (g : Transaction → List β) {f : Transaction → Transaction}
    {hf : ∀ tx, (f tx).tid = tx.tid} (hg : ∀ tx, g (f tx) = g tx) :
    (d.setTransaction t f hf).pending g = d.pending g := by
  simp only [pending, setTransaction, Table.update, List.flatMap_map]
  congr 1
  funext tx
  split
  · exact hg tx
  · rfl

/-- A transaction that has written one row more. -/
theorem pending_append (g : Transaction → List β) {f : Transaction → Transaction}
    {hf : ∀ tx, (f tx).tid = tx.tid} {b : β} (hg : ∀ tx, g (f tx) = g tx ++ [b])
    (h : d.transactions.find? t = some tx) (rows : List β) :
    (rows ++ (d.setTransaction t f hf).pending g).Perm (b :: (rows ++ d.pending g)) := by
  have hrest : (g tx ++ [b] ++ (d.rollback t).pending g).Perm (b :: d.pending g) := by
    rw [List.append_assoc, List.singleton_append]
    exact List.perm_middle.trans ((pending_perm g h).symm.cons b)
  have hp : ((d.setTransaction t f hf).pending g).Perm _ := pending_setTransaction g h
  rw [hg] at hp
  exact ((hp.trans hrest).append_left rows).trans List.perm_middle

theorem mem_pending {g : Transaction → List β} {b : β} :
    b ∈ d.pending g ↔ ∃ tx ∈ d.transactions.rows, b ∈ g tx := List.mem_flatMap

/-- A new id is new among the live rows. -/
theorem ne_of_freshReservationId {id : Id} (h : d.freshReservationId id = true) {r : Reservation}
    (hr : r ∈ d.liveReservations) : r.id ≠ id := by
  simp only [freshReservationId, Bool.and_eq_true, Option.isNone_iff_eq_none, List.all_eq_true,
    bne_iff_ne] at h
  rcases List.mem_append.mp hr with hr | hr
  · exact Table.find?_eq_none.mp h.1 r hr
  · obtain ⟨tx, htx, hr⟩ := mem_pending.mp hr
    exact h.2 tx htx r hr

theorem ne_of_freshOutboxId {id : Id} (h : d.freshOutboxId id = true) {o : OutboxRow}
    (ho : o ∈ d.liveOutbox) : o.id ≠ id := by
  simp only [freshOutboxId, Bool.and_eq_true, Option.isNone_iff_eq_none, List.all_eq_true,
    bne_iff_ne] at h
  rcases List.mem_append.mp ho with ho | ho
  · exact Table.find?_eq_none.mp h.1 o ho
  · obtain ⟨tx, htx, ho⟩ := mem_pending.mp ho
    exact h.2 tx htx o ho

theorem pending_rollback (g : Transaction → List β) :
    ((d.rollback t).pending g).Sublist (d.pending g) :=
  List.filter_sublist.flatMap g

theorem pending_begin (g : Transaction → List β)
    (hg : g { tid := t, reservations := [], outbox := [], locked := [], published := [],
              publishedAt := 0 } = []) :
    (d.begin t).pending g = d.pending g := by
  simp only [pending, begin, Table.insert]
  split
  · rw [List.flatMap_append, List.flatMap_singleton, hg, List.append_nil]
  · rfl

end Database

/-- The invariant. -/
structure Apart (d : Database) : Prop where
  reservations : d.liveReservations.Pairwise Reservation.Separate
  outbox : (d.liveOutbox.map (·.id)).Nodup

namespace Apart

open Database

variable {d d' : Database} {t : Nat}

theorem of_eq (h : Apart d) (hr : d'.liveReservations = d.liveReservations)
    (ho : d'.liveOutbox = d.liveOutbox) : Apart d' :=
  ⟨by rw [hr]; exact h.reservations, by rw [ho]; exact h.outbox⟩

theorem reservation_keys (h : Apart d) :
    d.liveReservations.Pairwise fun r r' => key r ≠ key r' := h.reservations.imp fun hs => hs.1

theorem outbox_keys (h : Apart d) : d.liveOutbox.Pairwise fun o o' => key o ≠ key o' :=
  List.pairwise_map.mp h.outbox

theorem begin (h : Apart d) : Apart (d.begin t) := by
  refine h.of_eq ?_ ?_
  · exact congrArg (d.reservations.rows ++ ·) (pending_begin Transaction.reservations rfl)
  · exact congrArg (d.outbox.rows ++ ·) (pending_begin Transaction.outbox rfl)

theorem rollback (h : Apart d) : Apart (d.rollback t) := by
  refine ⟨h.reservations.sublist ?_, h.outbox.sublist (List.Sublist.map _ ?_)⟩
  · exact List.Sublist.append_left (pending_rollback Transaction.reservations) d.reservations.rows
  · exact List.Sublist.append_left (pending_rollback Transaction.outbox) d.outbox.rows

/-- A transaction that changes neither of its two lists. -/
theorem setTransaction (h : Apart d) {f : Transaction → Transaction}
    {hf : ∀ tx, (f tx).tid = tx.tid} (hr : ∀ tx, (f tx).reservations = tx.reservations)
    (ho : ∀ tx, (f tx).outbox = tx.outbox) : Apart (d.setTransaction t f hf) := by
  refine h.of_eq ?_ ?_
  · exact congrArg (d.reservations.rows ++ ·) (pending_setTransaction_eq _ hr)
  · exact congrArg (d.outbox.rows ++ ·) (pending_setTransaction_eq _ ho)

/-- The reservations of a transaction, and those that stay live without it. -/
theorem reservations_perm {tx : Transaction} (ht : d.transactions.find? t = some tx) :
    d.liveReservations.Perm ((d.reservations.rows ++ tx.reservations) ++
      (d.rollback t).pending Transaction.reservations) := by
  rw [List.append_assoc]
  exact (pending_perm Transaction.reservations ht).append_left _

theorem outbox_perm {tx : Transaction} (ht : d.transactions.find? t = some tx) :
    d.liveOutbox.Perm ((d.outbox.rows ++ tx.outbox) ++
      (d.rollback t).pending Transaction.outbox) := by
  rw [List.append_assoc]
  exact (pending_perm Transaction.outbox ht).append_left _

/-- What a transaction has inserted is new. -/
theorem new_reservations (h : Apart d) {tx : Transaction}
    (ht : d.transactions.find? t = some tx) :
    (d.reservations.rows ++ tx.reservations).Pairwise fun r r' => key r ≠ key r' :=
  (List.pairwise_append.mp
    (((reservations_perm ht).pairwise_iff fun h => Ne.symm h).mp h.reservation_keys)).1

theorem new_outbox (h : Apart d) {tx : Transaction} (ht : d.transactions.find? t = some tx) :
    (d.outbox.rows ++ tx.outbox).Pairwise fun o o' => key o ≠ key o' :=
  (List.pairwise_append.mp
    (((outbox_perm ht).pairwise_iff fun h => Ne.symm h).mp h.outbox_keys)).1

/-- The rows of a committed transaction were live before. -/
theorem commit (h : Apart d) {tx : Transaction} (ht : d.transactions.find? t = some tx) :
    Apart (d.apply tx) := by
  have htid : tx.tid = t := Table.key_of_find? ht
  have hr : (d.apply tx).liveReservations =
      (d.reservations.rows ++ tx.reservations) ++
        (d.rollback t).pending Transaction.reservations := by
    rw [← Table.rows_insertAll (h.new_reservations ht)]
    subst htid
    rfl
  have ho : (d.apply tx).liveOutbox.map (·.id) =
      ((d.outbox.rows ++ tx.outbox) ++ (d.rollback t).pending Transaction.outbox).map (·.id) := by
    rw [← Table.rows_insertAll (h.new_outbox ht)]
    subst htid
    simp only [liveOutbox, Database.apply, Table.update, List.map_append, List.map_map]
    congr 2
    funext o
    simp only [Function.comp_apply]
    split <;> rfl
  refine ⟨?_, ?_⟩
  · rw [hr]
    exact ((reservations_perm ht).pairwise_iff Reservation.Separate.symm).mp h.reservations
  · rw [ho]
    exact (((outbox_perm ht).map _).nodup_iff).mp h.outbox

/-- Committed rows may get weaker. -/
theorem update (h : Apart d) {p : Reservation → Bool} {f : Reservation → Reservation}
    {hf : ∀ r, key (f r) = key r} {log : List StatusChange}
    (hw : ∀ r, p r = true → (f r).Weaker r) :
    Apart { d with reservations := d.reservations.update p f hf, statusLog := log } := by
  refine ⟨?_, h.outbox⟩
  have hw' : ∀ r, (if p r = true then f r else r).Weaker r := by
    intro r
    split
    · next hp => exact hw r hp
    · exact .refl r
  obtain ⟨h₁, h₂, h₃⟩ := List.pairwise_append.mp h.reservations
  refine List.pairwise_append.mpr ⟨?_, h₂, ?_⟩
  · exact List.pairwise_map.mpr (h₁.imp fun hs => hs.weaken (hw' _) (hw' _))
  · intro r hr r' hr'
    obtain ⟨r₀, hr₀, rfl⟩ :
        ∃ r₀ ∈ d.reservations.rows, (if p r₀ = true then f r₀ else r₀) = r := List.mem_map.mp hr
    exact (h₃ r₀ hr₀ r' hr').weaken (hw' r₀) (.refl r')

/-- A new reservation was checked against every live one. -/
theorem appendReservation (h : Apart d) {tx : Transaction}
    (ht : d.transactions.find? t = some tx) {f : Transaction → Transaction}
    {hf : ∀ tx, (f tx).tid = tx.tid} {row : Reservation}
    (hr : ∀ tx, (f tx).reservations = tx.reservations ++ [row])
    (ho : ∀ tx, (f tx).outbox = tx.outbox) (hrow : ∀ r ∈ d.liveReservations, row.Separate r) :
    Apart (d.setTransaction t f hf) := by
  have hp : (d.setTransaction t f hf).liveReservations.Perm (row :: d.liveReservations) :=
    pending_append _ hr ht _
  have hlo : (d.setTransaction t f hf).liveOutbox = d.liveOutbox :=
    congrArg (d.outbox.rows ++ ·) (pending_setTransaction_eq _ ho)
  refine ⟨?_, by rw [hlo]; exact h.outbox⟩
  exact (hp.pairwise_iff Reservation.Separate.symm).mpr
    (List.pairwise_cons.mpr ⟨hrow, h.reservations⟩)

theorem appendOutbox (h : Apart d) {tx : Transaction} (ht : d.transactions.find? t = some tx)
    {f : Transaction → Transaction} {hf : ∀ tx, (f tx).tid = tx.tid} {row : OutboxRow}
    (hr : ∀ tx, (f tx).reservations = tx.reservations)
    (ho : ∀ tx, (f tx).outbox = tx.outbox ++ [row]) (hrow : ∀ o ∈ d.liveOutbox, o.id ≠ row.id) :
    Apart (d.setTransaction t f hf) := by
  have hp : (d.setTransaction t f hf).liveOutbox.Perm (row :: d.liveOutbox) :=
    pending_append _ ho ht _
  have hlr : (d.setTransaction t f hf).liveReservations = d.liveReservations :=
    congrArg (d.reservations.rows ++ ·) (pending_setTransaction_eq _ hr)
  refine ⟨by rw [hlr]; exact h.reservations, ((hp.map _).nodup_iff).mpr ?_⟩
  rw [List.map_cons]
  refine List.nodup_cons.mpr ⟨?_, h.outbox⟩
  intro hm
  obtain ⟨o, ho, hid⟩ := List.mem_map.mp hm
  exact hrow o ho hid

/-- The three checks of an insert cover every live row. -/
theorem separate_of_checks {tx : Transaction} (ht : d.transactions.find? t = some tx)
    {row : Reservation} (hid : d.freshReservationId row.id = true)
    (hown : (d.reservations.rows.any row.conflicts || tx.reservations.any row.conflicts) = false)
    (hother : d.transactions.rows.any (fun tx' =>
      tx'.tid != t && tx'.reservations.any row.conflicts) = false) {r : Reservation}
    (hr : r ∈ d.liveReservations) : row.Separate r := by
  refine ⟨(ne_of_freshReservationId hid hr).symm, ?_⟩
  obtain ⟨hcommitted, hown⟩ := Bool.or_eq_false_iff.mp hown
  rcases List.mem_append.mp hr with hr | hr
  · exact Bool.eq_false_iff.mpr (List.any_eq_false.mp hcommitted r hr)
  · obtain ⟨tx', htx', hr⟩ := mem_pending.mp hr
    by_cases htid : tx'.tid = t
    · have : tx' = tx := Table.eq_of_key_eq htx' (Table.mem_of_find? ht)
        (htid.trans (Table.key_of_find? ht).symm)
      subst this
      exact Bool.eq_false_iff.mpr (List.any_eq_false.mp hown r hr)
    · have hn := List.any_eq_false.mp hother tx' htx'
      simp only [Bool.and_eq_true, bne_iff_ne, ne_eq, htid, not_false_eq_true, true_and] at hn
      exact Bool.eq_false_iff.mpr fun hc => hn (List.any_eq_true.mpr ⟨r, hr, hc⟩)

/-- No statement a call can issue breaks the invariant. -/
theorem effect (h : Apart d) {c : Call} {o : DbStatement} (hi : c.Issues (.db o))
    {res : Except Err o.Resp} (hx : d.Effect t o res d') : Apart d' := by
  cases hx with
  | read | refused => exact h
  | begin => exact h.begin
  | reservationCreate data tx row ht hs hown hother hid =>
    exact h.appendReservation ht (fun _ => rfl) (fun _ => rfl) fun r hr =>
      separate_of_checks ht hid hown hother hr
  | outboxCreate aggregateId payload tx row ht ha hp hn hid =>
    exact h.appendOutbox ht (fun _ => rfl) (fun _ => rfl) fun o ho => ne_of_freshOutboxId hid ho
  | selectUnpublished | outboxMarkPublished =>
    exact h.setTransaction (fun _ => rfl) fun _ => rfl
  | commit tx ht => exact h.commit ht
  | rollback => exact h.rollback
  | reservationUpdate rid status seen r hr =>
    obtain ⟨-, rfl, -⟩ := hi
    simp only [reservationUpdate, hr]
    exact h.update fun r _ => Reservation.weaker_setStatus (by simp [ReservationStatus.active])
  | reservationUpdateMany filter status =>
    refine h.update fun r hr => Reservation.weaker_setStatus fun _ => ?_
    rw [ReservationWhere.status_eq hr]
    exact active_of_legal hi.legal
  | paymentCreate => exact h.of_eq rfl rfl
  | paymentUpdate key data p hp =>
    simp only [paymentUpdate, hp]
    exact h.of_eq rfl rfl

end Apart

variable {cfg : Config} {listings : Table Listing} {w : World}

theorem apart_init (listings : Table Listing) : Apart (Store.init listings).db :=
  ⟨List.Pairwise.nil, List.nodup_nil⟩

theorem apart_of_reaches (hr : (system cfg).Reaches anything (initial listings) w) :
    Apart w.shared.db :=
  inv_of_effect (I := Apart) (apart_init listings) (fun hi h hx => h.effect hi hx)
    (fun h => h.rollback) hr

end NoOverlap
