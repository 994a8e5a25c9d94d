import NoOverlap.Lifecycle.Apart
import NoOverlap.Lifecycle.Transitions

/-!
# What a status says about the past

Cancels included, a reservation that has left HELD never returns to it, and
CANCELLED is final.  `later` is the order this gives.  `Logged` relates the rows to
the history of their status: who is confirmed was confirmed by a write, and who
was confirmed can only have been completed or cancelled since.
-/

namespace NoOverlap

open Relational Concurrency

namespace ReservationStatus

/-- The statuses a row can have later. -/
def later : ReservationStatus → ReservationStatus → Bool
  | held, _ => true
  | confirmed, s => s == confirmed || s == completed || s == cancelled
  | expired, s => s == expired || s == cancelled
  | completed, s => s == completed || s == cancelled
  | cancelled, s => s == cancelled

theorem later_refl (s : ReservationStatus) : s.later s = true := by cases s <;> rfl

theorem later_cancelled (s : ReservationStatus) : s.later .cancelled = true := by cases s <;> rfl

theorem later_trans {s₁ s₂ s₃ : ReservationStatus} (h : s₁.later s₂ = true)
    (h' : s₂.later s₃ = true) : s₁.later s₃ = true := by
  revert h h'
  cases s₁ <;> cases s₂ <;> cases s₃ <;> decide

theorem later_of_legal {s s' : ReservationStatus} (h : s' ∈ allowedTransitions s) :
    s.later s' = true := by
  revert h
  cases s <;> cases s' <;> decide

theorem eq_cancelled_of_later {s : ReservationStatus} (h : cancelled.later s = true) :
    s = .cancelled := by simpa [later] using h

/-- Nothing comes back to HELD. -/
theorem eq_held_of_later {s : ReservationStatus} (h : s.later .held = true) : s = .held := by
  cases s with
  | held => rfl
  | _ => simp [later] at h

/-- The slot has been given back. -/
def released : ReservationStatus → Bool
  | expired | cancelled => true
  | _ => false

theorem released_of_later {s s' : ReservationStatus} (h : s.later s' = true)
    (hs : s.released = true) : s'.released = true := by
  revert h hs
  cases s <;> cases s' <;> decide

/-- The reservation has been confirmed at some time. -/
def settled : ReservationStatus → Bool
  | confirmed | completed => true
  | _ => false

end ReservationStatus

namespace ReservationStatus

/-- A legal move to a settled status is the confirmation of a hold, or the end of a
confirmed stay. -/
theorem confirm_or_complete {s s' : ReservationStatus} (h : s' ∈ allowedTransitions s)
    (hs : s'.settled = true) : s' = .confirmed ∨ s.settled = true := by
  revert h hs
  cases s <;> cases s' <;> decide

/-- Who is settled or cancelled can only be settled or cancelled next. -/
theorem settled_or_cancelled {s s' : ReservationStatus} (h : s.later s' = true)
    (hs : s.settled = true ∨ s = .cancelled) : s'.settled = true ∨ s' = .cancelled := by
  revert h hs
  cases s <;> cases s' <;> decide

end ReservationStatus

/-- The money was taken. -/
def PaymentStatus.took : PaymentStatus → Bool
  | succeeded | refunded => true
  | _ => false

/-- The row later on: its status may have moved, all else is as it was. -/
def Reservation.Later (r r' : Reservation) : Prop :=
  r' = { r with status := r'.status } ∧ r.status.later r'.status = true

namespace Reservation.Later

variable {r r' r'' : Reservation}

theorem refl (r : Reservation) : r.Later r := ⟨rfl, r.status.later_refl⟩

theorem trans (h : r.Later r') (h' : r'.Later r'') : r.Later r'' := by
  refine ⟨?_, ReservationStatus.later_trans h.2 h'.2⟩
  rw [h'.1, h.1]

theorem setStatus {status : ReservationStatus} (h : r.status.later status = true) :
    r.Later { r with status := status } := ⟨rfl, h⟩

theorem id (h : r.Later r') : r'.id = r.id := by rw [h.1]

theorem priceTotalCents (h : r.Later r') : r'.priceTotalCents = r.priceTotalCents := by rw [h.1]

end Reservation.Later

/-- A write moves a row forward. -/
theorem later_of_writes {c : Call} {o : DbStatement} (hi : c.Issues (.db o)) {r : Reservation}
    {status : ReservationStatus} (hw : o.writes r = some status) :
    r.status.later status = true := by
  rcases cancelled_or_legal_of_writes hi hw with rfl | hl
  · exact r.status.later_cancelled
  · exact ReservationStatus.later_of_legal hl

/-- A transaction writes held rows. -/
theorem Database.Effect.pending_held {d d' : Database} {t : Nat} {o : DbStatement}
    {res : Except Err o.Resp} (hx : d.Effect t o res d')
    (hp : ∀ tx ∈ d.transactions.rows, ∀ r ∈ tx.reservations, r.status = .held) :
    ∀ tx ∈ d'.transactions.rows, ∀ r ∈ tx.reservations, r.status = .held := by
  cases hx with
  | begin => exact Database.forall_begin hp (by simp)
  | reservationCreate data tx row ht hs =>
    refine Database.forall_setTransaction hp fun tx _ _ htx r hr => ?_
    rcases List.mem_append.mp hr with hr | hr
    · exact htx r hr
    · rw [List.mem_singleton.mp hr, hs]
  | outboxCreate | selectUnpublished | outboxMarkPublished =>
    exact Database.forall_setTransaction hp fun tx _ _ htx => htx
  | commit tx ht => exact fun tx' htx' => hp tx' (Table.mem_erase.mp htx').1
  | rollback => exact Database.forall_rollback hp
  | reservationUpdate id status seen r hr => simpa only [Database.reservationUpdate, hr] using hp
  | paymentUpdate key data p hk => simpa only [Database.paymentUpdate, hk] using hp
  | _ => exact hp

/-- The rows and the history agree. -/
structure Logged (d : Database) : Prop where
  /-- A row nobody has seen yet is held. -/
  pending : ∀ tx ∈ d.transactions.rows, ∀ r ∈ tx.reservations, r.status = .held
  exists_row : ∀ e ∈ d.statusLog, ∃ r, d.reservations.find? e.id = some r
  /-- A settled row was confirmed. -/
  confirmed : ∀ id r, d.reservations.find? id = some r → r.status.settled = true →
    ∃ e ∈ d.statusLog, e.id = id ∧ e.new = .confirmed
  /-- A confirmed row is settled or cancelled. -/
  settled : ∀ e ∈ d.statusLog, e.new = .confirmed → ∀ r, d.reservations.find? e.id = some r →
    r.status.settled = true ∨ r.status = .cancelled
  /-- If it is cancelled, then from a settled status. -/
  cancelled : ∀ e ∈ d.statusLog, e.new = .confirmed → ∀ r, d.reservations.find? e.id = some r →
    r.status = .cancelled → ∃ e' ∈ d.statusLog, e'.id = e.id ∧ e'.old.settled = true ∧
      e'.new = .cancelled

namespace Logged

variable {d d' : Database} {t : Nat} {o : DbStatement} {res : Except Err o.Resp}

theorem init (listings : Table Listing) : Logged (Store.init listings).db :=
  { pending := by simp [Store.init]
    exists_row := by simp [Store.init]
    confirmed := by simp [Store.init]
    settled := by simp [Store.init]
    cancelled := by simp [Store.init] }

/-- Nothing but the transactions has changed, and they have written held rows. -/
theorem of_eq (h : Logged d) (hr : d'.reservations = d.reservations)
    (hl : d'.statusLog = d.statusLog)
    (hp : ∀ tx ∈ d'.transactions.rows, ∀ r ∈ tx.reservations, r.status = .held) : Logged d' := by
  constructor
  · exact hp
  · rw [hl, hr]; exact h.exists_row
  · rw [hl, hr]; exact h.confirmed
  · rw [hl, hr]; exact h.settled
  · rw [hl, hr]; exact h.cancelled

/-- What the transactions have written after a statement. -/
theorem pending_effect (h : Logged d) (hx : d.Effect t o res d') :
    ∀ tx ∈ d'.transactions.rows, ∀ r ∈ tx.reservations, r.status = .held :=
  hx.pending_held h.pending

theorem commit (h : Logged d) {tx : Transaction} (ht : d.transactions.find? t = some tx) :
    Logged (d.apply tx) := by
  have hheld : ∀ r ∈ tx.reservations, r.status = .held := h.pending tx (Table.mem_of_find? ht)
  -- A row of a logged id was there before.
  have hold : ∀ e ∈ d.statusLog, ∀ r, (d.apply tx).reservations.find? e.id = some r →
      d.reservations.find? e.id = some r := by
    intro e he r hr
    obtain ⟨r₀, hr₀⟩ := h.exists_row e he
    rcases Table.find?_of_insertAll hr with hr | ⟨hn, -⟩
    · exact hr
    · rw [hr₀] at hn
      cases hn
  constructor
  · intro tx' htx'
    exact h.pending tx' (Table.mem_erase.mp htx').1
  · intro e he
    obtain ⟨r, hr⟩ := h.exists_row e he
    exact ⟨r, Table.find?_insertAll_of_some hr⟩
  · intro id r hr hs
    rcases Table.find?_of_insertAll hr with hr | ⟨-, hm⟩
    · exact h.confirmed id r hr hs
    · rw [hheld r hm] at hs
      cases hs
  · exact fun e he hc r hr => h.settled e he hc r (hold e he r hr)
  · exact fun e he hc r hr => h.cancelled e he hc r (hold e he r hr)

/-- A write keeps the history in step. -/
theorem rewrites (h : Logged d) {c : Call} (hi : c.Issues (.db o)) (hw : d.Rewrites t o d')
    (hp : ∀ tx ∈ d'.transactions.rows, ∀ r ∈ tx.reservations, r.status = .held) : Logged d' := by
  have hfind : ∀ {id r'}, d'.reservations.find? id = some r' →
      ∃ r, d.reservations.find? id = some r ∧ o.rewrite r = r' := by
    intro id r' hr'
    rw [hw.find] at hr'
    exact Option.map_eq_some_iff.mp hr'
  have hlog : ∀ {e}, e ∈ d.statusLog → e ∈ d'.statusLog := fun he => (hw.log _).mpr (.inl he)
  have hnew : ∀ {id r status}, d.reservations.find? id = some r → o.writes r = some status →
      ⟨t, id, r.status, status⟩ ∈ d'.statusLog :=
    fun hr hs => (hw.log _).mpr (.inr ⟨rfl, _, hr, rfl, hs⟩)
  have hrewrite : ∀ r, o.rewrite r = r ∨
      ∃ status, o.writes r = some status ∧ o.rewrite r = { r with status := status } := by
    intro r
    cases hws : o.writes r with
    | none => exact .inl (Database.rewrite_none hws)
    | some status => exact .inr ⟨status, rfl, Database.rewrite_some hws⟩
  constructor
  · exact hp
  · intro e he
    rcases (hw.log e).mp he with he | ⟨-, r, hr, -, -⟩
    · obtain ⟨r, hr⟩ := h.exists_row e he
      exact ⟨_, by rw [hw.find, hr, Option.map_some]⟩
    · exact ⟨_, by rw [hw.find, hr, Option.map_some]⟩
  · intro id r' hr' hs
    obtain ⟨r, hr, rfl⟩ := hfind hr'
    have hold : r.status.settled = true → ∃ e ∈ d'.statusLog, e.id = id ∧ e.new = .confirmed := by
      intro hs
      obtain ⟨e, he, hid, hc⟩ := h.confirmed id r hr hs
      exact ⟨e, hlog he, hid, hc⟩
    rcases hrewrite r with he | ⟨status, hws, he⟩
    · rw [he] at hs
      exact hold hs
    · rw [he] at hs
      rcases cancelled_or_legal_of_writes hi hws with rfl | hl
      · cases hs
      · rcases ReservationStatus.confirm_or_complete hl hs with rfl | hs
        · exact ⟨_, hnew hr hws, rfl, rfl⟩
        · exact hold hs
  · intro e he hc r' hr'
    obtain ⟨r, hr, rfl⟩ := hfind hr'
    rcases (hw.log e).mp he with he | ⟨-, r₀, hr₀, -, hws⟩
    · have hs := h.settled e he hc r hr
      rcases hrewrite r with he | ⟨status, hws, he⟩
      · rw [he]
        exact hs
      · rw [he]
        exact ReservationStatus.settled_or_cancelled (later_of_writes hi hws) hs
    · rw [hr] at hr₀
      cases hr₀
      rw [Database.rewrite_some hws, hc]
      exact .inl rfl
  · intro e he hc r' hr' hs
    obtain ⟨r, hr, rfl⟩ := hfind hr'
    rcases (hw.log e).mp he with he | ⟨-, r₀, hr₀, -, hws⟩
    · have hold : r.status = .cancelled → ∃ e' ∈ d'.statusLog, e'.id = e.id ∧
          e'.old.settled = true ∧ e'.new = .cancelled := by
        intro hs
        obtain ⟨e', he', hid, ho, hn⟩ := h.cancelled e he hc r hr hs
        exact ⟨e', hlog he', hid, ho, hn⟩
      rcases hrewrite r with he' | ⟨status, hws, he'⟩
      · rw [he'] at hs
        exact hold hs
      · rw [he'] at hs
        subst hs
        rcases h.settled e he hc r hr with hs | hs
        · exact ⟨_, hnew hr hws, rfl, hs, rfl⟩
        · exact hold hs
    · rw [hr] at hr₀
      cases hr₀
      rw [Database.rewrite_some hws, hc] at hs
      cases hs

theorem effect (h : Logged d) {c : Call} (hi : c.Issues (.db o)) (hx : d.Effect t o res d') :
    Logged d' := by
  rcases hx.reservations with ⟨hr, hl⟩ | ⟨tx, -, ht, rfl⟩ | hw
  · exact h.of_eq hr hl (h.pending_effect hx)
  · exact h.commit ht
  · exact h.rewrites hi hw (h.pending_effect hx)

theorem rollback (h : Logged d) (t : Nat) : Logged (d.rollback t) :=
  h.of_eq rfl rfl (Database.forall_rollback h.pending)

end Logged

theorem logged_of_reaches {cfg : Config} {listings : Table Listing} {w : World}
    (hr : (system cfg).Reaches anything (initial listings) w) : Logged w.shared.db :=
  inv_of_effect (I := Logged) (Logged.init listings) (fun hi h hx => h.effect hi hx)
    (fun h => h.rollback _) hr

end NoOverlap
