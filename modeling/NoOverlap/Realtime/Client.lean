import NoOverlap.Data.Json
import NoOverlap.Model.Booking

/-!
# A subscriber of the realtime stream

The event a browser is sent, `useListingUpdates`, and the socket under it with the
rooms the gateway keeps for it.

A `Subscription` is one run of the effect of `useListingUpdates`, from its mount to its
cleanup.  A message that is emitted while the socket is down is kept, and sent before the
`connect` handlers run.
-/

namespace NoOverlap

open Json

/-! ## The contract -/

/-- A `ReservationChanged` as the browser reads it. -/
structure Wire.ReservationChanged where
  listingId : String
  reservationId : String
  status : ReservationStatus
  seq : Int
  deriving DecidableEq

/-- `STATUSES`. -/
def statuses : List ReservationStatus := [.held, .confirmed, .cancelled, .expired, .completed]

/-- `typeof v === 'string' && STATUSES.includes(v)`. -/
def statusSchema : Schema ReservationStatus
  | .string s => statuses.find? fun status => status.name == s
  | _ => none

/-- `isReservationChanged`, with the event the value is. -/
def isReservationChanged : Schema Wire.ReservationChanged := Schema.object fun get => do
  Schema.literal "reservation.changed" (get "type")
  Schema.literalNumber 1 (get "version")
  let listingId ← Schema.string (get "listingId")
  let reservationId ← Schema.string (get "reservationId")
  let status ← statusSchema (get "status")
  let seq ← Schema.integer (get "seq")
  pure { listingId := listingId, reservationId := reservationId, status := status, seq := seq }

namespace ReservationChanged

variable (text : Id → String)

/-- The event of `publishReservationChanged`. -/
def toValue (e : ReservationChanged) : Value :=
  .object [("type", .string "reservation.changed"), ("version", .number 1),
    ("listingId", .string (text e.listingId)), ("reservationId", .string (text e.reservationId)),
    ("status", .string e.status.name), ("seq", .number e.seq)]

def written (e : ReservationChanged) : Wire.ReservationChanged :=
  { listingId := text e.listingId, reservationId := text e.reservationId, status := e.status,
    seq := e.seq }

/-- What is published is well formed when it arrives. -/
theorem isReservationChanged_toValue (e : ReservationChanged) :
    isReservationChanged (e.toValue text).json = some (e.written text) := by
  obtain ⟨listingId, reservationId, status, seq⟩ := e
  cases status <;> rfl

end ReservationChanged

namespace Realtime

/-! ## `useListingUpdates` -/

inductive UpdateReason where
  | change
  | gap
  | reconnect
  deriving DecidableEq, Repr

structure ListingUpdate where
  event : Option Wire.ReservationChanged
  reason : UpdateReason
  deriving DecidableEq

/-- A message of the browser. -/
inductive ClientMessage where
  | watch (listingId : String)
  | unwatch (listingId : String)
  deriving DecidableEq

/-- One run of the effect.  Sequence numbers are integers here, and numbers in the browser, which
count exactly up to `2 ^ 53`. -/
structure Subscription where
  /-- The key, split. -/
  ids : List String
  lastSeq : String → Option Int

namespace Subscription

/-- The effect starts, unless there is nothing to watch. -/
def start (ids : List String) : Option Subscription :=
  if ids.length = 0 then none else some { ids := ids, lastSeq := fun _ => none }

def join (sub : Subscription) : List ClientMessage := sub.ids.map .watch

def cleanup (sub : Subscription) : List ClientMessage := sub.ids.map .unwatch

/-- `onChanged`: what it keeps, and the call of the handler. -/
def onChanged (sub : Subscription) (raw : Value) : Subscription × Option ListingUpdate :=
  match isReservationChanged raw with
  | none => (sub, none)
  | some event =>
    if !sub.ids.contains event.listingId then (sub, none)
    else
      let previous := sub.lastSeq event.listingId
      if previous.any fun n => decide (event.seq ≤ n) then (sub, none)
      else
        let missed := previous.any fun n => decide (event.seq > n + 1)
        ({ sub with lastSeq := Function.update sub.lastSeq event.listingId (some event.seq) },
          some { event := some event, reason := if missed then .gap else .change })

/-- The call of the handler in `onConnect`. -/
def onConnect : ListingUpdate := { event := none, reason := .reconnect }

variable {sub sub' : Subscription} {raw : Value} {u : Option ListingUpdate}

/-- An event is dropped for one of three reasons, or it is recorded and handled. -/
theorem onChanged_cases (h : sub.onChanged raw = (sub', u)) :
    (sub' = sub ∧ u = none ∧ ∀ e, isReservationChanged raw = some e → e.listingId ∈ sub.ids →
      ∃ n, sub.lastSeq e.listingId = some n ∧ e.seq ≤ n) ∨
    (u ≠ none ∧ ∃ e, isReservationChanged raw = some e ∧ e.listingId ∈ sub.ids ∧
      sub' = { sub with lastSeq := Function.update sub.lastSeq e.listingId (some e.seq) }) := by
  unfold onChanged at h
  cases hp : isReservationChanged raw with
  | none =>
    rw [hp] at h
    cases h
    exact .inl ⟨rfl, rfl, fun e he => by cases he⟩
  | some event =>
    rw [hp] at h
    simp only at h
    by_cases hw : sub.ids.contains event.listingId = true
    · rw [hw, Bool.not_true, if_neg Bool.false_ne_true] at h
      split at h
      · next hstale =>
        cases h
        refine .inl ⟨rfl, rfl, fun e he _ => ?_⟩
        cases he
        obtain ⟨n, hn, hle⟩ := Option.any_eq_true _ _ |>.mp hstale
        exact ⟨n, hn, of_decide_eq_true hle⟩
      · cases h
        exact .inr ⟨by simp, event, rfl, List.contains_iff_mem.mp hw, rfl⟩
    · rw [Bool.not_eq_true] at hw
      rw [hw, Bool.not_false, if_pos rfl] at h
      cases h
      refine .inl ⟨rfl, rfl, fun e he hm => ?_⟩
      cases he
      rw [List.contains_iff_mem.mpr hm] at hw
      cases hw

end Subscription

/-! ## The socket -/

def listingRoom (listingId : String) : String := "listing:" ++ listingId

/-- The socket of a page, what is on its way to the gateway, and the rooms the gateway
has put the socket in. -/
structure Link where
  /-- `getSocket` has been called. -/
  opened : Bool
  connected : Bool
  /-- Emitted while the socket was down. -/
  buffer : List ClientMessage
  up : List ClientMessage
  rooms : List String

namespace Link

def closed : Link := { opened := false, connected := false, buffer := [], up := [], rooms := [] }

/-- `socket.emit`, of each message in turn. -/
def emit (l : Link) (ms : List ClientMessage) : Link :=
  if l.connected then { l with up := l.up ++ ms } else { l with buffer := l.buffer ++ ms }

/-- A new socket on the server has joined nothing. -/
def connect (l : Link) : Link :=
  { l with connected := true, buffer := [], up := l.buffer, rooms := [] }

def disconnect (l : Link) : Link := { l with connected := false, up := [], rooms := [] }

/-- `RealtimeGateway.watch` and `RealtimeGateway.unwatch`. -/
def handle : ClientMessage → List String → List String
  | .watch id, rooms => rooms.insert (listingRoom id)
  | .unwatch id, rooms => rooms.erase (listingRoom id)

def inRoom (l : Link) (listingId : String) : Bool := l.rooms.contains (listingRoom listingId)

@[simp] theorem connected_emit (l : Link) (ms : List ClientMessage) :
    (l.emit ms).connected = l.connected := by
  unfold emit
  split <;> rfl

end Link

end Realtime

end NoOverlap
