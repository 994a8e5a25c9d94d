import NoOverlap.Realtime.Client
import NoOverlap.Realtime.Publishers

/-!
# The stream, from a commit to a screen

The processes of the API, the network, and one screen that watches some listings and
re-reads whenever `useListingUpdates` calls its handler.

An event that is emitted is sent to the socket if the socket is in the room at that
moment.  What has been sent is delivered in any order, or lost.  Beyond that the network
may hand the page anything, any number of times, as long as every well-formed event in it
has been emitted.

A command that its caller has given up may still be executed later.  The socket and the
server agree on whether it is connected.  A read is answered from one snapshot, taken at
some moment after it was sent; what it shows is written as the list of the changes that
were committed by then.

`allocated`, `changes`, `reread` and the start of a read are history variables.
-/

namespace NoOverlap.Realtime

open Relational Concurrency Json

/-- The processes, and how they write an id. -/
structure Setup where
  api : Config
  unannounced : api.provider.Unannounced
  text : Id → String
  text_injective : Function.Injective text

/-- A number, its listing, and the call that asked for it. -/
structure Allocation where
  tid : Nat
  listingId : Id
  seq : Nat
  deriving DecidableEq

/-- A reservation as a call has committed it. -/
structure Change where
  tid : Nat
  row : Reservation
  deriving DecidableEq

inductive Progress where
  | sent
  /-- With what was committed at that moment. -/
  | answered (data : List Change)
  | received (data : List Change)

structure Read where
  /-- What was committed when it was sent. -/
  started : List Change
  progress : Progress

/-- What a read shows, or will show. -/
def Progress.data : Progress → Option (List Change)
  | sent => none
  | answered data | received data => some data

structure World where
  api : NoOverlap.World
  /-- The increments that were given up before they were executed. -/
  queued : List (Nat × Id)
  allocated : List Allocation
  changes : List Change
  link : Link
  /-- Sent to the socket and not yet delivered. -/
  down : List ReservationChanged
  screen : Option Subscription
  /-- The most recent read of the screen. -/
  read : Option Read
  /-- What was committed when the handler last started a read. -/
  reread : Option (List Change)

inductive Event where
  | api (e : NoOverlap.Event)
  /-- Redis executes a command that was given up. -/
  | late (i : Nat)
  /-- The screen reads of its own accord. -/
  | load
  | mount (ids : List String)
  | unmount
  | connect
  | disconnect
  /-- The gateway handles the next message of the page. -/
  | serve
  | deliver (i : Nat)
  | stray (raw : Value)
  | lose (i : Nat)
  /-- The read is answered. -/
  | respond
  | receive

def start (listings : Table Listing) : World :=
  { api := initial listings, queued := [], allocated := [], changes := [], link := .closed,
    down := [], screen := none, read := none, reread := none }

namespace World

variable (S : Setup) (w : World)

/-! ## The processes -/

def seq (listingId : Id) : Nat := w.api.shared.redis.seq listingId

def emitted : List ReservationChanged := w.api.shared.redis.emitted

/-- `redis.incr`. -/
def incr (listingId : Id) : Redis :=
  (Redis.perform (.incr listingId) w.api.shared.redis).2

def allocate (tid : Nat) (listingId : Id) : World :=
  let a : Allocation := { tid := tid, listingId := listingId, seq := w.seq listingId + 1 }
  { w with allocated := w.allocated ++ [a] }

/-- `server.to(listingRoom(listingId)).emit`. -/
def broadcast (e : ReservationChanged) : World :=
  if w.link.connected && w.link.inRoom (S.text e.listingId) then { w with down := w.down ++ [e] }
  else w

/-- What a statement of thread `t` is to the stream. -/
def note (t : Nat) (ch : Choice) : Statement → World
  | .redis (.incr listingId) =>
    match ch.fault with
    | .before _ => { w with queued := w.queued ++ [(t, listingId)] }
    | _ => w.allocate t listingId
  | .redis (.emit e) =>
    match ch.fault with
    | .before _ => w
    | _ => w.broadcast S e
  | _ => w

/-- The rows that are new, or not as they were. -/
def altered (d d' : Database) : List Reservation :=
  d'.reservations.rows.filter fun r => decide (r ∉ d.reservations.rows)

def commit (t : Nat) (d' : Database) : World :=
  { w with changes := w.changes ++ (altered w.api.shared.db d').map fun r => { tid := t, row := r } }

/-- The processes have moved. -/
def act (e : NoOverlap.Event) (api' : NoOverlap.World) : World :=
  match e with
  | .step t ch =>
    match w.api.threads[t]? with
    | some (.running _ (.call o _)) =>
      { (w.note S t ch o).commit t api'.shared.db with api := api' }
    | _ => { w with api := api' }
  | _ => { w with api := api' }

/-! ## The page -/

/-- A read is sent. -/
def request : World :=
  { w with read := some { started := w.changes, progress := .sent } }

/-- The handler, which re-reads.  It is assumed of `invalidateQueries` that a read is sent whenever
it is called, and that this read takes the place of one that is on its way, be it the first load
of the page. -/
def handler : World := { w.request with reread := some w.changes }

/-- A message of the server reaches the page. -/
def hear (raw : Value) : World :=
  match w.screen with
  | none => w
  | some sub =>
    match sub.onChanged raw with
    | (sub', none) => { w with screen := some sub' }
    | (sub', some _) => { w with screen := some sub' }.handler

/-- The effect of `useListingUpdates`. -/
def subscribe (ids : List String) : World :=
  match Subscription.start ids with
  | none => w
  | some sub =>
    let link := { w.link with opened := true }
    { w with screen := some sub, link := if link.connected then link.emit sub.join else link }

/-- The socket is connected, and `onConnect` runs. -/
def connect : World :=
  match w.screen with
  | none => { w with link := w.link.connect }
  | some sub => { w with link := w.link.connect.emit sub.join }.handler

/-- The network may hand this to the page. -/
def genuine (raw : Value) : Bool :=
  match isReservationChanged raw with
  | none => true
  | some e => w.emitted.any fun e' => e'.written S.text == e

end World

/-- One event, or `none` where it is not possible. -/
def next (S : Setup) (w : World) : Event → Option World
  | .api e => ((system S.api).next anything w.api e).map (w.act S e)
  | .late i => w.queued[i]?.map fun q =>
    { w.allocate q.1 q.2 with
      queued := w.queued.eraseIdx i,
      api := { w.api with shared := { w.api.shared with redis := w.incr q.2 } } }
  | .load => some w.request
  | .mount ids => if w.screen.isNone && w.read.isSome then some (w.subscribe ids) else none
  | .unmount => w.screen.map fun sub =>
    { w with screen := none, link := w.link.emit sub.cleanup }
  | .connect => if w.link.opened && !w.link.connected then some w.connect else none
  | .disconnect =>
    if w.link.connected then some { w with link := w.link.disconnect, down := [] } else none
  | .serve =>
    match w.link.up with
    | [] => none
    | m :: up =>
      some { w with link := { w.link with up := up, rooms := Link.handle m w.link.rooms } }
  | .deliver i => w.down[i]?.map fun e =>
    { w with down := w.down.eraseIdx i }.hear (e.toValue S.text).json
  | .stray raw => if w.genuine S raw then some (w.hear raw) else none
  | .lose i => if i < w.down.length then some { w with down := w.down.eraseIdx i } else none
  | .respond =>
    match w.read with
    | some { started := started, progress := .sent } =>
      some { w with read := some { started := started, progress := .answered w.changes } }
    | _ => none
  | .receive =>
    match w.read with
    | some { started := started, progress := .answered data } =>
      some { w with read := some { started := started, progress := .received data } }
    | _ => none

/-- The worlds a run can reach whose steps `ok` allows. -/
inductive Reaches (S : Setup) (ok : World → Event → Bool) (w₀ : World) : World → Prop where
  | refl : Reaches S ok w₀ w₀
  | tail {w w' : World} (e : Event) (h : Reaches S ok w₀ w) (hok : ok w e = true)
      (hn : next S w e = some w') : Reaches S ok w₀ w'

/-- Any step at any time. -/
def always (_ : World) (_ : Event) : Bool := true

/-- Run a schedule. -/
def run (S : Setup) (ok : World → Event → Bool) (w : World) : List Event → Option World
  | [] => some w
  | e :: es => if ok w e then (next S w e).bind fun w' => run S ok w' es else none

theorem reaches_of_run {S : Setup} {ok : World → Event → Bool} {es : List Event} {w₀ w w' : World}
    (h₀ : Reaches S ok w₀ w) (h : run S ok w es = some w') : Reaches S ok w₀ w' := by
  induction es generalizing w with
  | nil => cases h; exact h₀
  | cons e es ih =>
    simp only [run] at h
    split at h
    · next hok =>
      obtain ⟨w₁, hn, hr⟩ := Option.bind_eq_some_iff.mp h
      exact ih (.tail e h₀ hok hn) hr
    · cases h

theorem exists_reaches_of_run {S : Setup} {ok : World → Event → Bool} {es : List Event} {w : World}
    {test : World → Bool} (h : (run S ok w es).any test = true) :
    ∃ w', Reaches S ok w w' ∧ test w' = true := by
  cases hr : run S ok w es with
  | none => rw [hr] at h; cases h
  | some w' =>
    rw [hr] at h
    exact ⟨w', reaches_of_run .refl hr, h⟩

end NoOverlap.Realtime
