import Mathlib.Data.List.Induction
import NoOverlap.Realtime.Client

/-!
# The rooms of a page

Any number of `useListingUpdates` on the one socket of a page.  The gateway keeps a set of rooms,
the page a list of subscriptions, and a cleanup leaves every room of its own, whoever else
is in it.

`Strands` is the one step that breaks the agreement: a cleanup on a connected socket leaves a
listing that another subscription includes, and the same step does not join it again.  A
reconnect repairs it, because every subscription joins again.
-/

namespace NoOverlap.Realtime.Rooms

/-! ## The key of the effect -/

/-- The id of a listing: there is one, and no comma in it. -/
structure ListingId where
  text : String
  nonempty : text ≠ ""
  plain : ',' ∉ text.toList
  deriving DecidableEq

/-- `[...listingIds].sort().join(',')`. -/
def key (listingIds : List ListingId) : String :=
  ",".intercalate ((listingIds.map (·.text)).insertionSort (· ≤ ·))

/-- `key ? key.split(',') : []`. -/
def splitKey (key : String) : List String :=
  if key = "" then [] else (key.toList.splitOn ',').map String.ofList

section Keys

variable {listingIds listingIds' : List ListingId} {id : ListingId}

theorem ListingId.eq_of_text {id id' : ListingId} (h : id.text = id'.text) : id = id' := by
  cases id
  cases id'
  cases h
  rfl

theorem intercalate_ne_empty {texts : List String} (hnil : texts ≠ []) (h : ∀ s ∈ texts, s ≠ "") :
    ",".intercalate texts ≠ "" := by
  cases texts with
  | nil => exact absurd rfl hnil
  | cons s rest =>
    have hs : s ≠ "" := h s List.mem_cons_self
    by_cases hrest : rest = []
    · rw [hrest, String.intercalate_singleton]
      exact hs
    · rw [String.intercalate_cons_of_ne_nil hrest]
      intro he
      simp [hs] at he

/-- The key is split where it was joined. -/
theorem splitKey_key (listingIds : List ListingId) :
    splitKey (key listingIds) = (listingIds.map (·.text)).insertionSort (· ≤ ·) := by
  have hmem : ∀ s ∈ (listingIds.map (·.text)).insertionSort (· ≤ ·),
      ∃ id ∈ listingIds, id.text = s := fun s hs =>
    List.mem_map.mp ((List.mem_insertionSort _).mp hs)
  unfold key
  generalize (listingIds.map (·.text)).insertionSort (· ≤ ·) = texts at hmem ⊢
  by_cases hnil : texts = []
  · rw [hnil]
    rfl
  · have hne : ∀ s ∈ texts, s ≠ "" := fun s hs => by
      obtain ⟨id, -, rfl⟩ := hmem s hs
      exact id.nonempty
    have hplain : ∀ l ∈ texts.map String.toList, ',' ∉ l := fun l hl => by
      obtain ⟨s, hs, rfl⟩ := List.mem_map.mp hl
      obtain ⟨id, -, rfl⟩ := hmem s hs
      exact id.plain
    have hsplit : (",".intercalate texts).toList.splitOn ',' = texts.map String.toList := by
      rw [String.toList_intercalate]
      exact List.splitOn_intercalate ',' hplain (by simpa using hnil)
    rw [splitKey, if_neg (intercalate_ne_empty hnil hne), hsplit]
    simp

theorem mem_splitKey_key : id.text ∈ splitKey (key listingIds) ↔ id ∈ listingIds := by
  rw [splitKey_key, List.mem_insertionSort, List.mem_map]
  constructor
  · rintro ⟨id', hmem, he⟩
    exact ListingId.eq_of_text he ▸ hmem
  · exact fun h => ⟨id, h, rfl⟩

theorem mem_iff_of_key (h : key listingIds = key listingIds') :
    id ∈ listingIds ↔ id ∈ listingIds' := by
  rw [← mem_splitKey_key, h, mem_splitKey_key]

end Keys

/-! ## The page -/

/-- One mounted `useListingUpdates`, with the effect that runs. -/
structure Hook where
  listingIds : List ListingId
  effect : Option Subscription

/-- The effect runs for these ids. -/
def Hook.run (listingIds : List ListingId) : Hook :=
  { listingIds := listingIds, effect := Subscription.start (splitKey (key listingIds)) }

structure Page where
  /-- By the order in which they were mounted, `none` once unmounted. -/
  hooks : List (Option Hook)
  link : Link

inductive Event where
  | mount (listingIds : List ListingId)
  /-- Hook `i` is rendered with these ids. -/
  | render (i : Nat) (listingIds : List ListingId)
  | unmount (i : Nat)
  | connect
  | disconnect
  /-- The gateway handles the next message. -/
  | serve

/-- The body of the effect. -/
def setup (l : Link) : Option Subscription → Link
  | none => l
  | some sub =>
    let l := { l with opened := true }
    if l.connected then l.emit sub.join else l

/-- Its cleanup. -/
def teardown (l : Link) : Option Subscription → Link
  | none => l
  | some sub => l.emit sub.cleanup

namespace Page

def start : Page := { hooks := [], link := .closed }

/-- Hook `i` is cleaned up, and set up again if there is still one. -/
def replace (p : Page) (i : Nat) (old : Hook) (new : Option Hook) : Page :=
  { hooks := p.hooks.set i new
    link := setup (teardown p.link old.effect) (new.bind (·.effect)) }

def effects (p : Page) : List Subscription := p.hooks.filterMap fun h => h.bind (·.effect)

end Page

def next (p : Page) : Event → Option Page
  | .mount listingIds =>
    let h := Hook.run listingIds
    some { hooks := p.hooks ++ [some h], link := setup p.link h.effect }
  | .render i listingIds =>
    match p.hooks[i]? with
    | some (some h) =>
      if key listingIds = key h.listingIds then
        some { p with hooks := p.hooks.set i (some { h with listingIds := listingIds }) }
      else some (p.replace i h (some (.run listingIds)))
    | _ => none
  | .unmount i =>
    match p.hooks[i]? with
    | some (some h) => some (p.replace i h none)
    | _ => none
  | .connect =>
    -- every `onConnect` joins, after what was emitted while the socket was down
    if p.link.opened && !p.link.connected then
      some { p with link := p.link.connect.emit (p.effects.flatMap Subscription.join) }
    else none
  | .disconnect => if p.link.connected then some { p with link := p.link.disconnect } else none
  | .serve =>
    match p.link.up with
    | [] => none
    | m :: up =>
      some { p with link := { p.link with up := up, rooms := Link.handle m p.link.rooms } }

def run (p : Page) : List Event → Option Page
  | [] => some p
  | e :: es => (next p e).bind fun p' => run p' es

/-! ## What is asked of the rooms -/

/-- A mounted subscription includes the listing. -/
def Page.Wants (p : Page) (id : ListingId) : Prop :=
  ∃ (j : Nat) (h : Hook), p.hooks[j]? = some (some h) ∧ id ∈ h.listingIds

/-- One other than hook `i` does. -/
def Page.Elsewhere (p : Page) (i : Nat) (id : ListingId) : Prop :=
  ∃ (j : Nat) (h : Hook), j ≠ i ∧ p.hooks[j]? = some (some h) ∧ id ∈ h.listingIds

/-- Once the gateway has handled what was sent, the rooms of a connected socket are those of the
subscriptions. -/
def Agrees (p : Page) : Prop :=
  ∀ n p', run p (List.replicate n .serve) = some p' → p'.link.connected = true → p'.link.up = [] →
    ∀ id : ListingId, p'.link.inRoom id.text = true ↔ p'.Wants id

/-- The hook whose effect the event cleans up, and the ids for which it runs next. -/
def Event.leaves : Event → Option (Nat × List ListingId)
  | .render i listingIds => some (i, listingIds)
  | .unmount i => some (i, [])
  | _ => none

/-- On a connected socket a cleanup leaves a listing that another subscription includes, and that
is not joined again. -/
def Strands (p : Page) (e : Event) : Prop :=
  p.link.connected = true ∧ ∃ i listingIds, e.leaves = some (i, listingIds) ∧
    ∃ (h : Hook) (id : ListingId), p.hooks[i]? = some (some h) ∧ id ∈ h.listingIds ∧
      id ∉ listingIds ∧ p.Elsewhere i id

/-! ## Messages -/

/-- Only what cleanups send. -/
def Leaving (ms : List ClientMessage) : Prop := ∀ m ∈ ms, ∃ id, m = ClientMessage.unwatch id

/-- The rooms once these messages are handled. -/
def handled (rooms : List String) (ms : List ClientMessage) : List String :=
  ms.foldl (fun rooms m => Link.handle m rooms) rooms

/-- The rooms once all that was sent is handled. -/
def settled (l : Link) : List String := handled l.rooms l.up

section Messages

variable {rooms ids : List String} {id : String} {l : Link}

theorem listingRoom_inj {id id' : String} (h : listingRoom id = listingRoom id') : id = id' := by
  have hlist : "listing:".toList ++ id.toList = "listing:".toList ++ id'.toList := by
    rw [← String.toList_append, ← String.toList_append]
    exact congrArg String.toList h
  exact String.toList_inj.mp (List.append_cancel_left hlist)

theorem handled_append (rooms : List String) (ms ms' : List ClientMessage) :
    handled rooms (ms ++ ms') = handled (handled rooms ms) ms' := List.foldl_append

theorem nodup_handle (h : rooms.Nodup) (m : ClientMessage) : (Link.handle m rooms).Nodup := by
  cases m with
  | watch id => exact h.insert
  | unwatch id => exact h.erase _

theorem nodup_handled (h : rooms.Nodup) (ms : List ClientMessage) : (handled rooms ms).Nodup := by
  induction ms generalizing rooms with
  | nil => exact h
  | cons m ms ih => exact ih (nodup_handle h m)

theorem mem_watch (rooms ids : List String) :
    listingRoom id ∈ handled rooms (ids.map .watch) ↔ id ∈ ids ∨ listingRoom id ∈ rooms := by
  induction ids generalizing rooms with
  | nil => simp [handled]
  | cons a ids ih =>
    have hstep : listingRoom id ∈ Link.handle (.watch a) rooms ↔
        id = a ∨ listingRoom id ∈ rooms := by
      rw [Link.handle, List.mem_insert_iff]
      exact or_congr_left ⟨listingRoom_inj, congrArg listingRoom⟩
    change listingRoom id ∈ handled (Link.handle (.watch a) rooms) (ids.map .watch) ↔ _
    rw [ih, hstep, List.mem_cons]
    tauto

theorem mem_unwatch (h : rooms.Nodup) (ids : List String) :
    listingRoom id ∈ handled rooms (ids.map .unwatch) ↔ id ∉ ids ∧ listingRoom id ∈ rooms := by
  induction ids generalizing rooms with
  | nil => simp [handled]
  | cons a ids ih =>
    have hstep : listingRoom id ∈ Link.handle (.unwatch a) rooms ↔
        id ≠ a ∧ listingRoom id ∈ rooms := by
      rw [Link.handle, h.mem_erase_iff]
      exact and_congr_left fun _ => not_congr ⟨listingRoom_inj, congrArg listingRoom⟩
    change listingRoom id ∈ handled (Link.handle (.unwatch a) rooms) (ids.map .unwatch) ↔ _
    rw [ih (nodup_handle h _), hstep, List.mem_cons]
    tauto

/-- Nothing is left of no rooms. -/
theorem handled_nil {ms : List ClientMessage} (h : Leaving ms) : handled [] ms = [] := by
  induction ms with
  | nil => rfl
  | cons m ms ih =>
    obtain ⟨id, rfl⟩ := h m List.mem_cons_self
    exact ih fun m' hm => h m' (List.mem_cons_of_mem _ hm)

theorem settled_emit (hc : l.connected = true) (ms : List ClientMessage) :
    settled (l.emit ms) = handled (settled l) ms := by
  rw [Link.emit, if_pos hc]
  exact handled_append _ _ _

end Messages

/-! ## Setting up and cleaning up -/

section Effects

variable {l : Link} {ids : List String} {id : String}

theorem start_cases (ids : List String) :
    ids = [] ∧ Subscription.start ids = none ∨
      ∃ sub, Subscription.start ids = some sub ∧ sub.ids = ids := by
  cases ids with
  | nil => exact .inl ⟨rfl, rfl⟩
  | cons a ids => exact .inr ⟨_, rfl, rfl⟩

theorem setup_of_connected (hc : l.connected = true) (sub : Subscription) :
    setup l (some sub) = ({ l with opened := true } : Link).emit sub.join := if_pos hc

theorem setup_of_not_connected (hc : ¬l.connected = true) (sub : Subscription) :
    setup l (some sub) = { l with opened := true } := if_neg hc

theorem connected_setup (l : Link) (effect : Option Subscription) :
    (setup l effect).connected = l.connected := by
  cases effect with
  | none => rfl
  | some sub =>
    by_cases hc : l.connected = true
    · rw [setup_of_connected hc, Link.connected_emit]
    · rw [setup_of_not_connected hc]

theorem connected_teardown (l : Link) (effect : Option Subscription) :
    (teardown l effect).connected = l.connected := by
  cases effect with
  | none => rfl
  | some sub => exact Link.connected_emit _ _

theorem rooms_emit (l : Link) (ms : List ClientMessage) : (l.emit ms).rooms = l.rooms := by
  unfold Link.emit
  split <;> rfl

theorem rooms_setup (l : Link) (effect : Option Subscription) :
    (setup l effect).rooms = l.rooms := by
  cases effect with
  | none => rfl
  | some sub =>
    by_cases hc : l.connected = true
    · rw [setup_of_connected hc, rooms_emit]
    · rw [setup_of_not_connected hc]

theorem rooms_teardown (l : Link) (effect : Option Subscription) :
    (teardown l effect).rooms = l.rooms := by
  cases effect with
  | none => rfl
  | some sub => exact rooms_emit _ _

/-- Setting up joins. -/
theorem mem_settled_setup (hc : l.connected = true) : listingRoom id ∈
    settled (setup l (Subscription.start ids)) ↔ id ∈ ids ∨ listingRoom id ∈ settled l := by
  rcases start_cases ids with ⟨rfl, hs⟩ | ⟨sub, hs, rfl⟩
  · rw [hs]
    simp [setup]
  · have hopened : ({ l with opened := true } : Link).connected = true := hc
    rw [hs, setup_of_connected hc, settled_emit hopened]
    exact mem_watch _ _

/-- Cleaning up leaves. -/
theorem mem_settled_teardown (hc : l.connected = true) (hn : l.rooms.Nodup) : listingRoom id ∈
    settled (teardown l (Subscription.start ids)) ↔ id ∉ ids ∧ listingRoom id ∈ settled l := by
  rcases start_cases ids with ⟨rfl, hs⟩ | ⟨sub, hs, rfl⟩
  · rw [hs]
    simp [teardown]
  · rw [hs, teardown, settled_emit hc]
    exact mem_unwatch (nodup_handled hn _) _

end Effects

/-! ## The invariant -/

/-- Rooms are a set, only cleanups are kept for later, and an effect runs for the ids of its hook. -/
structure Inv (p : Page) : Prop where
  nodup : p.link.rooms.Nodup
  buffer : Leaving p.link.buffer
  effect : ∀ (j : Nat) h, p.hooks[j]? = some (some h) →
    h.effect = Subscription.start (splitKey (key h.listingIds))

/-- The rooms of a connected socket will be those of the subscriptions. -/
def Follows (p : Page) : Prop :=
  p.link.connected = true → ∀ id : ListingId, listingRoom id.text ∈ settled p.link ↔ p.Wants id

section Steps

variable {p p' : Page} {i : Nat} {h : Hook} {id : ListingId}

theorem leaving_emit {l : Link} {ms : List ClientMessage} (hl : Leaving l.buffer)
    (hms : l.connected = false → Leaving ms) : Leaving (l.emit ms).buffer := by
  unfold Link.emit
  by_cases hc : l.connected = true
  · rw [if_pos hc]
    exact hl
  · rw [if_neg hc]
    intro m hm
    rcases List.mem_append.mp hm with hm | hm
    · exact hl m hm
    · exact hms (Bool.not_eq_true _ ▸ hc) m hm

theorem leaving_setup {l : Link} (hl : Leaving l.buffer) (effect : Option Subscription) :
    Leaving (setup l effect).buffer := by
  cases effect with
  | none => exact hl
  | some sub =>
    by_cases hc : l.connected = true
    · rw [setup_of_connected hc]
      exact leaving_emit hl fun hf => absurd (hc.symm.trans hf) (by decide)
    · rw [setup_of_not_connected hc]
      exact hl

theorem leaving_teardown {l : Link} (hl : Leaving l.buffer) (effect : Option Subscription) :
    Leaving (teardown l effect).buffer := by
  cases effect with
  | none => exact hl
  | some sub =>
    refine leaving_emit hl fun _ m hm => ?_
    obtain ⟨id, -, rfl⟩ := List.mem_map.mp hm
    exact ⟨id, rfl⟩

theorem wants_iff (hi : p.hooks[i]? = some (some h)) :
    p.Wants id ↔ id ∈ h.listingIds ∨ p.Elsewhere i id := by
  constructor
  · rintro ⟨j, h', hj, hid⟩
    by_cases hji : j = i
    · cases hji
      cases hi.symm.trans hj
      exact .inl hid
    · exact .inr ⟨j, h', hji, hj, hid⟩
  · rintro (hid | ⟨j, h', -, hj, hid⟩)
    · exact ⟨i, h, hi, hid⟩
    · exact ⟨j, h', hj, hid⟩

/-- Hook `i` becomes `new`. -/
theorem wants_set (hi : p.hooks[i]? = some (some h)) (new : Option Hook)
    (hp : p'.hooks = p.hooks.set i new) :
    p'.Wants id ↔ (∃ h', new = some h' ∧ id ∈ h'.listingIds) ∨ p.Elsewhere i id := by
  have hlen : i < p.hooks.length := (List.getElem?_eq_some_iff.mp hi).1
  have hself : p'.hooks[i]? = some new := by rw [hp, List.getElem?_set_self hlen]
  have hother : ∀ {j : Nat}, j ≠ i → p'.hooks[j]? = p.hooks[j]? := fun hj => by
    rw [hp, List.getElem?_set_ne (Ne.symm hj)]
  constructor
  · rintro ⟨j, h', hj, hid⟩
    by_cases hji : j = i
    · cases hji
      exact .inl ⟨h', Option.some.inj (hself.symm.trans hj), hid⟩
    · exact .inr ⟨j, h', hji, hother hji ▸ hj, hid⟩
  · rintro (⟨h', rfl, hid⟩ | ⟨j, h', hji, hj, hid⟩)
    · exact ⟨i, h', hself, hid⟩
    · exact ⟨j, h', (hother hji).trans hj, hid⟩

theorem hook_of_append {hooks : List (Option Hook)} {j : Nat} {h' : Hook} :
    (hooks ++ [some h])[j]? = some (some h') ↔
      hooks[j]? = some (some h') ∨ j = hooks.length ∧ h' = h := by
  rw [List.getElem?_append]
  by_cases hj : j < hooks.length
  · rw [if_pos hj]
    exact ⟨.inl, fun ho => ho.resolve_right fun ⟨he, _⟩ => absurd he (by omega)⟩
  · rw [if_neg hj, List.getElem?_eq_none (by omega : hooks.length ≤ j), List.getElem?_singleton]
    by_cases he : j = hooks.length
    · simp [he, eq_comm]
    · simp [he, show j - hooks.length ≠ 0 by omega]

theorem wants_append (hp : p'.hooks = p.hooks ++ [some h]) :
    p'.Wants id ↔ id ∈ h.listingIds ∨ p.Wants id := by
  constructor
  · rintro ⟨j, h', hj, hid⟩
    rw [hp] at hj
    rcases hook_of_append.mp hj with hj | ⟨-, rfl⟩
    · exact .inr ⟨j, h', hj, hid⟩
    · exact .inl hid
  · rintro (hid | ⟨j, h', hj, hid⟩)
    · exact ⟨p.hooks.length, h, hp ▸ hook_of_append.mpr (.inr ⟨rfl, rfl⟩), hid⟩
    · exact ⟨j, h', hp ▸ hook_of_append.mpr (.inl hj), hid⟩

/-- Every hook but the one that was set runs as before. -/
theorem effect_set (hv : Inv p) {new : Option Hook}
    (hnew : ∀ h', new = some h' → h'.effect = Subscription.start (splitKey (key h'.listingIds)))
    (hp : p'.hooks = p.hooks.set i new) (j : Nat) (h' : Hook) (hj : p'.hooks[j]? = some (some h')) :
    h'.effect = Subscription.start (splitKey (key h'.listingIds)) := by
  by_cases hji : i = j
  · cases hji
    have hlen : i < p.hooks.length := by
      have hlt := (List.getElem?_eq_some_iff.mp hj).1
      rwa [hp, List.length_set] at hlt
    rw [hp, List.getElem?_set_self hlen] at hj
    exact hnew h' (Option.some.inj hj)
  · rw [hp, List.getElem?_set_ne hji] at hj
    exact hv.effect j h' hj

theorem Inv.replace (hv : Inv p) {new : Option Hook}
    (hnew : ∀ h', new = some h' → h'.effect = Subscription.start (splitKey (key h'.listingIds))) :
    Inv (p.replace i h new) where
  nodup := by
    rw [Page.replace, rooms_setup, rooms_teardown]
    exact hv.nodup
  buffer := leaving_setup (leaving_teardown hv.buffer _) _
  effect := effect_set hv hnew rfl

theorem settled_replace (hv : Inv p) (hi : p.hooks[i]? = some (some h))
    (hc : p.link.connected = true) {new : Option Hook}
    (hnew : ∀ h', new = some h' → h'.effect = Subscription.start (splitKey (key h'.listingIds))) :
    listingRoom id.text ∈ settled (p.replace i h new).link ↔
      (∃ h', new = some h' ∧ id ∈ h'.listingIds) ∨
        id ∉ h.listingIds ∧ listingRoom id.text ∈ settled p.link := by
  have hleft : listingRoom id.text ∈ settled (teardown p.link h.effect) ↔
      id ∉ h.listingIds ∧ listingRoom id.text ∈ settled p.link := by
    rw [hv.effect i h hi, mem_settled_teardown hc hv.nodup, mem_splitKey_key]
  have hc' : (teardown p.link h.effect).connected = true := by rw [connected_teardown, hc]
  cases new with
  | none => exact hleft.trans ⟨.inr, fun ho => ho.resolve_left fun ⟨h', he, _⟩ => nomatch he⟩
  | some h' =>
    change listingRoom id.text ∈ settled (setup (teardown p.link h.effect) h'.effect) ↔ _
    rw [hnew h' rfl, mem_settled_setup hc', mem_splitKey_key, hleft]
    exact or_congr_left ⟨fun hid => ⟨h', rfl, hid⟩, fun ⟨_, he, hid⟩ => Option.some.inj he ▸ hid⟩

/-- What the rooms lose is what the cleanup leaves and another hook includes. -/
theorem follows_replace (hv : Inv p) (hf : Follows p) (hi : p.hooks[i]? = some (some h))
    (hc : p.link.connected = true) {new : Option Hook}
    (hnew : ∀ h', new = some h' → h'.effect = Subscription.start (splitKey (key h'.listingIds))) :
    Follows (p.replace i h new) ↔ ∀ id ∈ h.listingIds,
      (¬∃ h', new = some h' ∧ id ∈ h'.listingIds) → ¬p.Elsewhere i id := by
  have hwants : ∀ id, (p.replace i h new).Wants id ↔
      (∃ h', new = some h' ∧ id ∈ h'.listingIds) ∨ p.Elsewhere i id := fun _ =>
    wants_set hi new rfl
  have hrooms : ∀ id : ListingId, listingRoom id.text ∈ settled (p.replace i h new).link ↔
      (∃ h', new = some h' ∧ id ∈ h'.listingIds) ∨ id ∉ h.listingIds ∧ p.Elsewhere i id := by
    intro id
    rw [settled_replace hv hi hc hnew, hf hc id, wants_iff hi]
    exact or_congr_right ⟨fun ⟨hno, ho⟩ => ⟨hno, ho.resolve_left hno⟩, fun ⟨hno, he⟩ =>
      ⟨hno, .inr he⟩⟩
  have hc' : (p.replace i h new).link.connected = true := by
    rw [Page.replace, connected_setup, connected_teardown, hc]
  constructor
  · intro hfollows id hid hnone helse
    rcases (hrooms id).mp ((hfollows hc' id).mpr ((hwants id).mpr (.inr helse))) with hn | ⟨hno, -⟩
    · exact hnone hn
    · exact hno hid
  · intro hall _ id
    rw [hrooms, hwants]
    refine ⟨Or.imp_right And.right, fun ho => ?_⟩
    by_cases hn : ∃ h', new = some h' ∧ id ∈ h'.listingIds
    · exact .inl hn
    · have helse := ho.resolve_left hn
      exact .inr ⟨fun hid => hall id hid hn helse, helse⟩

theorem follows_of_not_connected (h : ¬p.link.connected = true) : Follows p := fun hc => absurd hc h

theorem not_strands {e : Event} (h : e.leaves = none) : ¬Strands p e := by
  rintro ⟨-, i, listingIds, he, -⟩
  cases h.symm.trans he

/-- The one hook that an event cleans up. -/
theorem strands_iff {e : Event} {listingIds : List ListingId} (he : e.leaves = some (i, listingIds))
    (hi : p.hooks[i]? = some (some h)) (hc : p.link.connected = true) :
    Strands p e ↔ ∃ id ∈ h.listingIds, id ∉ listingIds ∧ p.Elsewhere i id := by
  constructor
  · rintro ⟨-, i', ids', he', h', id, hi', hid, hno, helse⟩
    cases he.symm.trans he'
    cases hi.symm.trans hi'
    exact ⟨id, hid, hno, helse⟩
  · rintro ⟨id, hid, hno, helse⟩
    exact ⟨hc, i, listingIds, he, h, id, hi, hid, hno, helse⟩

/-- A hook is cleaned up, and runs again for `listingIds`. -/
theorem step_replace (hv : Inv p) (hf : Follows p) (hi : p.hooks[i]? = some (some h)) {e : Event}
    {listingIds : List ListingId} (he : e.leaves = some (i, listingIds)) {new : Option Hook}
    (hnew : ∀ h', new = some h' → h'.effect = Subscription.start (splitKey (key h'.listingIds)))
    (hids : ∀ id, (∃ h', new = some h' ∧ id ∈ h'.listingIds) ↔ id ∈ listingIds) :
    Inv (p.replace i h new) ∧ (Follows (p.replace i h new) ↔ ¬Strands p e) := by
  refine ⟨hv.replace hnew, ?_⟩
  by_cases hc : p.link.connected = true
  · rw [follows_replace hv hf hi hc hnew, strands_iff he hi hc]
    simp only [hids, not_exists, not_and]
  · have hc' : ¬(p.replace i h new).link.connected = true := by
      rwa [Page.replace, connected_setup, connected_teardown]
    exact iff_of_true (follows_of_not_connected hc') fun hs => hc hs.1

theorem step_mount (hv : Inv p) (hf : Follows p) {listingIds : List ListingId}
    (hn : next p (.mount listingIds) = some p') : Inv p' ∧ Follows p' := by
  have hhooks : p'.hooks = p.hooks ++ [some (.run listingIds)] := by
    rw [← Option.some.inj hn]
  have hlink : p'.link = setup p.link (Subscription.start (splitKey (key listingIds))) := by
    rw [← Option.some.inj hn]
    rfl
  refine ⟨⟨?_, hlink ▸ leaving_setup hv.buffer _, fun j h' hj => ?_⟩, fun hc id => ?_⟩
  · rw [hlink, rooms_setup]
    exact hv.nodup
  · rw [hhooks] at hj
    rcases hook_of_append.mp hj with hj | ⟨-, rfl⟩
    · exact hv.effect j h' hj
    · rfl
  · rw [hlink, connected_setup] at hc
    rw [wants_append hhooks, ← hf hc id, hlink, mem_settled_setup hc, mem_splitKey_key]
    rfl

/-- After a reconnect every subscription joins. -/
theorem step_connect (hv : Inv p) (hn : next p .connect = some p') : Inv p' ∧ Follows p' := by
  simp only [next] at hn
  split at hn
  · cases hn
    refine ⟨⟨?_, ?_, hv.effect⟩, fun _ id => ?_⟩
    · rw [rooms_emit]
      exact List.nodup_nil
    · exact leaving_emit (fun m hm => by cases hm) fun hf => by cases hf
    · rw [settled_emit rfl]
      have hnil : settled p.link.connect = [] := handled_nil hv.buffer
      have hjoins : p.effects.flatMap Subscription.join =
          (p.effects.flatMap (·.ids)).map ClientMessage.watch := (List.map_flatMap ..).symm
      rw [hnil, hjoins, mem_watch, List.mem_flatMap]
      constructor
      · rintro (⟨sub, hsub, hid⟩ | hid)
        · obtain ⟨x, hx, heff⟩ := List.mem_filterMap.mp hsub
          obtain ⟨h, rfl, heff⟩ := Option.bind_eq_some_iff.mp heff
          obtain ⟨j, hj⟩ := List.mem_iff_getElem?.mp hx
          refine ⟨j, h, hj, mem_splitKey_key.mp ?_⟩
          replace heff : h.effect = some sub := heff
          rw [hv.effect j h hj] at heff
          rcases start_cases (splitKey (key h.listingIds)) with ⟨-, hs⟩ | ⟨sub', hs, hids⟩
          · cases hs.symm.trans heff
          · cases hs.symm.trans heff
            exact hids ▸ hid
        · cases hid
      · rintro ⟨j, h, hj, hid⟩
        have hkey := mem_splitKey_key.mpr hid
        rcases start_cases (splitKey (key h.listingIds)) with ⟨he, -⟩ | ⟨sub, hs, hids⟩
        · rw [he] at hkey
          cases hkey
        · refine .inl ⟨sub, List.mem_filterMap.mpr ⟨some h, List.mem_of_getElem? hj, ?_⟩,
            hids ▸ hkey⟩
          exact (hv.effect j h hj).trans hs
  · cases hn

theorem step_serve (hv : Inv p) (hf : Follows p) (hn : next p .serve = some p') :
    Inv p' ∧ Follows p' := by
  simp only [next] at hn
  split at hn
  · cases hn
  · next m up hup =>
    cases hn
    refine ⟨⟨nodup_handle hv.nodup m, hv.buffer, hv.effect⟩, fun hc id => ?_⟩
    have hsettled : settled p.link = handled (Link.handle m p.link.rooms) up := by
      rw [settled, hup]
      rfl
    have hrooms := hf hc id
    rw [hsettled] at hrooms
    exact hrooms

theorem step_disconnect (hv : Inv p) (hn : next p .disconnect = some p') : Inv p' ∧ Follows p' := by
  simp only [next] at hn
  split at hn
  · cases hn
    exact ⟨⟨List.nodup_nil, hv.buffer, hv.effect⟩, fun hc => by cases hc⟩
  · cases hn

/-- The same ids in another order, or the very same. -/
theorem step_same (hv : Inv p) (hf : Follows p) (hi : p.hooks[i]? = some (some h))
    {listingIds : List ListingId} (hkey : key listingIds = key h.listingIds)
    (hp : p' = { p with hooks := p.hooks.set i (some { h with listingIds := listingIds }) }) :
    Inv p' ∧ Follows p' := by
  have hhooks : p'.hooks = p.hooks.set i (some { h with listingIds := listingIds }) := by rw [hp]
  have hlink : p'.link = p.link := by rw [hp]
  refine ⟨⟨hlink ▸ hv.nodup, hlink ▸ hv.buffer, effect_set hv (fun h' he => ?_) hhooks⟩, ?_⟩
  · cases he
    rw [hkey]
    exact hv.effect i h hi
  · intro hc id
    rw [hlink] at hc ⊢
    rw [hf hc id, wants_iff hi, wants_set hi _ hhooks]
    refine or_congr_left ⟨fun hid => ⟨_, rfl, (mem_iff_of_key hkey).mpr hid⟩, ?_⟩
    rintro ⟨h', he, hid⟩
    cases he
    exact (mem_iff_of_key hkey).mp hid

theorem step_render (hv : Inv p) (hf : Follows p) {listingIds : List ListingId}
    (hn : next p (.render i listingIds) = some p') :
    Inv p' ∧ (Follows p' ↔ ¬Strands p (.render i listingIds)) := by
  simp only [next] at hn
  split at hn
  · next h hi =>
    split at hn
    · next hkey =>
      obtain ⟨hv', hf'⟩ := step_same hv hf hi hkey (Option.some.inj hn).symm
      refine ⟨hv', iff_of_true hf' ?_⟩
      rintro ⟨-, i', ids', he, h', id, hi', hid, hno, -⟩
      cases he
      cases hi.symm.trans hi'
      exact hno ((mem_iff_of_key hkey).mpr hid)
    · cases hn
      refine step_replace hv hf hi rfl (fun h' he => ?_) fun id => ?_
      · cases he
        rfl
      · refine ⟨?_, fun hid => ⟨_, rfl, hid⟩⟩
        rintro ⟨h', he, hid⟩
        cases he
        exact hid
  · cases hn

theorem step_unmount (hv : Inv p) (hf : Follows p) (hn : next p (.unmount i) = some p') :
    Inv p' ∧ (Follows p' ↔ ¬Strands p (.unmount i)) := by
  simp only [next] at hn
  split at hn
  · next h hi =>
    cases hn
    refine step_replace hv hf hi rfl (fun h' he => by cases he) fun id => ?_
    exact iff_of_false (fun ⟨h', he, _⟩ => by cases he) List.not_mem_nil
  · cases hn

/-- A step keeps the agreement unless it strands a subscription, and then it does not. -/
theorem follows_next {e : Event} (hv : Inv p) (hf : Follows p) (hn : next p e = some p') :
    Inv p' ∧ (Follows p' ↔ ¬Strands p e) := by
  have hkept : e.leaves = none → Inv p' ∧ Follows p' → Inv p' ∧ (Follows p' ↔ ¬Strands p e) :=
    fun he h => ⟨h.1, iff_of_true h.2 (not_strands he)⟩
  cases e with
  | mount listingIds => exact hkept rfl (step_mount hv hf hn)
  | render i listingIds => exact step_render hv hf hn
  | unmount i => exact step_unmount hv hf hn
  | connect => exact hkept rfl (step_connect hv hn)
  | disconnect => exact hkept rfl (step_disconnect hv hn)
  | serve => exact hkept rfl (step_serve hv hf hn)

end Steps

/-! ## Runs -/

section Runs

variable {p q : Page}

theorem run_append (p : Page) (es es' : List Event) :
    run p (es ++ es') = (run p es).bind fun q => run q es' := by
  induction es generalizing p with
  | nil => rfl
  | cons e es ih =>
    simp only [List.cons_append, run]
    cases hn : next p e with
    | none => rfl
    | some p' => exact ih p'

theorem run_snoc {es : List Event} {e : Event} (h : run p (es ++ [e]) = some q) :
    ∃ q₁, run p es = some q₁ ∧ next q₁ e = some q := by
  rw [run_append] at h
  obtain ⟨q₁, hr, hq⟩ := Option.bind_eq_some_iff.mp h
  obtain ⟨q₂, hn, hq₂⟩ := Option.bind_eq_some_iff.mp hq
  cases hq₂
  exact ⟨q₁, hr, hn⟩

/-- The gateway changes nothing but the rooms, and these towards what was sent. -/
theorem run_serve {n : Nat} (h : run p (List.replicate n .serve) = some q) :
    q.hooks = p.hooks ∧ q.link.connected = p.link.connected ∧ settled q.link = settled p.link := by
  induction n generalizing p with
  | zero =>
    cases h
    exact ⟨rfl, rfl, rfl⟩
  | succ n ih =>
    obtain ⟨p₁, hn, hr⟩ := Option.bind_eq_some_iff.mp h
    obtain ⟨hhooks, hc, hsettled⟩ := ih hr
    simp only [next] at hn
    split at hn
    · cases hn
    · next m up hup =>
      cases hn
      refine ⟨hhooks, hc, hsettled.trans ?_⟩
      rw [settled, settled, hup]
      rfl

/-- It handles everything in the end. -/
theorem exists_served (p : Page) : ∃ q, run p (List.replicate p.link.up.length .serve) = some q ∧
    q.link.up = [] := by
  obtain ⟨up, hup⟩ : ∃ up, p.link.up = up := ⟨_, rfl⟩
  induction up generalizing p with
  | nil => exact ⟨p, by rw [hup]; rfl, hup⟩
  | cons m up ih =>
    obtain ⟨q, hr, hq⟩ := ih
      { p with link := { p.link with up := up, rooms := Link.handle m p.link.rooms } } rfl
    refine ⟨q, ?_, hq⟩
    rw [hup, List.length_cons, List.replicate_succ, run]
    simp only [next, hup]
    exact hr

theorem wants_of_hooks (h : q.hooks = p.hooks) (id : ListingId) : q.Wants id ↔ p.Wants id := by
  rw [Page.Wants, Page.Wants, h]

theorem inRoom_iff {l : Link} (hup : l.up = []) (id : ListingId) :
    l.inRoom id.text = true ↔ listingRoom id.text ∈ settled l := by
  rw [settled, hup, Link.inRoom, List.contains_iff_mem]
  rfl

theorem agrees_iff (p : Page) : Agrees p ↔ Follows p := by
  constructor
  · intro h hc id
    obtain ⟨q, hr, hup⟩ := exists_served p
    obtain ⟨hhooks, hc', hsettled⟩ := run_serve hr
    rw [← hsettled, ← inRoom_iff hup, ← wants_of_hooks hhooks]
    exact h _ q hr (hc'.trans hc) hup id
  · intro h n q hr hc hup id
    obtain ⟨hhooks, hc', hsettled⟩ := run_serve hr
    rw [inRoom_iff hup, hsettled, wants_of_hooks hhooks]
    exact h (hc'.symm.trans hc) id

theorem inv_start : Inv .start where
  nodup := List.nodup_nil
  buffer := fun m hm => by cases hm
  effect := fun j h hj => by cases hj

theorem follows_start : Follows .start := fun hc => by cases hc

/-- As long as no step has stranded a subscription. -/
theorem follows_of_run {es : List Event} (hr : run .start es = some p)
    (hes : ∀ pre e q, pre ++ [e] <+: es → run .start pre = some q → ¬Strands q e) :
    Inv p ∧ Follows p := by
  induction es using List.reverseRecOn generalizing p with
  | nil =>
    cases hr
    exact ⟨inv_start, follows_start⟩
  | append_singleton es e ih =>
    obtain ⟨q, hq, hn⟩ := run_snoc hr
    obtain ⟨hv, hf⟩ :=
      ih hq fun pre e' q' hpre => hes pre e' q' (hpre.trans (List.prefix_append _ _))
    obtain ⟨hv', hiff⟩ := follows_next hv hf hn
    exact ⟨hv', hiff.mpr (hes es e q (List.prefix_refl _) hq)⟩

/-- The invariant along a run that agrees throughout. -/
theorem inv_of_run {es : List Event} (hr : run .start es = some p)
    (hes : ∀ pre q, pre <+: es → run .start pre = some q → Follows q) : Inv p := by
  induction es using List.reverseRecOn generalizing p with
  | nil =>
    cases hr
    exact inv_start
  | append_singleton es e ih =>
    obtain ⟨q, hq, hn⟩ := run_snoc hr
    have hv : Inv q := ih hq fun pre q' hpre => hes pre q' (hpre.trans (List.prefix_append _ _))
    exact (follows_next hv (hes es q (List.prefix_append _ _) hq) hn).1

/-- What would strand a subscription can happen. -/
theorem exists_next_of_strands {e : Event} (h : Strands p e) : ∃ q, next p e = some q := by
  obtain ⟨-, i, listingIds, he, h, -, hi, -⟩ := h
  cases e with
  | render j listingIds' =>
    cases he
    simp only [next, hi]
    split <;> exact ⟨_, rfl⟩
  | unmount j =>
    cases he
    simp only [next, hi]
    exact ⟨_, rfl⟩
  | _ => cases he

end Runs

/-- Over every run of the page: the rooms agree with the subscriptions throughout, if and only if
no step strands one. -/
theorem rooms_agree_iff (events : List Event) :
    (∀ pre p, pre <+: events → run .start pre = some p → Agrees p) ↔
      ∀ pre e p, pre ++ [e] <+: events → run .start pre = some p → ¬Strands p e := by
  constructor
  · intro hall pre e p hpre hr hs
    have hfollows : ∀ pre' q, pre' <+: pre ++ [e] → run .start pre' = some q → Follows q :=
      fun pre' q hpre' hq => (agrees_iff q).mp (hall pre' q (hpre'.trans hpre) hq)
    obtain ⟨q, hn⟩ := exists_next_of_strands hs
    have hq : run .start (pre ++ [e]) = some q := by
      rw [run_append, hr]
      simp [run, hn]
    have hv : Inv p := inv_of_run hr fun pre' q hpre' =>
      hfollows pre' q (hpre'.trans (List.prefix_append _ _))
    have hf : Follows p := hfollows pre p (List.prefix_append _ _) hr
    exact (follows_next hv hf hn).2.mp (hfollows _ q (List.prefix_refl _) hq) hs
  · intro hall pre p hpre hr
    rw [agrees_iff]
    exact (follows_of_run hr fun pre' e q hpre' => hall pre' e q (hpre'.trans hpre)).2

/-! ## Two screens of one listing -/

namespace Scenario

def house : ListingId := { text := "house", nonempty := by decide, plain := by decide }

/-- Two screens show the house, and the first is closed. -/
def overlapping : List Event :=
  [.mount [house], .connect, .serve, .mount [house], .serve, .unmount 0, .serve]

end Scenario

/-- The second screen is on a connected socket that is in no room. -/
theorem rooms_stranded : ∃ p, run .start Scenario.overlapping = some p ∧
    p.link.connected = true ∧ p.link.up = [] ∧ p.link.rooms = [] ∧ p.Wants Scenario.house ∧
      ¬Agrees p := by
  have hrun : (run .start Scenario.overlapping).any (fun p => p.link.connected && p.link.up == [] &&
      p.link.rooms == [] && (p.hooks[1]?.bind id).any fun h => h.listingIds == [Scenario.house]) =
        true := by
    decide
  obtain ⟨p, hp, htest⟩ := (Option.any_eq_true _ _).mp hrun
  simp only [Bool.and_eq_true, beq_iff_eq, Option.any_eq_true] at htest
  obtain ⟨⟨⟨hc, hup⟩, hrooms⟩, h, hh, hids⟩ := htest
  obtain ⟨x, hx, hxh⟩ := Option.bind_eq_some_iff.mp hh
  have hwants : p.Wants Scenario.house :=
    ⟨1, h, hx.trans (congrArg some hxh), hids ▸ List.mem_singleton_self _⟩
  refine ⟨p, hp, hc, hup, hrooms, hwants, fun hagrees => ?_⟩
  have hin := (hagrees 0 p rfl hc hup Scenario.house).mpr hwants
  rw [Link.inRoom, hrooms] at hin
  cases hin

end NoOverlap.Realtime.Rooms
