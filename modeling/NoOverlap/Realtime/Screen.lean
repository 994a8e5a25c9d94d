import NoOverlap.Realtime.Stale

/-!
# An idle screen

On mount and on every reconnect the page sends `watch` and starts a read, over two
channels, and waits for neither before the other.  An event that is emitted after the read
has been answered and before the gateway has put the socket in the room reaches nobody,
and no later number need ever show the gap.

Where that does not happen, an idle screen shows every change that has been announced.
-/

namespace NoOverlap.Realtime

open Relational Concurrency Json

variable {S : Setup} {w w' : World}

namespace World

/-- The most recent read has not been answered yet, or shows the changes of the call that
was given the number of `e`. -/
def shows (w : World) (e : ReservationChanged) : Bool :=
  match w.read.bind fun rd => rd.progress.data with
  | none => true
  | some data => w.allocated.all fun a => !(a.listingId == e.listingId && a.seq == e.seq) ||
      w.changes.all fun c => !(c.tid == a.tid) || data.contains c

/-- The screen watches the listing of `e`. -/
def watches (S : Setup) (w : World) (e : ReservationChanged) : Bool :=
  w.screen.any fun sub => sub.ids.contains (S.text e.listingId)

/-- The socket is connected, and nothing is under way: no message of the page, no event and
no read. -/
structure Idle (w : World) : Prop where
  connected : w.link.connected = true
  up : w.link.up = []
  down : w.down = []
  read : ∃ started data, w.read = some { started := started, progress := .received data }

/-- An event for the change has been emitted: one for its listing, under a number of its
call. -/
def Announced (w : World) (c : Change) : Prop :=
  ∃ e ∈ w.emitted, e.listingId = c.row.listingId ∧
    ∃ a ∈ w.allocated, Of e a ∧ a.tid = c.tid

/-- The screen shows every change that has been announced on the listings it watches. -/
def UpToDate (S : Setup) (w : World) : Prop :=
  ∀ sub, w.screen = some sub → ∀ c ∈ w.changes, S.text c.row.listingId ∈ sub.ids →
    w.Announced c → ∃ rd data, w.read = some rd ∧ rd.progress.data = some data ∧ c ∈ data

/-- What the most recent read shows covers the number of `e`. -/
def Shown (w : World) (e : ReservationChanged) : Prop :=
  ∀ rd data, w.read = some rd → rd.progress.data = some data → w.Covers (Of e) data

theorem shown_of_shows {e : ReservationChanged} (h : w.shows e = true) : w.Shown e := by
  intro rd data hrd hdata a ha hof c hc htid
  simp only [shows, hrd, Option.bind_some, hdata] at h
  have hcall := List.all_eq_true.mp h a ha
  rw [hof.1, hof.2, beq_self_eq_true, beq_self_eq_true, Bool.and_self, Bool.not_true,
    Bool.false_or] at hcall
  have hmem := List.all_eq_true.mp hcall c hc
  rw [htid, beq_self_eq_true, Bool.not_true, Bool.false_or] at hmem
  exact List.contains_iff_mem.mp hmem

end World

/-- Nothing that was emitted while the socket is in the room is lost. -/
def lossless (_ : World) : Event → Bool
  | .lose _ => false
  | _ => true

/-- A screen that is mounted while the socket is up has a read that will show, or shows,
what has been announced.  An event for the screen that is emitted while the socket is up and
not in the room is emitted while the same holds of the most recent read. -/
def timely (S : Setup) (w : World) : Event → Bool
  | .mount ids => !w.link.connected ||
      w.emitted.all fun e => !ids.contains (S.text e.listingId) || w.shows e
  | .api (.step t _) =>
    match w.api.threads[t]? with
    | some (.running _ (.call (.redis (.emit e)) _)) =>
      !(w.watches S e && w.link.connected && !w.link.inRoom (S.text e.listingId)) || w.shows e
    | _ => true
  | _ => true

/-! ## The invariant -/

/-- What holds of the reads. -/
structure Reading (S : Setup) (w : World) : Prop where
  base : Inv S w
  started : ∀ rd, w.read = some rd → ∀ c ∈ rd.started, c ∈ w.changes
  kept : ∀ rd data, w.read = some rd → rd.progress.data = some data → ∀ c ∈ rd.started, c ∈ data
  /-- The most recent read is the re-read of the handler, or a later one. -/
  reread : ∀ seen, w.reread = some seen → ∃ rd, w.read = some rd ∧ ∀ c ∈ seen, c ∈ rd.started

/-- An event that a connected screen is owed is on its way, or is shown. -/
def Owed (S : Setup) (w : World) : Prop :=
  ∀ sub, w.screen = some sub → w.link.connected = true → ∀ e ∈ w.emitted,
    S.text e.listingId ∈ sub.ids → e ∈ w.down ∨ w.Shown e

namespace Numbering

theorem le_of_emitted (h : Numbering w) {e : ReservationChanged} (he : e ∈ w.emitted) :
    e.seq ≤ w.seq e.listingId := by
  obtain ⟨a, ha, hl, hseq⟩ := h.emitted e he
  have hbound := h.bound a ha
  rwa [hl, hseq] at hbound

theorem le_of_emits (h : Numbering w) {ev : Event} {e : ReservationChanged} (he : w.Emits ev e) :
    e.seq ≤ w.seq e.listingId := by
  obtain ⟨t, ch, c, k, -, ht⟩ := he
  have hgiven : w.Given t (e.listingId, e.seq) := (h.earned t c _ ht).1 _ rfl
  exact h.bound _ hgiven

end Numbering

namespace World

theorem Shown.onward {e : ReservationChanged} (h : w.Shown e) (he : e.seq ≤ w.seq e.listingId)
    (ho : Onward w w') (hr : w'.read = w.read) : w'.Shown e := by
  intro rd data hrd hdata
  refine (h rd data (hr ▸ hrd) hdata).onward (fun a ha => ?_) ho
  rw [ha.1, ha.2]
  exact he

/-- A read that has not been answered will show everything. -/
theorem shown_of_sent {started : List Change} {e : ReservationChanged}
    (h : w.read = some { started := started, progress := .sent }) : w.Shown e := by
  intro rd data hrd hdata
  rw [h] at hrd
  cases hrd
  cases hdata

end World

namespace Reading

theorem onward (h : Reading S w) (hb : Inv S w') (hc : ∀ c ∈ w.changes, c ∈ w'.changes)
    (hread : w'.read = w.read) (hreread : w'.reread = w.reread) : Reading S w' where
  base := hb
  started := fun rd hrd c hm => hc c (h.started rd (hread ▸ hrd) c hm)
  kept := fun rd data hrd => h.kept rd data (hread ▸ hrd)
  reread := fun seen hs => by
    rw [hread]
    exact h.reread seen (hreread ▸ hs)

theorem handler (hb : Inv S w.handler) : Reading S w.handler where
  base := hb
  started := fun rd hrd c hm => by cases hrd; exact hm
  kept := fun rd data hrd hdata => by cases hrd; cases hdata
  reread := fun seen hs => by cases hs; exact ⟨_, rfl, fun _ hc => hc⟩

/-- Another read is the most recent one, or the same has gone on. -/
theorem advance (h : Reading S w) {rd : Read} (hb : Inv S { w with read := some rd })
    (hstarted : ∀ c ∈ rd.started, c ∈ w.changes)
    (hkept : ∀ data, rd.progress.data = some data → ∀ c ∈ rd.started, c ∈ data)
    (hlater : ∀ rd₀, w.read = some rd₀ → ∀ c ∈ rd₀.started, c ∈ rd.started) :
    Reading S { w with read := some rd } where
  base := hb
  started := fun rd' hrd => by cases hrd; exact hstarted
  kept := fun rd' data hrd => by cases hrd; exact hkept data
  reread := fun seen hs => by
    obtain ⟨rd₀, hrd, hc⟩ := h.reread seen hs
    exact ⟨rd, rfl, fun c hm => hlater rd₀ hrd c (hc c hm)⟩

/-- What has been heard is shown. -/
theorem shown_of_heard (h : Reading S w) {e : ReservationChanged} {n : Int}
    (hh : w.Heard e.listingId n) (hle : (e.seq : Int) ≤ n) : w.Shown e := by
  obtain ⟨seen, hseen, hcovers⟩ := hh.covered
  obtain ⟨rd, hrd, hsub⟩ := h.reread seen hseen
  intro rd' data hrd' hdata a ha hof c hc htid
  rw [hrd] at hrd'
  cases hrd'
  have hup : World.UpTo e.listingId n a := ⟨hof.1, by rw [hof.2]; exact hle⟩
  exact h.kept rd data hrd hdata c (hsub c (hcovers a ha hup c hc htid))

/-- A message reaches the page: what it announces need not be on its way any more. -/
theorem hear (h : Reading S w) {raw : Value} (hg : w.genuine S raw = true)
    (hcov : ∀ sub, w.screen = some sub → w.link.connected = true → ∀ e ∈ w.emitted,
      S.text e.listingId ∈ sub.ids → (e ∈ w.down ∨ w.Shown e) ∨
        isReservationChanged raw = some (e.written S.text)) :
    Reading S (w.hear raw) ∧ Owed S (w.hear raw) := by
  have hhears := hears_hear S w raw
  have hb := h.base.hear hg
  generalize w.hear raw = w' at hhears hb ⊢
  cases hhears with
  | dropped hstale =>
    refine ⟨h, fun sub hs hconn e he hm => ?_⟩
    rcases hcov sub hs hconn e he hm with hold | hraw
    · exact hold
    · obtain ⟨n, hlast, hle⟩ := hstale sub _ hs hraw hm
      exact .inr (h.shown_of_heard (h.base.heard sub hs e.listingId n hlast) hle)
  | handled sub e hs he hm =>
    exact ⟨handler hb, fun _ _ _ _ _ _ => .inr (World.shown_of_sent rfl)⟩

end Reading

structure ScreenInv (S : Setup) (w : World) : Prop extends Reading S w where
  owed : Owed S w

namespace ScreenInv

theorem start (S : Setup) (listings : Table Listing) : ScreenInv S (start listings) where
  base := .start S listings
  started := fun rd hrd => by cases hrd
  kept := fun rd data hrd => by cases hrd
  reread := fun seen hs => by cases hs
  owed := fun sub hs => by cases hs

/-- The read has not been answered yet. -/
theorem of_sent (h : Reading S w) {started : List Change}
    (hrd : w.read = some { started := started, progress := .sent }) : ScreenInv S w :=
  ⟨h, fun _ _ _ _ _ _ => .inr (World.shown_of_sent hrd)⟩

/-- The publishers are as they were, and the page has no new claim on them. -/
theorem of_api (h : ScreenInv S w) (hb : Inv S w') (ha : w'.api = w.api)
    (hal : w'.allocated = w.allocated) (hc : w'.changes = w.changes) (hread : w'.read = w.read)
    (hreread : w'.reread = w.reread) (hdown : ∀ e ∈ w.down, e ∈ w'.down)
    (hpage : w'.link.connected = true → w'.screen = w.screen ∧ w.link.connected = true) :
    ScreenInv S w' := by
  have honward : Onward w w' := .of_api ha hal hc
  refine ⟨h.toReading.onward hb honward.changes hread hreread, fun sub hs hconn e he hm => ?_⟩
  obtain ⟨hscreen, hconn⟩ := hpage hconn
  rw [World.emitted, ha] at he
  rcases h.owed sub (hscreen ▸ hs) hconn e he hm with hd | hshown
  · exact .inl (hdown e hd)
  · exact .inr (hshown.onward (h.base.numbering.le_of_emitted he) honward hread)

theorem published (h : ScreenInv S w) {ev : Event} (hp : Published S w ev w')
    (htimely : ∀ e, w.Emits ev e → w.watches S e = true → w.link.connected = true →
      w.link.inRoom (S.text e.listingId) = false → w.shows e = true) : ScreenInv S w' := by
  have hreading := h.toReading.onward (h.base.published hp) hp.onward.changes hp.page.read
    hp.page.reread
  refine ⟨hreading, fun sub hs hconn e he hm => ?_⟩
  rw [hp.page.screen] at hs
  rw [hp.page.link] at hconn
  rcases hp.emits e he with hold | ⟨hemits, hroom⟩
  · rcases h.owed sub hs hconn e hold hm with hd | hshown
    · exact .inl (hp.kept e hd)
    · exact .inr (hshown.onward (h.base.numbering.le_of_emitted hold) hp.onward hp.page.read)
  · cases hin : w.link.inRoom (S.text e.listingId) with
    | true => exact .inl (hroom hconn hin)
    | false =>
      have hwatches : w.watches S e = true := by
        rw [World.watches, hs, Option.any_some]
        exact List.contains_iff_mem.mpr hm
      have hshown := World.shown_of_shows (htimely e hemits hwatches hconn hin)
      exact .inr (hshown.onward (h.base.numbering.le_of_emits hemits) hp.onward hp.page.read)

/-- A screen is mounted. -/
theorem mount (h : ScreenInv S w) {ids : List String} (hb : Inv S (w.subscribe ids))
    (ht : timely S w (.mount ids) = true) : ScreenInv S (w.subscribe ids) := by
  unfold World.subscribe Subscription.start at hb ⊢
  by_cases hl : ids.length = 0
  · rw [if_pos hl]
    exact h
  · rw [if_neg hl] at hb ⊢
    refine ⟨h.toReading.onward hb (fun _ hc => hc) rfl rfl, fun sub hs hconn e he hm => ?_⟩
    have hconn : w.link.connected = true := by
      simp only at hconn
      split at hconn
      · rw [Link.connected_emit] at hconn
        exact hconn
      · exact hconn
    cases hs
    rw [timely, hconn, Bool.not_true, Bool.false_or, List.all_eq_true] at ht
    have hshows := ht e he
    rw [List.contains_iff_mem.mpr hm, Bool.not_true, Bool.false_or] at hshows
    exact .inr (World.shown_of_shows hshows)

theorem deliver (h : ScreenInv S w) {i : Nat} {e₀ : ReservationChanged}
    (hi : w.down[i]? = some e₀) (hb : Inv S { w with down := w.down.eraseIdx i }) :
    ScreenInv S ({ w with down := w.down.eraseIdx i }.hear (e₀.toValue S.text).json) := by
  have hreading : Reading S { w with down := w.down.eraseIdx i } :=
    h.toReading.onward hb (fun _ hc => hc) rfl rfl
  have hem := h.base.down e₀ (List.mem_of_getElem? hi)
  have hgenuine : { w with down := w.down.eraseIdx i }.genuine S (e₀.toValue S.text).json = true :=
    genuine_of_emitted hem
  have hboth := hreading.hear hgenuine fun sub hs hconn e he hm => ?_
  · exact ⟨hboth.1, hboth.2⟩
  · rcases h.owed sub hs hconn e he hm with hd | hshown
    · obtain ⟨j, hj⟩ := List.mem_iff_getElem?.mp hd
      by_cases hij : j = i
      · subst hij
        rw [hi] at hj
        cases hj
        exact .inr (e₀.isReservationChanged_toValue S.text)
      · exact .inl (.inl (List.mem_eraseIdx_iff_getElem?.mpr ⟨j, hij, hj⟩))
    · exact .inl (.inr hshown)

/-- The socket connects: the handler re-reads, if a screen is mounted. -/
theorem connect (h : ScreenInv S w) (hb : Inv S w.connect) : ScreenInv S w.connect := by
  unfold World.connect at hb ⊢
  split at hb
  · next hs =>
    refine ⟨h.toReading.onward hb (fun _ hc => hc) rfl rfl, fun sub hsub => ?_⟩
    rw [show ({ w with link := w.link.connect } : World).screen = w.screen from rfl, hs] at hsub
    cases hsub
  · exact of_sent (.handler hb) rfl

/-- The read is answered with what has been committed by then. -/
theorem respond (h : ScreenInv S w) {started : List Change}
    (hread : w.read = some { started := started, progress := .sent })
    (hb : Inv S { w with read := some { started := started, progress := .answered w.changes } }) :
    ScreenInv S
      { w with read := some { started := started, progress := .answered w.changes } } := by
  have hold : ∀ c ∈ started, c ∈ w.changes := h.started _ hread
  refine ⟨h.advance hb hold (fun data hdata => ?_) fun rd₀ hrd => ?_,
    fun _ _ _ _ _ _ => .inr fun rd data hrd hdata => ?_⟩
  · cases hdata
    exact hold
  · rw [hread] at hrd
    cases hrd
    exact fun _ hc => hc
  · cases hrd
    cases hdata
    exact World.covers_changes _

/-- The answer arrives. -/
theorem receive (h : ScreenInv S w) {started data : List Change}
    (hread : w.read = some { started := started, progress := .answered data })
    (hb : Inv S { w with read := some { started := started, progress := .received data } }) :
    ScreenInv S { w with read := some { started := started, progress := .received data } } := by
  have hold : ∀ c ∈ started, c ∈ w.changes := h.started _ hread
  have hkept : ∀ c ∈ started, c ∈ data := h.kept _ data hread rfl
  refine ⟨h.advance hb hold (fun data' hdata => ?_) fun rd₀ hrd => ?_,
    fun sub hs hconn e he hm => ?_⟩
  · cases hdata
    exact hkept
  · rw [hread] at hrd
    cases hrd
    exact fun _ hc => hc
  · refine (h.owed sub hs hconn e he hm).imp_right fun hshown rd data' hrd hdata => ?_
    cases hrd
    cases hdata
    exact hshown _ data hread rfl

theorem next (h : ScreenInv S w) {ev : Event} (hl : lossless w ev = true)
    (ht : timely S w ev = true) (hn : next S w ev = some w') : ScreenInv S w' := by
  have hb : Inv S w' := h.base.next hn
  cases ev with
  | api e =>
    obtain ⟨api', hapi, rfl⟩ := Option.map_eq_some_iff.mp hn
    refine h.published (.of_moves h.base.numbering (Machine.next_moves _ _ hapi)) ?_
    rintro e' ⟨t, ch, c, k, he, hth⟩ hwatches hconn hroom
    cases he
    simp only [timely, hth, hwatches, hconn, hroom, Bool.not_false, Bool.and_self, Bool.not_true,
      Bool.false_or] at ht
    exact ht
  | late i =>
    refine h.published (.late h.base.numbering hn) ?_
    rintro e' ⟨t, ch, c, k, he, -⟩
    cases he
  | load =>
    cases hn
    exact of_sent (h.advance hb (fun _ hc => hc) (fun data hdata => by cases hdata) h.started) rfl
  | mount ids =>
    simp only [Realtime.next] at hn
    split at hn
    · cases hn
      exact h.mount hb ht
    · cases hn
  | unmount =>
    obtain ⟨sub, hs, rfl⟩ := Option.map_eq_some_iff.mp hn
    exact ⟨h.toReading.onward hb (fun _ hc => hc) rfl rfl, fun sub hs => by cases hs⟩
  | connect =>
    simp only [Realtime.next] at hn
    split at hn
    · cases hn
      exact h.connect hb
    · cases hn
  | disconnect =>
    simp only [Realtime.next] at hn
    split at hn
    · cases hn
      exact ⟨h.toReading.onward hb (fun _ hc => hc) rfl rfl, fun _ _ hconn => by cases hconn⟩
    · cases hn
  | serve =>
    simp only [Realtime.next] at hn
    split at hn <;> cases hn
    exact h.of_api hb rfl rfl rfl rfl rfl (fun _ he => he) fun hconn => ⟨rfl, hconn⟩
  | deliver i =>
    obtain ⟨e, hi, rfl⟩ := Option.map_eq_some_iff.mp hn
    exact h.deliver hi
      (h.base.of_same rfl rfl rfl rfl (fun _ he => List.mem_of_mem_eraseIdx he) rfl rfl)
  | stray raw =>
    simp only [Realtime.next] at hn
    split at hn
    · next hg =>
      cases hn
      have hboth :=
        h.toReading.hear hg fun sub hs hconn e he hm => .inl (h.owed sub hs hconn e he hm)
      exact ⟨hboth.1, hboth.2⟩
    · cases hn
  | lose i => cases hl
  | respond =>
    simp only [Realtime.next] at hn
    split at hn
    · next started hread =>
      cases hn
      exact h.respond hread hb
    · cases hn
  | receive =>
    simp only [Realtime.next] at hn
    split at hn
    · next started data hread =>
      cases hn
      exact h.receive hread hb
    · cases hn

end ScreenInv

/-- In every run whose steps are timely, an idle screen shows every change that has been
announced on the listings it watches. -/
theorem idle_screen_is_up_to_date (S : Setup) (listings : Table Listing) {w : World}
    (hr : Reaches S (fun w ev => lossless w ev && timely S w ev) (start listings) w)
    (hi : w.Idle) : w.UpToDate S := by
  have hinv : ScreenInv S w := by
    clear hi
    induction hr with
    | refl => exact .start S listings
    | tail ev _ hok hn ih =>
      obtain ⟨hl, ht⟩ := Bool.and_eq_true_iff.mp hok
      exact ih.next hl ht hn
  obtain ⟨started, data, hread⟩ := hi.read
  rintro sub hs c hc hm ⟨e, he, hlisting, a, ha, hof, htid⟩
  refine ⟨_, data, hread, rfl, ?_⟩
  rcases hinv.owed sub hs hi.connected e he (hlisting.symm ▸ hm) with hd | hshown
  · rw [hi.down] at hd
    cases hd
  · exact hshown _ data hread rfl a ha hof c hc htid.symm

namespace Scenario

/-- The re-read of a reconnect is answered and received. -/
def answered : List Event := [.respond, .receive]

/-- The screen is idle, and has missed an announced change on its listing. -/
def missed (w : World) : Bool :=
  w.link.connected && w.link.up.isEmpty && w.down.isEmpty &&
    w.screen.any (fun sub => sub.ids == [text 7]) &&
    (match w.read with
      | some { started := _, progress := .received data } => data.isEmpty
      | _ => false) &&
    w.changes.any fun c => c.row.listingId == 7 &&
      w.emitted.any fun e => e.listingId == 7 &&
        w.allocated.any fun a => a.listingId == 7 && a.seq == e.seq && a.tid == c.tid

end Scenario

/-- The read of a reconnect is answered, a hold is announced, and only then does the gateway
put the socket in the room. -/
theorem not_idle_screen_is_up_to_date : ¬∀ (S : Setup) (listings : Table Listing) (w : World),
    Reaches S lossless (start listings) w → w.Idle → w.UpToDate S := by
  intro h
  have hrun : (run Scenario.setup lossless (start NoOverlap.Scenario.listings)
      (Scenario.opened ++ Scenario.answered ++ Scenario.hold ++ [.serve])).any
      Scenario.missed = true := by decide +kernel
  obtain ⟨w, hr, ht⟩ := exists_reaches_of_run hrun
  simp only [Scenario.missed, Bool.and_eq_true, List.isEmpty_iff] at ht
  obtain ⟨⟨⟨⟨⟨hconn, hup⟩, hdown⟩, hscreen⟩, hread⟩, hchange⟩ := ht
  obtain ⟨sub, hs, hids⟩ := Option.any_eq_true _ _ |>.mp hscreen
  obtain ⟨c, hc, hchange⟩ := List.any_eq_true.mp hchange
  obtain ⟨hlisting, hchange⟩ := Bool.and_eq_true_iff.mp hchange
  obtain ⟨e, he, hchange⟩ := List.any_eq_true.mp hchange
  obtain ⟨hel, hchange⟩ := Bool.and_eq_true_iff.mp hchange
  obtain ⟨a, ha, hchange⟩ := List.any_eq_true.mp hchange
  simp only [Bool.and_eq_true, beq_iff_eq] at hlisting hel hchange hids
  split at hread
  · next started data heq =>
    have hannounced : w.Announced c := ⟨e, he, hel.trans hlisting.symm, a, ha,
      ⟨hchange.1.1.trans hel.symm, hchange.1.2⟩, hchange.2⟩
    have hwatched : Scenario.setup.text c.row.listingId ∈ sub.ids := by
      rw [hlisting, hids]
      exact List.mem_singleton_self _
    obtain ⟨rd, data', hrd, hdata, hmem⟩ := h _ _ w hr
      ⟨hconn, hup, hdown, started, data, heq⟩ sub hs c hc hwatched hannounced
    rw [heq] at hrd
    cases hrd
    cases hdata
    rw [List.isEmpty_iff.mp hread] at hmem
    cases hmem
  · cases hread

/-- The gateway is quicker: the hold is announced to the room, and the screen reads again. -/
theorem idle_screen_is_up_to_date_heard : ∃ w,
    Reaches Scenario.setup (fun w ev => lossless w ev && timely Scenario.setup w ev)
      (start NoOverlap.Scenario.listings) w ∧ w.Idle ∧ w.changes ≠ [] ∧
        w.UpToDate Scenario.setup := by
  have hrun : (run Scenario.setup (fun w ev => lossless w ev && timely Scenario.setup w ev)
      (start NoOverlap.Scenario.listings)
      (Scenario.opened ++ [.serve] ++ Scenario.answered ++ Scenario.hold ++
        [.deliver 0] ++ Scenario.answered)).any (fun w =>
        w.link.connected && w.link.up.isEmpty && w.down.isEmpty && !w.changes.isEmpty &&
          match w.read with
          | some { started := _, progress := .received _ } => true
          | _ => false) = true := by decide +kernel
  obtain ⟨w, hr, ht⟩ := exists_reaches_of_run hrun
  simp only [Bool.and_eq_true, List.isEmpty_iff, Bool.not_eq_true', List.isEmpty_eq_false_iff] at ht
  obtain ⟨⟨⟨⟨hconn, hup⟩, hdown⟩, hchanges⟩, hread⟩ := ht
  split at hread
  · next started data heq =>
    have hidle : w.Idle := ⟨hconn, hup, hdown, started, data, heq⟩
    exact ⟨w, hr, hidle, hchanges, idle_screen_is_up_to_date _ _ hr hidle⟩
  · cases hread

end NoOverlap.Realtime
