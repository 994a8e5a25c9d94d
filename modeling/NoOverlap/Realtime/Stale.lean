import NoOverlap.Realtime.Numbers

/-!
# Dropping a stale event

An event whose number is not above `lastSeq` is dropped.  The number was recorded together
with the start of a re-read, and every call that had been given a number by then had
committed before it asked for one.  So what the event announces was committed when the
most recent re-read of the handler started.
-/

namespace NoOverlap.Realtime

open Relational Concurrency Json

variable {S : Setup} {w w' : World}

namespace World

/-- `data` holds the changes of every call that was given a number in `P`. -/
def Covers (w : World) (P : Allocation → Prop) (data : List Change) : Prop :=
  ∀ a ∈ w.allocated, P a → ∀ c ∈ w.changes, c.tid = a.tid → c ∈ data

/-- The numbers of a listing up to `n`. -/
def UpTo (listingId : Id) (n : Int) (a : Allocation) : Prop :=
  a.listingId = listingId ∧ (a.seq : Int) ≤ n

/-- The number of an event. -/
def Of (e : ReservationChanged) (a : Allocation) : Prop :=
  a.listingId = e.listingId ∧ a.seq = e.seq

/-- Numbers that have been given stay covered. -/
theorem Covers.onward {P : Allocation → Prop} {data : List Change} (h : w.Covers P data)
    (hP : ∀ a, P a → a.seq ≤ w.seq a.listingId) (ho : Onward w w') : w'.Covers P data := by
  intro a ha hp c hc htid
  rcases ho.allocated a ha with hold | hnew
  · rcases ho.fresh c hc with hc | hfresh
    · exact h a hold hp c hc htid
    · exact (hfresh a hold htid.symm).elim
  · exact absurd (hP a hp) (Nat.not_le.mpr hnew)

theorem covers_changes (P : Allocation → Prop) : w.Covers P w.changes :=
  fun _ _ _ _ hc _ => hc

/-- The number `n` was recorded with a re-read that covers all numbers up to it. -/
structure Heard (w : World) (listingId : Id) (n : Int) : Prop where
  le : n ≤ w.seq listingId
  covered : ∃ seen, w.reread = some seen ∧ w.Covers (UpTo listingId n) seen

theorem Heard.onward {listingId : Id} {n : Int} (h : w.Heard listingId n) (ho : Onward w w')
    (hr : w'.reread = w.reread) : w'.Heard listingId n := by
  obtain ⟨seen, hs, hc⟩ := h.covered
  have hle := h.le
  have hmono := ho.seq listingId
  refine ⟨by omega, seen, hr.trans hs, hc.onward (fun a ha => ?_) ho⟩
  obtain ⟨rfl, hn⟩ := ha
  omega

end World

/-- What a message of the server does to the page. -/
inductive Hears (S : Setup) (w : World) (raw : Value) : World → Prop where
  | dropped (h : ∀ sub e, w.screen = some sub → isReservationChanged raw = some e →
      e.listingId ∈ sub.ids → ∃ n, sub.lastSeq e.listingId = some n ∧ e.seq ≤ n) :
      Hears S w raw w
  | handled (sub : Subscription) (e : Wire.ReservationChanged) (hs : w.screen = some sub)
      (he : isReservationChanged raw = some e) (hm : e.listingId ∈ sub.ids) :
      Hears S w raw { w with screen := some { sub with
        lastSeq := Function.update sub.lastSeq e.listingId (some e.seq) } }.handler

theorem hears_hear (S : Setup) (w : World) (raw : Value) : Hears S w raw (w.hear raw) := by
  unfold World.hear
  cases hs : w.screen with
  | none => exact .dropped fun sub e h => by rw [hs] at h; cases h
  | some sub =>
    simp only
    rcases hon : sub.onChanged raw with ⟨sub', u⟩
    rcases Subscription.onChanged_cases hon with ⟨rfl, rfl, hstale⟩ | ⟨hu, e, he, hm, rfl⟩
    · have hsame : { w with screen := some sub' } = w := by rw [← hs]
      simp only [hsame]
      refine .dropped fun sub e h he hm => ?_
      rw [hs] at h
      cases h
      exact hstale e he hm
    · cases u with
      | none => exact (hu rfl).elim
      | some update => exact .handled sub e hs he hm

/-- The network hands on what has been emitted. -/
theorem exists_of_genuine {raw : Value} (h : w.genuine S raw = true) {e : Wire.ReservationChanged}
    (he : isReservationChanged raw = some e) : ∃ e' ∈ w.emitted, e'.written S.text = e := by
  rw [World.genuine, he, List.any_eq_true] at h
  obtain ⟨e', hm, heq⟩ := h
  exact ⟨e', hm, beq_iff_eq.mp heq⟩

theorem genuine_of_emitted {e : ReservationChanged} (h : e ∈ w.emitted) :
    w.genuine S (e.toValue S.text).json = true := by
  rw [World.genuine, ReservationChanged.isReservationChanged_toValue, List.any_eq_true]
  exact ⟨e, h, beq_self_eq_true _⟩

/-! ## The invariant -/

structure Inv (S : Setup) (w : World) : Prop where
  numbering : Numbering w
  down : ∀ e ∈ w.down, e ∈ w.emitted
  heard : ∀ sub, w.screen = some sub → ∀ listingId n,
    sub.lastSeq (S.text listingId) = some n → w.Heard listingId n

namespace Inv

theorem start (S : Setup) (listings : Table Listing) : Inv S (start listings) where
  numbering := .start listings
  down := fun e he => by cases he
  heard := fun sub hs => by cases hs

/-- The processes and the record of numbers are as they were, and so is what was heard. -/
theorem of_api (h : Inv S w) (ha : w'.api = w.api) (hal : w'.allocated = w.allocated)
    (hq : w'.queued = w.queued) (hd : ∀ e ∈ w'.down, e ∈ w.down)
    (hheard : ∀ sub, w'.screen = some sub → ∀ listingId n,
      sub.lastSeq (S.text listingId) = some n → w'.Heard listingId n) : Inv S w' where
  numbering := h.numbering.of_api ha hal hq
  down := fun e he => by
    rw [World.emitted, ha]
    exact h.down e (hd e he)
  heard := hheard

/-- The publishers, and what has been heard and re-read, are as they were. -/
theorem of_same (h : Inv S w) (ha : w'.api = w.api) (hal : w'.allocated = w.allocated)
    (hq : w'.queued = w.queued) (hc : w'.changes = w.changes) (hd : ∀ e ∈ w'.down, e ∈ w.down)
    (hs : w'.screen = w.screen) (hr : w'.reread = w.reread) : Inv S w' := by
  refine h.of_api ha hal hq hd fun sub hsub listingId n hlast => ?_
  exact (h.heard sub (hs ▸ hsub) listingId n hlast).onward (.of_api ha hal hc) hr

theorem published (h : Inv S w) {ev : Event} (hp : Published S w ev w') : Inv S w' where
  numbering := hp.numbering
  down := fun e he => by
    rcases hp.down e he with he | he
    · exact hp.onward.emitted e (h.down e he)
    · exact he
  heard := fun sub hs listingId n hn =>
    (h.heard sub (hp.page.screen ▸ hs) listingId n hn).onward hp.onward hp.page.reread

/-- A re-read of the handler covers whatever has been heard. -/
theorem handler (h : Inv S w) : Inv S w.handler := by
  refine h.of_api rfl rfl rfl (fun _ he => he) fun sub hs listingId n hn => ?_
  exact ⟨(h.heard sub hs listingId n hn).le, w.changes, rfl, World.covers_changes _⟩

theorem hear (h : Inv S w) {raw : Value} (hg : w.genuine S raw = true) : Inv S (w.hear raw) := by
  have hhears := hears_hear S w raw
  generalize w.hear raw = w' at hhears ⊢
  cases hhears with
  | dropped => exact h
  | handled sub e hs he hm =>
    obtain ⟨e', hem, rfl⟩ := exists_of_genuine hg he
    obtain ⟨a, ha, hl, hseq⟩ := h.numbering.emitted e' hem
    have hbound := h.numbering.bound a ha
    refine h.of_api rfl rfl rfl (fun _ he => he) fun sub' hs' listingId n hn => ?_
    cases hs'
    refine ⟨?_, w.changes, rfl, World.covers_changes _⟩
    have hlast : Function.update sub.lastSeq (S.text e'.listingId) (some (e'.seq : Int))
        (S.text listingId) = some n := hn
    change n ≤ (w.seq listingId : Int)
    by_cases heq : S.text listingId = S.text e'.listingId
    · have hid : listingId = e'.listingId := S.text_injective heq
      rw [heq, Function.update_self] at hlast
      have hval : (e'.seq : Int) = n := Option.some.inj hlast
      rw [hl, hseq, ← hid] at hbound
      omega
    · rw [Function.update_of_ne heq] at hlast
      exact (h.heard sub hs listingId n hlast).le

theorem next (h : Inv S w) {ev : Event} (hn : next S w ev = some w') : Inv S w' := by
  cases ev with
  | api e =>
    obtain ⟨api', hapi, rfl⟩ := Option.map_eq_some_iff.mp hn
    exact h.published (.of_moves h.numbering (Machine.next_moves _ _ hapi))
  | late i => exact h.published (.late h.numbering hn)
  | load => cases hn; exact h.of_same rfl rfl rfl rfl (fun _ he => he) rfl rfl
  | mount ids =>
    simp only [Realtime.next] at hn
    split at hn
    · cases hn
      unfold World.subscribe Subscription.start
      by_cases hl : ids.length = 0
      · rw [if_pos hl]
        exact h
      · rw [if_neg hl]
        refine h.of_api rfl rfl rfl (fun _ he => he) fun sub hs listingId n hlast => ?_
        cases hs
        cases hlast
    · cases hn
  | unmount =>
    obtain ⟨sub, hs, rfl⟩ := Option.map_eq_some_iff.mp hn
    exact h.of_api rfl rfl rfl (fun _ he => he) fun sub hs => by cases hs
  | connect =>
    simp only [Realtime.next] at hn
    split at hn
    · cases hn
      unfold World.connect
      split
      · exact h.of_same rfl rfl rfl rfl (fun _ he => he) rfl rfl
      · exact handler (h.of_same rfl rfl rfl rfl (fun _ he => he) rfl rfl)
    · cases hn
  | disconnect =>
    simp only [Realtime.next] at hn
    split at hn
    · cases hn
      exact h.of_same rfl rfl rfl rfl (fun e he => by cases he) rfl rfl
    · cases hn
  | serve =>
    simp only [Realtime.next] at hn
    split at hn <;> cases hn
    exact h.of_same rfl rfl rfl rfl (fun _ he => he) rfl rfl
  | deliver i =>
    obtain ⟨e, hi, rfl⟩ := Option.map_eq_some_iff.mp hn
    have hem := h.down e (List.mem_of_getElem? hi)
    have htaken : Inv S { w with down := w.down.eraseIdx i } :=
      h.of_same rfl rfl rfl rfl (fun _ he => List.mem_of_mem_eraseIdx he) rfl rfl
    exact htaken.hear (genuine_of_emitted hem)
  | stray raw =>
    simp only [Realtime.next] at hn
    split at hn
    · next hg =>
      cases hn
      exact h.hear hg
    · cases hn
  | lose i =>
    simp only [Realtime.next] at hn
    split at hn <;> cases hn
    exact h.of_same rfl rfl rfl rfl (fun _ he => List.mem_of_mem_eraseIdx he) rfl rfl
  | respond =>
    simp only [Realtime.next] at hn
    split at hn <;> cases hn
    exact h.of_same rfl rfl rfl rfl (fun _ he => he) rfl rfl
  | receive =>
    simp only [Realtime.next] at hn
    split at hn <;> cases hn
    exact h.of_same rfl rfl rfl rfl (fun _ he => he) rfl rfl

theorem of_reaches {ok : World → Event → Bool} {listings : Table Listing}
    (hr : Reaches S ok (Realtime.start listings) w) : Inv S w := by
  induction hr with
  | refl => exact .start S listings
  | tail e _ _ hn ih => exact ih.next hn

end Inv

/-- Whenever `lastSeq` of a listing is `n`, every change numbered at most `n` was committed
when the handler last started a re-read; so an event that is dropped announces nothing that
this re-read cannot have seen. -/
theorem dropped_events_hide_nothing (S : Setup) (listings : Table Listing) {w : World}
    (hr : Reaches S always (start listings) w) {sub : Subscription} (hs : w.screen = some sub)
    {listingId : Id} {n : Int} (hn : sub.lastSeq (S.text listingId) = some n) :
    ∃ seen, w.reread = some seen ∧
      (∀ a ∈ w.allocated, a.listingId = listingId → (a.seq : Int) ≤ n →
        ∀ c ∈ w.changes, c.tid = a.tid → c ∈ seen) ∧
      ∀ e ∈ w.emitted, e.listingId = listingId → S.text listingId ∈ sub.ids →
        (sub.onChanged (e.toValue S.text).json).2 = none →
          ∃ a ∈ w.allocated, a.listingId = listingId ∧ a.seq = e.seq ∧
            ∀ c ∈ w.changes, c.tid = a.tid → c ∈ seen := by
  have hinv := Inv.of_reaches hr
  obtain ⟨seen, hseen, hcovers⟩ := (hinv.heard sub hs listingId n hn).covered
  refine ⟨seen, hseen, fun a ha hl hle => hcovers a ha ⟨hl, hle⟩, fun e he hl hm hdropped => ?_⟩
  obtain ⟨a, ha, hal, hseq⟩ := hinv.numbering.emitted e he
  subst hl
  rcases hon : sub.onChanged (e.toValue S.text).json with ⟨sub', u⟩
  rcases Subscription.onChanged_cases hon with ⟨-, -, hstale⟩ | ⟨hu, -⟩
  · obtain ⟨m, hlast, hle⟩ := hstale _ (e.isReservationChanged_toValue S.text) hm
    have hmn : m = n := Option.some.inj (hlast.symm.trans hn)
    have hwritten : (e.written S.text).seq = e.seq := rfl
    refine ⟨a, ha, hal, hseq, hcovers a ha ⟨hal, ?_⟩⟩
    omega
  · rw [hon] at hdropped
    exact (hu hdropped).elim

namespace Scenario

/-- Ids written in unary. -/
def text (id : Id) : String := String.ofList (List.replicate id 'a')

theorem text_injective : Function.Injective text := by
  intro a b h
  have hlist := congrArg List.length (String.ofList_injective h)
  rwa [List.length_replicate, List.length_replicate] at hlist

def setup : Setup :=
  { api := NoOverlap.Scenario.cfg, unannounced := gateway_unannounced, text := text,
    text_injective := text_injective }

/-- A hold on the listing that the screen watches, up to the return of its call. -/
def hold : List Event :=
  (NoOverlap.Scenario.place 0 NoOverlap.Scenario.stay 10 11).map .api

/-- A screen is opened, and its socket is connected. -/
def opened : List Event := [.load, .mount [text 7], .connect]

end Scenario

/-- A hold is announced to a screen in its room, and handled. -/
theorem dropped_events_hide_nothing_heard : ∃ w sub,
    Reaches Scenario.setup always (start NoOverlap.Scenario.listings) w ∧ w.screen = some sub ∧
      sub.lastSeq (Scenario.text 7) = some 1 ∧ ∃ seen, w.reread = some seen ∧
        ∀ a ∈ w.allocated, a.listingId = 7 → (a.seq : Int) ≤ 1 →
          ∀ c ∈ w.changes, c.tid = a.tid → c ∈ seen := by
  have hrun : (run Scenario.setup always (start NoOverlap.Scenario.listings)
      (Scenario.opened ++ [.serve] ++ Scenario.hold ++ [.deliver 0])).any
      (fun w => w.screen.any fun sub => sub.lastSeq (Scenario.text 7) == some 1) = true := by
    decide +kernel
  obtain ⟨w, hr, ht⟩ := exists_reaches_of_run hrun
  obtain ⟨sub, hs, hlast⟩ := Option.any_eq_true _ _ |>.mp ht
  have hlast : sub.lastSeq (Scenario.text 7) = some 1 := beq_iff_eq.mp hlast
  obtain ⟨seen, hseen, hcovers, -⟩ :=
    dropped_events_hide_nothing Scenario.setup NoOverlap.Scenario.listings hr hs hlast
  exact ⟨w, sub, hr, hs, hlast, seen, hseen, hcovers⟩

end NoOverlap.Realtime
