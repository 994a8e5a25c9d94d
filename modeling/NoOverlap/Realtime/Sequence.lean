import Mathlib.Data.List.Induction
import NoOverlap.Realtime.Client

/-!
# The sequence filter

What one subscription makes of everything that is delivered to it, in any order, with duplicates
and losses.  All of it follows from `call_iff`: the number kept of a listing is the highest that
was delivered, and a call is a gap where the next number above it has been passed over.
-/

namespace NoOverlap.Realtime

open Json

/-- The numbers of a listing among what was delivered. -/
def numbers (id : String) (raws : List Value) : List Int :=
  raws.filterMap fun raw => (isReservationChanged raw).bind fun e =>
    if e.listingId = id then some e.seq else none

/-- An event of the listing. -/
def about (id : String) (raw : Value) : Bool :=
  (isReservationChanged raw).any fun e => e.listingId == id

section Numbers

variable {id : String} {raws raws' : List Value} {raw : Value} {e : Wire.ReservationChanged}
  {n k : Int} {l : List Int}

theorem numbers_append (id : String) (raws raws' : List Value) :
    numbers id (raws ++ raws') = numbers id raws ++ numbers id raws' :=
  List.filterMap_append

theorem numbers_of_event (he : isReservationChanged raw = some e) (hid : e.listingId = id) :
    numbers id [raw] = [e.seq] := by
  simp [numbers, he, hid]

theorem numbers_of_not_about (h : about id raw = false) : numbers id [raw] = [] := by
  cases he : isReservationChanged raw with
  | none => simp [numbers, he]
  | some e =>
    have hid : e.listingId ≠ id := by simpa [about, he] using h
    simp [numbers, he, hid]

theorem event_of_about (h : about id raw = true) :
    ∃ e, isReservationChanged raw = some e ∧ e.listingId = id := by
  obtain ⟨e, he, hid⟩ := (Option.any_eq_true _ _).mp h
  exact ⟨e, he, beq_iff_eq.mp hid⟩

theorem numbers_filter : numbers id (raws.filter (about id)) = numbers id raws := by
  induction raws with
  | nil => rfl
  | cons raw raws ih =>
    have hcons : ∀ rest,
        numbers id (raw :: rest) = numbers id [raw] ++ numbers id rest := fun rest =>
      numbers_append id [raw] rest
    cases ha : about id raw with
    | true => rw [List.filter_cons_of_pos ha, hcons (raws.filter _), hcons raws, ih]
    | false =>
      rw [List.filter_cons_of_neg (by simp [ha]), hcons raws, numbers_of_not_about ha, ih,
        List.nil_append]

theorem max?_snoc (l : List Int) (n : Int) :
    (l ++ [n]).max? = if ∃ m ∈ l, n ≤ m then l.max? else some n := by
  split
  · next h =>
    obtain ⟨m, hm, hle⟩ := h
    cases hmax : l.max? with
    | none =>
      rw [List.max?_eq_none_iff.mp hmax] at hm
      cases hm
    | some a =>
      obtain ⟨ha, hall⟩ := List.max?_eq_some_iff.mp hmax
      refine List.max?_eq_some_iff.mpr ⟨List.mem_append_left _ ha, fun b hb => ?_⟩
      rcases List.mem_append.mp hb with hb | hb
      · exact hall b hb
      · rw [List.mem_singleton.mp hb]
        exact hle.trans (hall m hm)
  · next h =>
    refine List.max?_eq_some_iff.mpr
      ⟨List.mem_append_right _ (List.mem_singleton_self n), fun b hb => ?_⟩
    rcases List.mem_append.mp hb with hb | hb
    · exact Int.le_of_lt (Int.not_le.mp fun hle => h ⟨b, hb, hle⟩)
    · exact Int.le_of_eq (List.mem_singleton.mp hb)

/-- The highest is not below `n`. -/
theorem any_max?_le : (l.max?.any fun m => decide (n ≤ m)) = true ↔ ∃ m ∈ l, n ≤ m := by
  rw [Option.any_eq_true]
  constructor
  · rintro ⟨m, hm, hle⟩
    exact ⟨m, (List.max?_eq_some_iff.mp hm).1, of_decide_eq_true hle⟩
  · rintro ⟨m, hm, hle⟩
    obtain ⟨a, ha⟩ := Option.isSome_iff_exists.mp (List.isSome_max?_iff.mpr (List.ne_nil_of_mem hm))
    exact ⟨a, ha, decide_eq_true (hle.trans ((List.max?_eq_some_iff.mp ha).2 m hm))⟩

/-- The next number above the highest is passed over. -/
theorem any_max?_gap :
    (l.max?.any fun m => decide (n > m + 1)) = true ↔ l ≠ [] ∧ ∀ m ∈ l, m + 1 < n := by
  rw [Option.any_eq_true]
  constructor
  · rintro ⟨a, ha, hlt⟩
    obtain ⟨hmem, hall⟩ := List.max?_eq_some_iff.mp ha
    refine ⟨List.ne_nil_of_mem hmem, fun m hm => ?_⟩
    have hle := hall m hm
    have hgap := of_decide_eq_true hlt
    omega
  · rintro ⟨hnil, hall⟩
    obtain ⟨a, ha⟩ := Option.isSome_iff_exists.mp (List.isSome_max?_iff.mpr hnil)
    exact ⟨a, ha, decide_eq_true (hall a (List.max?_eq_some_iff.mp ha).1)⟩

end Numbers

namespace Subscription

/-! ## The filter -/

/-- What is kept after these deliveries. -/
def after (sub : Subscription) (raws : List Value) : Subscription :=
  raws.foldl (fun s raw => (s.onChanged raw).1) sub

/-- The call of the handler when `raw` follows them. -/
def call (sub : Subscription) (raws : List Value) (raw : Value) : Option ListingUpdate :=
  ((sub.after raws).onChanged raw).2

/-- All calls of the handler. -/
def calls (sub : Subscription) : List Value → List ListingUpdate
  | [] => []
  | raw :: raws => (sub.onChanged raw).2.toList ++ (sub.onChanged raw).1.calls raws

/-- At this delivery the maximum passes `k`. -/
structure Passes (pre : List Value) (e : Wire.ReservationChanged) (k : Int) : Prop where
  before : ∀ n ∈ numbers e.listingId pre, n ≤ k
  above : k < e.seq

/-- The filter of one subscription, over a history of deliveries. -/
structure Filters (sub : Subscription) (raws : List Value) : Prop where
  highest : ∀ id ∈ sub.ids, (sub.after raws).lastSeq id = (numbers id raws).max?
  called : ∀ pre raw post, raws = pre ++ raw :: post → ((sub.call pre raw).isSome ↔
    ∃ e, isReservationChanged raw = some e ∧ e.listingId ∈ sub.ids ∧
      ∀ n ∈ numbers e.listingId pre, n < e.seq)
  told : ∀ pre raw post u, raws = pre ++ raw :: post → sub.call pre raw = some u →
    u.event = isReservationChanged raw
  passed : ∀ id k, (∃ n ∈ numbers id raws, k < n) → ∃ pre raw post e,
    raws = pre ++ raw :: post ∧ isReservationChanged raw = some e ∧ e.listingId = id ∧
      Passes pre e k
  found : ∀ pre raw post e f k, raws = pre ++ raw :: post → isReservationChanged raw = some e →
    e.listingId ∈ sub.ids → (numbers e.listingId raws).head? = some f → f < k → Passes pre e k →
      k ∉ numbers e.listingId pre → sub.call pre raw = some { event := some e, reason := .gap }
  missed : ∀ pre raw post u, raws = pre ++ raw :: post → sub.call pre raw = some u →
    u.reason = .gap → ∃ e f k, isReservationChanged raw = some e ∧
      (numbers e.listingId pre).head? = some f ∧ f < k ∧ Passes pre e k ∧
        k ∉ numbers e.listingId pre
  apart : ∀ id, (sub.after raws).lastSeq id = (sub.after (raws.filter (about id))).lastSeq id ∧
    (sub.calls raws).filter (fun u => u.event.any fun e => e.listingId == id) =
      sub.calls (raws.filter (about id))

/-! ## One delivery -/

section Deliveries

variable {sub : Subscription} {ids : List String} {id : String} {raws pre post : List Value}
  {raw : Value} {e : Wire.ReservationChanged} {u : ListingUpdate}

theorem after_snoc (sub : Subscription) (raws : List Value) (raw : Value) :
    sub.after (raws ++ [raw]) = ((sub.after raws).onChanged raw).1 := List.foldl_concat ..

theorem calls_append (sub : Subscription) (raws raws' : List Value) :
    sub.calls (raws ++ raws') = sub.calls raws ++ (sub.after raws).calls raws' := by
  induction raws generalizing sub with
  | nil => rfl
  | cons raw raws ih =>
    rw [List.cons_append, calls, ih, calls, List.append_assoc]
    rfl

theorem calls_snoc (sub : Subscription) (raws : List Value) (raw : Value) :
    sub.calls (raws ++ [raw]) = sub.calls raws ++ (sub.call raws raw).toList := by
  rw [calls_append, calls, calls, List.append_nil]
  rfl

/-- An event of a watched listing, by the number that is kept. -/
theorem onChanged_of_event (he : isReservationChanged raw = some e) (hid : e.listingId ∈ sub.ids) :
    sub.onChanged raw =
      if (sub.lastSeq e.listingId).any fun n => decide (e.seq ≤ n) then (sub, none)
      else ({ sub with lastSeq := Function.update sub.lastSeq e.listingId (some e.seq) },
        some { event := some e, reason :=
          if (sub.lastSeq e.listingId).any fun n => decide (e.seq > n + 1) then .gap else .change }) := by
  have hc : sub.ids.contains e.listingId = true := List.contains_iff_mem.mpr hid
  simp only [onChanged, he, hc, Bool.not_true, Bool.false_eq_true, if_false]

theorem onChanged_of_none (he : isReservationChanged raw = none) :
    sub.onChanged raw = (sub, none) := by
  simp only [onChanged, he]

theorem onChanged_of_unwatched (he : isReservationChanged raw = some e)
    (hid : e.listingId ∉ sub.ids) : sub.onChanged raw = (sub, none) := by
  have hc : sub.ids.contains e.listingId = false := by simpa using hid
  simp only [onChanged, he, hc, Bool.not_false, if_true]

theorem ids_onChanged (sub : Subscription) (raw : Value) : (sub.onChanged raw).1.ids = sub.ids := by
  obtain ⟨sub', u, hs⟩ : ∃ sub' u, sub.onChanged raw = (sub', u) := ⟨_, _, rfl⟩
  rw [hs]
  rcases onChanged_cases hs with ⟨rfl, -⟩ | ⟨-, e, -, -, rfl⟩ <;> rfl

theorem ids_after (sub : Subscription) (raws : List Value) : (sub.after raws).ids = sub.ids := by
  induction raws generalizing sub with
  | nil => rfl
  | cons raw raws ih => exact (ih _).trans (ids_onChanged sub raw)

/-- A delivery of another listing, or of none. -/
theorem lastSeq_onChanged_of_not_about (h : about id raw = false) :
    (sub.onChanged raw).1.lastSeq id = sub.lastSeq id := by
  obtain ⟨sub', u, hs⟩ : ∃ sub' u, sub.onChanged raw = (sub', u) := ⟨_, _, rfl⟩
  rw [hs]
  rcases onChanged_cases hs with ⟨rfl, -⟩ | ⟨-, e, he, -, rfl⟩
  · rfl
  · have hne : id ≠ e.listingId := fun hid => by simp [about, he, hid] at h
    exact Function.update_of_ne hne _ _

/-- The number kept of a listing is the highest that was delivered. -/
theorem lastSeq_after (hs : Subscription.start ids = some sub) (raws : List Value) (id : String) :
    (sub.after raws).lastSeq id = if id ∈ sub.ids then (numbers id raws).max? else none := by
  have hfresh : sub.lastSeq = fun _ => none := by
    unfold Subscription.start at hs
    split at hs
    · cases hs
    · cases hs
      rfl
  induction raws using List.reverseRecOn with
  | nil =>
    change sub.lastSeq id = _
    rw [hfresh]
    split <;> rfl
  | append_singleton raws raw ih =>
    rw [after_snoc, numbers_append]
    cases habout : about id raw with
    | false =>
      rw [lastSeq_onChanged_of_not_about habout, numbers_of_not_about habout, List.append_nil]
      exact ih
    | true =>
      obtain ⟨e, he, rfl⟩ := event_of_about habout
      by_cases hid : e.listingId ∈ sub.ids
      · have hid' : e.listingId ∈ (sub.after raws).ids := by rwa [ids_after]
        rw [if_pos hid] at ih ⊢
        rw [onChanged_of_event he hid', numbers_of_event he rfl, max?_snoc, ih]
        simp only [any_max?_le]
        split
        · exact ih
        · exact Function.update_self ..
      · have hid' : e.listingId ∉ (sub.after raws).ids := by rwa [ids_after]
        rw [if_neg hid] at ih ⊢
        rw [onChanged_of_unwatched he hid']
        exact ih

/-- A delivery is handled where its number is above all numbers before, as a gap where the next
above them is not its own. -/
theorem call_iff (hs : Subscription.start ids = some sub) :
    sub.call raws raw = some u ↔ ∃ e, isReservationChanged raw = some e ∧ e.listingId ∈ sub.ids ∧
      (∀ n ∈ numbers e.listingId raws, n < e.seq) ∧ u.event = some e ∧
        u.reason = if numbers e.listingId raws ≠ [] ∧ ∀ n ∈ numbers e.listingId raws, n + 1 < e.seq
          then .gap else .change := by
  cases he : isReservationChanged raw with
  | none =>
    rw [call, onChanged_of_none he]
    exact iff_of_false (fun h => by cases h) fun ⟨e, h, _⟩ => by cases h
  | some e =>
    by_cases hid : e.listingId ∈ sub.ids
    · have hid' : e.listingId ∈ (sub.after raws).ids := by rwa [ids_after]
      have hlast : (sub.after raws).lastSeq e.listingId = (numbers e.listingId raws).max? := by
        rw [lastSeq_after hs, if_pos hid]
      rw [call, onChanged_of_event he hid', hlast]
      simp only [any_max?_le, any_max?_gap]
      by_cases hstale : ∃ n ∈ numbers e.listingId raws, e.seq ≤ n
      · rw [if_pos hstale]
        refine iff_of_false (fun h => by cases h) ?_
        rintro ⟨e', he', -, hlt, -⟩
        cases he'
        obtain ⟨n, hn, hle⟩ := hstale
        exact absurd (hlt n hn) (Int.not_lt.mpr hle)
      · rw [if_neg hstale]
        have hlt : ∀ n ∈ numbers e.listingId raws, n < e.seq := fun n hn =>
          Int.not_le.mp fun hle => hstale ⟨n, hn, hle⟩
        constructor
        · intro h
          cases h
          exact ⟨e, rfl, hid, hlt, rfl, rfl⟩
        · rintro ⟨e', he', -, -, hevent, hreason⟩
          cases he'
          obtain ⟨event, reason⟩ := u
          cases hevent
          rw [← hreason]
    · have hid' : e.listingId ∉ (sub.after raws).ids := by rwa [ids_after]
      rw [call, onChanged_of_unwatched he hid']
      refine iff_of_false (fun h => by cases h) ?_
      rintro ⟨e', he', hid'', -⟩
      cases he'
      exact hid hid''

/-- A call depends on the numbers of its own listing only. -/
theorem call_filter (hs : Subscription.start ids = some sub) (habout : about id raw = true) :
    sub.call (raws.filter (about id)) raw = sub.call raws raw := by
  obtain ⟨e, he, rfl⟩ := event_of_about habout
  have hsame : ∀ u, sub.call (raws.filter (about e.listingId)) raw = some u ↔
      sub.call raws raw = some u := by
    intro u
    have hnumbers : ∀ e', isReservationChanged raw = some e' →
        numbers e'.listingId (raws.filter (about e.listingId)) = numbers e'.listingId raws := by
      intro e' he'
      cases he.symm.trans he'
      exact numbers_filter
    rw [call_iff hs, call_iff hs]
    refine exists_congr fun e' => and_congr_right fun he' => ?_
    rw [hnumbers e' he']
  exact Option.ext hsame

theorem about_of_call (hs : Subscription.start ids = some sub) (h : sub.call raws raw = some u) :
    (u.event.any fun e => e.listingId == id) = about id raw := by
  obtain ⟨e, he, -, -, hevent, -⟩ := (call_iff hs).mp h
  rw [about, hevent, he]

theorem calls_filter (hs : Subscription.start ids = some sub) (raws : List Value) (id : String) :
    (sub.calls raws).filter (fun u => u.event.any fun e => e.listingId == id) =
      sub.calls (raws.filter (about id)) := by
  induction raws using List.reverseRecOn with
  | nil => rfl
  | append_singleton raws raw ih =>
    rw [calls_snoc, List.filter_append, List.filter_append, ih]
    cases habout : about id raw with
    | true =>
      rw [List.filter_cons_of_pos habout, List.filter_nil, calls_snoc, call_filter hs habout]
      congr 1
      cases hu : sub.call raws raw with
      | none => rfl
      | some u =>
        refine List.filter_eq_self.mpr fun v hv => ?_
        rw [List.mem_singleton.mp hv, about_of_call hs hu, habout]
    | false =>
      rw [List.filter_cons_of_neg (by simp [habout]), List.filter_nil, List.append_nil]
      have hnone : (sub.call raws raw).toList.filter
          (fun u => u.event.any fun e => e.listingId == id) = [] := by
        cases hu : sub.call raws raw with
        | none => rfl
        | some u =>
          refine List.filter_eq_nil_iff.mpr fun v hv => ?_
          rw [List.mem_singleton.mp hv, about_of_call hs hu, habout]
          exact Bool.false_ne_true
      rw [hnone, List.append_nil]

/-! ## Gaps -/

theorem mem_numbers {n : Int} : n ∈ numbers id raws ↔
    ∃ raw ∈ raws, ∃ e, isReservationChanged raw = some e ∧ e.listingId = id ∧ e.seq = n := by
  simp only [numbers, List.mem_filterMap, Option.bind_eq_some_iff, Option.ite_none_right_eq_some,
    Option.some.injEq]

/-- An event of the listing above `k`. -/
def aboveOf (id : String) (k : Int) (raw : Value) : Bool :=
  (isReservationChanged raw).any fun e => e.listingId == id && decide (k < e.seq)

/-- The maximum passes every number below it at the first delivery above that number. -/
theorem exists_passes {k : Int} (hk : ∃ n ∈ numbers id raws, k < n) :
    ∃ pre raw post e, raws = pre ++ raw :: post ∧ isReservationChanged raw = some e ∧
      e.listingId = id ∧ Passes pre e k := by
  obtain ⟨n, hn, hkn⟩ := hk
  obtain ⟨raw₀, hmem, e₀, he₀, rfl, rfl⟩ := mem_numbers.mp hn
  have htest : aboveOf e₀.listingId k raw₀ = true := by simp [aboveOf, he₀, hkn]
  obtain ⟨raw, hfind⟩ := Option.isSome_iff_exists.mp (List.find?_isSome.mpr ⟨raw₀, hmem, htest⟩)
  obtain ⟨hraw, pre, post, hsplit, hpre⟩ := List.find?_eq_some_iff_append.mp hfind
  obtain ⟨e, he, htest'⟩ := (Option.any_eq_true _ _).mp hraw
  obtain ⟨hid, habove⟩ := Bool.and_eq_true_iff.mp htest'
  refine ⟨pre, raw, post, e, hsplit, he, beq_iff_eq.mp hid, fun m hm => ?_,
    of_decide_eq_true habove⟩
  obtain ⟨raw', hmem', e', he', hid', rfl⟩ := mem_numbers.mp hm
  have hnot := hpre raw' hmem'
  simp only [aboveOf, he', Option.any_some, hid', beq_iff_eq.mp hid, BEq.rfl, Bool.true_and,
    Bool.not_eq_true', decide_eq_false_iff_not] at hnot
  exact Int.not_lt.mp hnot

/-- A number that was not delivered when the maximum passed it is below a gap. -/
theorem gap_of_passes (hs : Subscription.start ids = some sub) {f k : Int}
    (hraws : raws = pre ++ raw :: post) (he : isReservationChanged raw = some e)
    (hid : e.listingId ∈ sub.ids) (hf : (numbers e.listingId raws).head? = some f) (hfk : f < k)
    (hp : Passes pre e k) (hk : k ∉ numbers e.listingId pre) :
    sub.call pre raw = some { event := some e, reason := .gap } := by
  have hlt : ∀ n ∈ numbers e.listingId pre, n < k := fun n hn =>
    Int.lt_iff_le_and_ne.mpr ⟨hp.before n hn, fun hnk => hk (hnk ▸ hn)⟩
  have hnil : numbers e.listingId pre ≠ [] := by
    intro hnil
    have hfirst : numbers e.listingId raws = e.seq :: numbers e.listingId post := by
      have hcons : raw :: post = [raw] ++ post := rfl
      rw [hraws, numbers_append, hnil, hcons, numbers_append, numbers_of_event he rfl]
      rfl
    rw [hfirst] at hf
    have habove := hp.above
    cases hf
    omega
  have habove := hp.above
  refine (call_iff hs).mpr ⟨e, he, hid, fun n hn => (hlt n hn).trans habove, rfl, ?_⟩
  exact (if_pos ⟨hnil, fun n hn => by have := hlt n hn; omega⟩).symm

/-- Above a gap there is such a number. -/
theorem passes_of_gap (hs : Subscription.start ids = some sub) (h : sub.call pre raw = some u)
    (hu : u.reason = .gap) : ∃ e f k, isReservationChanged raw = some e ∧
      (numbers e.listingId pre).head? = some f ∧ f < k ∧ Passes pre e k ∧
        k ∉ numbers e.listingId pre := by
  obtain ⟨e, he, -, -, -, hreason⟩ := (call_iff hs).mp h
  rw [hu] at hreason
  by_cases hgap : numbers e.listingId pre ≠ [] ∧ ∀ n ∈ numbers e.listingId pre, n + 1 < e.seq
  · obtain ⟨hnil, hall⟩ := hgap
    obtain ⟨m, hm⟩ := Option.isSome_iff_exists.mp (List.isSome_max?_iff.mpr hnil)
    obtain ⟨hmem, hmax⟩ := List.max?_eq_some_iff.mp hm
    obtain ⟨f, rest, hcons⟩ := List.exists_cons_of_ne_nil hnil
    have hfm : f ≤ m := hmax f (hcons ▸ List.mem_cons_self)
    refine ⟨e, f, m + 1, he, by rw [hcons]; rfl, by omega,
      ⟨fun n hn => ?_, hall m hmem⟩, fun hk => ?_⟩
    · have hle := hmax n hn
      omega
    · have hle := hmax (m + 1) hk
      omega
  · rw [if_neg hgap] at hreason
    cases hreason

end Deliveries

theorem filters {sub : Subscription} {ids : List String} (hs : Subscription.start ids = some sub)
    (raws : List Value) : sub.Filters raws where
  highest := fun id hid => by rw [lastSeq_after hs, if_pos hid]
  called := by
    intro pre raw post _
    rw [Option.isSome_iff_exists]
    constructor
    · rintro ⟨u, hu⟩
      obtain ⟨e, he, hid, hlt, -⟩ := (call_iff hs).mp hu
      exact ⟨e, he, hid, hlt⟩
    · rintro ⟨e, he, hid, hlt⟩
      exact ⟨{ event := some e, reason := _ }, (call_iff hs).mpr ⟨e, he, hid, hlt, rfl, rfl⟩⟩
  told := by
    intro pre raw post u _ hu
    obtain ⟨e, he, -, -, hevent, -⟩ := (call_iff hs).mp hu
    rw [hevent, he]
  passed := fun id k => exists_passes
  found := fun pre raw post e f k hraws he hid hf hfk => gap_of_passes hs hraws he hid hf hfk
  missed := fun pre raw post u _ hu => passes_of_gap hs hu
  apart := fun id => ⟨by rw [lastSeq_after hs, lastSeq_after hs, numbers_filter],
    calls_filter hs raws id⟩

/-- The numbers 7, 7, 9 and 8: a change, a duplicate, a gap, and one that is late. -/
theorem filters_seven_nine : ∃ sub raws, Subscription.start ["house"] = some sub ∧
    sub.Filters raws ∧ (sub.calls raws).map (·.reason) = [.change, .gap] := by
  obtain ⟨sub, hs⟩ : ∃ sub, Subscription.start ["house"] = some sub := ⟨_, rfl⟩
  let raws := [7, 7, 9, 8].map fun n => ReservationChanged.toValue (fun _ => "house")
    { listingId := 1, reservationId := 5, status := .held, seq := n }
  refine ⟨sub, raws, hs, filters hs raws, ?_⟩
  cases hs
  decide

end Subscription

end NoOverlap.Realtime
