import Mathlib.Algebra.BigOperators.Group.List.Basic
import NoOverlap.Platform.Reviews

/-!
# The summary of a listing's reviews

`forListing` asks the database twice, in parallel: for the reviews of a listing, and for their
number and mean.  Each query sees the table as it is when the query runs, and nothing orders the
two, so a review can be written between them.

`reads` is a history variable: every query, with the number of reviews that had been written when
it ran.  As long as no listing is deleted these are the first rows of the table, and a response
agrees with itself exactly where none of the rows between its two numbers is of the listing.
-/

namespace NoOverlap

namespace Platform

namespace Summary

open Relational Concurrency RelyGuarantee
open Concurrency.Prog

/-! ## The queries -/

/-- The answer of `review.aggregate` for `_avg` and `_count`. -/
structure Aggregate where
  avg : Option ℚ
  count : Nat
  deriving DecidableEq

structure ListingReviews where
  averageRating : Option ℚ
  count : Nat
  reviews : List Review
  deriving DecidableEq

/-- The average of a column, null for no rows.  This is the exact mean; Prisma hands out the number
nearest to it. -/
def mean (ratings : List Int) : Option ℚ :=
  if ratings = [] then none else some (ratings.sum / ratings.length)

/-- `where: { listingId }`. -/
def ofListing (listingId : Id) (rows : List Review) : List Review :=
  rows.filter fun v => v.listingId == listingId

/-- The reviews of a listing, newest first. -/
def findMany (listingId : Id) (rows : List Review) : List Review :=
  (ofListing listingId rows).insertionSort fun a b => b.createdAt ≤ a.createdAt

def aggregate (listingId : Id) (rows : List Review) : Aggregate :=
  { avg := mean ((ofListing listingId rows).map (·.rating))
    count := (ofListing listingId rows).length }

/-! ## Statements -/

inductive Query where
  | list
  | summary
  deriving DecidableEq

/-- A query of thread `tid`, and how many reviews had been written before. -/
structure Read where
  tid : Nat
  query : Query
  written : Nat
  deriving DecidableEq

structure Store where
  platform : Platform.Store
  reads : List Read

inductive Statement where
  | platform (o : Platform.Statement)
  /-- Whether the list is the first of the two queries to be answered. -/
  | listFirst
  | reviewFindMany (listingId : Id)
  | reviewAggregate (listingId : Id)

@[reducible] def Statement.Resp : Statement → Type
  | platform o => o.Resp
  | listFirst => Bool
  | reviewFindMany _ => List Review
  | reviewAggregate _ => Aggregate

structure Choice extends NoOverlap.Choice where
  listFirst : Bool := true

def Store.read (s : Store) (t : Nat) (q : Query) : Store :=
  { s with
    reads := s.reads ++ [{ tid := t, query := q, written := s.platform.submissions.length }] }

def Statement.exec (t : Nat) (ch : Choice) :
    (o : Statement) → Store → Option (Except Err o.Resp × Store)
  | platform o, s =>
    (o.exec t ch.toChoice s.platform).map fun x => (x.1, { s with platform := x.2 })
  | listFirst, s => some (.ok ch.listFirst, s)
  | reviewFindMany id, s =>
    faulty ch.fault s (some (.ok (findMany id s.platform.reviews.rows), s.read t .list))
  | reviewAggregate id, s =>
    faulty ch.fault s (some (.ok (aggregate id s.platform.reviews.rows), s.read t .summary))

abbrev Async (α : Type) := Concurrency.Prog Statement.Resp Err α

abbrev await (o : Statement) : Async o.Resp := Concurrency.Prog.op o

/-- A function of the other services. -/
def ofPlatform {α : Type} : Platform.Async α → Async α
  | .done r => .done r
  | .call o k => .call (.platform o) fun r => ofPlatform (k r)

/-! ## ReviewsService -/

/-- `Promise.all` of two queries, of which either may be answered first. -/
def promiseAll {α β : Type} (p : Async α) (q : Async β) : Async (α × β) := do
  if ← await .listFirst then
    let a ← p
    let b ← q
    pure (a, b)
  else
    let b ← q
    let a ← p
    pure (a, b)

def forListing (listingId : Id) : Async ListingReviews := do
  let x ← promiseAll (await (.reviewFindMany listingId)) (await (.reviewAggregate listingId))
  pure { averageRating := x.2.avg, count := x.2.count, reviews := x.1 }

/-! ## The system -/

inductive Call where
  | platform (c : Platform.Call)
  | forListing (listingId : Id)

inductive Reply where
  | platform (r : Platform.Reply)
  | reviews (r : ListingReviews)

/-- The reply of another service. -/
def Reply.ofPlatform : Reply → Platform.Reply
  | platform r => r
  | reviews _ => .none

def Call.program (cfg : Config) : Call → Async Reply
  | platform c => Summary.ofPlatform (c.program cfg) >>= fun r => pure (.platform r)
  | forListing id => Summary.forListing id >>= fun r => pure (.reviews r)

namespace Store

def spawned (c : Call) (s : Store) : Option Store :=
  match c with
  | .platform c => (s.platform.spawned c).map fun p => { s with platform := p }
  | .forListing _ => some s

def returned (t : Nat) (c : Call) (r : Except Err Reply) (s : Store) : Store :=
  match c with
  | .platform c => { s with platform := s.platform.returned t c (r.map Reply.ofPlatform) }
  | .forListing _ => s

def killed (t : Nat) (c : Call) (s : Store) : Store :=
  match c with
  | .platform c => { s with platform := s.platform.killed t c }
  | .forListing _ => s

/-- Nothing has been booked, reviewed or read. -/
def init (listings : Table ListingRow) (now : Int) : Store :=
  { platform := .init listings now, reads := [] }

end Store

abbrev Machine := Concurrency.Machine Store Call Choice Statement.Resp Err Reply

abbrev Policy := Concurrency.Policy Store Call Choice Statement.Resp Err Reply

abbrev World := Concurrency.World Store Call Statement.Resp Err Reply

abbrev Agent := Concurrency.Agent Call

abbrev Event := Concurrency.Event Call Choice

def reading (cfg : Config) : Machine :=
  { program := Call.program cfg
    exec := Statement.exec
    spawned := Store.spawned
    returned := Store.returned
    killed := Store.killed }

def deletesListing : Statement → Bool
  | .platform (.listing (.delete _)) => true
  | _ => false

/-- Any call at any time, any failure and any crash, but no listing is deleted. -/
def keepsListings : Policy :=
  { spawn := fun _ _ => true
    op := fun _ _ o _ => !deletesListing o
    kill := fun _ _ _ => true }

/-! ## Reviews are only added -/

/-- The reviews that have been written, in their order. -/
def Store.written (s : Store) : List Review := s.platform.submissions.map (·.review)

/-- The queries of thread `t`. -/
def Store.own (s : Store) (t : Nat) : List Read := s.reads.filter fun x => x.tid == t

/-- What other threads do. -/
structure Rely (t : Nat) (s s' : Store) : Prop where
  written : s.written <+: s'.written
  own : s'.own t = s.own t

/-- The table holds what was written. -/
def Inv (s : Store) : Prop := s.platform.reviews.rows = s.written

section Steps

variable {s s' : Store} {t : Nat}

theorem Rely.refl (t : Nat) (s : Store) : Rely t s s := ⟨List.prefix_refl _, rfl⟩

theorem Rely.trans {s'' : Store} (h : Rely t s s') (h' : Rely t s' s'') : Rely t s s'' :=
  ⟨h.written.trans h'.written, h'.own.trans h.own⟩

/-- A statement of another service writes at most one review. -/
theorem written_of_exec {p p' : Platform.Store} {ch : NoOverlap.Choice} {o : Platform.Statement}
    {r : Except Err o.Resp} (ho : deletesListing (.platform o) = false)
    (hx : o.exec t ch p = some (r, p')) :
    (p'.reviews.rows = p.reviews.rows ∧ p'.submissions = p.submissions) ∨
      ∃ m, p'.reviews.rows = p.reviews.rows ++ [m.review] ∧
        p'.submissions = p.submissions ++ [m] := by
  obtain ⟨r', s₁, heff, rfl, -⟩ := effect_of_exec hx
  cases heff with
  | reviewCreate data id row hid hu hr =>
    refine .inr ⟨{ tid := t, review := data.row id ch.now, log := p.booking.db.statusLog }, ?_, rfl⟩
    exact Table.insert_of_fresh hid
  | delete => cases ho
  | _ => exact .inl ⟨rfl, rfl⟩

/-- It keeps the table and adds to what was written. -/
theorem inv_of_exec {p : Platform.Store} {ch : NoOverlap.Choice} {o : Platform.Statement}
    {r : Except Err o.Resp} (ho : deletesListing (.platform o) = false)
    (hx : o.exec t ch s.platform = some (r, p)) (hi : Inv s) :
    Inv { s with platform := p } ∧ s.written <+: ({ s with platform := p } : Store).written := by
  rcases written_of_exec ho hx with ⟨hrows, hsub⟩ | ⟨m, hrows, hsub⟩
  · have hw : ({ s with platform := p } : Store).written = s.written := by
      rw [Store.written, hsub, Store.written]
    exact ⟨by rw [Inv, hw]; exact hrows.trans hi, hw ▸ List.prefix_refl _⟩
  · have hw : ({ s with platform := p } : Store).written = s.written ++ [m.review] := by
      rw [Store.written, hsub, List.map_append, Store.written, List.map_singleton]
    refine ⟨?_, hw ▸ List.prefix_append _ _⟩
    rw [Inv, hw, ← show s.platform.reviews.rows = s.written from hi]
    exact hrows

end Steps

/-! ## What a call of forListing has seen -/

/-- These are the queries of thread `t`, and what they saw has been written. -/
def Seen (t : Nat) (l : List Read) (s : Store) : Prop :=
  s.own t = l ∧ ∀ x ∈ l, x.written ≤ s.written.length

/-- A response to `forListing` made of two queries that saw the first `j` and `k` reviews. -/
def response (listingId : Id) (written : List Review) (j k : Nat) : ListingReviews :=
  { averageRating := (aggregate listingId (written.take k)).avg
    count := (aggregate listingId (written.take k)).count
    reviews := findMany listingId (written.take j) }

/-- The queries behind a response. -/
def Answered (t : Nat) (listingId : Id) (resp : ListingReviews) (s : Store) : Prop :=
  ∃ j k, (s.own t).Perm [⟨t, .list, j⟩, ⟨t, .summary, k⟩] ∧ j ≤ s.written.length ∧
    k ≤ s.written.length ∧ resp = response listingId s.written j k

def promise (a : Agent) (r : Except Err Reply) (s : Store) : Prop :=
  ∀ id resp, a.call = .forListing id → r = .ok (.reviews resp) → Answered a.tid id resp s

def summing : RelyGuarantee Store Call Statement.Resp Err Reply :=
  { Step := fun a s o r s' => deletesListing o = false ∧ ∃ ch, o.exec a.tid ch s = some (r, s')
    Inv := Inv
    Rely := Rely
    Guar := fun a s _ _ s' => ∀ t, t ≠ a.tid → Rely t s s'
    Post := promise
    Fresh := fun t => Seen t []
    Lost := fun _ _ => True }

section Rules

variable {a : Agent} {s s' : Store} {t j k : Nat} {l : List Read} {id : Id}

theorem take_of_prefix {α : Type} {l l' : List α} {n : Nat} (h : l <+: l') (hn : n ≤ l.length) :
    l'.take n = l.take n := by
  obtain ⟨m, rfl⟩ := h
  exact List.take_append_of_le_length hn

theorem Seen.rely (h : Seen t l s) (hr : Rely t s s') : Seen t l s' :=
  ⟨hr.own.trans h.1, fun x hx => Nat.le_trans (h.2 x hx) hr.written.length_le⟩

theorem Answered.rely {resp : ListingReviews} (h : Answered t id resp s) (hr : Rely t s s') :
    Answered t id resp s' := by
  obtain ⟨j, k, hperm, hj, hk, rfl⟩ := h
  refine ⟨j, k, hr.own ▸ hperm, Nat.le_trans hj hr.written.length_le,
    Nat.le_trans hk hr.written.length_le, ?_⟩
  rw [response, response, take_of_prefix hr.written hj, take_of_prefix hr.written hk]

theorem own_read {q : Query} (u : Nat) :
    (s.read t q).own u = s.own u ++ if u = t then [⟨t, q, s.written.length⟩] else [] := by
  simp only [Store.own, Store.read, List.filter_append, List.filter_cons, List.filter_nil, beq_iff_eq,
    Store.written, List.length_map]
  by_cases h : u = t
  · rw [if_pos h, if_pos h.symm]
  · rw [if_neg h, if_neg (Ne.symm h)]

/-- A query of another thread. -/
theorem rely_read {q : Query} (h : t ≠ a.tid) : Rely t s (s.read a.tid q) :=
  ⟨List.prefix_refl _, by rw [own_read, if_neg h, List.append_nil]⟩

theorem Seen.read {q : Query} (h : Seen t l s) :
    Seen t (l ++ [⟨t, q, s.written.length⟩]) (s.read t q) := by
  refine ⟨by rw [own_read, if_pos rfl, h.1], fun x hx => ?_⟩
  rcases List.mem_append.mp hx with hx | hx
  · exact h.2 x hx
  · rw [List.mem_singleton.mp hx]
    exact Nat.le_refl _

/-- A query, whichever of the two it is. -/
theorem safe_query {β : Type} {Q : Except Err β → Store → Prop} {o : Statement} {q : Query}
    {f : o.Resp → Async β} {answer : List Review → o.Resp} (h : Seen a.tid l s)
    (hexec : ∀ ch s, o.exec a.tid ch s =
      faulty ch.fault s (some (.ok (answer s.platform.reviews.rows), s.read a.tid q)))
    (herr : ∀ e s, Q (.error e) s)
    (hok : ∀ s' k, s.written <+: s'.written → Seen a.tid (l ++ [⟨a.tid, q, k⟩]) s' →
      summing.Safe a Q (f (answer (s'.written.take k))) s') :
    summing.Safe a Q (await o >>= f) s := by
  refine Safe.op_bind fun s₁ hr hi r s₂ hx => ?_
  obtain ⟨-, ch, hx⟩ := hx
  rw [hexec] at hx
  rcases faulty_cases hx with ⟨rfl, e, rfl⟩ | ⟨r', hsome, hcase⟩
  · exact ⟨hi, fun _ _ => .refl _ _, herr e s₂⟩
  · cases hsome
    refine ⟨hi, fun u hu => rely_read hu, ?_⟩
    rcases hcase with rfl | ⟨e, -, rfl⟩
    · have hseen := (h.rely hr).read (q := q)
      have hrows : s₁.platform.reviews.rows = (s₁.read a.tid q).written.take s₁.written.length := by
        rw [show s₁.platform.reviews.rows = s₁.written from hi]
        exact (List.take_length ..).symm
      rw [cont_ok, hrows]
      exact hok _ _ hr.written hseen
    · exact herr e _

/-- The two queries, in either order. -/
theorem safe_promiseAll {Q : Except Err (List Review × Aggregate) → Store → Prop}
    (h : Seen a.tid [] s) (herr : ∀ e s, Q (.error e) s)
    (hok : ∀ s j k l, l.Perm [⟨a.tid, .list, j⟩, ⟨a.tid, .summary, k⟩] → Seen a.tid l s →
      Q (.ok (findMany id (s.written.take j), aggregate id (s.written.take k))) s) :
    summing.Safe a Q (promiseAll (await (.reviewFindMany id)) (await (.reviewAggregate id))) s := by
  refine Safe.op_bind fun s₁ hr hi r s₂ hx => ?_
  obtain ⟨-, ch, hx⟩ := hx
  cases hx
  refine ⟨hi, fun _ _ => .refl _ _, ?_⟩
  have hseen := h.rely hr
  rw [cont_ok]
  cases hfirst : ch.listFirst with
  | true =>
    refine safe_query (o := .reviewFindMany id) hseen (fun _ _ => rfl) herr fun s₂ j _ h₂ => ?_
    refine safe_query (o := .reviewAggregate id) h₂ (fun _ _ => rfl) herr fun s₃ k hp h₃ => ?_
    have hj : j ≤ s₂.written.length := h₂.2 _ (List.mem_singleton_self _)
    rw [← take_of_prefix hp hj]
    exact hok s₃ j k _ (List.Perm.refl _) h₃
  | false =>
    refine safe_query (o := .reviewAggregate id) hseen (fun _ _ => rfl) herr fun s₂ k _ h₂ => ?_
    refine safe_query (o := .reviewFindMany id) h₂ (fun _ _ => rfl) herr fun s₃ j hp h₃ => ?_
    have hk : k ≤ s₂.written.length := h₂.2 _ (List.mem_singleton_self _)
    rw [← take_of_prefix hp hk]
    exact hok s₃ j k _ (List.Perm.swap _ _ _) h₃

theorem safe_forListing (cfg : Config) (h : Seen a.tid [] s) (ha : a.call = .forListing id) :
    summing.Safe a (promise a) (Call.program cfg (.forListing id)) s := by
  have herr : ∀ (e : Err) (s : Store), promise a (.error e) s := fun e s _ _ _ h => by cases h
  refine Safe.bind (Safe.bind (safe_promiseAll h (fun e s => herr e s) fun s j k l hl hseen => ?_))
  intro id' resp hid hresp
  rw [ha] at hid
  cases hid
  cases hresp
  refine ⟨j, k, hseen.1 ▸ hl, ?_, ?_, rfl⟩
  · exact hseen.2 ⟨a.tid, .list, j⟩ (hl.mem_iff.mpr (by simp))
  · exact hseen.2 ⟨a.tid, .summary, k⟩ (hl.mem_iff.mpr (by simp))

/-- A call of another service asks nothing here. -/
theorem safe_ofPlatform {α : Type} {Q : Except Err α → Store → Prop} {p : Platform.Async α}
    (hQ : ∀ r s, Q r s) : summing.Safe a Q (ofPlatform p) s := by
  induction p generalizing s with
  | done r => exact hQ r s
  | call o k ih =>
    intro s₁ hr hi r s₂ hx
    obtain ⟨ho, ch, hx⟩ := hx
    obtain ⟨⟨r', p⟩, hx', he⟩ := Option.map_eq_some_iff.mp hx
    cases he
    obtain ⟨hi', hw⟩ := inv_of_exec ho hx' hi
    exact ⟨hi', fun u hu => ⟨hw, rfl⟩, ih _⟩

theorem safe_program (cfg : Config) {c : Call} (hc : a.call = c) (h : Seen a.tid [] s) :
    summing.Safe a (promise a) (c.program cfg) s := by
  cases c with
  | platform c =>
    refine Safe.bind (safe_ofPlatform fun r s => ?_)
    have hnone : ∀ r s, promise a r s := fun r s id resp hid => by
      rw [hc] at hid
      cases hid
    cases r <;> exact hnone _ s
  | forListing id => exact safe_forListing cfg h hc

/-- What starts or ends a call of another service. -/
theorem rely_of_platform {p : Platform.Store} (h : p.submissions = s.platform.submissions) :
    Rely t s { s with platform := p } := by
  have hw : ({ s with platform := p } : Store).written = s.written := by
    rw [Store.written, h, Store.written]
  exact ⟨hw ▸ List.prefix_refl _, rfl⟩

theorem inv_of_platform {p : Platform.Store} (hi : Inv s)
    (h : p.submissions = s.platform.submissions)
    (hr : p.reviews.rows = s.platform.reviews.rows) : Inv { s with platform := p } := by
  rw [Inv, Store.written, h]
  exact hr.trans hi

theorem spawned_leaves {c : Platform.Call} {p p' : Platform.Store} (h : p.spawned c = some p') :
    p'.submissions = p.submissions ∧ p'.reviews.rows = p.reviews.rows := by
  rcases Archive.spawned_eq h with rfl | ⟨b, hl, -, rfl⟩ <;> exact ⟨rfl, rfl⟩

theorem returned_leaves (t : Nat) (c : Platform.Call) (r : Except Err Platform.Reply)
    (p : Platform.Store) : (p.returned t c r).submissions = p.submissions ∧
      (p.returned t c r).reviews.rows = p.reviews.rows := by
  rcases Archive.returned_eq t c r p with he | ⟨b, hl, -, he⟩ <;> rw [he] <;> exact ⟨rfl, rfl⟩

theorem sound (cfg : Config) (listings : Table ListingRow) (now : Int) :
    Sound summing (reading cfg) keepsListings (Store.init listings now) where
  start := rfl
  fresh_start := fun t => ⟨rfl, fun x hx => by cases hx⟩
  rely_refl := Rely.refl
  rely_trans := fun _ _ _ _ => Rely.trans
  guar_rely := fun _ t _ _ _ _ hne h => h t (Ne.symm hne)
  fresh_stable := fun _ _ _ hr h => h.rely hr
  post_stable := fun _ _ _ _ hr _ h id resp hid hresp => (h id resp hid hresp).rely hr
  lost_stable := fun _ _ _ _ _ => trivial
  step := by
    intro w hr t c o k ch r s' ht hp hx
    exact ⟨by simpa [keepsListings] using hp, ch, hx⟩
  spawn := by
    intro t c s s' hi hf _ hs
    cases c with
    | platform c =>
      obtain ⟨p, hp, rfl⟩ := Option.map_eq_some_iff.mp hs
      obtain ⟨hsub, hrows⟩ := spawned_leaves hp
      have hrely : ∀ u, Rely u s { s with platform := p } := fun u => rely_of_platform hsub
      exact ⟨inv_of_platform hi hsub hrows, hrely, safe_program cfg rfl (hf.rely (hrely t))⟩
    | forListing id =>
      cases hs
      exact ⟨hi, fun u => .refl u s, safe_program cfg rfl hf⟩
  ret := by
    intro t c r s hi _
    cases c with
    | platform c =>
      obtain ⟨hsub, hrows⟩ := returned_leaves t c (r.map Reply.ofPlatform) s.platform
      exact ⟨inv_of_platform hi hsub hrows, fun u => rely_of_platform hsub⟩
    | forListing id => exact ⟨hi, fun u => .refl u s⟩
  kill := by
    intro t c p s hi _
    cases c with
    | platform c => exact ⟨inv_of_platform hi rfl rfl, fun u _ => rely_of_platform rfl, trivial⟩
    | forListing id => exact ⟨hi, fun u _ => .refl u s, trivial⟩

end Rules

/-! ## When a response agrees with itself -/

/-- The count and the mean of a response are those of its list, and its list is the listing's. -/
def Agrees (listingId : Id) (resp : ListingReviews) : Prop :=
  resp.count = resp.reviews.length ∧
    (resp.averageRating = mean (resp.reviews.map (·.rating))) ∧
      (resp.averageRating = none ↔ resp.reviews = []) ∧
        ∀ v ∈ resp.reviews, v.listingId = listingId

/-- No review of the listing was written between two moments. -/
def Untouched (listingId : Id) (written : List Review) (j k : Nat) : Prop :=
  ∀ v ∈ (written.take (max j k)).drop (min j k), v.listingId ≠ listingId

section Agreement

variable {id : Id} {l : List Review} {j k : Nat}

theorem mean_perm {a b : List Int} (h : a.Perm b) : mean a = mean b := by
  have hnil : a = [] ↔ b = [] := by
    rw [← List.length_eq_zero_iff, h.length_eq, List.length_eq_zero_iff]
  simp only [mean, hnil, h.sum_eq, h.length_eq]

theorem mean_eq_none {a : List Int} : mean a = none ↔ a = [] := by
  by_cases h : a = []
  · exact ⟨fun _ => h, fun _ => if_pos h⟩
  · refine ⟨fun hn => ?_, fun hn => absurd hn h⟩
    rw [mean, if_neg h] at hn
    cases hn

theorem findMany_perm (id : Id) (rows : List Review) :
    (findMany id rows).Perm (ofListing id rows) :=
  List.perm_insertionSort _ _

/-- The later of two queries sees what the earlier saw, and what came between them. -/
theorem ofListing_take (h : j ≤ k) : ofListing id (l.take k) =
    ofListing id (l.take j) ++ ofListing id ((l.take k).drop j) := by
  have htake : (l.take k).take j = l.take j := by rw [List.take_take, Nat.min_eq_left h]
  rw [ofListing, ofListing, ofListing, ← List.filter_append, ← htake, List.take_append_drop]

theorem ofListing_eq_nil {rows : List Review} :
    ofListing id rows = [] ↔ ∀ v ∈ rows, v.listingId ≠ id := by
  simp [ofListing, List.filter_eq_nil_iff]

theorem Untouched.symm (h : Untouched id l j k) : Untouched id l k j := by
  rwa [Untouched, Nat.max_comm, Nat.min_comm] at h

theorem same_iff_of_le (h : j ≤ k) : Untouched id l j k ↔
    (ofListing id (l.take k)).length = (ofListing id (l.take j)).length := by
  rw [Untouched, Nat.max_eq_right h, Nat.min_eq_left h, ← ofListing_eq_nil, ofListing_take h,
    List.length_append, ← List.length_eq_zero_iff]
  omega

/-- Nothing came between two queries where they see the same number of reviews. -/
theorem same_iff : Untouched id l j k ↔
    (ofListing id (l.take k)).length = (ofListing id (l.take j)).length := by
  rcases Nat.le_total j k with h | h
  · exact same_iff_of_le h
  · exact ⟨fun hu => ((same_iff_of_le h).mp hu.symm).symm,
      fun he => ((same_iff_of_le h).mpr he.symm).symm⟩

theorem Untouched.same (h : Untouched id l j k) :
    ofListing id (l.take k) = ofListing id (l.take j) := by
  rcases Nat.le_total j k with hle | hle
  · rw [Untouched, Nat.max_eq_right hle, Nat.min_eq_left hle, ← ofListing_eq_nil] at h
    rw [ofListing_take hle, h, List.append_nil]
  · rw [Untouched, Nat.max_eq_left hle, Nat.min_eq_right hle, ← ofListing_eq_nil] at h
    rw [ofListing_take hle, h, List.append_nil]

theorem agrees_iff : Agrees id (response id l j k) ↔ Untouched id l j k := by
  have hperm := findMany_perm id (l.take j)
  refine ⟨fun h => same_iff.mpr (h.1.trans hperm.length_eq), fun h => ?_⟩
  have hmean : (response id l j k).averageRating =
      mean ((findMany id (l.take j)).map (·.rating)) := by
    rw [mean_perm (hperm.map _), ← h.same]
    rfl
  refine ⟨?_, hmean, ?_, fun v hv => ?_⟩
  · exact (congrArg List.length h.same).trans hperm.length_eq.symm
  · rw [hmean, mean_eq_none, List.map_eq_nil_iff]
    rfl
  · have hmem := hperm.mem_iff.mp hv
    exact beq_iff_eq.mp (List.mem_filter.mp hmem).2

end Agreement

theorem summary_agrees_iff (cfg : Config) (listings : Table ListingRow) (now : Int) {w : World}
    (hr : (reading cfg).Reaches keepsListings (Concurrency.World.start (Store.init listings now)) w)
    {t : Nat} {id : Id} {resp : ListingReviews}
    (ht : w.threads[t]? = some (.returned (.forListing id) (.ok (.reviews resp)))) :
    ∃ j k, (w.shared.own t).Perm [⟨t, .list, j⟩, ⟨t, .summary, k⟩] ∧
      (Agrees id resp ↔ Untouched id w.shared.written j k) := by
  have hpost := (sound cfg listings now).post hr ht
  obtain ⟨j, k, hperm, -, -, rfl⟩ := hpost id resp rfl rfl
  exact ⟨j, k, hperm, agrees_iff⟩

/-! ## A review written between the two queries -/

namespace Visit

/-- An event of the other services. -/
def ofPlatform : Platform.Event → Event
  | .spawn c => .spawn (.platform c)
  | .step t ch => .step t { toChoice := ch }
  | .ret t => .ret t
  | .kill t => .kill t

/-- The stay at listing 7 has ended, and its guest may review it. -/
def stayed : List Event :=
  (Platform.Sample.reviewing.take (Platform.Sample.reviewing.length - 3)).map ofPlatform

/-- The review of that stay, by thread `t`. -/
def write (t : Nat) : List Event :=
  .spawn (.platform (.createReview 1 { reservationId := 5, rating := 4, body := none })) ::
    List.replicate 2 (.step t { now := 2000000000, id := 9 })

/-- The reviews of listing 7 are read after the review is written. -/
def readAfter : List Event :=
  stayed ++ write 3 ++ .spawn (.forListing 7) :: List.replicate 3 (.step 4 {}) ++ [.ret 4]

/-- The review is written between the two queries. -/
def readAround : List Event :=
  stayed ++ .spawn (.forListing 7) :: List.replicate 2 (.step 3 {}) ++ write 4 ++
    [.step 3 {}, .ret 3]

/-- The response that thread `t` has returned. -/
def responseOf (w : World) (t : Nat) : Option ListingReviews :=
  match w.threads[t]? with
  | some (.returned (.forListing 7) (.ok (.reviews resp))) => some resp
  | _ => none

theorem responseOf_eq {w : World} {t : Nat} {resp : ListingReviews}
    (h : responseOf w t = some resp) :
    w.threads[t]? = some (.returned (.forListing 7) (.ok (.reviews resp))) := by
  unfold responseOf at h
  split at h
  · cases h
    assumption
  · cases h

/-- The run ends with this response of thread `t`. -/
theorem exists_response (schedule : List Event) (t : Nat) (p : ListingReviews → Bool)
    (h : ((reading NoOverlap.Scenario.cfg).run keepsListings
      (Concurrency.World.start (Store.init Platform.Sample.houses 0)) schedule).any
        (fun w => (responseOf w t).any p) = true) :
    ∃ w resp, (reading NoOverlap.Scenario.cfg).Reaches keepsListings
        (Concurrency.World.start (Store.init Platform.Sample.houses 0)) w ∧
      w.threads[t]? = some (.returned (.forListing 7) (.ok (.reviews resp))) ∧ p resp = true := by
  obtain ⟨w, hr, hw⟩ := Machine.exists_reaches_of_run h
  obtain ⟨resp, hresp, hp⟩ := (Option.any_eq_true _ _).mp hw
  exact ⟨w, resp, hr, responseOf_eq hresp, hp⟩

end Visit

open Visit in
theorem summary_agrees_read_after : ∃ (w : World) (resp : ListingReviews) (j k : Nat),
    w.threads[4]? = some (.returned (.forListing 7) (.ok (.reviews resp))) ∧ resp.count = 1 ∧
      (w.shared.own 4).Perm [⟨4, .list, j⟩, ⟨4, .summary, k⟩] ∧
        (Agrees 7 resp ↔ Untouched 7 w.shared.written j k) := by
  obtain ⟨w, resp, hr, ht, hp⟩ := exists_response readAfter 4
    (fun resp => resp.count == 1) (by decide +kernel)
  obtain ⟨j, k, hperm, hiff⟩ := summary_agrees_iff NoOverlap.Scenario.cfg _ 0 hr ht
  exact ⟨w, resp, j, k, ht, beq_iff_eq.mp hp, hperm, hiff⟩

open Visit in
/-- An empty list with one review of four stars. -/
theorem summary_read_around : ∃ (w : World) (resp : ListingReviews),
    (reading NoOverlap.Scenario.cfg).Reaches keepsListings
      (Concurrency.World.start (Store.init Platform.Sample.houses 0)) w ∧
    w.threads[3]? = some (.returned (.forListing 7) (.ok (.reviews resp))) ∧
      resp = { averageRating := some 4, count := 1, reviews := [] } ∧ ¬Agrees 7 resp := by
  obtain ⟨w, resp, hr, ht, hp⟩ := exists_response readAround 3
    (fun resp => resp == { averageRating := some 4, count := 1, reviews := [] })
    (by decide +kernel)
  have hresp := beq_iff_eq.mp hp
  refine ⟨w, resp, hr, ht, hresp, fun h => ?_⟩
  rw [hresp] at h
  exact absurd h.1 (by decide)

end Summary

end Platform

end NoOverlap
