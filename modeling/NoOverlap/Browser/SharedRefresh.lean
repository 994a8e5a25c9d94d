import NoOverlap.Browser.ApiClient

/-!
# One refresh at a time, one retry per request

A call remembers the requests it has sent, the refresh it has asked for and what it was told of
it.  `proper` says what a call with this memory does next, and every path of `apiFetch` and
`restoreSession` keeps to it.  What a page knows of its refreshes (`Inv`) and what it knows of
each call (`Known`) then carry each other from one statement to the next: the slot holds a refresh
exactly as long as the thread that started it has not settled it.

Settled refreshes are numbered in the order in which they were settled, and `epoch` counts those
that came before a request.  The token of a request is the one that the last of them has left.
-/

namespace NoOverlap.ApiClient

open Concurrency
open Json (Value)

/-! ## What a call remembers -/

structure Record where
  /-- The requests of `apiFetch`. -/
  sent : List Nat
  /-- The refreshes it has asked for, and whether it has started them. -/
  asked : List (Nat × Bool)
  received : List Nat
  /-- The last body it has read. -/
  read : Option (Nat × Value)
  /-- How the refreshes ended. -/
  told : List (Nat × Bool)
  /-- An answer that the page never gives. -/
  refused : Bool

def Record.blank : Record :=
  { sent := [], asked := [], received := [], read := none, told := [], refused := false }

def note : (o : Statement) → Except Thrown o.Resp → Record → Record
  | .send _ _, .ok n, g => { g with sent := g.sent ++ [n] }
  | .startOrJoin, .ok f, g => { g with asked := g.asked ++ [f] }
  | .receive n, _, g => { g with received := g.received ++ [n] }
  | .json n, .ok v, g => { g with read := some (n, v) }
  | .json _, .error _, g => g
  | .settle n _ b, .ok _, g => { g with told := g.told ++ [(n, b)] }
  | .awaitRefresh n, .ok b, g => { g with told := g.told ++ [(n, b)] }
  | _, .error _, g => { g with refused := true }

/-- What a call with this memory does next. -/
def proper (g : Record) : Statement → Prop
  | .send _ _ => g.sent = [] ∧ g.asked = [] ∧ g.told = [] ∨
      ∃ a n new, g.sent = [a] ∧ g.asked = [(n, new)] ∧ g.told = [(n, true)]
  | .startOrJoin => g.sent.length ≤ 1 ∧ g.asked = [] ∧ g.told = []
  | .receive n => n ∈ g.sent ∨ g.asked = [(n, true)]
  | .json n => n ∈ g.sent ∨ g.asked = [(n, true)] ∧ g.told = []
  | .settle n token b => g.asked = [(n, true)] ∧ g.told = [] ∧ n ∈ g.received ∧
      ((b = true ∧ ∃ v, g.read = some (n, v) ∧ token = v.get "accessToken") ∨
        b = false ∧ token = .null)
  | .awaitRefresh n => g.asked = [(n, false)] ∧ g.told = []

def allows (g : Record) (o : Statement) : Prop := g.refused = true ∨ proper g o

section Paths

variable {α : Type} {g : Record}

/-- A refresh that was asked for has ended, and nothing else was sent. -/
def refreshed (sent : List Nat) (g : Record) (r : Except Thrown Bool) : Prop :=
  g.sent = sent ∧
    (g.refused = true ∨ ∃ n new b, r = .ok b ∧ g.asked = [(n, new)] ∧ g.told = [(n, b)])

/-- What was asked for has been told. -/
def answered {α : Type} (g : Record) (_ : Except Thrown α) : Prop :=
  g.refused = true ∨ g.told.map (·.1) = g.asked.map (·.1)

end Paths

/-! ## The page -/

/-- The token that these refreshes have left. -/
def left (l : List Settled) : Value := (l.getLast?.map (·.token)).getD .null

/-- Refresh `n` was sent, and its promise is not settled. -/
def Refreshing (s : Page) (n : Nat) : Prop :=
  ∃ e, s.net[n]? = some e ∧ e.refresh = true ∧ s.outcome n = none

/-- How a refresh was settled follows from its response. -/
def Issued (s : Page) (x : Settled) : Prop :=
  ∃ e, s.net[x.request]? = some e ∧ e.refresh = true ∧ e.pending = false ∧
    ((x.outcome = true ∧ ∃ v, e.body = some v ∧ x.token = v.get "accessToken") ∨
      x.outcome = false ∧ x.token = .null)

structure Inv (s : Page) : Prop where
  slot : ∀ n, Refreshing s n → ∃ t, s.refreshInFlight = some ⟨n, t⟩
  slotted : ∀ f, s.refreshInFlight = some f → Refreshing s f.request
  issued : ∀ x ∈ s.settled, Issued s x
  unique : (s.settled.map (·.request)).Nodup
  token : s.accessToken = left s.settled
  epoch : ∀ (n : Nat) e, s.net[n]? = some e → e.epoch ≤ s.settled.length
  own : ∀ (n : Nat) e, s.net[n]? = some e → e.refresh = false →
    ∃ path o, e.request = ownRequest (left (s.settled.take e.epoch)) path o
  refresh : ∀ (n : Nat) e, s.net[n]? = some e → e.refresh = true → e.request = refreshRequest

/-- What never changes of a request that was sent. -/
structure Sent.Same (e e' : Sent) : Prop where
  sender : e'.sender = e.sender
  refresh : e'.refresh = e.refresh
  request : e'.request = e.request
  epoch : e'.epoch = e.epoch
  pending : e.pending = false → e'.pending = false

theorem Sent.Same.refl (e : Sent) : e.Same e := ⟨rfl, rfl, rfl, rfl, fun h => h⟩

/-- What every statement keeps. -/
structure Later (s s' : Page) : Prop where
  net : ∀ (n : Nat) e, s.net[n]? = some e → ∃ e', s'.net[n]? = some e' ∧ e.Same e'
  settled : s.settled <+: s'.settled

section Outcomes

variable {s s' : Page} {n : Nat} {b : Bool}

theorem outcome_none : s.outcome n = none ↔ ∀ x ∈ s.settled, x.request ≠ n := by
  simp only [Page.outcome, Option.map_eq_none_iff, List.find?_eq_none, beq_iff_eq, ne_eq]

theorem exists_of_outcome (h : s.outcome n = some b) :
    ∃ (i : Nat) (x : Settled), s.settled[i]? = some x ∧ x.request = n ∧ x.outcome = b := by
  obtain ⟨x, hx, hb⟩ := Option.map_eq_some_iff.mp h
  obtain ⟨i, hi⟩ := List.mem_iff_getElem?.mp (List.mem_of_find?_eq_some hx)
  exact ⟨i, x, hi, beq_iff_eq.mp (List.find?_some hx :), hb⟩

theorem Later.outcome (h : Later s s') (hb : s.outcome n = some b) : s'.outcome n = some b := by
  obtain ⟨l, hl⟩ := h.settled
  obtain ⟨x, hx, rfl⟩ := Option.map_eq_some_iff.mp hb
  rw [Page.outcome, ← hl, List.find?_append, hx]
  rfl

theorem Later.settled_get (h : Later s s') {i : Nat} {x : Settled} (hx : s.settled[i]? = some x) :
    s'.settled[i]? = some x := by
  obtain ⟨l, hl⟩ := h.settled
  rw [← hl]
  exact (List.getElem?_append_left (List.getElem?_eq_some_iff.mp hx).1).trans hx

/-- An entry of the later list is an old one or comes after the old ones. -/
theorem Later.cases_get (h : Later s s') {i : Nat} {x : Settled} (hx : s'.settled[i]? = some x) :
    s.settled[i]? = some x ∨ s.settled.length ≤ i := by
  obtain ⟨l, hl⟩ := h.settled
  rcases Nat.lt_or_ge i s.settled.length with hlt | hge
  · rw [← hl, List.getElem?_append_left hlt] at hx
    exact .inl hx
  · exact .inr hge

theorem Later.refl (s : Page) : Later s s := ⟨fun _ e h => ⟨e, h, .refl e⟩, List.prefix_refl _⟩

theorem later_post {t : Nat} {refresh : Bool} {r : Request} : Later s (s.post t refresh r) :=
  ⟨fun _ e h => ⟨e, (List.getElem?_append_left (List.getElem?_eq_some_iff.mp h).1).trans h, .refl e⟩,
    List.prefix_refl _⟩

theorem getElem?_setSent {f : Sent → Sent} {m : Nat} {e : Sent} (h : s.net[m]? = some e) :
    (s.setSent n f).net[m]? = some (if n = m then f e else e) := by
  show (s.net.modify n f)[m]? = _
  rw [List.getElem?_modify, h]
  rfl

theorem of_getElem?_setSent {f : Sent → Sent} {m : Nat} {e' : Sent}
    (h : (s.setSent n f).net[m]? = some e') :
    ∃ e, s.net[m]? = some e ∧ e' = if n = m then f e else e := by
  have h' : (s.net.modify n f)[m]? = some e' := h
  rw [List.getElem?_modify] at h'
  obtain ⟨e, he, heq⟩ := Option.map_eq_some_iff.mp h'
  exact ⟨e, he, heq.symm⟩

theorem later_setSent {f : Sent → Sent} (hf : ∀ e : Sent, e.Same (f e)) :
    Later s (s.setSent n f) := by
  refine ⟨fun m e h => ⟨_, getElem?_setSent h, ?_⟩, List.prefix_refl _⟩
  split
  · exact hf e
  · exact .refl e

/-- A request that has just been sent. -/
def fresh (s : Page) (t : Nat) (refresh : Bool) (r : Request) : Sent :=
  { sender := t, refresh := refresh, request := r, pending := true, body := none,
    epoch := s.settled.length }

theorem getElem?_post {t : Nat} {refresh : Bool} {r : Request} :
    (s.post t refresh r).net[s.net.length]? = some (fresh s t refresh r) :=
  List.getElem?_concat_length

theorem of_getElem?_post {t m : Nat} {refresh : Bool} {r : Request} {e : Sent}
    (h : (s.post t refresh r).net[m]? = some e) :
    (m = s.net.length ∧ e = fresh s t refresh r) ∨ s.net[m]? = some e := getElem?_of_append h

end Outcomes

namespace Inv

variable {s : Page} {t n : Nat}

theorem lt_of_settled (hi : Inv s) {x : Settled} (hx : x ∈ s.settled) :
    x.request < s.net.length := by
  obtain ⟨e, he, -⟩ := hi.issued x hx
  exact (List.getElem?_eq_some_iff.mp he).1

/-- Whatever is sent next. -/
theorem issued_post (hi : Inv s) {refresh : Bool} {r : Request} {x : Settled}
    (hx : x ∈ s.settled) : Issued (s.post t refresh r) x := by
  obtain ⟨e, he, h⟩ := hi.issued x hx
  exact ⟨e, (List.getElem?_append_left (List.getElem?_eq_some_iff.mp he).1).trans he, h⟩

theorem epoch_post (hi : Inv s) {refresh : Bool} {r : Request} {m : Nat} {e : Sent}
    (he : (s.post t refresh r).net[m]? = some e) : e.epoch ≤ s.settled.length := by
  rcases of_getElem?_post he with ⟨-, rfl⟩ | hold
  · exact Nat.le_refl _
  · exact hi.epoch m e hold

/-- The request of `apiFetch` is sent. -/
theorem send (hi : Inv s) {path : String} {o : RequestOptions} :
    Inv (s.post t false (ownRequest s.accessToken path o)) where
  slot := by
    rintro n ⟨e, he, hrefresh, hnone⟩
    rcases of_getElem?_post he with ⟨-, rfl⟩ | hold
    · cases hrefresh
    · exact hi.slot n ⟨e, hold, hrefresh, hnone⟩
  slotted := by
    intro f hf
    obtain ⟨e, he, hrefresh, hnone⟩ := hi.slotted f hf
    obtain ⟨e', he', hsame⟩ := later_post.net _ e he
    exact ⟨e', he', hsame.refresh.trans hrefresh, hnone⟩
  issued := fun x hx => hi.issued_post hx
  unique := hi.unique
  token := hi.token
  epoch := fun m e he => hi.epoch_post he
  own := by
    intro m e he hown
    rcases of_getElem?_post he with ⟨-, rfl⟩ | hold
    · refine ⟨path, o, ?_⟩
      show ownRequest s.accessToken path o =
        ownRequest (left (s.settled.take s.settled.length)) path o
      rw [hi.token, List.take_length]
    · exact hi.own m e hold hown
  refresh := by
    intro m e he hrefresh
    rcases of_getElem?_post he with ⟨-, rfl⟩ | hold
    · cases hrefresh
    · exact hi.refresh m e hold hrefresh

/-- A refresh is started, where none is in flight. -/
theorem start (hi : Inv s) (hslot : s.refreshInFlight = none) :
    Inv { s.post t true refreshRequest with refreshInFlight := some ⟨s.net.length, t⟩ } where
  slot := by
    rintro n ⟨e, he, hrefresh, hnone⟩
    rcases of_getElem?_post he with ⟨rfl, -⟩ | hold
    · exact ⟨t, rfl⟩
    · obtain ⟨u, hu⟩ := hi.slot n ⟨e, hold, hrefresh, hnone⟩
      rw [hslot] at hu
      cases hu
  slotted := by
    intro f hf
    cases hf
    refine ⟨_, getElem?_post, rfl, outcome_none.mpr fun x hx => ?_⟩
    exact Nat.ne_of_lt (hi.lt_of_settled hx)
  issued := fun x hx => hi.issued_post hx
  unique := hi.unique
  token := hi.token
  epoch := fun m e he => hi.epoch_post he
  own := by
    intro m e he hown
    rcases of_getElem?_post he with ⟨-, rfl⟩ | hold
    · cases hown
    · exact hi.own m e hold hown
  refresh := by
    intro m e he hrefresh
    rcases of_getElem?_post he with ⟨-, rfl⟩ | hold
    · rfl
    · exact hi.refresh m e hold hrefresh

/-- A request moves on.  The body of a settled refresh stays. -/
theorem setSent (hi : Inv s) {f : Sent → Sent} (hf : ∀ e : Sent, e.Same (f e))
    (hbody : ∀ e, s.net[n]? = some e → e.refresh = true → s.outcome n = none ∨ (f e).body = e.body) :
    Inv (s.setSent n f) := by
  have hl : Later s (s.setSent n f) := later_setSent hf
  have hback : ∀ (m : Nat) (e' : Sent), (s.setSent n f).net[m]? = some e' →
      ∃ e, s.net[m]? = some e ∧ Sent.Same e e' := by
    intro m e' he'
    obtain ⟨e, he, rfl⟩ := of_getElem?_setSent he'
    refine ⟨e, he, ?_⟩
    split
    · exact hf e
    · exact .refl e
  refine ⟨?_, ?_, ?_, hi.unique, hi.token, ?_, ?_, ?_⟩
  · rintro m ⟨e', he', hrefresh, hnone⟩
    obtain ⟨e, he, hsame⟩ := hback m e' he'
    exact hi.slot m ⟨e, he, hsame.refresh.symm.trans hrefresh, hnone⟩
  · intro g hg
    obtain ⟨e, he, hrefresh, hnone⟩ := hi.slotted g hg
    obtain ⟨e', he', hsame⟩ := hl.net _ e he
    exact ⟨e', he', hsame.refresh.trans hrefresh, hnone⟩
  · intro x hx
    obtain ⟨e, he, hrefresh, hpending, h⟩ := hi.issued x hx
    refine ⟨_, getElem?_setSent he, ?_⟩
    split
    · next heq =>
      have hsame := hf e
      refine ⟨hsame.refresh.trans hrefresh, hsame.pending hpending, ?_⟩
      rcases hbody e (heq ▸ he) hrefresh with hnone | hb
      · exact (outcome_none.mp hnone x hx heq.symm).elim
      · rwa [hb]
    · exact ⟨hrefresh, hpending, h⟩
  · intro m e' he'
    obtain ⟨e, he, hsame⟩ := hback m e' he'
    rw [hsame.epoch]
    exact hi.epoch m e he
  · intro m e' he' hown
    obtain ⟨e, he, hsame⟩ := hback m e' he'
    rw [hsame.epoch, hsame.request]
    exact hi.own m e he (hsame.refresh.symm.trans hown)
  · intro m e' he' hrefresh
    obtain ⟨e, he, hsame⟩ := hback m e' he'
    rw [hsame.request]
    exact hi.refresh m e he (hsame.refresh.symm.trans hrefresh)

/-- Every refresh in flight is the one in the slot. -/
theorem eq_of_refreshing (hi : Inv s) {m n : Nat} (hm : Refreshing s m) (hn : Refreshing s n) :
    m = n := by
  obtain ⟨t, ht⟩ := hi.slot m hm
  obtain ⟨u, hu⟩ := hi.slot n hn
  rw [ht] at hu
  cases hu
  rfl

/-- A refresh is settled, and it was the one in the slot. -/
theorem settle (hi : Inv s) {token : Value} {b : Bool} (hn : Refreshing s n)
    (hissued : Issued s ⟨n, token, b⟩) :
    Inv { s with accessToken := token, refreshInFlight := none,
                 settled := s.settled ++ [⟨n, token, b⟩] } := by
  obtain ⟨e₀, he₀, hrefresh₀, hnone₀⟩ := hn
  refine ⟨?_, fun f hf => (by cases hf), ?_, ?_, ?_, ?_, ?_, hi.refresh⟩
  · rintro m ⟨e, he, hrefresh, hnone⟩
    have hm : Refreshing s m := ⟨e, he, hrefresh, outcome_none.mpr fun x hx =>
      outcome_none.mp hnone x (List.mem_append_left _ hx)⟩
    have heq := hi.eq_of_refreshing hm ⟨e₀, he₀, hrefresh₀, hnone₀⟩
    exact (outcome_none.mp hnone ⟨n, token, b⟩ (List.mem_append_right _ (List.mem_singleton_self _))
      heq.symm).elim
  · intro x hx
    rcases List.mem_append.mp hx with hx | hx
    · exact hi.issued x hx
    · rw [List.mem_singleton.mp hx]
      exact hissued
  · rw [List.map_append, List.map_singleton, List.nodup_append]
    refine ⟨hi.unique, List.pairwise_singleton _ _, fun a ha c hc => ?_⟩
    obtain ⟨x, hx, rfl⟩ := List.mem_map.mp ha
    rw [List.mem_singleton.mp hc]
    exact outcome_none.mp hnone₀ x hx
  · simp only [left, List.getLast?_concat, Option.map_some, Option.getD_some]
  · intro m e he
    have hle := hi.epoch m e he
    rw [List.length_append]
    exact Nat.le_trans hle (Nat.le_add_right _ _)
  · intro m e he hown
    rw [List.take_append_of_le_length (hi.epoch m e he)]
    exact hi.own m e he hown

end Inv

/-! ## The calls -/

/-- What the page knows of thread `t`, which remembers `g`. -/
structure Known (s : Page) (t : Nat) (g : Record) : Prop where
  own : ∀ n ∈ g.sent, ∃ e, s.net[n]? = some e ∧ e.sender = t ∧ e.refresh = false
  started : ∀ n, (n, true) ∈ g.asked → ∃ e, s.net[n]? = some e ∧ e.sender = t ∧ e.refresh = true
  received : ∀ n ∈ g.received, ∃ e, s.net[n]? = some e ∧ e.pending = false
  told : ∀ x ∈ g.told, s.outcome x.1 = some x.2
  /-- The refresh was settled after the first sending. -/
  asked : ∀ a n new, g.sent.head? = some a → (n, new) ∈ g.asked →
    ∃ e, s.net[a]? = some e ∧ ∀ (i : Nat) x, s.settled[i]? = some x → x.request = n → e.epoch ≤ i
  /-- And before the second. -/
  resent : ∀ a b, g.sent = [a, b] → ∃ n new, g.asked = [(n, new)] ∧ g.told = [(n, true)] ∧
    ∃ (i : Nat) (x : Settled) (e : Sent), s.settled[i]? = some x ∧ x.request = n ∧
      s.net[b]? = some e ∧ i < e.epoch

/-- What only thread `t` changes. -/
structure Owned (s : Page) (t : Nat) (g : Record) : Prop where
  slot : ∀ n, s.refreshInFlight = some ⟨n, t⟩ ↔ (n, true) ∈ g.asked ∧ g.told = []
  read : ∀ n v, g.read = some (n, v) → ∃ e, s.net[n]? = some e ∧ e.sender = t ∧ e.body = some v

/-- What a call has done, by its own account. -/
structure Counted (g : Record) : Prop where
  sound : g.refused = false
  sent : g.sent.length ≤ 2
  asked : g.asked.length ≤ 1
  told : ∀ x ∈ g.told, ∃ new, (x.1, new) ∈ g.asked

namespace Known

variable {s s' : Page} {t n : Nat} {g : Record}

theorem blank (s : Page) (t : Nat) : Known s t .blank where
  own := fun n h => by cases h
  started := fun n h => by cases h
  received := fun n h => by cases h
  told := fun x h => by cases h
  asked := fun a n new h => by cases h
  resent := fun a b h => by cases h

theorem later (h : Known s t g) (hi : Inv s) (hl : Later s s') : Known s' t g where
  own := by
    intro n hn
    obtain ⟨e, he, hsender, hown⟩ := h.own n hn
    obtain ⟨e', he', hsame⟩ := hl.net n e he
    exact ⟨e', he', hsame.sender.trans hsender, hsame.refresh.trans hown⟩
  started := by
    intro n hn
    obtain ⟨e, he, hsender, hown⟩ := h.started n hn
    obtain ⟨e', he', hsame⟩ := hl.net n e he
    exact ⟨e', he', hsame.sender.trans hsender, hsame.refresh.trans hown⟩
  received := by
    intro n hn
    obtain ⟨e, he, hpending⟩ := h.received n hn
    obtain ⟨e', he', hsame⟩ := hl.net n e he
    exact ⟨e', he', hsame.pending hpending⟩
  told := fun x hx => hl.outcome (h.told x hx)
  asked := by
    intro a n new ha hn
    obtain ⟨e, he, hall⟩ := h.asked a n new ha hn
    obtain ⟨e', he', hsame⟩ := hl.net a e he
    refine ⟨e', he', fun i x hx hxn => ?_⟩
    rw [hsame.epoch]
    rcases hl.cases_get hx with hold | hge
    · exact hall i x hold hxn
    · exact Nat.le_trans (hi.epoch a e he) hge
  resent := by
    intro a b hs
    obtain ⟨n, new, ha, ht, i, x, e, hx, hxn, he, hlt⟩ := h.resent a b hs
    obtain ⟨e', he', hsame⟩ := hl.net b e he
    exact ⟨n, new, ha, ht, i, x, e', hl.settled_get hx, hxn, he', by rw [hsame.epoch]; exact hlt⟩

/-- A request of its own. -/
theorem send (h : Known s t g) {e : Sent} (he : s.net[n]? = some e)
    (hsender : e.sender = t) (hown : e.refresh = false) (hepoch : e.epoch = s.settled.length)
    (hp : ∀ path o, proper g (.send path o)) : Known s t { g with sent := g.sent ++ [n] } := by
  have hmem : ∀ m ∈ g.sent ++ [n], ∃ e, s.net[m]? = some e ∧ e.sender = t ∧ e.refresh = false := by
    intro m hm
    rcases List.mem_append.mp hm with hm | hm
    · exact h.own m hm
    · rw [List.mem_singleton.mp hm]
      exact ⟨e, he, hsender, hown⟩
  rcases hp "" {} with ⟨hs, ha, ht⟩ | ⟨a, m, new, hs, ha, ht⟩
  · refine ⟨hmem, h.started, h.received, h.told, fun c m new _ hm => ?_, fun c d hcd => ?_⟩
    · rw [show ({ g with sent := g.sent ++ [n] } : Record).asked = [] from ha] at hm
      cases hm
    · rw [show ({ g with sent := g.sent ++ [n] } : Record).sent = [n] by
        rw [hs, List.nil_append]] at hcd
      cases hcd
  · refine ⟨hmem, h.started, h.received, h.told, fun c k new' hhead hk => ?_, fun c d hcd => ?_⟩
    · have hhead' : g.sent.head? = some c := by
        rw [hs]
        rw [show ({ g with sent := g.sent ++ [n] } : Record).sent = [a, n] by rw [hs]; rfl] at hhead
        exact hhead
      exact h.asked c k new' hhead' hk
    · rw [show ({ g with sent := g.sent ++ [n] } : Record).sent = [a, n] by rw [hs]; rfl] at hcd
      cases hcd
      obtain ⟨i, x, hx, hxm, -⟩ := exists_of_outcome (h.told (m, true) (by rw [ht]; exact .head _))
      refine ⟨m, new, ha, ht, i, x, e, hx, hxm, he, ?_⟩
      rw [hepoch]
      exact (List.getElem?_eq_some_iff.mp hx).1

/-- A refresh that is in flight is asked for. -/
theorem ask (h : Known s t g) {new : Bool} (hn : Refreshing s n)
    (hnew : new = true → ∃ e, s.net[n]? = some e ∧ e.sender = t ∧ e.refresh = true)
    (hp : proper g .startOrJoin) : Known s t { g with asked := g.asked ++ [(n, new)] } := by
  obtain ⟨hlen, ha, ht⟩ := hp
  obtain ⟨-, -, -, hnone⟩ := hn
  have hasked : g.asked ++ [(n, new)] = [(n, new)] := by rw [ha, List.nil_append]
  refine ⟨h.own, fun m hm => ?_, h.received, h.told, fun a m new' hhead hm => ?_, fun a b hs => ?_⟩
  · obtain ⟨rfl, rfl⟩ := Prod.mk.inj (List.mem_singleton.mp (hasked ▸ hm))
    exact hnew rfl
  · obtain ⟨rfl, rfl⟩ := Prod.mk.inj (List.mem_singleton.mp (hasked ▸ hm))
    obtain ⟨e, he, -⟩ := h.own a (List.mem_of_mem_head? hhead)
    exact ⟨e, he, fun i x hx hxn =>
      (outcome_none.mp hnone x (List.mem_of_getElem? hx) hxn).elim⟩
  · have hs' : g.sent = [a, b] := hs
    rw [hs'] at hlen
    rw [List.length_cons, List.length_singleton] at hlen
    omega

theorem receive (h : Known s t g) {e : Sent} (he : s.net[n]? = some e)
    (hpending : e.pending = false) :
    Known s t { g with received := g.received ++ [n] } := by
  refine ⟨h.own, h.started, fun m hm => ?_, h.told, h.asked, h.resent⟩
  rcases List.mem_append.mp hm with hm | hm
  · exact h.received m hm
  · rw [List.mem_singleton.mp hm]
    exact ⟨e, he, hpending⟩

theorem read (h : Known s t g) (read : Option (Nat × Value)) : Known s t { g with read := read } :=
  ⟨h.own, h.started, h.received, h.told, h.asked, h.resent⟩

end Known

/-! ## One statement -/

/-- What the statements of other threads leave alone. -/
structure Aside (u : Nat) (s s' : Page) : Prop where
  slot : ∀ n, s'.refreshInFlight = some ⟨n, u⟩ ↔ s.refreshInFlight = some ⟨n, u⟩
  body : ∀ (n : Nat) e, s.net[n]? = some e → e.sender = u →
    ∃ e', s'.net[n]? = some e' ∧ e'.sender = u ∧ e'.body = e.body

theorem Aside.refl (u : Nat) (s : Page) : Aside u s s :=
  ⟨fun _ => Iff.rfl, fun _ e he hu => ⟨e, he, hu, rfl⟩⟩

theorem Owned.aside {s s' : Page} {u : Nat} {g : Record} (h : Owned s u g) (ha : Aside u s s') :
    Owned s' u g where
  slot := fun n => (ha.slot n).trans (h.slot n)
  read := by
    intro n v hr
    obtain ⟨e, he, hsender, hbody⟩ := h.read n v hr
    obtain ⟨e', he', hsender', hbody'⟩ := ha.body n e he hsender
    exact ⟨e', he', hsender', hbody'.trans hbody⟩

/-- What is known of a page and its calls. -/
def Knows (s : Page) (m : Nat → Record) : Prop :=
  Inv s ∧ ∀ t, Known s t (m t) ∧ Owned s t (m t) ∧ Counted (m t)

section Step

variable {s s' : Page} {m : Nat → Record} {t : Nat} {g : Record}

theorem Knows.step (h : Knows s m) (hi : Inv s') (hl : Later s s')
    (ha : ∀ u, u ≠ t → Aside u s s') (hk : Known s' t g) (ho : Owned s' t g) (hc : Counted g) :
    Knows s' (Function.update m t g) := by
  refine ⟨hi, fun u => ?_⟩
  show Known s' u (Function.update m t g u) ∧ Owned s' u (Function.update m t g u) ∧
    Counted (Function.update m t g u)
  by_cases hut : u = t
  · subst hut
    rw [Function.update_self]
    exact ⟨hk, ho, hc⟩
  · rw [Function.update_of_ne hut]
    obtain ⟨hk', ho', hc'⟩ := h.2 u
    exact ⟨hk'.later h.1 hl, ho'.aside (ha u hut), hc'⟩

end Step

/-! ## Every run -/

abbrev RecordedPage := Page × (Nat → Record)

abbrev World := Concurrency.World RecordedPage Call Statement.Resp Thrown Reply

abbrev recorded : Concurrency.Machine RecordedPage Call Choice Statement.Resp Thrown Reply :=
  page.remembering note

/-- Any call at any time, and any answer to any request. -/
def anything : Concurrency.Policy RecordedPage Call Choice Statement.Resp Thrown Reply :=
  { spawn := fun _ _ => true, op := fun _ _ _ _ => true, kill := fun _ _ _ => false }

/-- The next statement of thread `t`. -/
def Issues (w : World) (t : Nat) (o : Statement) : Prop :=
  ∃ c k, w.threads[t]? = some (.running c (.call o k))

end NoOverlap.ApiClient
