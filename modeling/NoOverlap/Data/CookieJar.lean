import NoOverlap.Data.Table

/-!
# A cookie jar

A cookie is identified by its name, its host and its path, so two cookies that differ in
one of these live side by side, and a server clears a cookie only by naming the path it
was set under.  Paths are lists of segments: the root is the empty list, and a cookie is
sent with a request whose path begins with its own.

A cookie that comes with an expiry in the past removes the one it identifies, and cookies
that run out are evicted.
-/

namespace Relational

structure CookieKey where
  name : String
  host : String
  path : List String
  deriving DecidableEq

structure Cookie where
  identity : CookieKey
  value : String
  expires : Int
  deriving DecidableEq

instance : Keyed Cookie CookieKey := ⟨Cookie.identity⟩

@[simp] theorem key_cookie (c : Cookie) : key c = c.identity := rfl

/-- The `Set-Cookie` header of a response.  Without a domain the cookie belongs to the
host that sets it. -/
structure SetCookie where
  name : String
  value : String
  path : List String
  expires : Int
  deriving DecidableEq

abbrev CookieJar := Table Cookie

namespace CookieJar

/-- The cookies that have run out are gone. -/
def evict (jar : CookieJar) (now : Int) : CookieJar :=
  Table.erase jar fun c => decide (c.expires ≤ now)

/-- The cookie a response of `host` describes. -/
def cookieOf (host : String) (c : SetCookie) : Cookie :=
  { identity := { name := c.name, host := host, path := c.path }, value := c.value,
    expires := c.expires }

def set (jar : CookieJar) (host : String) (now : Int) (c : SetCookie) : CookieJar :=
  let cookie := cookieOf host c
  let rest := Table.erase jar fun c' => c'.identity == cookie.identity
  if c.expires ≤ now then rest else Table.insert rest cookie

/-- A cookie goes with the requests to its host whose path its own is a prefix of. -/
def sentTo (c : Cookie) (host : String) (path : List String) : Bool :=
  c.identity.host == host && c.identity.path.isPrefixOf path

/-- Of two cookies of one name the server sees the one with the longer path. -/
def preferred : Option Cookie → Cookie → Option Cookie
  | none, c => some c
  | some b, c => if b.identity.path.length < c.identity.path.length then some c else some b

/-- The value of a cookie in a request. -/
def valueFor (jar : CookieJar) (name host : String) (path : List String) : Option String :=
  let sent := jar.rows.filter fun c => c.identity.name == name && sentTo c host path
  (sent.foldl preferred none).map (·.value)

variable {jar : CookieJar} {c : Cookie} {now : Int}

theorem mem_evict : c ∈ (jar.evict now).rows ↔ c ∈ jar.rows ∧ now < c.expires := by
  rw [evict, Table.mem_erase, decide_eq_false_iff_not, Int.not_le]

/-- A cookie of the jar after a response: the one it set, or one that was there under
another identity. -/
theorem mem_set {host : String} {sc : SetCookie} : c ∈ (jar.set host now sc).rows ↔
    (c = cookieOf host sc ∧ now < sc.expires) ∨
      (c ∈ jar.rows ∧ c.identity ≠ (cookieOf host sc).identity) := by
  have hrest : ∀ {c'},
      c' ∈ (Table.erase jar fun c' => c'.identity == (cookieOf host sc).identity).rows ↔
        c' ∈ jar.rows ∧ c'.identity ≠ (cookieOf host sc).identity := by
    intro c'
    rw [Table.mem_erase, beq_eq_false_iff_ne]
  unfold set
  by_cases hexp : sc.expires ≤ now
  · rw [if_pos hexp, hrest]
    have hgone : ¬ now < sc.expires := Int.not_lt.mpr hexp
    simp only [hgone, and_false, false_or]
  · rw [if_neg hexp]
    have hfresh : Table.find? (Table.erase jar fun c' => c'.identity == (cookieOf host sc).identity)
        (key (cookieOf host sc)) = none :=
      Table.find?_eq_none.mpr fun c' hc' => (hrest.mp hc').2
    have hlive : now < sc.expires := Int.not_le.mp hexp
    rw [Table.insert_of_fresh hfresh, List.mem_append, List.mem_singleton, hrest, or_comm]
    simp only [hlive, and_true]

theorem foldl_preferred_mem {cs : List Cookie} {best : Option Cookie}
    (h : cs.foldl preferred best = some c) : best = some c ∨ c ∈ cs := by
  induction cs generalizing best with
  | nil => exact .inl h
  | cons c' cs ih =>
    rcases ih h with hb | hm
    · cases best with
      | none =>
        cases hb
        exact .inr List.mem_cons_self
      | some b =>
        simp only [preferred] at hb
        split at hb
        · cases hb
          exact .inr List.mem_cons_self
        · exact .inl hb
    · exact .inr (List.mem_cons_of_mem _ hm)

/-- A value that is sent is that of a cookie of the jar. -/
theorem mem_of_valueFor {name host v : String} {path : List String}
    (h : jar.valueFor name host path = some v) :
    ∃ c ∈ jar.rows, c.identity.name = name ∧ c.value = v := by
  obtain ⟨c, hf, rfl⟩ := Option.map_eq_some_iff.mp h
  rcases foldl_preferred_mem hf with hn | hm
  · cases hn
  · obtain ⟨hm, hp⟩ := List.mem_filter.mp hm
    simp only [Bool.and_eq_true, beq_iff_eq] at hp
    exact ⟨c, hm, hp.1, rfl⟩

/-- Without a cookie of the name nothing is sent. -/
theorem valueFor_eq_none {name host : String} {path : List String}
    (h : ∀ c ∈ jar.rows, c.identity.name ≠ name) : jar.valueFor name host path = none := by
  cases hv : jar.valueFor name host path with
  | none => rfl
  | some v =>
    obtain ⟨c, hm, hn, -⟩ := mem_of_valueFor hv
    exact (h c hm hn).elim

end CookieJar

end Relational
