import NoOverlap.Browser.Handlers

/-!
# An honest browser never looks like a thief

The server takes a revoked refresh token for a stolen one and ends the session.  A browser
whose logouts and refreshes go by `keepsSession` never presents one.
-/

namespace NoOverlap.Browser

open Relational Concurrency RelyGuarantee

variable {cfg : Identity.Config} {users : Table Identity.User} {origin : String} {w w' : World}

theorem not_open_init (n : Nat) (e : Entry) : ¬ Open (Store.init users origin) n e := by
  intro ho
  have hentry := ho.entry
  simp [Store.init] at hentry

theorem inv_init (H : String → String) : Inv H (Store.init users origin) where
  hashes := by simp [Store.init, Identity.Store.HashUnique, Identity.Store.init]
  families := by simp [Store.init]
  jar := by simp [Store.init]
  slot := fun n e ho => (not_open_init n e ho).elim
  cookie := by simp [Store.init]
  token := fun n e _ ho => (not_open_init n e ho).elim
  sent := fun n e ho => (not_open_init n e ho).elim
  minted := fun n e _ ho => (not_open_init n e ho).elim
  answer := fun n e _ ho => (not_open_init n e ho).elim
  apartJar := fun n e _ ho => (not_open_init n e ho).elim
  apartToken := fun n e _ ho => (not_open_init n e ho).elim
  apartMinted := fun n e _ ho => (not_open_init n e ho).elim
  logout := fun n e ho => (not_open_init n e ho).elim

theorem safe_program (c : Call) (a : Agent) (s : Store) :
    (browsing cfg.hashToken).Safe a (fun _ _ => True) (c.program cfg) s := by
  cases c with
  | load p => exact Safe.seq (K := fun _ => True) Tab.safe_refreshAccessToken fun _ _ _ => trivial
  | apiFetch p path =>
    exact Safe.seq (K := fun _ => True) (Tab.safe_apiFetch (by simp)) fun _ _ _ => trivial
  | login p dto => exact Safe.seq (K := fun _ => True) (Tab.safe_login dto) fun _ _ _ => trivial
  | logout p => exact Safe.seq (K := fun _ => True) Tab.safe_logout fun _ _ _ => trivial
  | serve n => exact Safe.seq (K := fun _ => True) safe_serve fun _ _ _ => trivial
  | other c =>
    exact Safe.seq (K := fun _ => True) (safe_serviceCall (safe_other c)) fun _ _ _ => trivial

/-- A page is loaded while nothing is in flight; any other call changes nothing. -/
theorem inv_of_spawned {H : String → String} {c : Call} {s s' : Store} (hi : Inv H s)
    (hp : keepsSession.spawn c s = true) (hs : s.spawned c = some s') :
    Inv H s' ∧ ∀ u, Rely u s s' := by
  have hsame : s' = s → Inv H s' ∧ ∀ u, Rely u s s' := by
    rintro rfl
    exact ⟨hi, fun u => Rely.refl u s'⟩
  unfold Store.spawned at hs
  cases c with
  | load p =>
    have hquiet : s.quiet = true := hp
    simp only at hs
    split at hs
    · next hnumber =>
      cases hs
      refine ⟨hi.of_page rfl fun n e ho => (not_open_of_quiet hquiet n e ho).elim, fun u => ?_⟩
      refine Rely.of_page rfl (by simp [hnumber]) fun f _ _ heq => ?_
      have heq : p = s.page.number := heq
      omega
    · cases hs
  | apiFetch p path =>
    simp only at hs
    split at hs
    · exact hsame (Option.some.inj hs).symm
    · cases hs
  | login p dto =>
    simp only at hs
    split at hs
    · exact hsame (Option.some.inj hs).symm
    · cases hs
  | logout p =>
    simp only at hs
    split at hs
    · exact hsame (Option.some.inj hs).symm
    · cases hs
  | serve n => exact hsame (Option.some.inj hs).symm
  | other c => exact hsame (Option.some.inj hs).symm

theorem sound :
    Sound (browsing cfg.hashToken) (tab cfg) keepsSession (Store.init users origin) where
  start := inv_init _
  fresh_start := fun _ => trivial
  rely_refl := Rely.refl
  rely_trans := fun _ _ _ _ => Rely.trans
  guar_rely := fun a t s o r s' hne h => h.1 t (Ne.symm hne)
  fresh_stable := fun _ _ _ _ _ => trivial
  post_stable := fun _ _ _ _ _ _ _ => trivial
  lost_stable := fun _ _ _ _ _ => trivial
  step := fun w hr t c o k ch r s' ht hp hx => ⟨ch, hp, hx⟩
  spawn := by
    intro t c s s' hi _ hp hs
    obtain ⟨hi', hrely⟩ := inv_of_spawned hi hp hs
    exact ⟨hi', hrely, safe_program c _ s'⟩
  ret := fun t c r s hi _ => ⟨hi, fun u => Rely.refl u s⟩
  kill := fun t c p s hi hk => by cases hk

/-- No request to an endpoint that reads the token carries one that is revoked. -/
def Store.PresentsUnrevoked (H : String → String) (s : Store) : Prop :=
  ∀ (n : Nat) (e : Entry) raw r, s.net[n]? = some e → e.state = .sent →
    e.request.endpoint.readsToken = true →
    e.request.token = some raw → s.server.findByHash (H raw) = some r → r.revokedAt = none

theorem Inv.presentsUnrevoked {H : String → String} {s : Store} (hi : Inv H s) :
    s.PresentsUnrevoked H := by
  intro n e raw r he hst hreads ht hr
  have ho : Open s n e := ⟨he, by rw [hst]; simp⟩
  obtain ⟨hm, hh⟩ := (Identity.Store.findByHash_eq_some hi.hashes).mp hr
  cases hep : e.request.endpoint with
  | refresh => exact (eq_of_fresh hi ((hi.token n e raw ho hep ht).2 (hi.sent n e ho hst)) hm hh).1
  | logout =>
    rw [(hi.logout n e ho hep).1] at ht
    cases ht
  | login dto =>
    rw [hep] at hreads
    cases hreads
  | resource path =>
    rw [hep] at hreads
    cases hreads

/-- The jar holds a refresh token. -/
def Store.holdsToken (s : Store) : Bool :=
  s.jar.rows.any fun c => c.identity.name == Store.refreshCookie

/-- Where no logout is sent while the jar holds the cookie, and no refresh fails once its
rotation has been committed: a request presents no revoked token, no handler finds one or
ends a session, and the answer to a logout leaves no refresh token in the jar. -/
theorem honest_browser_is_no_thief
    (hr : (tab cfg).Reaches keepsSession (initial users origin) w) :
    w.shared.PresentsUnrevoked cfg.hashToken ∧
    (∀ t ch w' c o k, w.threads[t]? = some (.running c (.call o k)) →
      (tab cfg).next keepsSession w (.step t ch) = some w' → w.shared.Clean o) ∧
    ∀ t ch w' c p (n : Nat) k (e : Entry), w.threads[t]? = some (.running c (.call (.page p (.receive n)) k)) →
      w.shared.net[n]? = some e → e.request.endpoint = .logout →
      (tab cfg).next keepsSession w (.step t ch) = some w' → w'.shared.holdsToken = false := by
  have hi : Inv cfg.hashToken w.shared := sound.inv hr
  refine ⟨hi.presentsUnrevoked, ?_, ?_⟩
  · intro t ch w' c o k ht hn
    cases Machine.next_moves _ _ hn with
    | step ht' hp hx =>
      rw [ht] at ht'
      cases ht'
      exact (sound.guar hr ht hp hx).2.2
  · intro t ch w' c p n k e ht he hl hn
    cases Machine.next_moves _ _ hn with
    | step ht' hp hx =>
      rw [ht] at ht'
      cases ht'
      obtain ⟨ch', hop, -, hperform⟩ := Tab.performPage_of_step (a := ⟨t, c⟩)
        (sound.step w hr t c _ k ch _ _ ht hp hx)
      have hnow := Tab.clock_of_receive hop
      simp only [Statement.performPage] at hperform
      split at hperform
      · next req res m he' =>
        cases hperform
        have hstate : e.state = .answered res := by rw [Option.some.inj (he.symm.trans he')]
        simp [Store.holdsToken, hi.jar_of_logout he hstate hl hnow]
      · cases hperform

/-! ## Two runs

A tab that is loaded, logs in and is loaded again; and the same with a logout before the
second load. -/

namespace Scenario

open Identity (Scenario.cfg Scenario.users)

/-- Thread `t` performs `k` statements. -/
def steps (t k : Nat) : List Event := List.replicate k (.step t { now := 1 })

/-- Page `p` is loaded by thread `t` up to its refresh. -/
def load (t p : Nat) : List Event := .spawn (.load p) :: steps t 1

/-- Thread `t` serves request `n` in `k` statements. -/
def serve (t n k : Nat) : List Event := .spawn (.serve n) :: steps t k ++ [.ret t]

/-- The first page, and its refresh without a token. -/
def begin : List Event := load 0 1 ++ serve 1 0 2 ++ steps 0 2 ++ [.ret 0]

/-- The guest logs in and is given the token `token`. -/
def login (token : String) : List Event :=
  [.spawn (.login 1 { email := "guest@example.com", password := "secret" })] ++ steps 2 1 ++
    [.spawn (.serve 1)] ++ steps 3 3 ++ [.step 3 { token := token, now := 1 }] ++ steps 3 1 ++
    [.step 3 { id := 10, familyId := 20, now := 1 }] ++ steps 3 1 ++ [.ret 3] ++ steps 2 2 ++ [.ret 2]

def logout : List Event :=
  [.spawn (.logout 1)] ++ steps 4 1 ++ serve 5 2 5 ++ steps 4 2 ++ [.ret 4]

/-- Request `n` is a refresh that has been sent with this token. -/
def presents (n : Nat) (token : String) (s : Store) : Bool :=
  (s.net[n]?).any fun e => e.state == .sent && e.request.endpoint.readsToken &&
    e.request.token == some token

theorem of_presents {n : Nat} {token : String} {s : Store} (h : presents n token s = true) :
    ∃ e, s.net[n]? = some e ∧ e.state = .sent ∧ e.request.endpoint.readsToken = true ∧
      e.request.token = some token := by
  unfold presents at h
  cases he : s.net[n]? with
  | none =>
    rw [he] at h
    cases h
  | some e =>
    simp only [he, Option.any_some, Bool.and_eq_true, beq_iff_eq] at h
    exact ⟨e, rfl, h.1.1, h.1.2, h.2⟩

/-- Thread `t` is a logout that has succeeded. -/
def loggedOut (t : Nat) (w : World) : Bool :=
  match w.threads[t]? with
  | some (.returned (.logout _) (.ok _)) => true
  | _ => false

theorem of_loggedOut {t : Nat} {w : World} (h : loggedOut t w = true) :
    ∃ p r, w.threads[t]? = some (.returned (.logout p) (.ok r)) := by
  unfold loggedOut at h
  split at h
  · next p r ht => exact ⟨p, r, ht⟩
  · cases h

end Scenario

section Runs

open Scenario

/-- After a login the page is loaded again, which presents the token of the login. -/
theorem honest_browser_is_no_thief_reloaded :
    ∃ w, (tab Identity.Scenario.cfg).Reaches keepsSession
        (initial Identity.Scenario.users "https://nooverlap.example") w ∧
      presents 2 "a" w.shared = true ∧
      w.shared.PresentsUnrevoked Identity.Scenario.cfg.hashToken := by
  have hrun : ((tab Identity.Scenario.cfg).run keepsSession
      (initial Identity.Scenario.users "https://nooverlap.example")
      (begin ++ login "a" ++ load 4 2)).any (fun w => presents 2 "a" w.shared) = true := by decide
  obtain ⟨w, hr, hpresents⟩ := Machine.exists_reaches_of_run hrun
  exact ⟨w, hr, hpresents, (honest_browser_is_no_thief hr).1⟩

/-- After a login and a logout the jar still holds the token, and the next page presents it
although it is revoked. -/
theorem not_honest_browser_is_no_thief :
    (∃ w, (tab Identity.Scenario.cfg).Reaches honest
        (initial Identity.Scenario.users "https://nooverlap.example") w ∧
      (∃ p r, w.threads[4]? = some (.returned (.logout p) (.ok r))) ∧ w.shared.holdsToken = true) ∧
    ¬ ∀ w, (tab Identity.Scenario.cfg).Reaches honest
        (initial Identity.Scenario.users "https://nooverlap.example") w →
      w.shared.PresentsUnrevoked Identity.Scenario.cfg.hashToken := by
  let row : Identity.RefreshToken := ⟨10, 1, 20, "a", 1001, some 1⟩
  constructor
  · have hrun : ((tab Identity.Scenario.cfg).run honest
        (initial Identity.Scenario.users "https://nooverlap.example")
        (begin ++ login "a" ++ logout)).any
        (fun w => loggedOut 4 w && w.shared.holdsToken) = true := by decide
    obtain ⟨w, hr, ht⟩ := Machine.exists_reaches_of_run hrun
    simp only [Bool.and_eq_true] at ht
    exact ⟨w, hr, of_loggedOut ht.1, ht.2⟩
  · intro h
    have hrun : ((tab Identity.Scenario.cfg).run honest
        (initial Identity.Scenario.users "https://nooverlap.example")
        (begin ++ login "a" ++ logout ++ load 6 2)).any (fun w =>
          presents 3 "a" w.shared && w.shared.server.findByHash "a" == some row) = true := by decide
    obtain ⟨w, hr, ht⟩ := Machine.exists_reaches_of_run hrun
    simp only [Bool.and_eq_true, beq_iff_eq] at ht
    obtain ⟨e, he, hst, hreads, htoken⟩ := of_presents ht.1
    have hrevoked := h w hr 3 e "a" row he hst hreads htoken ht.2
    cases hrevoked

end Runs

end NoOverlap.Browser
