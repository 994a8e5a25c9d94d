import NoOverlap.Browser.Honest

/-!
# The tab and the handlers at work

What a thread of the tab or a handler can count on, and that each of its steps keeps the
invariant.  A thread that started a refresh owns the slot until it settles it.  A handler
owns the entry of its request until it answers.
-/

namespace NoOverlap.Browser

open Relational Concurrency RelyGuarantee
open Identity (RefreshToken AccessToken IssuedRefresh AuthService.Session)

/-- A handler of this browser finds no revoked token, and revokes no family. -/
def Store.Clean (s : Store) : Statement → Prop
  | .auth (some _) (.tokenFindUnique hash) =>
    ∀ r, s.server.findByHash hash = some r → r.revokedAt = none
  | .auth (some _) (.tokenRevokeFamily _ _) => False
  | _ => True

def browsing (H : String → String) : RelyGuarantee Store Call Statement.Resp Err Reply :=
  { Step := fun a s o r s' => ∃ ch, keepsSession.op a ch o s = true ∧ o.exec a.tid ch s = some (r, s')
    Inv := Inv H
    Rely := Rely
    Guar := fun a s o _ s' => (∀ u, u ≠ a.tid → Rely u s s') ∧ s.Clean o
    Post := fun _ _ _ => True
    Fresh := fun _ _ => True
    Lost := fun _ _ => True }

namespace Rely

variable {s : Store} {u n : Nat} {f : Entry → Entry}

/-- An entry that is not served by `u` moves along. -/
theorem of_modify {s' : Store} (hserver : s'.server = s.server) (hfam : s'.families = s.families)
    (hpage : s'.page = s.page) (hnet : s'.net = s.net.modify n f)
    (hreq : ∀ e, (f e).request = e.request)
    (hdone : ∀ e, s.net[n]? = some e → e.state = .received → (f e).state = .received)
    (hu : ∀ e, s.net[n]? = some e → e.state ≠ .serving u) : Rely u s s' := by
  have hget : ∀ m, s'.net[m]? = (fun e => if n = m then f e else e) <$> s.net[m]? := by
    intro m
    rw [hnet, List.getElem?_modify]
  constructor
  case server =>
    rw [hserver]
    exact Identity.Store.Grows.refl _
  case origin => rw [hpage]
  case net =>
    intro m e he
    refine ⟨if n = m then f e else e, by rw [hget, he]; rfl, ?_, ?_⟩
    · split
      · exact hreq e
      · rfl
    · intro hr
      split
      · next heq =>
        subst heq
        exact hdone e he hr
      · exact hr
  case serving =>
    intro m e he hs
    have hne : n ≠ m := by
      rintro rfl
      exact hu e he hs
    rw [hget, he]
    simp only [Option.map_eq_map, Option.map_some, if_neg hne]
  case page => rw [hpage]
  case slot =>
    intro g hg _ _
    rw [hpage]
    exact hg
  case families =>
    intro g _ hg
    rwa [hfam]

theorem of_server {srv : Identity.Store} (hg : s.server.Grows srv) :
    Rely u s { s with server := srv } :=
  ⟨hg, rfl, fun _ e h => ⟨e, h, rfl, fun hr => hr⟩, fun _ _ h _ => h, Nat.le_refl _,
    fun _ h _ _ => h, fun _ _ h => h⟩

/-- Only the variables of the page change, and a refresh of `u` stays in its slot. -/
theorem of_page {page : Page} (horigin : page.origin = s.page.origin)
    (hnumber : s.page.number ≤ page.number)
    (hslot : ∀ f, s.page.refreshInFlight = some f → f.starter = u →
      page.number = s.page.number → page.refreshInFlight = some f) :
    Rely u s { s with page := page } :=
  ⟨Identity.Store.Grows.refl _, horigin, fun _ e h => ⟨e, h, rfl, fun hr => hr⟩,
    fun _ _ h _ => h, hnumber, hslot, fun _ _ h => h⟩

/-- A request is sent. -/
theorem post {now : Int} {e : Endpoint} {bearer : Option AccessToken} (page : Page)
    (horigin : page.origin = s.page.origin) (hnumber : page.number = s.page.number)
    (hslot : ∀ f, s.page.refreshInFlight = some f → page.refreshInFlight = some f) :
    Rely u s { s.post now e bearer with page := page } := by
  have hget : ∀ (m : Nat) (d : Entry), s.net[m]? = some d →
      (s.post now e bearer).net[m]? = some d := fun m d hd =>
    (List.getElem?_append_left (Sound.lt_of_getElem?_eq_some hd)).trans hd
  exact ⟨Identity.Store.Grows.refl _, horigin, fun m d h => ⟨d, hget m d h, rfl, fun hr => hr⟩,
    fun m d h _ => hget m d h, Nat.le_of_eq hnumber.symm, fun f h _ _ => hslot f h, fun _ _ h => h⟩

end Rely

/-- A statement that cannot fail is performed. -/
theorem perform_of_exec {t : Nat} {c : Choice} {o : Statement} {s s' : Store}
    {r : Except Err o.Resp} (ho : o.fallible = false)
    (hx : o.exec t c s = some (r, s')) : o.perform t c s = some (r, s') := by
  unfold Statement.exec at hx
  split at hx
  · next hf =>
    rw [ho] at hf
    cases hf
  · next hf =>
    rw [ho] at hf
    cases hf
  · exact hx

/-! ## The tab -/

namespace Tab

variable {cfg : Identity.Config} {H : String → String} {a : Agent} {s s' : Store} {p n : Nat}

/-- A statement of the page runs on its page and does not fail. -/
theorem performPage_of_step {o : PageStatement} {r : Except Err o.Resp}
    (h : (browsing H).Step a s (.page p o) r s') :
    ∃ ch, keepsSession.op a ch (.page p o) s = true ∧ s.page.number = p ∧
      Statement.performPage a.tid ch o s = some (r, s') := by
  obtain ⟨ch, hop, hx⟩ := h
  have hperform : (Statement.page p o).perform a.tid ch s = some (r, s') := by
    cases o with
    | receive n =>
      have hfault : ch.fault = .none := by
        simp only [keepsSession, honest, Bool.and_true, decide_eq_true_eq] at hop
        exact hop.1
      simpa only [Statement.exec, hfault] using hx
    | _ => exact perform_of_exec rfl hx
  simp only [Statement.perform] at hperform
  split at hperform
  · next hp => exact ⟨ch, hop, hp, hperform⟩
  · cases hperform

/-- Thread `t` has the refresh of page `p` under way, which is request `n`. -/
def Waits (p n t : Nat) (s : Store) : Prop :=
  p ≤ s.page.number ∧ (s.page.number = p → s.page.refreshInFlight = some ⟨n, t⟩)

def Received (n : Nat) (s : Store) : Prop := ∃ e, s.net[n]? = some e ∧ e.state = .received

theorem Waits.stable {t : Nat} (h : Waits p n t s) (hr : Rely t s s') : Waits p n t s' := by
  have hle := hr.page
  refine ⟨Nat.le_trans h.1 hle, fun hp => ?_⟩
  have hsame : s.page.number = p := by
    have hge := h.1
    omega
  exact hr.slot _ (h.2 hsame) rfl (hp.trans hsame.symm)

theorem Received.stable {t : Nat} (h : Received n s) (hr : Rely t s s') : Received n s' := by
  obtain ⟨e, he, hs⟩ := h
  obtain ⟨e', he', -, hd⟩ := hr.net n e he
  exact ⟨e', he', hd hs⟩

theorem clock_of_receive {ch : Choice} (h : keepsSession.op a ch (.page p (.receive n)) s = true) :
    0 < ch.now := by
  simp only [keepsSession, honest, Bool.and_true, decide_eq_true_eq] at h
  exact h.2

theorem safe_receive {Q : Except Err Response → Store → Prop}
    (hQ : ∀ s₁ s₂ r, Rely a.tid s s₁ → s₂.page = s₁.page → Received n s₂ → Q (.ok r) s₂) :
    (browsing H).Safe a Q (await (.page p (.receive n))) s := by
  intro s₁ hr hi r s₂ hx
  obtain ⟨ch, hop, -, hp⟩ := performPage_of_step hx
  have hnow := clock_of_receive hop
  simp only [Statement.performPage] at hp
  split at hp
  · next req res m he =>
    cases hp
    have hnet : (s₁.deliver n ch.now res).net = s₁.net.modify n fun e => { e with state := .received } :=
      rfl
    have hreceived : Received n (s₁.deliver n ch.now res) := by
      refine ⟨⟨req, .received, m⟩, ?_, rfl⟩
      rw [hnet, List.getElem?_modify_eq, he]
      rfl
    refine ⟨hi.receive he rfl hnow, ⟨fun u _ => ?_, trivial⟩, hQ s₁ _ res hr rfl hreceived⟩
    refine Rely.of_modify rfl rfl rfl hnet (fun _ => rfl) (fun _ _ _ => rfl) fun e he' hs => ?_
    rw [he] at he'
    cases he'
    cases hs
  · cases hp

theorem safe_fetch {e : Endpoint} (he : e ≠ .refresh) :
    (browsing H).Safe a (fun _ _ => True) (Client.fetch p e) s := by
  refine Safe.op_bind fun s₁ _ hi r s₂ hx => ?_
  obtain ⟨ch, hop, -, hp⟩ := performPage_of_step hx
  simp only [Statement.performPage, Option.some.injEq, Prod.mk.injEq] at hp
  obtain ⟨rfl, rfl⟩ := hp
  have hlogin : e.isLogin = true → s₁.quiet = true := by
    intro hl
    cases e with
    | login dto =>
      simp only [keepsSession, honest, Bool.and_true] at hop
      exact hop
    | _ => cases hl
  have hlogout : e = .logout → s₁.quiet = true ∧
      ∀ c ∈ (s₁.jar.evict ch.now).rows, c.identity.name ≠ Store.refreshCookie := by
    rintro rfl
    simp only [keepsSession, honest, Bool.and_eq_true, List.all_eq_true, bne_iff_ne] at hop
    exact hop
  refine ⟨hi.post s₁.page rfl (fun h => (he h).elim) (fun _ => rfl) hlogin hlogout rfl,
    ⟨fun u _ => Rely.post s₁.page rfl rfl fun _ h => h, trivial⟩, ?_⟩
  exact safe_receive fun _ _ _ _ _ _ => trivial

/-- The end of a refresh, by the thread that started it. -/
theorem safe_settle {token : Option AccessToken} {outcome b : Bool} (hw : Waits p n a.tid s)
    (hrec : Received n s) :
    (browsing H).Safe a (fun r _ => r = .ok b)
      (await (.page p (.settle n token outcome)) >>= fun _ => pure b) s := by
  refine Safe.op_bind fun s₁ hr hi r s₂ hx => ?_
  obtain ⟨ch, -, hnumber, hp⟩ := performPage_of_step hx
  simp only [Statement.performPage, Option.some.injEq, Prod.mk.injEq] at hp
  obtain ⟨rfl, rfl⟩ := hp
  have hslot := (hw.stable hr).2 hnumber
  obtain ⟨d, hd, hdone⟩ := hrec.stable hr
  refine ⟨hi.of_page rfl fun m e ho he => ?_, ⟨fun u hu => ?_, trivial⟩, rfl⟩
  · -- The one refresh that could be under way has been received.
    obtain ⟨t, ht⟩ := hi.slot m e ho he
    rw [hslot] at ht
    cases ht
    obtain rfl := ho.eq hd
    exact (ho.state hdone).elim
  · refine Rely.of_page rfl (Nat.le_refl _) fun f hf hstart _ => ?_
    rw [hslot] at hf
    cases hf
    exact (hu hstart.symm).elim

theorem safe_runRefresh (hw : Waits p n a.tid s) :
    (browsing H).Safe a (fun _ _ => True) (Client.runRefresh p n) s := by
  refine Safe.tryCatch (Safe.bind (safe_receive fun s₁ s₂ res hr hpage hrec => ?_))
  have hw₂ : Waits p n a.tid s₂ := by
    rw [Waits, hpage]
    exact hw.stable hr
  have hsettle : ∀ (token : Option AccessToken) (outcome b : Bool),
      (browsing H).Safe a (fun r _ => r = .ok b)
        (await (.page p (.settle n token outcome)) >>= fun _ => pure b) s₂ :=
    fun _ _ _ => safe_settle hw₂ hrec
  have hcaught : ∀ (r : Except Err Bool) (b : Bool) (s' : Store), r = .ok b →
      (browsing H).Caught a (fun _ _ => True)
        (fun _ => await (.page p (.settle n none false)) >>= fun _ => pure false) r s' := by
    rintro r b s' rfl
    trivial
  simp only [cont_ok]
  split
  · exact (hsettle none false false).imp fun r s' h => hcaught r false s' h
  · split
    · exact (hsettle none false false).imp fun _ _ _ => trivial
    · next token _ => exact (hsettle (some token) true true).imp fun r s' h => hcaught r true s' h

theorem safe_refreshAccessToken :
    (browsing H).Safe a (fun _ _ => True) (Client.refreshAccessToken p) s := by
  refine Safe.op_bind fun s₁ _ hi r s₂ hx => ?_
  obtain ⟨ch, -, hnumber, hp⟩ := performPage_of_step hx
  simp only [Statement.performPage] at hp
  split at hp
  · next f hslot =>
    cases hp
    refine ⟨hi, ⟨fun u _ => Rely.refl u s₁, trivial⟩, ?_⟩
    simp only [cont_ok, Bool.false_eq_true, if_false]
    intro s₃ _ hi₃ r s₄ hx
    obtain ⟨ch, -, -, hp⟩ := performPage_of_step hx
    simp only [Statement.performPage] at hp
    obtain ⟨x, -, he⟩ := Option.map_eq_some_iff.mp hp
    cases he
    exact ⟨hi₃, ⟨fun u _ => Rely.refl u s₃, trivial⟩, trivial⟩
  · next hslot =>
    cases hp
    let page : Page := { s₁.page with refreshInFlight := some ⟨s₁.net.length, a.tid⟩ }
    have hinv : Inv H { s₁.post ch.now .refresh none with page := page } :=
      hi.post page rfl (fun _ => ⟨hslot, a.tid, rfl⟩) (fun h => (h rfl).elim) (fun h => by cases h)
        (fun h => by cases h) rfl
    refine ⟨hinv, ⟨fun u _ => ?_, trivial⟩, ?_⟩
    · refine Rely.post page rfl rfl fun f hf => ?_
      rw [hslot] at hf
      cases hf
    · simp only [cont_ok, if_true]
      exact safe_runRefresh ⟨Nat.le_of_eq hnumber.symm, fun _ => rfl⟩

theorem safe_finish {r : Response} :
    (browsing H).Safe a (fun _ _ => True) (Client.finish r) s := by
  unfold Client.finish
  split <;> trivial

theorem safe_apiFetch {e : Endpoint} (he : e ≠ .refresh) :
    (browsing H).Safe a (fun _ _ => True) (Client.apiFetch p e) s := by
  refine Safe.seq (K := fun _ => True) (safe_fetch he) fun res s₁ _ => ?_
  split
  · refine Safe.seq (K := fun _ => True) safe_refreshAccessToken fun refreshed s₂ _ => ?_
    split
    · exact Safe.seq (K := fun _ => True) (safe_fetch he) fun _ _ _ => safe_finish
    · exact safe_finish
  · exact safe_finish

theorem safe_setAccessToken {token : Option AccessToken} :
    (browsing H).Safe a (fun _ _ => True) (await (.page p (.setAccessToken token))) s := by
  intro s₁ _ hi r s₂ hx
  obtain ⟨ch, -, -, hp⟩ := performPage_of_step hx
  simp only [Statement.performPage, Option.some.injEq, Prod.mk.injEq] at hp
  obtain ⟨rfl, rfl⟩ := hp
  exact ⟨hi.of_page rfl fun _ _ _ _ => rfl,
    ⟨fun u _ => Rely.of_page rfl (Nat.le_refl _) fun _ h _ _ => h, trivial⟩, trivial⟩

theorem safe_login (dto : Identity.LoginDto) :
    (browsing H).Safe a (fun _ _ => True) (Client.login p dto) s :=
  Safe.seq (K := fun _ => True) (safe_apiFetch (by simp)) fun _ _ _ => safe_setAccessToken

theorem safe_logout : (browsing H).Safe a (fun _ _ => True) (Client.logout p) s := by
  refine Safe.rescue (K := fun _ => True) ?_ fun e s' _ => ?_
  · exact Safe.seq (K := fun _ => True) (safe_apiFetch (by simp)) fun _ _ _ => safe_setAccessToken
  · exact Safe.seq (K := fun _ => True) safe_setAccessToken fun _ _ _ => trivial

end Tab

end NoOverlap.Browser
