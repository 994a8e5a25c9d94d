import NoOverlap.Browser.Page
import NoOverlap.Identity.Tokens

/-!
# What a browser holds

The refresh token of a browser is in its jar, or a handler has replaced it and the answer
is on its way.  The invariant says where each unrevoked token is: in a cookie, or minted
for a request that is still under way, and never in two places.  While a refresh is in
flight no other is sent, since the slot is taken.

Two things break this.  A logout leaves the cookie of the token it has revoked, since it
clears a cookie of another path.  A refresh that fails once its rotation has been
committed answers without the successor.  `keepsSession` is the condition that neither
happens; `honest` is what is assumed of the tab and of others.
-/

namespace NoOverlap.Browser

open Relational Concurrency RelyGuarantee
open Identity (RefreshToken AccessToken)

/-! ## The assumptions -/

/-- Nothing is in flight. -/
def Store.quiet (s : Store) : Bool := s.net.all fun e => !e.underWay

/-- No response is lost, a page is left and a login or logout is sent only while nothing
is in flight, and nobody else presents a token of this browser.  Its clock is past 1970. -/
def honest : Policy :=
  { spawn := fun c s => match c with
      | .load _ => s.quiet
      | _ => true
    op := fun _ ch o s => match o with
      | .page _ (.send (.login _)) => s.quiet
      | .page _ (.send .logout) => s.quiet
      | .page _ (.receive _) => decide (ch.fault = .none ∧ 0 < ch.now)
      | .auth none (.tokenFindUnique hash) =>
        (s.server.findByHash hash).all fun r => !s.families.contains r.familyId
      | _ => true
    kill := fun _ _ _ => false }

/-- The handler of this request has stored a token. -/
def Store.hasMinted (s : Store) (n : Nat) : Bool := (s.net[n]?).any fun e => e.minted.isSome

/-- What is more, no logout is sent while the jar holds the cookie, and no refresh fails
once its rotation has been committed.  The logout is excluded even if its handler fails
before it revokes anything, since the cookie outlives it all the same
(`logout_keeps_cookies`). -/
def keepsSession : Policy :=
  { honest with
    op := fun a ch o s => honest.op a ch o s && match o with
      | .page _ (.send .logout) =>
        (s.jar.evict ch.now).rows.all fun c => c.identity.name != Store.refreshCookie
      | .auth (some _) (.tokenRotate _ _ _) => match ch.fault with
        | .after _ => false
        | _ => true
      | .auth (some n) (.signAccessToken _ _) => !s.hasMinted n || ch.fault == .none
      | _ => true }

theorem Store.jar_deliver_none {s : Store} {n : Nat} {now : Int} {r : Response}
    (hc : r.setCookie = none) : (s.deliver n now r).jar = s.jar := by
  simp only [Store.deliver, hc]

theorem Store.jar_deliver_some {s : Store} {n : Nat} {now : Int} {r : Response} {sc : SetCookie}
    (hc : r.setCookie = some sc) : (s.deliver n now r).jar = s.jar.set s.page.origin now sc := by
  simp only [Store.deliver, hc]

/-- Whatever a logout is answered, the cookies of the root path stay in the jar.  The answer
clears a cookie of another path, or none if the handler has failed. -/
theorem logout_keeps_cookies (cfg : Identity.Config) (n : Nat) {req : Request}
    (hreq : req.endpoint = .logout) :
    (tryCatch (AuthController.route cfg n req) fun e => pure (AuthController.problem e)).Returns
      fun r => ∀ (s : Store) (m : Nat) (now : Int), ∀ c ∈ s.jar.rows, c.identity.path = [] →
        c ∈ (s.deliver m now r).jar.rows := by
  simp only [AuthController.route, hreq]
  refine Prog.Returns.tryCatch (Prog.returns_bind fun _ => Prog.returns_pure ?_) fun e =>
    Prog.returns_pure ?_
  · intro s m now c hc hpath
    rw [Store.jar_deliver_some rfl, CookieJar.mem_set]
    refine .inr ⟨hc, fun heq => ?_⟩
    rw [heq] at hpath
    cases hpath
  · intro s m now c hc _
    rwa [Store.jar_deliver_none rfl]

/-! ## The invariant -/

namespace Store

/-- The hash of a token of this browser that is not revoked. -/
def Fresh (s : Store) (h : String) : Prop :=
  ∃ r ∈ s.server.tokens.rows, r.tokenHash = h ∧ r.revokedAt = none ∧ r.familyId ∈ s.families

/-- The hash of a token. -/
def Known (s : Store) (h : String) : Prop := ∃ r ∈ s.server.tokens.rows, r.tokenHash = h

theorem Fresh.known {s : Store} {h : String} (hf : s.Fresh h) : s.Known h := by
  obtain ⟨r, hr, hh, -⟩ := hf
  exact ⟨r, hr, hh⟩

theorem Known.grows {s s' : Store} {h : String} (hk : s.Known h) (hg : s.server.Grows s'.server) :
    s'.Known h := by
  obtain ⟨r, hr, hh⟩ := hk
  obtain ⟨r', hr', hl⟩ := hg.tokens r.id r (Table.find?_of_mem hr)
  exact ⟨r', Table.mem_of_find? hr', hl.tokenHash.trans hh⟩

theorem Fresh.congr {s s' : Store} (hserver : s'.server = s.server)
    (hfam : s'.families = s.families) (h : String) (hf : s.Fresh h) : s'.Fresh h := by
  rw [Fresh, hserver, hfam]
  exact hf

theorem Known.congr {s s' : Store} (hserver : s'.server = s.server) (h : String)
    (hk : s.Known h) : s'.Known h := by
  rw [Known, hserver]
  exact hk

end Store

/-- A request that is under way. -/
structure Open (s : Store) (n : Nat) (e : Entry) : Prop where
  entry : s.net[n]? = some e
  state : e.state ≠ .received

namespace Open

variable {s s' : Store} {n m : Nat} {e : Entry} {f : Entry → Entry}

/-- One entry changes. -/
theorem of_modify (ho : Open s' m e) (hnet : s'.net = s.net.modify n f) :
    (m = n ∧ ∃ e₀, s.net[n]? = some e₀ ∧ e = f e₀) ∨ (m ≠ n ∧ Open s m e) := by
  have hentry := ho.entry
  by_cases hmn : n = m
  · subst hmn
    rw [hnet, List.getElem?_modify_eq] at hentry
    obtain ⟨e₀, he₀, hf⟩ := Option.map_eq_some_iff.mp hentry
    exact .inl ⟨rfl, e₀, he₀, hf.symm⟩
  · rw [hnet, List.getElem?_modify_ne _ _ hmn] at hentry
    exact .inr ⟨Ne.symm hmn, hentry, ho.state⟩

theorem modify (ho : Open s m e) (hnet : s'.net = s.net.modify n f) (hmn : m ≠ n) :
    Open s' m e := by
  refine ⟨?_, ho.state⟩
  rw [hnet, List.getElem?_modify_ne _ _ (Ne.symm hmn), ho.entry]

theorem modify_self (ho : s.net[n]? = some e) (hnet : s'.net = s.net.modify n f)
    (hst : (f e).state ≠ .received) : Open s' n (f e) := by
  refine ⟨?_, hst⟩
  rw [hnet, List.getElem?_modify_eq, ho]
  rfl

/-- One entry is new. -/
theorem of_append {sent : Entry} (ho : Open s' m e) (hnet : s'.net = s.net ++ [sent]) :
    (m = s.net.length ∧ e = sent) ∨ Open s m e := by
  have hentry := ho.entry
  rw [hnet] at hentry
  rcases getElem?_of_append hentry with hnew | hentry
  · exact .inl hnew
  · exact .inr ⟨hentry, ho.state⟩

theorem append {sent : Entry} (ho : Open s m e) (hnet : s'.net = s.net ++ [sent]) :
    Open s' m e := by
  refine ⟨?_, ho.state⟩
  rw [hnet, List.getElem?_append_left (Sound.lt_of_getElem?_eq_some ho.entry), ho.entry]

theorem eq (ho : Open s n e) {e' : Entry} (he : s.net[n]? = some e') : e = e' :=
  Option.some.inj (ho.entry.symm.trans he)

end Open

theorem not_open_of_quiet {s : Store} (h : s.quiet = true) (n : Nat) (e : Entry) :
    ¬ Open s n e := by
  intro ho
  have hall := List.all_eq_true.mp h e (List.mem_of_getElem? ho.entry)
  have hstate := ho.state
  simp only [Entry.underWay, Bool.not_eq_true', bne_eq_false_iff_eq] at hall
  exact hstate hall

/-- What an answer says of the handler that gave it. -/
structure Entry.Answer (H : String → String) (e : Entry) (r : Response) : Prop where
  cookie : ∀ c, r.setCookie = some c →
    (c = AuthController.clearRefreshCookie ∧ e.request.endpoint = .logout) ∨
      ∃ issued, c = AuthController.setRefreshCookie issued ∧ e.minted = some (H issued.token)
  refresh : e.request.endpoint = .refresh → r.setCookie = none → e.minted = none

/-- The identity of the one cookie the jar can hold. -/
def cookieKey (s : Store) : CookieKey :=
  { name := Store.refreshCookie, host := s.page.origin, path := [] }

structure Inv (H : String → String) (s : Store) : Prop where
  hashes : s.server.HashUnique
  families : ∀ f ∈ s.families, ∃ id, s.server.Belongs id f
  jar : ∀ c ∈ s.jar.rows, c.identity = cookieKey s
  /-- A refresh that is under way occupies the slot. -/
  slot : ∀ n e, Open s n e → e.request.endpoint = .refresh →
    ∃ t, s.page.refreshInFlight = some ⟨n, t⟩
  /-- The cookie is good, or its successor is on its way. -/
  cookie : ∀ c ∈ s.jar.rows, s.Known (H c.value) ∧ (s.Fresh (H c.value) ∨
    ∃ n e, Open s n e ∧ e.request.endpoint = .refresh ∧ e.minted.isSome = true)
  token : ∀ n e raw, Open s n e → e.request.endpoint = .refresh → e.request.token = some raw →
    s.Known (H raw) ∧ (e.minted = none → s.Fresh (H raw))
  sent : ∀ n e, Open s n e → e.state = .sent → e.minted = none
  minted : ∀ n e h, Open s n e → e.minted = some h → s.Fresh h
  answer : ∀ n e r, Open s n e → e.state = .answered r → e.Answer H r
  apartJar : ∀ n e h, Open s n e → e.minted = some h → ∀ c ∈ s.jar.rows, H c.value ≠ h
  apartToken : ∀ n e h, Open s n e → e.minted = some h → ∀ m e' raw, Open s m e' →
    e'.request.endpoint = .refresh → e'.request.token = some raw → H raw ≠ h
  apartMinted : ∀ n e h, Open s n e → e.minted = some h → ∀ m e', Open s m e' →
    e'.minted = some h → n = m
  /-- While a logout is under way there is no token anywhere. -/
  logout : ∀ n e, Open s n e → e.request.endpoint = .logout →
    e.request.token = none ∧ s.jar.rows = [] ∧ ∀ m e', Open s m e' →
      e'.request.endpoint.isLogin = false ∧ e'.minted = none ∧
        (e'.request.endpoint = .refresh → e'.request.token = none)

/-- A cookie that a response has just set. -/
structure Arrives (H : String → String) (s s' : Store) (c : Cookie) : Prop where
  identity : c.identity = cookieKey s
  fresh : s.Fresh (H c.value)
  apart : ∀ n e h, Open s' n e → e.minted = some h → H c.value ≠ h
  logout : ∀ n e, Open s' n e → e.request.endpoint ≠ .logout

/-- What a thread can count on. -/
structure Rely (t : Nat) (s s' : Store) : Prop where
  server : s.server.Grows s'.server
  origin : s'.page.origin = s.page.origin
  net : ∀ (n : Nat) (e : Entry), s.net[n]? = some e → ∃ e' : Entry, s'.net[n]? = some e' ∧
    e'.request = e.request ∧ (e.state = .received → e'.state = .received)
  serving : ∀ (n : Nat) (e : Entry), s.net[n]? = some e → e.state = .serving t →
    s'.net[n]? = some e
  page : s.page.number ≤ s'.page.number
  slot : ∀ f, s.page.refreshInFlight = some f → f.starter = t →
    s'.page.number = s.page.number → s'.page.refreshInFlight = some f
  families : ∀ f, (∃ id, s.server.Belongs id f) → f ∉ s.families → f ∉ s'.families

namespace Rely

variable {t : Nat} {s s₁ s₂ s₃ : Store}

theorem refl (t : Nat) (s : Store) : Rely t s s :=
  ⟨Identity.Store.Grows.refl _, rfl, fun _ e h => ⟨e, h, rfl, fun hr => hr⟩, fun _ _ h _ => h,
    Nat.le_refl _, fun _ h _ _ => h, fun _ _ h => h⟩

theorem trans (h : Rely t s₁ s₂) (h' : Rely t s₂ s₃) : Rely t s₁ s₃ := by
  constructor
  case server => exact h.server.trans h'.server
  case origin => exact h'.origin.trans h.origin
  case net =>
    intro n e he
    obtain ⟨e₂, he₂, hq₂, hr₂⟩ := h.net n e he
    obtain ⟨e₃, he₃, hq₃, hr₃⟩ := h'.net n e₂ he₂
    exact ⟨e₃, he₃, hq₃.trans hq₂, fun hr => hr₃ (hr₂ hr)⟩
  case serving => exact fun n e he hs => h'.serving n e (h.serving n e he hs) hs
  case page => exact Nat.le_trans h.page h'.page
  case slot =>
    intro f hf hs hn
    have hle := h.page
    have hle' := h'.page
    have h₁₂ : s₂.page.number = s₁.page.number := by omega
    have h₂₃ : s₃.page.number = s₂.page.number := by omega
    exact h'.slot f (h.slot f hf hs h₁₂) hs h₂₃
  case families =>
    rintro f ⟨id, hb⟩ hf
    exact h'.families f ⟨id, hb.grows h.server⟩ (h.families f ⟨id, hb⟩ hf)

end Rely

/-! ## What keeps the invariant -/

namespace Inv

variable {H : String → String} {s s' : Store}

/-- The tokens of others change. -/
theorem of_server (hi : Inv H s) {srv : Identity.Store} (hg : s.server.Grows srv)
    (hh : srv.HashUnique) (hf : ∀ h, s.Fresh h → { s with server := srv }.Fresh h) :
    Inv H { s with server := srv } := by
  have hk : ∀ h, s.Known h → { s with server := srv }.Known h := fun h hk => hk.grows hg
  have hopen : ∀ n e, Open { s with server := srv } n e → Open s n e :=
    fun n e h => ⟨h.entry, h.state⟩
  have hopen' : ∀ n e, Open s n e → Open { s with server := srv } n e :=
    fun n e h => ⟨h.entry, h.state⟩
  constructor
  case hashes => exact hh
  case families =>
    intro f hfam
    obtain ⟨id, hb⟩ := hi.families f hfam
    exact ⟨id, hb.grows hg⟩
  case jar => exact hi.jar
  case slot => exact fun n e ho => hi.slot n e (hopen n e ho)
  case cookie =>
    intro c hc
    obtain ⟨hknown, hcase⟩ := hi.cookie c hc
    refine ⟨hk _ hknown, hcase.imp (hf _) ?_⟩
    rintro ⟨n, e, ho, he⟩
    exact ⟨n, e, hopen' n e ho, he⟩
  case token =>
    intro n e raw ho he ht
    obtain ⟨hknown, hfresh⟩ := hi.token n e raw (hopen n e ho) he ht
    exact ⟨hk _ hknown, fun hm => hf _ (hfresh hm)⟩
  case sent => exact fun n e ho => hi.sent n e (hopen n e ho)
  case minted => exact fun n e h ho hm => hf _ (hi.minted n e h (hopen n e ho) hm)
  case answer => exact fun n e r ho => hi.answer n e r (hopen n e ho)
  case apartJar => exact fun n e h ho => hi.apartJar n e h (hopen n e ho)
  case apartToken =>
    exact fun n e h ho hm m e' raw ho' => hi.apartToken n e h (hopen n e ho) hm m e' raw (hopen m e' ho')
  case apartMinted =>
    exact fun n e h ho hm m e' ho' => hi.apartMinted n e h (hopen n e ho) hm m e' (hopen m e' ho')
  case logout =>
    intro n e ho he
    obtain ⟨ht, hj, hrest⟩ := hi.logout n e (hopen n e ho) he
    exact ⟨ht, hj, fun m e' ho' => hrest m e' (hopen m e' ho')⟩

/-- Requests move along, cookies are dropped, and one may arrive. -/
theorem reshape (hi : Inv H s) (hserver : s'.server = s.server) (hfam : s'.families = s.families)
    (horigin : s'.page.origin = s.page.origin)
    (hopen : ∀ n e', Open s' n e' → ∃ e, Open s n e ∧ e'.request = e.request ∧
      e'.minted = e.minted ∧ (e'.state = .sent → e.state = .sent) ∧
        ∀ r, e'.state = .answered r → e'.Answer H r)
    (hslot : ∀ n e', Open s' n e' → e'.request.endpoint = .refresh → ∀ t,
      s.page.refreshInFlight = some ⟨n, t⟩ → s'.page.refreshInFlight = some ⟨n, t⟩)
    (hjar : ∀ c ∈ s'.jar.rows, c ∈ s.jar.rows ∨ Arrives H s s' c)
    (hspent : ∀ c ∈ s'.jar.rows, c ∈ s.jar.rows → ∀ n e, Open s n e →
      e.request.endpoint = .refresh → e.minted.isSome = true →
        ∃ m d, Open s' m d ∧ d.request.endpoint = .refresh ∧ d.minted.isSome = true) :
    Inv H s' := by
  have hf := Store.Fresh.congr hserver hfam
  have hk := Store.Known.congr hserver
  constructor
  case hashes =>
    rw [hserver]
    exact hi.hashes
  case families =>
    rw [hserver, hfam]
    exact hi.families
  case jar =>
    intro c hc
    have hkey : cookieKey s' = cookieKey s := by rw [cookieKey, cookieKey, horigin]
    rw [hkey]
    rcases hjar c hc with hold | hnew
    · exact hi.jar c hold
    · exact hnew.identity
  case slot =>
    intro n e' ho he
    obtain ⟨e, ho₀, hreq, -⟩ := hopen n e' ho
    obtain ⟨t, ht⟩ := hi.slot n e ho₀ (hreq ▸ he)
    exact ⟨t, hslot n e' ho he t ht⟩
  case cookie =>
    intro c hc
    rcases hjar c hc with hold | hnew
    · obtain ⟨hknown, hcase⟩ := hi.cookie c hold
      refine ⟨hk _ hknown, hcase.imp (hf _) ?_⟩
      rintro ⟨n, e, ho, he, hm⟩
      exact hspent c hc hold n e ho he hm
    · exact ⟨hk _ hnew.fresh.known, .inl (hf _ hnew.fresh)⟩
  case token =>
    intro n e' raw ho he ht
    obtain ⟨e, ho₀, hreq, hmint, -⟩ := hopen n e' ho
    rw [hreq] at he ht
    obtain ⟨hknown, hfresh⟩ := hi.token n e raw ho₀ he ht
    exact ⟨hk _ hknown, fun hm => hf _ (hfresh (hmint.symm.trans hm))⟩
  case sent =>
    intro n e' ho hs
    obtain ⟨e, ho₀, -, hmint, hsent, -⟩ := hopen n e' ho
    rw [hmint]
    exact hi.sent n e ho₀ (hsent hs)
  case minted =>
    intro n e' h ho hm
    obtain ⟨e, ho₀, -, hmint, -⟩ := hopen n e' ho
    exact hf _ (hi.minted n e h ho₀ (hmint.symm.trans hm))
  case answer =>
    intro n e' r ho hs
    obtain ⟨e, -, -, -, -, hans⟩ := hopen n e' ho
    exact hans r hs
  case apartJar =>
    intro n e' h ho hm c hc
    rcases hjar c hc with hold | hnew
    · obtain ⟨e, ho₀, -, hmint, -⟩ := hopen n e' ho
      exact hi.apartJar n e h ho₀ (hmint.symm.trans hm) c hold
    · exact hnew.apart n e' h ho hm
  case apartToken =>
    intro n e' h ho hm m d' raw hod hd ht
    obtain ⟨e, ho₀, -, hmint, -⟩ := hopen n e' ho
    obtain ⟨d, hod₀, hdreq, -⟩ := hopen m d' hod
    rw [hdreq] at hd ht
    exact hi.apartToken n e h ho₀ (hmint.symm.trans hm) m d raw hod₀ hd ht
  case apartMinted =>
    intro n e' h ho hm m d' hod hd
    obtain ⟨e, ho₀, -, hmint, -⟩ := hopen n e' ho
    obtain ⟨d, hod₀, -, hdmint, -⟩ := hopen m d' hod
    exact hi.apartMinted n e h ho₀ (hmint.symm.trans hm) m d hod₀ (hdmint.symm.trans hd)
  case logout =>
    intro n e' ho he
    obtain ⟨e, ho₀, hreq, -⟩ := hopen n e' ho
    obtain ⟨ht, hj, hrest⟩ := hi.logout n e ho₀ (hreq ▸ he)
    have hempty : s'.jar.rows = [] := by
      rw [List.eq_nil_iff_forall_not_mem]
      intro c hc
      rcases hjar c hc with hold | hnew
      · rw [hj] at hold
        cases hold
      · exact hnew.logout n e' ho he
    refine ⟨by rw [hreq]; exact ht, hempty, fun m d' hod => ?_⟩
    obtain ⟨d, hod₀, hdreq, hdmint, -⟩ := hopen m d' hod
    rw [hdreq, hdmint]
    exact hrest m d hod₀

/-- The handler of request `n` stores a token, in the place of the one it was given if it
serves a refresh. -/
theorem mint (hi : Inv H s) {n : Nat} {e : Entry} {t : Nat} {h : String}
    (ho : s.net[n]? = some e) (hst : e.state = .serving t)
    (hg : s.server.Grows s'.server) (hh : s'.server.HashUnique)
    (hfs : ∀ f ∈ s'.families, ∃ id, s'.server.Belongs id f)
    (hjar : s'.jar = s.jar) (hpage : s'.page = s.page)
    (hnet : s'.net = s.net.modify n fun e => { e with minted := some h })
    (hcase : e.request.endpoint.isLogin = true ∨
      e.request.endpoint = .refresh ∧ ∃ raw, e.request.token = some raw)
    (hunknown : ¬ s.Known h) (hnew : s'.Fresh h)
    (hkeep : ∀ h', s.Fresh h' → s'.Fresh h' ∨
      e.request.endpoint = .refresh ∧ ∃ raw, e.request.token = some raw ∧ h' = H raw) :
    Inv H s' := by
  have hon : Open s n e := ⟨ho, by rw [hst]; simp⟩
  -- The entries that are open now, and as they were.
  have hopen : ∀ m e', Open s' m e' →
      (m = n ∧ e' = { e with minted := some h }) ∨ (m ≠ n ∧ Open s m e') := by
    intro m e' hom
    refine (hom.of_modify hnet).imp_left ?_
    rintro ⟨rfl, e₀, he₀, rfl⟩
    exact ⟨rfl, by rw [Option.some.inj (he₀.symm.trans ho)]⟩
  have hn' : Open s' n { e with minted := some h } :=
    Open.modify_self ho hnet (by rw [hst]; simp)
  have hreq : ∀ m e', Open s' m e' → ∃ e₀, Open s m e₀ ∧ e'.request = e₀.request := by
    intro m e' hom
    rcases hopen m e' hom with ⟨rfl, rfl⟩ | ⟨-, hom⟩
    · exact ⟨e, hon, rfl⟩
    · exact ⟨e', hom, rfl⟩
  have hk : ∀ h', s.Known h' → s'.Known h' := fun h' hk => hk.grows hg
  constructor
  case hashes => exact hh
  case families => exact hfs
  case jar =>
    intro c hc
    rw [hjar] at hc
    rw [hi.jar c hc, cookieKey, cookieKey, hpage]
  case slot =>
    intro m e' hom hr
    obtain ⟨e₀, hom₀, hreq₀⟩ := hreq m e' hom
    rw [hpage]
    exact hi.slot m e₀ hom₀ (hreq₀ ▸ hr)
  case cookie =>
    intro c hc
    rw [hjar] at hc
    obtain ⟨hknown, hcookie⟩ := hi.cookie c hc
    refine ⟨hk _ hknown, ?_⟩
    rcases hcookie with hfresh | ⟨m, e', hom, hr, hm⟩
    · rcases hkeep _ hfresh with hfresh' | ⟨hr, -⟩
      · exact .inl hfresh'
      · exact .inr ⟨n, _, hn', hr, rfl⟩
    · by_cases hmn : m = n
      · subst hmn
        exact .inr ⟨m, _, hn', hom.eq ho ▸ hr, rfl⟩
      · exact .inr ⟨m, e', hom.modify hnet hmn, hr, hm⟩
  case token =>
    intro m e' raw hom hr ht
    rcases hopen m e' hom with ⟨rfl, rfl⟩ | ⟨hmn, hom⟩
    · obtain ⟨hknown, -⟩ := hi.token m e raw hon hr ht
      exact ⟨hk _ hknown, fun hc => by cases hc⟩
    · obtain ⟨hknown, hfresh⟩ := hi.token m e' raw hom hr ht
      refine ⟨hk _ hknown, fun hm => ?_⟩
      rcases hkeep _ (hfresh hm) with hfresh' | ⟨hrn, -⟩
      · exact hfresh'
      · -- Two refreshes under way would share the slot.
        obtain ⟨t₁, h₁⟩ := hi.slot m e' hom hr
        obtain ⟨t₂, h₂⟩ := hi.slot n e hon hrn
        rw [h₁] at h₂
        cases h₂
        exact (hmn rfl).elim
  case sent =>
    intro m e' hom hs
    rcases hopen m e' hom with ⟨rfl, rfl⟩ | ⟨-, hom⟩
    · have hserving : e.state = .sent := hs
      rw [hst] at hserving
      cases hserving
    · exact hi.sent m e' hom hs
  case minted =>
    intro m e' h' hom hm
    rcases hopen m e' hom with ⟨rfl, rfl⟩ | ⟨-, hom⟩
    · cases hm
      exact hnew
    · rcases hkeep _ (hi.minted m e' h' hom hm) with hfresh | ⟨hrn, raw, ht, hraw⟩
      · exact hfresh
      · exact (hi.apartToken m e' h' hom hm n e raw hon hrn ht hraw.symm).elim
  case answer =>
    intro m e' r hom hs
    rcases hopen m e' hom with ⟨rfl, rfl⟩ | ⟨-, hom⟩
    · have hserving : e.state = .answered r := hs
      rw [hst] at hserving
      cases hserving
    · exact hi.answer m e' r hom hs
  case apartJar =>
    intro m e' h' hom hm c hc
    rw [hjar] at hc
    rcases hopen m e' hom with ⟨rfl, rfl⟩ | ⟨-, hom⟩
    · cases hm
      exact fun heq => hunknown (heq ▸ (hi.cookie c hc).1)
    · exact hi.apartJar m e' h' hom hm c hc
  case apartToken =>
    intro m e' h' hom hm m' d raw hod hr ht
    obtain ⟨d₀, hod₀, hreq₀⟩ := hreq m' d hod
    rw [hreq₀] at hr ht
    rcases hopen m e' hom with ⟨rfl, rfl⟩ | ⟨-, hom⟩
    · cases hm
      exact fun heq => hunknown (heq ▸ (hi.token m' d₀ raw hod₀ hr ht).1)
    · exact hi.apartToken m e' h' hom hm m' d₀ raw hod₀ hr ht
  case apartMinted =>
    intro m e' h' hom hm m' d hod hd
    rcases hopen m e' hom with ⟨rfl, rfl⟩ | ⟨-, hom⟩
    · cases hm
      rcases hopen m' d hod with ⟨rfl, rfl⟩ | ⟨-, hod⟩
      · rfl
      · exact (hunknown (hi.minted m' d h hod hd).known).elim
    · rcases hopen m' d hod with ⟨rfl, rfl⟩ | ⟨-, hod⟩
      · cases hd
        exact (hunknown (hi.minted m e' h hom hm).known).elim
      · exact hi.apartMinted m e' h' hom hm m' d hod hd
  case logout =>
    intro m e' hom hl
    obtain ⟨e₀, hom₀, hreq₀⟩ := hreq m e' hom
    rw [hreq₀] at hl
    obtain ⟨-, -, hrest⟩ := hi.logout m e₀ hom₀ hl
    obtain ⟨hlogin, -, hrefresh⟩ := hrest n e hon
    rcases hcase with hcase | ⟨hr, raw, ht⟩
    · rw [hlogin] at hcase
      cases hcase
    · rw [hrefresh hr] at ht
      cases ht

/-- A request that is sent beside a logout, or is one, has no token and finds no cookie. -/
theorem logout_append (hi : Inv H s) {sent : Entry} (hnet : s'.net = s.net ++ [sent])
    (hminted : sent.minted = none) (hjar : ∀ c ∈ s'.jar.rows, c ∈ s.jar.rows)
    (htoken : s'.jar.rows = [] → sent.request.token = none)
    (hlogin : sent.request.endpoint.isLogin = true → s.quiet = true)
    (hlogout : sent.request.endpoint = .logout → s.quiet = true ∧ s'.jar.rows = []) :
    ∀ n e, Open s' n e → e.request.endpoint = .logout →
      e.request.token = none ∧ s'.jar.rows = [] ∧ ∀ m e', Open s' m e' →
        e'.request.endpoint.isLogin = false ∧ e'.minted = none ∧
          (e'.request.endpoint = .refresh → e'.request.token = none) := by
  intro n e ho he
  rcases ho.of_append hnet with ⟨rfl, rfl⟩ | ho
  · obtain ⟨hquiet, hnil⟩ := hlogout he
    refine ⟨htoken hnil, hnil, fun m d hod => ?_⟩
    rcases hod.of_append hnet with ⟨rfl, rfl⟩ | hod
    · exact ⟨by rw [he]; rfl, hminted, fun _ => htoken hnil⟩
    · exact (not_open_of_quiet hquiet m d hod).elim
  · obtain ⟨ht, hnil, hrest⟩ := hi.logout n e ho he
    have hnil' : s'.jar.rows = [] := by
      rw [List.eq_nil_iff_forall_not_mem]
      intro c hc
      have hold := hjar c hc
      rw [hnil] at hold
      cases hold
    refine ⟨ht, hnil', fun m d hod => ?_⟩
    rcases hod.of_append hnet with ⟨rfl, rfl⟩ | hod
    · refine ⟨?_, hminted, fun _ => htoken hnil'⟩
      rw [Bool.eq_false_iff]
      exact fun hl => not_open_of_quiet (hlogin hl) n e ho
    · exact hrest m d hod

/-- A request is sent, under the cookies of the moment. -/
theorem post (hi : Inv H s) {now : Int} {ep : Endpoint} {bearer : Option AccessToken} (page : Page)
    (horigin : page.origin = s.page.origin)
    (hslot : ep = .refresh → s.page.refreshInFlight = none ∧
      ∃ t, page.refreshInFlight = some ⟨s.net.length, t⟩)
    (hkeep : ep ≠ .refresh → page.refreshInFlight = s.page.refreshInFlight)
    (hlogin : ep.isLogin = true → s.quiet = true)
    (hlogout : ep = .logout → s.quiet = true ∧
      ∀ c ∈ (s.jar.evict now).rows, c.identity.name ≠ Store.refreshCookie)
    (hs' : s' = { s.post now ep bearer with page := page }) : Inv H s' := by
  have hserver : s'.server = s.server := by rw [hs']; rfl
  have hfam : s'.families = s.families := by rw [hs']; rfl
  have hpage : s'.page = page := by rw [hs']
  have hjar : s'.jar = s.jar.evict now := by rw [hs']; rfl
  let sent : Entry := ⟨⟨ep, (s.jar.evict now).valueFor Store.refreshCookie s.page.origin
    (base ++ ep.path), bearer⟩, .sent, none⟩
  have hnet : s'.net = s.net ++ [sent] := by rw [hs']; rfl
  have hold : ∀ c ∈ s'.jar.rows, c ∈ s.jar.rows := by
    intro c hc
    rw [hjar] at hc
    exact (CookieJar.mem_evict.mp hc).1
  have hopen : ∀ n e, Open s' n e → (n = s.net.length ∧ e = sent) ∨ Open s n e :=
    fun n e ho => ho.of_append hnet
  -- The token of the request is that of a cookie.
  have htoken : ∀ raw, sent.request.token = some raw → ∃ c ∈ s.jar.rows, c.value = raw := by
    intro raw hraw
    obtain ⟨c, hc, -, hv⟩ := CookieJar.mem_of_valueFor hraw
    exact ⟨c, (CookieJar.mem_evict.mp hc).1, hv⟩
  have hf := Store.Fresh.congr hserver hfam
  have hk := Store.Known.congr hserver
  constructor
  case hashes =>
    rw [hserver]
    exact hi.hashes
  case families =>
    rw [hserver, hfam]
    exact hi.families
  case jar =>
    intro c hc
    rw [hi.jar c (hold c hc), cookieKey, cookieKey, hpage, horigin]
  case slot =>
    intro n e ho he
    rw [hpage]
    rcases hopen n e ho with ⟨rfl, rfl⟩ | ho₀
    · exact (hslot he).2
    · obtain ⟨t, ht⟩ := hi.slot n e ho₀ he
      by_cases hep : ep = .refresh
      · rw [(hslot hep).1] at ht
        cases ht
      · rw [hkeep hep]
        exact ⟨t, ht⟩
  case cookie =>
    intro c hc
    obtain ⟨hknown, hcase⟩ := hi.cookie c (hold c hc)
    refine ⟨hk _ hknown, hcase.imp (hf _) ?_⟩
    rintro ⟨n, e, ho, hr⟩
    exact ⟨n, e, ho.append hnet, hr⟩
  case token =>
    intro n e raw ho he ht
    rcases hopen n e ho with ⟨rfl, rfl⟩ | ho₀
    · obtain ⟨c, hc, rfl⟩ := htoken raw ht
      obtain ⟨hknown, hcase⟩ := hi.cookie c hc
      refine ⟨hk _ hknown, fun _ => ?_⟩
      rcases hcase with hfresh | ⟨m, d, hod, hd, -⟩
      · exact hf _ hfresh
      · obtain ⟨t, hbusy⟩ := hi.slot m d hod hd
        rw [(hslot he).1] at hbusy
        cases hbusy
    · obtain ⟨hknown, hfresh⟩ := hi.token n e raw ho₀ he ht
      exact ⟨hk _ hknown, fun hm => hf _ (hfresh hm)⟩
  case sent =>
    intro n e ho hs
    rcases hopen n e ho with ⟨rfl, rfl⟩ | ho₀
    · rfl
    · exact hi.sent n e ho₀ hs
  case minted =>
    intro n e h ho hm
    rcases hopen n e ho with ⟨rfl, rfl⟩ | ho₀
    · cases hm
    · exact hf _ (hi.minted n e h ho₀ hm)
  case answer =>
    intro n e r ho hs
    rcases hopen n e ho with ⟨rfl, rfl⟩ | ho₀
    · cases hs
    · exact hi.answer n e r ho₀ hs
  case apartJar =>
    intro n e h ho hm c hc
    rcases hopen n e ho with ⟨rfl, rfl⟩ | ho₀
    · cases hm
    · exact hi.apartJar n e h ho₀ hm c (hold c hc)
  case apartToken =>
    intro n e h ho hm m d raw hod hd ht
    rcases hopen n e ho with ⟨rfl, rfl⟩ | ho₀
    · cases hm
    · rcases hopen m d hod with ⟨rfl, rfl⟩ | hod₀
      · obtain ⟨c, hc, rfl⟩ := htoken raw ht
        exact hi.apartJar n e h ho₀ hm c hc
      · exact hi.apartToken n e h ho₀ hm m d raw hod₀ hd ht
  case apartMinted =>
    intro n e h ho hm m d hod hd
    rcases hopen n e ho with ⟨rfl, rfl⟩ | ho₀
    · cases hm
    · rcases hopen m d hod with ⟨rfl, rfl⟩ | hod₀
      · cases hd
      · exact hi.apartMinted n e h ho₀ hm m d hod₀ hd
  case logout =>
    refine hi.logout_append hnet rfl hold (fun hnil => ?_) hlogin fun hep => ⟨(hlogout hep).1, ?_⟩
    · rw [hjar] at hnil
      exact CookieJar.valueFor_eq_none (by rw [hnil]; simp)
    · rw [List.eq_nil_iff_forall_not_mem]
      intro c hc
      have hkey := hi.jar c (hold c hc)
      rw [hjar] at hc
      exact (hlogout hep).2 c hc (by rw [hkey]; rfl)

/-- A request that has been sent moves along. -/
theorem move (hi : Inv H s) {n : Nat} {e : Entry} {st : EntryState} (hon : Open s n e)
    (hsent : st ≠ .sent) (hreceived : st ≠ .received)
    (hans : ∀ r, st = .answered r → e.Answer H r) :
    Inv H (s.setEntry n fun e => { e with state := st }) := by
  refine hi.reshape rfl rfl rfl ?_ (fun _ _ _ _ _ h => h) (fun _ h => .inl h) ?_
  · intro m e' hom
    rcases hom.of_modify rfl with ⟨rfl, e₀, he₀, rfl⟩ | ⟨-, hom⟩
    · obtain rfl : e = e₀ := hon.eq he₀
      exact ⟨e, hon, rfl, rfl, fun hs => (hsent hs).elim,
        fun r hr => ⟨(hans r hr).cookie, (hans r hr).refresh⟩⟩
    · exact ⟨e', hom, rfl, rfl, fun h => h, fun r => hi.answer m e' r hom⟩
  · intro c hc _ m d hod hr hm
    by_cases hmn : m = n
    · subst hmn
      exact ⟨m, _, Open.modify_self (f := fun e => { e with state := st }) hod.entry rfl hreceived,
        hr, hm⟩
    · exact ⟨m, d, hod.modify rfl hmn, hr, hm⟩

/-- A handler takes up a request. -/
theorem accept (hi : Inv H s) {n t : Nat} {e : Entry} (ho : s.net[n]? = some e)
    (hst : e.state = .sent) : Inv H (s.setEntry n fun e => { e with state := .serving t }) :=
  hi.move ⟨ho, by rw [hst]; simp⟩ (by simp) (by simp) fun r hr => by cases hr

/-- A handler answers. -/
theorem respond (hi : Inv H s) {n t : Nat} {e : Entry} {r : Response} (ho : s.net[n]? = some e)
    (hst : e.state = .serving t) (hans : e.Answer H r) :
    Inv H (s.setEntry n fun e => { e with state := .answered r }) := by
  refine hi.move ⟨ho, by rw [hst]; simp⟩ (by simp) (by simp) fun r' hr' => ?_
  cases hr'
  exact hans

/-- The answer to a logout leaves nothing in the jar, which held nothing when it was sent. -/
theorem jar_of_logout (hi : Inv H s) {n : Nat} {e : Entry} {now : Int} {r : Response}
    (ho : s.net[n]? = some e) (hst : e.state = .answered r) (he : e.request.endpoint = .logout)
    (hnow : 0 < now) : (s.deliver n now r).jar.rows = [] := by
  have hon : Open s n e := ⟨ho, by rw [hst]; simp⟩
  obtain ⟨-, hnil, hrest⟩ := hi.logout n e hon he
  cases hc : r.setCookie with
  | none => rw [Store.jar_deliver_none hc, hnil]
  | some sc =>
    rw [Store.jar_deliver_some hc, List.eq_nil_iff_forall_not_mem]
    intro c hmem
    rcases CookieJar.mem_set.mp hmem with ⟨-, hexp⟩ | ⟨hold, -⟩
    · rcases (hi.answer n e r hon hst).cookie sc hc with ⟨rfl, -⟩ | ⟨issued, -, hm⟩
      · have hone : now < 1 := hexp
        omega
      · rw [(hrest n e hon).2.1] at hm
        cases hm
    · rw [hnil] at hold
      cases hold

/-- A response arrives. -/
theorem receive (hi : Inv H s) {n : Nat} {e : Entry} {now : Int} {r : Response}
    (ho : s.net[n]? = some e) (hst : e.state = .answered r) (hnow : 0 < now) :
    Inv H (s.deliver n now r) := by
  have hon : Open s n e := ⟨ho, by rw [hst]; simp⟩
  have hans := hi.answer n e r hon hst
  have hnet : (s.deliver n now r).net = s.net.modify n fun e => { e with state := .received } := rfl
  have hrest : ∀ m e', Open (s.deliver n now r) m e' → m ≠ n ∧ Open s m e' := by
    intro m e' hom
    rcases hom.of_modify hnet with ⟨rfl, e₀, -, rfl⟩ | hom
    · exact (hom.state rfl).elim
    · exact hom
  have hopen : ∀ m e', Open (s.deliver n now r) m e' → ∃ d, Open s m d ∧ e'.request = d.request ∧
      e'.minted = d.minted ∧ (e'.state = .sent → d.state = .sent) ∧
        ∀ r, e'.state = .answered r → e'.Answer H r := by
    intro m e' hom
    have hom' := (hrest m e' hom).2
    exact ⟨e', hom', rfl, rfl, fun h => h, fun r => hi.answer m e' r hom'⟩
  have hother : ∀ m d, Open s m d → m ≠ n → Open (s.deliver n now r) m d :=
    fun m d hod hmn => hod.modify hnet hmn
  cases hc : r.setCookie with
  | none =>
    have hjar : (s.deliver n now r).jar = s.jar := Store.jar_deliver_none hc
    refine hi.reshape rfl rfl rfl hopen (fun _ _ _ _ _ h => h) (fun c hm => .inl ?_) ?_
    · rwa [hjar] at hm
    · intro c _ _ m d hod hr hm
      by_cases hmn : m = n
      · subst hmn
        -- An answer without a cookie has no successor behind it.
        obtain rfl := hod.eq ho
        rw [hans.refresh hr hc] at hm
        cases hm
      · exact ⟨m, d, hother m d hod hmn, hr, hm⟩
  | some sc =>
    have hjar : (s.deliver n now r).jar = s.jar.set s.page.origin now sc := Store.jar_deliver_some hc
    rcases hans.cookie sc hc with ⟨rfl, he⟩ | ⟨issued, rfl, hm⟩
    · have hempty : ∀ c, c ∉ (s.deliver n now r).jar.rows := by
        rw [hi.jar_of_logout ho hst he hnow]
        simp
      exact hi.reshape rfl rfl rfl hopen (fun _ _ _ _ _ h => h) (fun c hmem => (hempty c hmem).elim)
        fun c hmem => (hempty c hmem).elim
    · -- The jar holds the new cookie and nothing else.
      let fresh : Cookie := CookieJar.cookieOf s.page.origin (AuthController.setRefreshCookie issued)
      have honly : ∀ c ∈ (s.deliver n now r).jar.rows, c = fresh := by
        intro c hmem
        rw [hjar] at hmem
        rcases CookieJar.mem_set.mp hmem with ⟨rfl, -⟩ | ⟨hold, hne⟩
        · rfl
        · exact (hne (hi.jar c hold)).elim
      have harrives : Arrives H s (s.deliver n now r) fresh := by
        refine ⟨rfl, hi.minted n e _ hon hm, ?_, ?_⟩
        · intro m d h hod hd heq
          obtain ⟨hmn, hod⟩ := hrest m d hod
          have hd' : d.minted = some (H issued.token) := hd.trans (congrArg some heq.symm)
          exact hmn (hi.apartMinted m d _ hod hd' n e hon hm)
        · intro m d hod hl
          have hnone := ((hi.logout m d (hrest m d hod).2 hl).2.2 n e hon).2.1
          rw [hm] at hnone
          cases hnone
      refine hi.reshape rfl rfl rfl hopen (fun _ _ _ _ _ h => h)
        (fun c hmem => .inr (honly c hmem ▸ harrives)) ?_
      intro c hmem hold m d hod hr hd
      by_cases hmn : m = n
      · subst hmn
        obtain rfl := hod.eq ho
        -- It is not one that was there before.
        exact (hi.apartJar m d _ hod hm c hold (by rw [honly c hmem]; rfl)).elim
      · exact ⟨m, d, hother m d hod hmn, hr, hd⟩

/-- Only the variables of the page change. -/
theorem of_page (hi : Inv H s) {page : Page} (horigin : page.origin = s.page.origin)
    (hslot : ∀ n e, Open s n e → e.request.endpoint = .refresh →
      page.refreshInFlight = s.page.refreshInFlight) : Inv H { s with page := page } := by
  have hopen : ∀ n e, Open { s with page := page } n e → Open s n e :=
    fun n e h => ⟨h.entry, h.state⟩
  refine hi.reshape rfl rfl horigin ?_ ?_ (fun _ h => .inl h) ?_
  · intro n e ho
    exact ⟨e, hopen n e ho, rfl, rfl, fun h => h, fun r => hi.answer n e r (hopen n e ho)⟩
  · intro n e ho hr t ht
    exact (hslot n e (hopen n e ho) hr).trans ht
  · intro c _ _ n e ho hr hm
    exact ⟨n, e, ⟨ho.entry, ho.state⟩, hr, hm⟩

end Inv

end NoOverlap.Browser
