import NoOverlap.Browser.Threads

/-!
# The handlers and the other users of the service

A statement of the service that belongs to somebody else leaves the tokens of this browser
alone.  A handler of this browser stores at most one token: a login begins a family, and a
refresh replaces the token it was given.
-/

namespace NoOverlap.Browser

open Relational Concurrency RelyGuarantee
open Identity (RefreshToken AccessToken IssuedRefresh AuthService.Session TokenData TokenService.data)

/-- The statements of the service, issued for request `q`. -/
def served (H : String → String) (q : Option Nat) :
    RelyGuarantee Store Call Identity.Statement.Resp Err Identity.Reply :=
  { Step := fun a s o r s' => (browsing H).Step a s (.auth q o) r s'
    Inv := Inv H
    Rely := Rely
    Guar := fun a s o r s' => (browsing H).Guar a s (.auth q o) r s'
    Post := fun _ _ _ => True
    Fresh := fun _ _ => True
    Lost := fun _ _ => True }

section Service

variable {H : String → String} {q : Option Nat} {a : Agent} {s s' : Store} {t n : Nat} {c : Choice}

theorem safe_serviceCall {γ : Type} {Q : Except Err γ → Store → Prop} {p : Identity.Async γ}
    (h : (served H q).Safe a Q p s) : (browsing H).Safe a Q (serviceCall q p) s := by
  induction p generalizing s with
  | done r => exact h
  | call o k ih =>
    intro s₁ hr hi r s₂ hx
    obtain ⟨hi₂, hg, hk⟩ := h s₁ hr hi r s₂ hx
    exact ⟨hi₂, hg, ih r hk⟩

/-- The state after a statement of the service. -/
def Store.adopt (s : Store) (c : Choice) (srv : Identity.Store) (o : Identity.Statement)
    (r : Except Err o.Resp) : Option Nat → Store
  | none => { s with server := srv }
  | some n => Store.mark { s with server := srv } c n o r

/-- A statement of the service did nothing, or it took place. -/
theorem auth_of_exec {o : Identity.Statement} {r : Except Err o.Resp}
    (hx : (Statement.auth q o).exec t c s = some (r, s')) :
    (s' = s ∧ ∃ e, c.fault = .before e ∧ r = .error e) ∨
      ∃ r₀ srv, o.perform t c.toChoice s.server = some (r₀, srv) ∧
        (r = r₀ ∨ ∃ e, c.fault = .after e ∧ r = .error e) ∧ s' = s.adopt c srv o r₀ q := by
  have hperform : ∀ x, (Statement.auth q o).perform t c s = some x →
      ∃ srv, o.perform t c.toChoice s.server = some (x.1, srv) ∧ x.2 = s.adopt c srv o x.1 q := by
    intro x hp
    cases q with
    | none =>
      obtain ⟨y, hy, rfl⟩ := Option.map_eq_some_iff.mp hp
      exact ⟨y.2, hy, rfl⟩
    | some n =>
      obtain ⟨y, hy, rfl⟩ := Option.map_eq_some_iff.mp hp
      exact ⟨y.2, hy, rfl⟩
  unfold Statement.exec at hx
  split at hx
  · next e hf _ =>
    cases hx
    exact .inl ⟨rfl, e, hf, rfl⟩
  · next e hf _ =>
    obtain ⟨x, hp, he⟩ := Option.map_eq_some_iff.mp hx
    cases he
    obtain ⟨srv, hp, hs⟩ := hperform x hp
    exact .inr ⟨x.1, srv, hp, .inr ⟨e, hf, rfl⟩, hs⟩
  · obtain ⟨srv, hp, hs⟩ := hperform (r, s') hx
    exact .inr ⟨r, srv, hp, .inl rfl, hs⟩

/-! ## Somebody else -/

/-- A statement that leaves the tokens of this browser alone. -/
def Store.Foreign (s : Store) : Identity.Statement → Prop
  | .tokenRotate id _ _ => ∃ f, s.server.Belongs id f ∧ f ∉ s.families
  | .tokenRevokeFamily f _ => f ∉ s.families
  | _ => True

/-- A token of this browser stays as it is when rows of others are revoked. -/
theorem Store.Fresh.revoke {h : String} {hit : RefreshToken → Bool} {now : Int}
    {srv : Identity.Store}
    (hf : s.Fresh h)
    (hs : srv.tokens = s.server.tokens.update hit (Identity.Store.revoke · now)
      (Identity.Store.key_revoke now))
    (hne : ∀ r ∈ s.server.tokens.rows, r.familyId ∈ s.families → r.tokenHash = h → hit r = false) :
    Store.Fresh { s with server := srv } h := by
  obtain ⟨r, hr, hh, hn, hfam⟩ := hf
  refine ⟨r, ?_, hh, hn, hfam⟩
  show r ∈ srv.tokens.rows
  rw [hs, Table.mem_update]
  exact ⟨r, hr, by rw [hne r hr hfam hh]; rfl⟩

theorem Store.Fresh.insertToken {h : String} {id f : Id} {data : TokenData} (hf : s.Fresh h)
    (hid : s.server.tokens.find? id = none) :
    Store.Fresh { s with server := s.server.insertToken id f data } h := by
  obtain ⟨r, hr, hh, hn, hfam⟩ := hf
  exact ⟨r, (Identity.Store.mem_insertToken hid).mpr (.inl hr), hh, hn, hfam⟩

/-- A row that is found under the id of a token of another family is that token. -/
theorem ne_of_belongs {id f : Id} {srv : Identity.Store} {fs : List Id} (hb : srv.Belongs id f)
    (hf : f ∉ fs) {r : RefreshToken} (hr : r ∈ srv.tokens.rows) (hfam : r.familyId ∈ fs) :
    r.id ≠ id := by
  rintro rfl
  obtain ⟨r', hr', rfl⟩ := hb
  have heq : r' = r := Option.some.inj (hr'.symm.trans (Table.find?_of_mem hr))
  exact hf (heq ▸ hfam)

theorem fresh_of_foreign {o : Identity.Statement} {srv : Identity.Store}
    (heff : s.server.Effect t o srv) (hf : s.Foreign o) {h : String} (hh : s.Fresh h) :
    Store.Fresh { s with server := srv } h := by
  cases heff with
  | unchanged => exact hh
  | created data id f hid _ _ => exact hh.insertToken hid
  | rotated id now data new f r hr hid _ _ =>
    obtain ⟨f₀, hb, hf₀⟩ := hf
    have hrevoke : Store.Fresh { s with server := s.server.revokeToken id now } h := by
      refine hh.revoke rfl fun r hr hfam _ => ?_
      exact beq_eq_false_iff_ne.mpr (ne_of_belongs hb hf₀ hr hfam)
    exact hrevoke.insertToken (Identity.Store.find?_revokeToken_eq_none.mpr hid)
  | revoked f now =>
    refine hh.revoke rfl fun r hr hfam _ => ?_
    have hne : r.familyId ≠ f := by
      rintro rfl
      exact hf hfam
    simp [hne]

theorem step_foreign {o : Identity.Statement} {r : Except Err o.Resp} (hi : Inv H s)
    (hf : s.Foreign o) (hx : (served H none).Step a s o r s') :
    Inv H s' ∧ (served H none).Guar a s o r s' ∧ s.server.Grows s'.server ∧
      s'.families = s.families := by
  obtain ⟨ch, -, hx⟩ := hx
  rcases auth_of_exec hx with ⟨rfl, -⟩ | ⟨r₀, srv, hp, -, rfl⟩
  · exact ⟨hi, ⟨fun u _ => Rely.refl u s', trivial⟩, Identity.Store.Grows.refl _, rfl⟩
  · have heff := Identity.Store.effect_of_perform hp
    exact ⟨hi.of_server heff.grows (hi.hashes.effect heff) fun h hh => fresh_of_foreign heff hf hh,
      ⟨fun u _ => Rely.of_server heff.grows, trivial⟩, heff.grows, rfl⟩

/-- The statements a call makes about the token it has found. -/
def Touches (presented : RefreshToken) : Identity.Statement → Prop
  | .tokenRotate id _ _ => id = presented.id
  | .tokenRevokeFamily f _ => f = presented.familyId
  | _ => True

/-- The statements that touch no token that exists. -/
def Plain : Identity.Statement → Prop
  | .tokenRotate _ _ _ | .tokenRevokeFamily _ _ => False
  | _ => True

theorem Plain.touches {o : Identity.Statement} (h : Plain o) (presented : RefreshToken) :
    Touches presented o := by
  cases o with
  | tokenRotate => cases h
  | tokenRevokeFamily => cases h
  | _ => trivial

section Footprints

open Prog Identity

variable {cfg : Identity.Config}

theorem uses_mint : (TokenService.mint cfg).Uses Plain :=
  Uses.bind (uses_op trivial) fun _ => Uses.bind (uses_op trivial) fun _ => uses_pure _

theorem uses_login (dto : LoginDto) : (AuthService.login cfg dto).Uses Plain := by
  refine Uses.bind (uses_op trivial) fun user => ?_
  cases user with
  | none => trivial
  | some user =>
    refine uses_ite (fun _ => uses_throw _) fun _ => ?_
    refine Uses.bind (uses_op trivial) fun _ => Uses.bind ?_ fun _ => uses_pure _
    exact Uses.bind uses_mint fun _ => Uses.bind (uses_op trivial) fun _ => uses_pure _

theorem uses_revokeFamily (presented : RefreshToken) :
    (AuthService.revokeFamily presented.familyId).Uses (Touches presented) :=
  Uses.bind (uses_op trivial) fun _ => Uses.bind (uses_op rfl) fun _ => uses_pure _

theorem uses_refreshPresented (presented : RefreshToken) :
    (AuthService.refreshPresented cfg presented).Uses (Touches presented) := by
  refine Uses.bind (uses_op trivial) fun now => uses_ite (fun _ => uses_throw _) fun _ => ?_
  refine Uses.bind (uses_op trivial) fun user => ?_
  cases user with
  | none => trivial
  | some user =>
    refine Uses.bind ?_ fun _ => Uses.bind (uses_op trivial) fun _ => uses_pure _
    refine Uses.bind (uses_op trivial) fun _ => Uses.bind ?_ fun _ =>
      Uses.bind (uses_op rfl) fun _ => uses_pure _
    exact uses_mint.mono fun o ho => ho.touches presented

end Footprints

/-- Somebody else at work on a token of their own. -/
theorem safe_touching {γ : Type} {presented : RefreshToken} {p : Identity.Async γ}
    (hp : p.Uses (Touches presented)) (hb : s.server.Belongs presented.id presented.familyId)
    (hf : presented.familyId ∉ s.families) :
    (served H none).Safe a (fun _ _ => True) p s := by
  let K : Store → Prop := fun s =>
    s.server.Belongs presented.id presented.familyId ∧ presented.familyId ∉ s.families
  refine (Safe.of_uses (A := Touches presented) (K := K) ?_ ?_ hp ⟨hb, hf⟩).imp fun _ _ _ => trivial
  · intro s s' hr hk
    exact ⟨hk.1.grows hr.server, hr.families _ ⟨_, hk.1⟩ hk.2⟩
  · intro s o r s' ho hi hk hx
    have hforeign : s.Foreign o := by
      cases o with
      | tokenRotate id now data => exact ⟨presented.familyId, ho ▸ hk.1, hk.2⟩
      | tokenRevokeFamily f now => exact fun h => hk.2 (ho ▸ h)
      | _ => trivial
    obtain ⟨hi', hg, hgrows, hfam⟩ := step_foreign hi hforeign hx
    exact ⟨hi', hg, hk.1.grows hgrows, by rw [hfam]; exact hk.2⟩

theorem safe_plain {γ : Type} {p : Identity.Async γ} (hp : p.Uses Plain) :
    (served H none).Safe a (fun _ _ => True) p s := by
  refine Safe.of_uses (A := Plain) (K := fun _ => True) (fun _ _ _ _ => trivial) ?_ hp trivial
  intro s o r s' ho hi _ hx
  have hforeign : s.Foreign o := by
    cases o with
    | tokenRotate => cases ho
    | tokenRevokeFamily => cases ho
    | _ => trivial
  obtain ⟨hi', hg, -⟩ := step_foreign hi hforeign hx
  exact ⟨hi', hg, trivial⟩

/-- Somebody else looks up a token, which is none of this browser's. -/
theorem safe_lookup {γ : Type} {hash : String} {f : Option RefreshToken → Identity.Async γ}
    (hnone : (f none).Uses Plain) (hsome : ∀ r, (f (some r)).Uses (Touches r)) :
    (served H none).Safe a (fun _ _ => True) (Identity.await (.tokenFindUnique hash) >>= f) s := by
  refine Safe.op_bind fun s₁ _ hi r s₂ hx => ?_
  obtain ⟨hi', hg, -, -⟩ := step_foreign (o := .tokenFindUnique hash) hi trivial hx
  refine ⟨hi', hg, ?_⟩
  cases r with
  | error e => trivial
  | ok found =>
    cases found with
    | none => exact safe_plain hnone
    | some presented =>
      obtain ⟨ch, hop, hx⟩ := hx
      rcases auth_of_exec hx with ⟨-, e, -, he⟩ | ⟨r₀, srv, hp, hr, rfl⟩
      · cases he
      · cases hp
        rcases hr with hr | ⟨e, -, he⟩
        · have hfound : s₁.server.findByHash hash = some presented := (Except.ok.inj hr).symm
          have hforeign : presented.familyId ∉ s₁.families := by
            simp only [keepsSession, honest, hfound, Bool.and_true, Option.all_some,
              Bool.not_eq_true', List.contains_eq_mem, decide_eq_false_iff_not] at hop
            exact hop
          refine safe_touching (hsome presented) ?_ hforeign
          exact ⟨presented, Table.find?_of_mem (List.mem_of_find?_eq_some hfound), rfl⟩
        · cases he

theorem safe_other {cfg : Identity.Config} (c : Identity.Call) :
    (served H none).Safe a (fun _ _ => True) (c.program cfg) s := by
  cases c with
  | login dto => exact Safe.seq (safe_plain (uses_login dto)) fun _ _ _ => trivial
  | refresh raw =>
    refine Safe.seq (K := fun _ => True) ?_ fun _ _ _ => trivial
    cases raw with
    | none => trivial
    | some raw =>
      simp only [Identity.AuthService.refresh]
      split
      · trivial
      · refine safe_lookup (Prog.uses_throw _) fun presented => ?_
        refine Prog.uses_ite (fun _ => ?_) fun _ => uses_refreshPresented presented
        exact Prog.Uses.bind (uses_revokeFamily presented) fun _ => Prog.uses_throw _
  | logout raw =>
    refine Safe.seq (K := fun _ => True) ?_ fun _ _ _ => trivial
    cases raw with
    | none => trivial
    | some raw =>
      simp only [Identity.AuthService.logout]
      split
      · trivial
      · exact safe_lookup (Prog.uses_pure _) uses_revokeFamily

/-! ## The handlers of this browser -/

/-- Thread `t` serves request `n`, and `m` is the hash of the token it has stored. -/
def Serves (n t : Nat) (req : Request) (m : Option String) (s : Store) : Prop :=
  s.net[n]? = some ⟨req, .serving t, m⟩

/-- What is more, it has an answer that says what it has done. -/
def Ready (H : String → String) (n t : Nat) (req : Request) (res : Response) (s : Store) : Prop :=
  ∃ m, Serves n t req m s ∧ Entry.Answer H ⟨req, .serving t, m⟩ res

variable {req : Request} {m : Option String}

theorem Serves.isOpen (h : Serves n t req m s) : Open s n ⟨req, .serving t, m⟩ := ⟨h, by simp⟩

theorem Serves.stable (h : Serves n t req m s) (hr : Rely t s s') : Serves n t req m s' :=
  hr.serving n _ h rfl

theorem Serves.problem (h : Serves n t req m s) (hm : req.endpoint = .refresh → m = none)
    (e : Err) :
    Ready H n t req (AuthController.problem e) s :=
  ⟨m, h, fun c hc => by (cases hc), fun hr _ => hm hr⟩

theorem Serves.session {issued : IssuedRefresh} (h : Serves n t req (some (H issued.token)) s)
    (token : AccessToken) : Ready H n t req (AuthController.session ⟨token, issued⟩) s := by
  refine ⟨_, h, fun c hc => .inr ⟨issued, ?_, rfl⟩, fun _ hc => by cases hc⟩
  exact (Option.some.inj hc).symm

/-- The response that a route ends with. -/
def answerOf : Except Err Response → Response
  | .ok r => r
  | .error e => AuthController.problem e

/-- The statements that only read, lookups apart. -/
def Reads : Identity.Statement → Prop
  | .userFindByEmail _ | .userFindById _ | .signAccessToken _ _ | .randomBytes | .newDate => True
  | _ => False

theorem eq_of_step {o : Identity.Statement} {r : Except Err o.Resp}
    (ho : Reads o ∨ ∃ hash, o = .tokenFindUnique hash)
    (hx : (served H (some n)).Step a s o r s') : s' = s := by
  obtain ⟨ch, -, hx⟩ := hx
  rcases auth_of_exec hx with ⟨rfl, -⟩ | ⟨r₀, srv, hp, -, rfl⟩
  · rfl
  · rcases ho with ho | ⟨hash, rfl⟩
    · cases o with
      | tokenFindUnique => cases ho
      | tokenRevokeFamily => cases ho
      | tokenCreate => cases ho
      | tokenRotate => cases ho
      | _ => cases hp; rfl
    · cases hp
      rfl

theorem Reads.clean {o : Identity.Statement} (ho : Reads o) : s.Clean (.auth (some n) o) := by
  cases o with
  | tokenFindUnique => cases ho
  | tokenRevokeFamily => cases ho
  | _ => trivial

theorem safe_read {γ : Type} {Q : Except Err γ → Store → Prop} {o : Identity.Statement}
    {f : o.Resp → Identity.Async γ} (ho : Reads o)
    (h : ∀ s₁, Rely a.tid s s₁ → ∀ r, (served H (some n)).Step a s₁ o r s₁ →
      (served H (some n)).Cont a Q f r s₁) :
    (served H (some n)).Safe a Q (Identity.await o >>= f) s := by
  refine Safe.op_bind fun s₁ hr hi r s₂ hx => ?_
  obtain rfl := eq_of_step (.inl ho) hx
  exact ⟨hi, ⟨fun u _ => Rely.refl u s₂, ho.clean⟩, h s₂ hr r hx⟩

theorem safe_mint {cfg : Identity.Config} {K : Store → Prop}
    (hK : ∀ s s', Rely a.tid s s' → K s → K s') (hk : K s) :
    (served H (some n)).Safe a (fun _ => K) (Identity.TokenService.mint cfg) s := by
  refine safe_read (o := .randomBytes) trivial fun s₁ hr₁ r _ => ?_
  have hk₁ := hK _ _ hr₁ hk
  cases r with
  | error e => exact hk₁
  | ok token =>
    refine safe_read (o := .newDate) trivial fun s₂ hr₂ r _ => ?_
    have hk₂ := hK _ _ hr₂ hk₁
    cases r with
    | error e => exact hk₂
    | ok now => exact hk₂

/-- What others see of a handler that stores a token. -/
theorem rely_of_mint {srv : Identity.Store} {fs : List Id} {h : String} {u : Nat}
    (hs : Serves n t req none s) (hg : s.server.Grows srv) (hu : u ≠ t)
    (hfs : ∀ f, (∃ id, s.server.Belongs id f) → f ∉ s.families → f ∉ fs) :
    Rely u s { { s with server := srv }.setEntry n fun e => { e with minted := some h } with
      families := fs } := by
  have hmodify : Rely u s (s.setEntry n fun e => { e with minted := some h }) := by
    refine Rely.of_modify rfl rfl rfl rfl (fun _ => rfl) (fun _ _ h => h) fun e he hst => ?_
    rw [hs] at he
    cases he
    cases hst
    exact hu rfl
  exact ⟨hg, rfl, hmodify.net, hmodify.serving, Nat.le_refl _, fun _ h _ _ => h, hfs⟩

variable {cfg : Identity.Config}

/-- The insert of a login. -/
theorem step_create {userId : Id} {issued : IssuedRefresh} {r : Except Err Unit} (hi : Inv H s)
    (hH : H = cfg.hashToken) (hlogin : req.endpoint.isLogin = true) (hs : Serves n a.tid req none s)
    (hx : (served H (some n)).Step a s
      (.tokenCreate (TokenService.data cfg userId none issued)) r s') :
    Inv H s' ∧ (∀ u, u ≠ a.tid → Rely u s s') ∧ (∃ m, Serves n a.tid req m s') ∧
      (r = .ok () → Serves n a.tid req (some (H issued.token)) s') := by
  subst hH
  obtain ⟨ch, -, hx⟩ := hx
  rcases auth_of_exec hx with ⟨rfl, e, -, rfl⟩ | ⟨r₀, srv, hp, hr, rfl⟩
  · exact ⟨hi, fun u _ => Rely.refl u s', ⟨_, hs⟩, fun h => by cases h⟩
  · cases r₀ with
    | error e =>
      obtain rfl := Identity.Store.tokenCreate_eq_error hp
      refine ⟨hi, fun u _ => Rely.refl u s, ⟨_, hs⟩, fun h => ?_⟩
      rcases hr with rfl | ⟨e, -, rfl⟩ <;> cases h
    | ok u =>
      have hgrows := (Identity.Store.effect_of_perform hp).grows
      have hunique := hi.hashes.effect (Identity.Store.effect_of_perform hp)
      obtain ⟨rfl, hid, hfresh, hhash⟩ := Identity.Store.tokenCreate_begins rfl hp
      let data : TokenData := TokenService.data cfg userId none issued
      let row : RefreshToken := data.row ch.id ch.familyId
      have hrow : row ∈ (s.server.insertToken ch.id ch.familyId data).tokens.rows :=
        (Identity.Store.mem_insertToken hid).mpr (.inr rfl)
      have hserves : Serves n a.tid req (some (cfg.hashToken issued.token))
          (s.adopt ch (s.server.insertToken ch.id ch.familyId data)
            (.tokenCreate data) (.ok ()) (some n)) := by
        show (s.net.modify n fun e => { e with minted := some data.tokenHash })[n]? = _
        rw [List.getElem?_modify_eq, hs]
        rfl
      refine ⟨?_, fun u hu => rely_of_mint hs hgrows hu ?_, ⟨_, hserves⟩, fun _ => hserves⟩
      · refine hi.mint hs rfl hgrows hunique ?_ rfl rfl rfl (.inl hlogin) ?_ ?_ ?_
        · intro f hf
          rcases List.mem_append.mp hf with hf | hf
          · obtain ⟨id, hb⟩ := hi.families f hf
            exact ⟨id, hb.grows hgrows⟩
          · obtain rfl := List.mem_singleton.mp hf
            exact ⟨ch.id, row, Table.find?_of_mem hrow, rfl⟩
        · rintro ⟨r, hr, hh⟩
          exact List.find?_eq_none.mp hhash r hr (beq_iff_eq.mpr hh)
        · exact ⟨row, hrow, rfl, rfl, List.mem_append_right _ (List.mem_singleton_self _)⟩
        · intro h hf
          obtain ⟨r, hr, hh, hn, hfam⟩ := hf
          exact .inl ⟨r, (Identity.Store.mem_insertToken hid).mpr (.inl hr), hh, hn,
            List.mem_append_left _ hfam⟩
      · rintro f ⟨id, r, hfind, rfl⟩ hf hmem
        rcases List.mem_append.mp hmem with hmem | hmem
        · exact hf hmem
        · -- The family is one that has no token yet.
          have hne := List.all_eq_true.mp hfresh r (Table.mem_of_find? hfind)
          have heq : r.familyId = ch.familyId := List.mem_singleton.mp hmem
          simp [heq] at hne

/-- The token `raw` has been found, and it is the one of this row. -/
def Names (H : String → String) (presented : RefreshToken) (raw : String) (s : Store) : Prop :=
  ∃ r, s.server.tokens.find? presented.id = some r ∧ r.tokenHash = H raw ∧
    r.familyId = presented.familyId

theorem Names.grows {presented : RefreshToken} {raw : String} (h : Names H presented raw s)
    (hg : s.server.Grows s'.server) : Names H presented raw s' := by
  obtain ⟨r, hr, hh, hf⟩ := h
  obtain ⟨r', hr', hl⟩ := hg.tokens _ r hr
  exact ⟨r', hr', hl.tokenHash.trans hh, hl.familyId.trans hf⟩

/-- A hash that is good is that of the row found under it. -/
theorem eq_of_fresh (hi : Inv H s) {h : String} (hf : s.Fresh h) {r : RefreshToken}
    (hr : r ∈ s.server.tokens.rows) (hh : r.tokenHash = h) :
    r.revokedAt = none ∧ r.familyId ∈ s.families := by
  obtain ⟨r₀, hr₀, hh₀, hn, hfam⟩ := hf
  have hkey : key r = key r₀ := hi.hashes r hr r₀ hr₀ (hh.trans hh₀.symm)
  obtain rfl := Table.eq_of_key_eq hr hr₀ hkey
  exact ⟨hn, hfam⟩

/-- The rotation of a refresh. -/
theorem step_rotate {presented : RefreshToken} {userId : Id} {raw : String} {now : Int}
    {issued : IssuedRefresh} {r : Except Err Unit} (hi : Inv H s) (hH : H = cfg.hashToken)
    (hreq : req.endpoint = .refresh) (htoken : req.token = some raw)
    (hs : Serves n a.tid req none s) (hnames : Names H presented raw s)
    (hx : (served H (some n)).Step a s (.tokenRotate presented.id now
      (TokenService.data cfg userId (some presented.familyId) issued)) r s') :
    Inv H s' ∧ (∀ u, u ≠ a.tid → Rely u s s') ∧ match r with
      | .ok _ => Serves n a.tid req (some (H issued.token)) s'
      | .error _ => Serves n a.tid req none s' := by
  subst hH
  obtain ⟨ch, hop, hx⟩ := hx
  rcases auth_of_exec hx with ⟨rfl, e, -, rfl⟩ | ⟨r₀, srv, hp, hr, rfl⟩
  · exact ⟨hi, fun u _ => Rely.refl u s', hs⟩
  · have hr : r = r₀ := by
      rcases hr with hr | ⟨e, hf, -⟩
      · exact hr
      · simp [keepsSession, hf] at hop
    subst hr
    cases r with
    | error e =>
      obtain rfl := Identity.Store.tokenRotate_eq_error hp
      exact ⟨hi, fun u _ => Rely.refl u s, hs⟩
    | ok u =>
      have hgrows := (Identity.Store.effect_of_perform hp).grows
      have hunique := hi.hashes.effect (Identity.Store.effect_of_perform hp)
      obtain ⟨f, row₀, rfl, hrow₀, hid, hf, hhash⟩ := Identity.Store.tokenRotate_eq_ok hp
      have hf : presented.familyId = f := by
        rcases hf with hf | ⟨hf, -⟩
        · exact Option.some.inj hf
        · cases hf
      subst hf
      obtain ⟨row₁, hrow₁, htokenHash, hfamilyId⟩ := hnames
      obtain rfl : row₀ = row₁ := Option.some.inj (hrow₀.symm.trans hrow₁)
      have hmem₀ := Table.mem_of_find? hrow₀
      have hid₀ : row₀.id = presented.id := Table.key_of_find? hrow₀
      have hgood := (hi.token n _ raw hs.isOpen hreq htoken).2 rfl
      have hfam : presented.familyId ∈ s.families :=
        hfamilyId ▸ (eq_of_fresh hi hgood hmem₀ htokenHash).2
      let data : TokenData := TokenService.data cfg userId (some presented.familyId) issued
      let row : RefreshToken := data.row ch.id presented.familyId
      have hid' : (s.server.revokeToken presented.id now).tokens.find? ch.id = none :=
        Identity.Store.find?_revokeToken_eq_none.mpr hid
      have hrow : row ∈ ((s.server.revokeToken presented.id now).insertToken ch.id
          presented.familyId data).tokens.rows := (Identity.Store.mem_insertToken hid').mpr (.inr rfl)
      refine ⟨?_, fun u hu => rely_of_mint hs hgrows hu fun _ _ h => h, ?_⟩
      · refine hi.mint hs rfl hgrows hunique ?_ rfl rfl rfl (.inr ⟨hreq, raw, htoken⟩) ?_ ?_ ?_
        · intro g hg
          obtain ⟨id, hb⟩ := hi.families g hg
          exact ⟨id, hb.grows hgrows⟩
        · rintro ⟨r, hr, hh⟩
          exact List.find?_eq_none.mp hhash r hr (beq_iff_eq.mpr hh)
        · exact ⟨row, hrow, rfl, rfl, hfam⟩
        · intro h hh
          by_cases heq : h = cfg.hashToken raw
          · exact .inr ⟨hreq, raw, htoken, heq⟩
          · have hrevoke : Store.Fresh { s with
                server := s.server.revokeToken presented.id now } h := by
              refine hh.revoke rfl fun r hr _ hrh => beq_eq_false_iff_ne.mpr fun hrid => heq ?_
              obtain rfl := Table.eq_of_key_eq hr hmem₀ (hrid.trans hid₀.symm)
              exact hrh.symm.trans htokenHash
            exact .inl (hrevoke.insertToken hid')
      · show (s.net.modify n fun e => { e with minted := some data.tokenHash })[n]? = _
        rw [List.getElem?_modify_eq, hs]
        rfl

theorem serve_login {dto : Identity.LoginDto} (hreq : req.endpoint = .login dto)
    (hs : Serves n a.tid req none s) :
    (served cfg.hashToken (some n)).Safe a
      (fun r s' => Ready cfg.hashToken n a.tid req (answerOf (r.map AuthController.session)) s')
      (Identity.AuthService.login cfg dto) s := by
  have hK : ∀ s s', Rely a.tid s s' → Serves n a.tid req none s → Serves n a.tid req none s' :=
    fun _ _ hr h => h.stable hr
  have hproblem : ∀ {m s'} e, Serves n a.tid req m s' →
      Ready cfg.hashToken n a.tid req (AuthController.problem e) s' := by
    intro m s' e h
    refine h.problem (fun hr => ?_) e
    rw [hreq] at hr
    cases hr
  refine safe_read (o := .userFindByEmail dto.email) trivial fun s₁ hr₁ r _ => ?_
  have hs₁ := hK _ _ hr₁ hs
  cases r with
  | error e => exact hproblem e hs₁
  | ok user =>
    cases user with
    | none => exact hproblem _ hs₁
    | some user =>
      simp only [cont_ok]
      split
      · exact hproblem _ hs₁
      · refine safe_read (o := .signAccessToken _ _) trivial fun s₂ hr₂ r _ => ?_
        have hs₂ := hK _ _ hr₂ hs₁
        cases r with
        | error e => exact hproblem e hs₂
        | ok token =>
          refine Safe.bind (Safe.bind ((safe_mint hK hs₂).imp fun r s₃ hs₃ => ?_))
          cases r with
          | error e => exact hproblem e hs₃
          | ok issued =>
            refine Safe.op_bind fun s₄ hr₄ hi r s₅ hx => ?_
            have hlogin : req.endpoint.isLogin = true := by rw [hreq]; rfl
            obtain ⟨hi', hrely, ⟨m, hm⟩, hok⟩ := step_create hi rfl hlogin (hK _ _ hr₄ hs₃) hx
            refine ⟨hi', ⟨hrely, trivial⟩, ?_⟩
            cases r with
            | error e => exact hproblem e hm
            | ok u => exact (hok rfl).session token

/-- Nothing fails once the successor is stored. -/
theorem ok_of_sign {payload : Identity.AccessTokenPayload} {ttl : Int}
    {r : Except Err AccessToken} {h : String} (hs : Serves n a.tid req (some h) s)
    (hx : (served H (some n)).Step a s (.signAccessToken payload ttl) r s) : ∃ token, r = .ok token := by
  obtain ⟨ch, hop, hx⟩ := hx
  have hminted : s.hasMinted n = true := by
    rw [Store.hasMinted, hs]
    rfl
  have hfault : ch.fault = .none := by
    simp only [keepsSession, hminted, Bool.not_true, Bool.false_or, Bool.and_eq_true, beq_iff_eq] at hop
    exact hop.2
  rcases auth_of_exec hx with ⟨-, e, hf, -⟩ | ⟨r₀, srv, hp, hr, -⟩
  · rw [hfault] at hf
    cases hf
  · rcases hr with rfl | ⟨e, hf, -⟩
    · cases hp
      exact ⟨_, rfl⟩
    · rw [hfault] at hf
      cases hf

theorem serve_presented {presented : RefreshToken} {raw : String} (hreq : req.endpoint = .refresh)
    (htoken : req.token = some raw) (hs : Serves n a.tid req none s)
    (hnames : Names cfg.hashToken presented raw s) :
    (served cfg.hashToken (some n)).Safe a
      (fun r s' => Ready cfg.hashToken n a.tid req (answerOf (r.map AuthController.session)) s')
      (Identity.AuthService.refreshPresented cfg presented) s := by
  let K : Store → Prop := fun s =>
    Serves n a.tid req none s ∧ Names cfg.hashToken presented raw s
  have hK : ∀ s s', Rely a.tid s s' → K s → K s' :=
    fun _ _ hr h => ⟨h.1.stable hr, h.2.grows hr.server⟩
  have hproblem : ∀ {s'} e, Serves n a.tid req none s' →
      Ready cfg.hashToken n a.tid req (AuthController.problem e) s' :=
    fun e h => h.problem (fun _ => rfl) e
  refine safe_read (o := .newDate) trivial fun s₁ hr₁ r _ => ?_
  have hk₁ := hK _ _ hr₁ ⟨hs, hnames⟩
  cases r with
  | error e => exact hproblem e hk₁.1
  | ok now =>
    simp only [cont_ok]
    split
    · exact hproblem _ hk₁.1
    · refine safe_read (o := .userFindById presented.userId) trivial fun s₂ hr₂ r _ => ?_
      have hk₂ := hK _ _ hr₂ hk₁
      cases r with
      | error e => exact hproblem e hk₂.1
      | ok user =>
        cases user with
        | none => exact hproblem _ hk₂.1
        | some user =>
          refine Safe.bind (safe_read (o := .newDate) trivial fun s₃ hr₃ r _ => ?_)
          have hk₃ := hK _ _ hr₃ hk₂
          cases r with
          | error e => exact hproblem e hk₃.1
          | ok revokedAt =>
            refine Safe.bind ((safe_mint hK hk₃).imp fun r s₄ hk₄ => ?_)
            cases r with
            | error e => exact hproblem e hk₄.1
            | ok issued =>
              refine Safe.op_bind fun s₅ hr₅ hi r s₆ hx => ?_
              have hk₅ := hK _ _ hr₅ hk₄
              obtain ⟨hi', hrely, hres⟩ := step_rotate hi rfl hreq htoken hk₅.1 hk₅.2 hx
              refine ⟨hi', ⟨hrely, trivial⟩, ?_⟩
              cases r with
              | error e => exact hproblem e hres
              | ok u =>
                refine safe_read (o := .signAccessToken _ _) trivial fun s₇ hr₇ r hx => ?_
                have hs₇ : Serves n a.tid req (some (cfg.hashToken issued.token)) s₇ :=
                  hres.stable hr₇
                obtain ⟨token, rfl⟩ := ok_of_sign hs₇ hx
                exact hs₇.session token

theorem serve_refresh (hreq : req.endpoint = .refresh) (hs : Serves n a.tid req none s) :
    (served cfg.hashToken (some n)).Safe a
      (fun r s' => Ready cfg.hashToken n a.tid req (answerOf (r.map AuthController.session)) s')
      (Identity.AuthService.refresh cfg req.token) s := by
  have hproblem : ∀ {s'} e, Serves n a.tid req none s' →
      Ready cfg.hashToken n a.tid req (AuthController.problem e) s' :=
    fun e h => h.problem (fun _ => rfl) e
  cases htoken : req.token with
  | none => exact hproblem _ hs
  | some raw =>
    simp only [Identity.AuthService.refresh]
    split
    · exact hproblem _ hs
    · refine Safe.op_bind fun s₁ hr₁ hi r s₂ hx => ?_
      have hs₁ := hs.stable hr₁
      have hgood := (hi.token n _ raw hs₁.isOpen hreq htoken).2 rfl
      have hclean :
          ∀ r, s₁.server.findByHash (cfg.hashToken raw) = some r → r.revokedAt = none := by
        intro r hr
        obtain ⟨hm, hh⟩ := (Identity.Store.findByHash_eq_some hi.hashes).mp hr
        exact (eq_of_fresh hi hgood hm hh).1
      obtain rfl := eq_of_step (.inr ⟨_, rfl⟩) hx
      refine ⟨hi, ⟨fun u _ => Rely.refl u s₂, hclean⟩, ?_⟩
      cases r with
      | error e => exact hproblem e hs₁
      | ok found =>
        cases found with
        | none => exact hproblem _ hs₁
        | some presented =>
          have hfound : s₂.server.findByHash (cfg.hashToken raw) = some presented := by
            obtain ⟨ch, -, hx⟩ := hx
            rcases auth_of_exec hx with ⟨-, e, -, he⟩ | ⟨r₀, srv, hp, hr, -⟩
            · cases he
            · cases hp
              rcases hr with hr | ⟨e, -, he⟩
              · exact (Except.ok.inj hr).symm
              · cases he
          have hopen : ¬ presented.revokedAt.isSome = true := by
            rw [hclean presented hfound]
            simp
          simp only [cont_ok, if_neg hopen]
          obtain ⟨hm, hh⟩ := (Identity.Store.findByHash_eq_some hi.hashes).mp hfound
          exact serve_presented hreq htoken hs₁ ⟨presented, Table.find?_of_mem hm, hh, rfl⟩

theorem safe_route (cfg : Identity.Config) (hs : Serves n a.tid req none s)
    (hlogout : req.endpoint = .logout → req.token = none) :
    (browsing cfg.hashToken).Safe a
      (fun r s' => Ready cfg.hashToken n a.tid req (answerOf r) s')
      (AuthController.route cfg n req) s := by
  unfold AuthController.route
  split
  · next dto hreq =>
    refine Safe.bind ((safe_serviceCall (serve_login hreq hs)).imp fun r s' h => ?_)
    cases r with
    | ok session => exact h
    | error e => exact h
  · next hreq =>
    refine Safe.bind ((safe_serviceCall (serve_refresh hreq hs)).imp fun r s' h => ?_)
    cases r with
    | ok session => exact h
    | error e => exact h
  · next hreq =>
    rw [hlogout hreq]
    refine ⟨none, hs, fun c hc => .inl ⟨(Option.some.inj hc).symm, hreq⟩, fun _ _ => rfl⟩
  · next path hreq =>
    refine Safe.op_bind fun s₁ hr₁ hi r s₂ hx => ?_
    obtain rfl : s₂ = s₁ := by
      obtain ⟨ch, -, hx⟩ := hx
      unfold Statement.exec at hx
      split at hx
      · cases hx
        rfl
      · cases hx
        rfl
      · cases hx
        rfl
    refine ⟨hi, ⟨fun u _ => Rely.refl u s₂, trivial⟩, ?_⟩
    have hs₁ := hs.stable hr₁
    cases r with
    | error e => exact hs₁.problem (fun _ => rfl) e
    | ok status => exact ⟨none, hs₁, fun c hc => by (cases hc), fun _ _ => rfl⟩

theorem safe_respond {res : Response} (h : Ready H n a.tid req res s) :
    (browsing H).Safe a (fun _ _ => True) (await (.respond n res)) s := by
  intro s₁ hr hi r s₂ hx
  obtain ⟨m, hs, hans⟩ := h
  have hs₁ := hs.stable hr
  obtain ⟨ch, -, hx⟩ := hx
  have hp := perform_of_exec rfl hx
  simp only [Statement.perform, show s₁.net[n]? = some ⟨req, .serving a.tid, m⟩ from hs₁, if_true] at hp
  cases hp
  refine ⟨hi.respond hs₁ rfl hans, ⟨fun u hu => ?_, trivial⟩, trivial⟩
  refine Rely.of_modify rfl rfl rfl rfl (fun _ => rfl) (fun d hd hdone => ?_) fun d hd hserving => ?_
  · rw [hs₁] at hd
    cases hd
    cases hdone
  · rw [hs₁] at hd
    cases hd
    cases hserving
    exact hu rfl

theorem safe_serve :
    (browsing cfg.hashToken).Safe a (fun _ _ => True) (AuthController.serve cfg n) s := by
  refine Safe.op_bind fun s₁ _ hi r s₂ hx => ?_
  obtain ⟨ch, -, hx⟩ := hx
  have hp := perform_of_exec rfl hx
  simp only [Statement.perform] at hp
  split at hp
  · next e he =>
    split at hp
    · next hst =>
      cases hp
      have hopen : Open s₁ n e := ⟨he, by rw [hst]; simp⟩
      have hminted := hi.sent n e hopen hst
      have hs₂ : Serves n a.tid e.request none (s₁.setEntry n fun e => { e with state := .serving a.tid }) := by
        show (s₁.net.modify n fun e => { e with state := .serving a.tid })[n]? = _
        rw [List.getElem?_modify_eq, he, ← hminted]
        rfl
      refine ⟨hi.accept he hst, ⟨fun u hu => ?_, trivial⟩, ?_⟩
      · refine Rely.of_modify rfl rfl rfl rfl (fun _ => rfl) (fun d hd hdone => ?_) fun d hd hserving => ?_
        · rw [he] at hd
          cases hd
          rw [hst] at hdone
          cases hdone
        · rw [he] at hd
          cases hd
          rw [hst] at hserving
          cases hserving
      · have hroute := safe_route cfg hs₂ fun hl => (hi.logout n e hopen hl).1
        refine Safe.bind (Safe.tryCatch (hroute.imp fun r s₃ hready => ?_))
        cases r with
        | ok res => exact safe_respond hready
        | error e => exact safe_respond hready
    · cases hp
  · cases hp

end Service

end NoOverlap.Browser
