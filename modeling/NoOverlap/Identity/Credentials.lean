import NoOverlap.Identity.Accounts

/-!
# From a password to a signature

An access token is signed for a login whose password the hash of the account verifies, or
for a refresh with a token whose family such a login began.  `credentials` follows that
chain statement by statement: what a statement of the identity module does to the accounts,
what each may be issued for, and why the programs issue no other.
-/

namespace NoOverlap.Identity

namespace Accounts

open Relational Concurrency RelyGuarantee

/-! ## What a statement does -/

/-- The row that an insert adds. -/
def UserData.user (data : UserData) (id : Id) : User :=
  { id := id, email := data.email, passwordHash := data.passwordHash, role := data.role }

/-- A user, without the hash, as it was inserted at `now`. -/
def UserResponseDto.of (user : User) (now : Int) : UserResponseDto :=
  { id := user.id, email := user.email, role := user.role, createdAt := now }

namespace Store

variable {s s' s'' : Store} {t : Nat} {c : Choice}

/-- Nothing is deleted, and no account changes. -/
structure Grows (s s' : Store) : Prop where
  users : s.users ⊆ s'.users
  tokens : Table.Extends RefreshToken.Later s.session.tokens s'.session.tokens
  registrations : s.registrations ⊆ s'.registrations
  families : s.families ⊆ s'.families
  signed : s.signed ⊆ s'.signed

theorem Grows.refl (s : Store) : s.Grows s :=
  ⟨fun _ h => h, Table.Extends.refl RefreshToken.Later.refl _, fun _ h => h, fun _ h => h,
    fun _ h => h⟩

theorem Grows.trans (h : s.Grows s') (h' : s'.Grows s'') : s.Grows s'' :=
  ⟨fun _ hx => h'.users (h.users hx),
    h.tokens.trans (fun _ _ _ => RefreshToken.Later.trans) h'.tokens,
    fun _ hx => h'.registrations (h.registrations hx), fun _ hx => h'.families (h.families hx),
    fun _ hx => h'.signed (h.signed hx)⟩

/-- A statement of a thread, what it reports and what it leaves. -/
inductive Effect (s : Store) (t : Nat) (c : Choice) :
    (o : Statement) → Except Err o.Resp → Store → Prop where
  | session (o : Identity.Statement) (r : Except Err o.Resp) (after : Identity.Store)
      (hx : o.exec t c.session s.session = some (r, after)) :
      Effect s t c (.session o) r (s.withSession t c.session o after)
  | read (o : Statement) (r : Except Err o.Resp) (h : o = .randomSalt) : Effect s t c o r s
  | refused (data : UserData) (e : Err)
      (h : isEmailTaken e = true → c.honest = true → ∃ u ∈ s.users, u.email = data.email) :
      Effect s t c (.userCreate data) (.error e) s
  | inserted (data : UserData) (id : Id) (now : Int) (r : Except Err UserResponseDto)
      (hid : s.session.users.find? id = none) (hfree : ∀ u ∈ s.users, u.email ≠ data.email)
      (hr : r = .ok (.of (data.user id) now) ∨
        ∃ e, r = .error e ∧ (c.honest = true → isEmailTaken e = false)) :
      Effect s t c (.userCreate data) r (s.insertUser t (data.user id))

theorem effect_of_userCreate {data : UserData} {id : Id} {now : Int}
    {r : Except Err UserResponseDto} (hx : s.userCreate t id now data = some (r, s')) :
    (s' = s ∧ r = .error (.known "P2002") ∧ ∃ u ∈ s.users, u.email = data.email) ∨
      s' = s.insertUser t (data.user id) ∧ r = .ok (.of (data.user id) now) ∧
        s.session.users.find? id = none ∧ ∀ u ∈ s.users, u.email ≠ data.email := by
  unfold userCreate at hx
  split_ifs at hx with htaken hid
  · cases hx
    obtain ⟨u, hu, he⟩ := List.any_eq_true.mp htaken
    exact .inl ⟨rfl, rfl, u, hu, beq_iff_eq.mp he⟩
  · cases hx
    have hid : s.session.users.find? id = none := by simpa using hid
    have hfree : ∀ u ∈ s.users, u.email ≠ data.email := by simpa using htaken
    exact .inr ⟨rfl, rfl, hid, hfree⟩

/-- A fault that is honest does not speak for the unique index. -/
theorem not_taken_of_honest {e : Err} (h : c.session.fault = .before e ∨ c.session.fault = .after e)
    (hc : c.honest = true) : isEmailTaken e = false := by
  unfold Choice.honest at hc
  rcases h with h | h <;> rw [h] at hc <;> simpa using hc

theorem effect_of_exec {o : Statement} {r : Except Err o.Resp} (hx : o.exec t c s = some (r, s')) :
    s.Effect t c o r s' := by
  cases o with
  | session o =>
    obtain ⟨⟨r', after⟩, hsession, he⟩ := Option.map_eq_some_iff.mp hx
    cases he
    exact .session o r' after hsession
  | randomSalt =>
    simp only [Statement.exec] at hx
    split at hx <;> cases hx <;> exact .read _ _ rfl
  | userCreate data =>
    simp only [Statement.exec] at hx
    split at hx
    · next hf =>
      rcases effect_of_userCreate hx with ⟨rfl, rfl, htaken⟩ | ⟨rfl, rfl, hid, hfree⟩
      · exact .refused data _ fun _ _ => htaken
      · exact .inserted data _ _ _ hid hfree (.inl rfl)
    · next e hf =>
      cases hx
      refine .refused data e fun he hc => ?_
      rw [not_taken_of_honest (.inl hf) hc] at he
      cases he
    · next e hf =>
      obtain ⟨⟨r', s₁⟩, hcreate, he⟩ := Option.map_eq_some_iff.mp hx
      cases he
      rcases effect_of_userCreate hcreate with ⟨rfl, -, htaken⟩ | ⟨rfl, -, hid, hfree⟩
      · exact .refused data e fun _ _ => htaken
      · exact .inserted data _ c.session.now _ hid hfree
          (.inr ⟨e, rfl, not_taken_of_honest (.inr hf)⟩)

theorem users_insertUser {user : User} (hid : s.session.users.find? user.id = none) :
    (s.insertUser t user).users = s.users ++ [user] := Table.insert_of_fresh hid

/-- The identity module leaves the accounts alone. -/
theorem users_withSession {o : Identity.Statement} {after : Identity.Store}
    {r : Except Err o.Resp} (hx : o.exec t c.session s.session = some (r, after)) :
    (s.withSession t c.session o after).users = s.users :=
  congrArg Table.rows (Identity.Store.effect_of_exec hx).grows.users

theorem Effect.grows {o : Statement} {r : Except Err o.Resp} (h : s.Effect t c o r s') :
    s.Grows s' := by
  cases h with
  | session o r after hx =>
    have hg := (Identity.Store.effect_of_exec hx).grows
    refine ⟨?_, hg.tokens, fun _ h => h, fun _ h => List.mem_append_left _ h,
      fun _ h => List.mem_append_left _ h⟩
    rw [users_withSession hx]
    exact fun _ h => h
  | read o r h => exact Grows.refl s
  | refused data e h => exact Grows.refl s
  | inserted data id now r hid hfree hr =>
    refine ⟨?_, Table.Extends.refl RefreshToken.Later.refl _, fun _ h => List.mem_append_left _ h,
      fun _ h => h, fun _ h => h⟩
    rw [users_insertUser hid]
    exact fun _ h => List.mem_append_left _ h

/-! ## Families -/

/-- A token after a statement of the sessions: it was there, or it has just been created or
rotated. -/
theorem token_cases {s s' : Identity.Store} {o : Identity.Statement} (h : s.Effect t o s')
    {r : RefreshToken} (hr : r ∈ s'.tokens.rows) :
    (∃ r₀ ∈ s.tokens.rows, r₀.Later r) ∨
      (∃ data id f, o = .tokenCreate data ∧ r = data.row id f ∧ s.tokens.find? id = none) ∨
      ∃ id now data new f, o = .tokenRotate id now data ∧ r = data.row new f ∧
        (data.familyId = some f ∨ data.familyId = none) := by
  cases h with
  | unchanged => exact .inl ⟨r, hr, RefreshToken.Later.refl r⟩
  | created data id f hid hf hh =>
    rcases (Identity.Store.mem_insertToken hid).mp hr with hold | rfl
    · exact .inl ⟨r, hold, RefreshToken.Later.refl r⟩
    · exact .inr (.inl ⟨data, id, f, rfl, rfl, hid⟩)
  | rotated id now data new f r₀ hr₀ hid hf hh =>
    have hid' : (s.revokeToken id now).tokens.find? new = none :=
      Identity.Store.find?_revokeToken_eq_none.mpr hid
    rcases (Identity.Store.mem_insertToken hid').mp hr with hold | rfl
    · obtain ⟨r₁, h₁, hlater, -⟩ := Identity.Store.mem_revoke hold
      exact .inl ⟨r₁, h₁, hlater⟩
    · exact .inr (.inr ⟨id, now, data, new, f, rfl, rfl, hf.imp_right (·.1)⟩)
  | revoked f now =>
    obtain ⟨r₁, h₁, hlater, -⟩ := Identity.Store.mem_revoke hr
    exact .inl ⟨r₁, h₁, hlater⟩

/-- What a statement of the sessions begins, a login's insert has begun. -/
theorem mem_begun {o : Identity.Statement} {after : Identity.Store}
    (h : s.session.Effect t o after) {f : Family} (hf : f ∈ s.begun t o after) :
    ∃ data, o = .tokenCreate data ∧ data.familyId = none ∧ f.tid = t ∧ f.userId = data.userId := by
  cases h with
  | created data id familyId hid hfam hh =>
    obtain ⟨userId, fam, tokenHash, expiresAt⟩ := data
    cases fam with
    | some fam => cases hf
    | none =>
      obtain ⟨r, hr, rfl⟩ := List.mem_map.mp hf
      obtain ⟨hr, hnew⟩ := Table.mem_added.mp hr
      rcases (Identity.Store.mem_insertToken hid).mp hr with hold | rfl
      · rw [Table.find?_of_mem hold] at hnew
        cases hnew
      · exact ⟨_, rfl, rfl, rfl, rfl⟩
  | unchanged o =>
    obtain ⟨data, rfl⟩ | hne : (∃ data, o = .tokenCreate data) ∨ ∀ data, o ≠ .tokenCreate data := by
      cases o <;> simp
    · obtain ⟨userId, fam, tokenHash, expiresAt⟩ := data
      cases fam with
      | some fam => cases hf
      | none =>
        rw [begun, Table.added_self] at hf
        cases hf
    · cases o with
      | tokenCreate data => exact (hne data rfl).elim
      | _ => cases hf
  | rotated => cases hf
  | revoked => cases hf

/-- The token that a login inserts is in the family it has begun. -/
theorem begun_of_created {data : TokenData} {id f : Id} {after : Identity.Store}
    (hnone : data.familyId = none) (hr : data.row id f ∈ after.tokens.rows)
    (hid : s.session.tokens.find? id = none) :
    ⟨t, data.userId, f⟩ ∈ s.begun t (.tokenCreate data) after := by
  obtain ⟨userId, fam, tokenHash, expiresAt⟩ := data
  cases hnone
  exact List.mem_map.mpr ⟨_, Table.mem_added.mpr ⟨hr, hid⟩, rfl⟩

/-! ## The chain -/

/-- What holds of the accounts at every moment. -/
structure Sane (s : Store) : Prop where
  listed : s.users = s.registrations.map (·.user)
  emails : (s.users.map (·.email)).Nodup
  begun : ∀ r ∈ s.session.tokens.rows, ∃ f ∈ s.families,
    f.familyId = r.familyId ∧ f.userId = r.userId

end Store

section Chain

variable (kit : Kit)

/-- The login that the thread serves has shown the password of the account. -/
def Proven (c : Call) (s : Store) (id : Id) : Prop :=
  ∃ dto, c = .session (.login dto) ∧ ∃ u ∈ s.users, u.id = id ∧ u.email = dto.email ∧
    kit.config.verify u.passwordHash dto.password = true

/-- The refresh that the thread serves has shown a refresh token of the account. -/
def Presented (c : Call) (s : Store) (id : Id) : Prop :=
  ∃ raw, c = .session (.refresh (some raw)) ∧ ∃ r ∈ s.session.tokens.rows,
    r.tokenHash = kit.config.hashToken raw ∧ r.userId = id

/-- What the claims of an access token rest on. -/
def Entitled (c : Call) (s : Store) (payload : AccessTokenPayload) : Prop :=
  ∃ u ∈ s.users, u.id = payload.sub ∧ u.role = payload.role ∧
    (Proven kit c s u.id ∨ Presented kit c s u.id)

/-- The data of an insert are those of the registration that the thread serves. -/
def Asked (c : Call) (data : UserData) : Prop :=
  ∃ dto salt, c = .register dto ∧
    data = { email := dto.email, passwordHash := kit.hash salt dto.password, role := dto.role }

/-- What a statement may be issued for. -/
def Lawful (c : Call) (s : Store) : Statement → Prop
  | .session (.tokenCreate data) => data.familyId = none ∧ Proven kit c s data.userId
  | .session (.tokenRotate _ _ data) => ∃ familyId, data.familyId = some familyId ∧
      ∃ f ∈ s.families, f.familyId = familyId ∧ f.userId = data.userId
  | .session (.signAccessToken payload _) => Entitled kit c s payload
  | .userCreate data => Asked kit c data
  | _ => True

/-- What an answer says. -/
def Says (a : Agent) (s : Store) : Call → Reply → Prop
  | .register dto, .registered (.created user) => ∃ g ∈ s.registrations, g.tid = a.tid ∧
      g.user.email = dto.email ∧ ∃ now, user = .of g.user now
  | .register dto, .registered .emailAlreadyExists => ∃ u ∈ s.users, u.email = dto.email
  | .session _, .session (.session x) => ∃ g ∈ s.signed, g.tid = a.tid ∧ g.token = x.accessToken
  | .auth bearer roles, .principal user => ∃ g ∈ s.signed,
      bearer.bind kit.verifyJwt = some g.token ∧ user = JwtStrategy.validate g.token.payload ∧
      (roles = [] ∨ user.role ∈ roles)
  | _, _ => True

def credentials : RelyGuarantee Store Call Statement.Resp Err Reply :=
  { Step := fun a s o r s' => ∃ c, c.honest = true ∧ o.exec a.tid c s = some (r, s')
    Inv := Store.Sane
    Rely := fun _ => Store.Grows
    Guar := fun a s o _ s' => s.Grows s' ∧ Lawful kit a.call s o
    Post := fun a r s => ∀ v, r = .ok v → Says kit a s a.call v
    Fresh := fun _ _ => True
    Lost := fun _ _ => True }

end Chain

variable {kit : Kit} {c : Call} {s s' : Store}

theorem Proven.grows {id : Id} (h : Proven kit c s id) (hg : s.Grows s') : Proven kit c s' id := by
  obtain ⟨dto, hc, u, hu, hrest⟩ := h
  exact ⟨dto, hc, u, hg.users hu, hrest⟩

theorem Presented.grows {id : Id} (h : Presented kit c s id) (hg : s.Grows s') :
    Presented kit c s' id := by
  obtain ⟨raw, hc, r, hr, hh, hu⟩ := h
  obtain ⟨r', hr', hl⟩ := hg.tokens r.id r (Table.find?_of_mem hr)
  exact ⟨raw, hc, r', Table.mem_of_find? hr', hl.tokenHash.trans hh, hl.userId.trans hu⟩

theorem Entitled.grows {payload : AccessTokenPayload} (h : Entitled kit c s payload)
    (hg : s.Grows s') : Entitled kit c s' payload := by
  obtain ⟨u, hu, hid, hrole, hby⟩ := h
  exact ⟨u, hg.users hu, hid, hrole, hby.imp (·.grows hg) (·.grows hg)⟩

theorem Says.grows {a : Agent} {v : Reply} (h : Says kit a s c v) (hg : s.Grows s') :
    Says kit a s' c v := by
  cases c with
  | register dto =>
    cases v with
    | registered r =>
      cases r with
      | created user =>
        obtain ⟨g, hmem, hrest⟩ := h
        exact ⟨g, hg.registrations hmem, hrest⟩
      | emailAlreadyExists =>
        obtain ⟨u, hu, he⟩ := h
        exact ⟨u, hg.users hu, he⟩
    | _ => trivial
  | session c =>
    cases v with
    | session r =>
      cases r with
      | session x =>
        obtain ⟨g, hmem, hrest⟩ := h
        exact ⟨g, hg.signed hmem, hrest⟩
      | none => trivial
    | _ => trivial
  | auth bearer roles =>
    cases v with
    | principal user =>
      obtain ⟨g, hmem, hrest⟩ := h
      exact ⟨g, hg.signed hmem, hrest⟩
    | _ => trivial

/-- A statement that is lawful keeps the accounts sane. -/
theorem sane_of_effect {t : Nat} {ch : Choice} {o : Statement} {r : Except Err o.Resp}
    (hi : s.Sane) (ho : Lawful kit c s o) (h : s.Effect t ch o r s') : s'.Sane := by
  cases h with
  | read o r h => exact hi
  | refused data e h => exact hi
  | inserted data id now r hid hfree hr =>
    refine ⟨?_, ?_, hi.begun⟩
    · rw [Store.users_insertUser hid, hi.listed]
      simp only [Store.insertUser, List.map_append, List.map_cons, List.map_nil]
    · rw [Store.users_insertUser hid, List.map_append, List.nodup_append]
      refine ⟨hi.emails, List.nodup_singleton _, fun e he e' he' => ?_⟩
      obtain ⟨u, hu, rfl⟩ := List.mem_map.mp he
      rw [List.map_singleton, List.mem_singleton] at he'
      exact he' ▸ hfree u hu
  | session o r after hx =>
    have heff := Identity.Store.effect_of_exec hx
    refine ⟨(Store.users_withSession hx).trans hi.listed, ?_, fun r hr => ?_⟩
    · rw [Store.users_withSession hx]
      exact hi.emails
    · rcases Store.token_cases heff hr with ⟨r₀, hr₀, hl⟩ | ⟨data, id, f, rfl, rfl, hid⟩ |
        ⟨id, now, data, new, f, rfl, rfl, hfam⟩
      · obtain ⟨f, hf, hfid, hfu⟩ := hi.begun r₀ hr₀
        exact ⟨f, List.mem_append_left _ hf, hfid.trans hl.familyId.symm, hfu.trans hl.userId.symm⟩
      · exact ⟨_, List.mem_append_right _ (Store.begun_of_created ho.1 hr hid), rfl, rfl⟩
      · obtain ⟨familyId, hsome, g, hg, hgid, hgu⟩ := ho
        have heq : familyId = f := by
          rcases hfam with h | h
          · exact Option.some.inj (hsome.symm.trans h)
          · rw [hsome] at h
            cases h
        exact ⟨g, List.mem_append_left _ hg, hgid.trans heq, hgu⟩

/-! ## The programs -/

variable (kit) in
/-- The same conditions on the statements of the sessions alone. -/
def onSession : RelyGuarantee Store Call Identity.Statement.Resp Err Reply :=
  { Step := fun a s o r s' => (credentials kit).Step a s (.session o) r s'
    Inv := (credentials kit).Inv
    Rely := (credentials kit).Rely
    Guar := fun a s o r s' => (credentials kit).Guar a s (.session o) r s'
    Post := (credentials kit).Post
    Fresh := (credentials kit).Fresh
    Lost := (credentials kit).Lost }

variable {a : Agent}

theorem safe_ofSession {α : Type} {Q : Except Err α → Store → Prop} {p : Identity.Async α}
    (h : (onSession kit).Safe a Q p s) : (credentials kit).Safe a Q (ofSession p) s := by
  induction p generalizing s with
  | done r => exact h
  | call o k ih =>
    intro s₁ hr hi r s₂ hx
    obtain ⟨hi₂, hg, hk⟩ := h s₁ hr hi r s₂ hx
    exact ⟨hi₂, hg, ih r hk⟩

/-- A statement of a thread that is lawful. -/
theorem safe_op {γ : Type} {Q : Except Err γ → Store → Prop} {o : Statement}
    {f : o.Resp → Async γ} (ho : ∀ s₁ : Store, s.Grows s₁ → s₁.Sane → Lawful kit a.call s₁ o)
    (h : ∀ s₁, s.Grows s₁ → ∀ ch r s₂, ch.honest = true → s₁.Effect a.tid ch o r s₂ →
      s.Grows s₂ → (credentials kit).Cont a Q f r s₂) :
    (credentials kit).Safe a Q (await o >>= f) s := by
  refine Safe.op_bind fun s₁ hg hi r s₂ hx => ?_
  obtain ⟨ch, hc, hx⟩ := hx
  have heff := Store.effect_of_exec hx
  have hlaw := ho s₁ hg hi
  exact ⟨sane_of_effect hi hlaw heff, ⟨heff.grows, hlaw⟩,
    h s₁ hg ch r s₂ hc heff (hg.trans heff.grows)⟩

/-- The same for a statement of the sessions. -/
theorem safe_session {γ : Type} {Q : Except Err γ → Store → Prop} {o : Identity.Statement}
    {f : o.Resp → Identity.Async γ}
    (ho : ∀ s₁ : Store, s.Grows s₁ → s₁.Sane → Lawful kit a.call s₁ (.session o))
    (h : ∀ s₁ : Store, s.Grows s₁ → s₁.Sane → ∀ (ch : Choice) (r : Except Err o.Resp) after,
      o.exec a.tid ch.session s₁.session = some (r, after) →
      s.Grows (s₁.withSession a.tid ch.session o after) →
      (onSession kit).Cont a Q f r (s₁.withSession a.tid ch.session o after)) :
    (onSession kit).Safe a Q (Identity.await o >>= f) s := by
  refine Safe.op_bind fun s₁ hg hi r s₂ hx => ?_
  obtain ⟨ch, -, hx⟩ := hx
  obtain ⟨⟨r', after⟩, hsession, he⟩ := Option.map_eq_some_iff.mp hx
  cases he
  have heff := Store.Effect.session (s := s₁) (t := a.tid) (c := ch) o r' after hsession
  have hlaw := ho s₁ hg hi
  exact ⟨sane_of_effect hi hlaw heff, ⟨heff.grows, hlaw⟩,
    h s₁ hg hi ch r' after hsession (hg.trans heff.grows)⟩

/-- A statement about which nothing need be remembered. -/
theorem safe_plain {γ : Type} {K : Store → Prop} (hK : ∀ s s', s.Grows s' → K s → K s')
    {o : Identity.Statement} {f : o.Resp → Identity.Async γ} (hk : K s)
    (ho : ∀ s₁ : Store, s₁.Sane → K s₁ → Lawful kit a.call s₁ (.session o))
    (hf : ∀ v s', K s' → (onSession kit).Safe a (fun _ => K) (f v) s') :
    (onSession kit).Safe a (fun _ => K) (Identity.await o >>= f) s := by
  refine safe_session (fun s₁ hg hi => ho s₁ hi (hK _ _ hg hk)) fun s₁ _ _ ch r after _ hg => ?_
  cases r with
  | error e => exact hK _ _ hg hk
  | ok v => exact hf v _ (hK _ _ hg hk)

/-- The thread has had this access token signed. -/
def HasSigned (a : Agent) (token : AccessToken) (s : Store) : Prop :=
  ∃ g ∈ s.signed, g.tid = a.tid ∧ g.token = token

theorem HasSigned.grows {token : AccessToken} (h : HasSigned a token s) (hg : s.Grows s') :
    HasSigned a token s' := by
  obtain ⟨g, hmem, hrest⟩ := h
  exact ⟨g, hg.signed hmem, hrest⟩

theorem hasSigned_of_exec {payload : AccessTokenPayload} {ttlMs : Int} {ch : Identity.Choice}
    {token : AccessToken} {after : Identity.Store}
    (hx : (Identity.Statement.signAccessToken payload ttlMs).exec a.tid ch s.session =
      some (.ok token, after)) :
    HasSigned a token (s.withSession a.tid ch (.signAccessToken payload ttlMs) after) := by
  have hp := Sessions.perform_of_exec_ok hx
  cases hp
  have hfirst : ch.strikesFirst = false := by
    cases hs : ch.strikesFirst with
    | false => rfl
    | true =>
      unfold Choice.strikesFirst at hs
      split at hs
      · next e hf =>
        simp only [Identity.Statement.exec, hf, Identity.Statement.fallible] at hx
        cases hx
      · cases hs
  refine ⟨⟨a.tid, _⟩, List.mem_append_right _ ?_, rfl, rfl⟩
  simp only [Store.signs, hfirst, Bool.false_eq_true, if_false, Option.map_some,
    Option.toList_some, List.mem_singleton]

/-- What a login or a refresh promises. -/
def Promises (a : Agent) (r : Except Err Identity.AuthService.Session) (s : Store) : Prop :=
  ∀ x, r = .ok x → HasSigned a x.accessToken s

theorem promises_error (e : Err) : Promises a (.error e) s := fun _ h => by cases h

theorem safe_sign {user : User} {Q : Except Err AccessToken → Store → Prop}
    (hs : ∀ s₁ : Store, s.Grows s₁ →
      Entitled kit a.call s₁ { sub := user.id, role := user.role })
    (herr : ∀ e s', s.Grows s' → Q (.error e) s')
    (hok : ∀ token s', s.Grows s' → HasSigned a token s' → Q (.ok token) s') :
    (onSession kit).Safe a Q (TokenService.signAccessToken kit.config user) s := by
  rw [TokenService.signAccessToken, Identity.await, Prog.op_eq_bind]
  refine safe_session (fun s₁ hg _ => hs s₁ hg) fun s₁ _ _ ch r after hx hg => ?_
  cases r with
  | error e => exact herr e _ hg
  | ok token => exact hok token _ hg (hasSigned_of_exec hx)

theorem safe_mint {γ : Type} {K : Store → Prop} (hK : ∀ s s', s.Grows s' → K s → K s')
    {f : IssuedRefresh → Identity.Async γ} (hk : K s)
    (hf : ∀ issued s', K s' → (onSession kit).Safe a (fun _ => K) (f issued) s') :
    (onSession kit).Safe a (fun _ => K) (TokenService.mint kit.config >>= f) s := by
  have hmint : (onSession kit).Safe a (fun _ => K) (TokenService.mint kit.config) s :=
    safe_plain hK hk (fun _ _ _ => trivial) fun token s₁ hk₁ =>
      safe_plain hK hk₁ (fun _ _ _ => trivial) fun now s₂ hk₂ => hk₂
  exact Safe.seq hmint hf

theorem found_of_exec {t : Nat} {ch : Identity.Choice} {o : Identity.Statement} {v : o.Resp}
    {s after : Identity.Store} {x : o.Resp} (hx : o.exec t ch s = some (.ok v, after))
    (hp : o.perform t ch s = some (.ok x, s)) : v = x ∧ after = s := by
  have hv := Sessions.perform_of_exec_ok hx
  rw [hp] at hv
  cases hv
  exact ⟨rfl, rfl⟩

/-- The first refresh token of a login. -/
theorem safe_issue {token : AccessToken} {id : Id} (hs : HasSigned a token s)
    (hp : Proven kit a.call s id) :
    (onSession kit).Safe a (fun _ s => HasSigned a token s)
      (TokenService.issueRefreshToken kit.config id none) s := by
  let K : Store → Prop := fun s => HasSigned a token s ∧ Proven kit a.call s id
  have hK : ∀ s s' : Store, s.Grows s' → K s → K s' := fun _ _ hg h => ⟨h.1.grows hg, h.2.grows hg⟩
  have hissue : (onSession kit).Safe a (fun _ => K)
      (TokenService.issueRefreshToken kit.config id none) s :=
    safe_mint hK ⟨hs, hp⟩ fun issued s₁ hk₁ =>
      safe_plain hK hk₁ (fun s₂ _ hk₂ => ⟨rfl, hk₂.2⟩) fun _ _ hk₂ => hk₂
  exact hissue.imp fun _ _ hk => hk.1

theorem safe_login {dto : LoginDto} (hc : a.call = .session (.login dto)) :
    (onSession kit).Safe a (Promises a) (Identity.AuthService.login kit.config dto) s := by
  refine safe_session (fun _ _ _ => trivial) fun s₁ hg₁ _ ch r after hx hg => ?_
  cases r with
  | error e => exact promises_error e
  | ok found =>
    obtain ⟨hfound, rfl⟩ := found_of_exec hx rfl
    have husers := Store.users_withSession hx
    cases found with
    | none => exact promises_error _
    | some user =>
      have hmem : user ∈ s₁.users := List.mem_of_find?_eq_some hfound.symm
      have hemail : user.email = dto.email := by simpa using List.find?_some hfound.symm
      rw [cont_ok]
      cases hverify : kit.config.verify user.passwordHash dto.password with
      | false =>
        simp only [Option.map_some, Option.getD_some, hverify]
        exact promises_error _
      | true =>
        simp only [Option.map_some, Option.getD_some, hverify]
        rw [← husers] at hmem
        have hproven : Proven kit a.call (s₁.withSession a.tid ch.session _ s₁.session) user.id :=
          ⟨dto, hc, user, hmem, rfl, hemail, hverify⟩
        have hentitled : Entitled kit a.call (s₁.withSession a.tid ch.session _ s₁.session)
            { sub := user.id, role := user.role } := ⟨user, hmem, rfl, rfl, .inl hproven⟩
        refine Safe.bind (safe_sign (fun s₂ hg₂ => hentitled.grows hg₂)
          (fun e s₂ _ => promises_error e) fun token s₂ hg₂ hsigned => ?_)
        refine Safe.bind ((safe_issue hsigned (hproven.grows hg₂)).imp fun r s₃ hs₃ => ?_)
        cases r with
        | error e => exact promises_error e
        | ok refresh =>
          intro x hx
          cases hx
          exact hs₃

/-- What is known of a refresh token that has been found, and of its user. -/
structure Found (kit : Kit) (a : Agent) (presented : RefreshToken) (s : Store) : Prop where
  shown : Presented kit a.call s presented.userId
  family : ∃ f ∈ s.families, f.familyId = presented.familyId ∧ f.userId = presented.userId

theorem Found.grows {presented : RefreshToken} (h : Found kit a presented s) (hg : s.Grows s') :
    Found kit a presented s' := by
  obtain ⟨f, hf, hrest⟩ := h.family
  exact ⟨h.shown.grows hg, f, hg.families hf, hrest⟩

theorem safe_rotate {presented : RefreshToken} {user : User} (hf : Found kit a presented s)
    (hu : user ∈ s.users) (hid : user.id = presented.userId) :
    (onSession kit).Safe a (fun _ s => Found kit a presented s ∧ user ∈ s.users)
      (Identity.AuthService.rotate kit.config presented user) s := by
  have hK : ∀ s s' : Store, s.Grows s' → Found kit a presented s ∧ user ∈ s.users →
      Found kit a presented s' ∧ user ∈ s'.users := fun _ _ hg h => ⟨h.1.grows hg, hg.users h.2⟩
  refine safe_plain hK ⟨hf, hu⟩ (fun _ _ _ => trivial) fun revokedAt s₁ h₁ => ?_
  refine safe_mint hK h₁ fun issued s₂ h₂ => ?_
  refine safe_plain hK h₂ (fun s₃ _ h₃ => ?_) fun _ _ h₃ => h₃
  obtain ⟨f, hf, hfid, hfu⟩ := h₃.1.family
  exact ⟨presented.familyId, rfl, f, hf, hfid, hfu.trans hid.symm⟩

theorem safe_refreshPresented {presented : RefreshToken} (hf : Found kit a presented s) :
    (onSession kit).Safe a (Promises a)
      (Identity.AuthService.refreshPresented kit.config presented) s := by
  refine safe_session (fun _ _ _ => trivial) fun s₁ _ _ ch r after _ hg₁ => ?_
  cases r with
  | error e => exact promises_error e
  | ok now =>
    rw [cont_ok]
    split
    · exact promises_error _
    · refine safe_session (fun _ _ _ => trivial) fun s₂ _ _ ch₂ r after₂ hx hg₂ => ?_
      have hf₂ := (hf.grows hg₁).grows hg₂
      cases r with
      | error e => exact promises_error e
      | ok found =>
        obtain ⟨hfound, rfl⟩ := found_of_exec hx rfl
        have husers := Store.users_withSession hx
        cases found with
        | none => exact promises_error _
        | some user =>
          have hmem : user ∈ s₂.users := Table.mem_of_find? hfound.symm
          have hid : user.id = presented.userId := Table.key_of_find? hfound.symm
          rw [← husers] at hmem
          refine Safe.bind ((safe_rotate hf₂ hmem hid).imp fun r s₃ h₃ => ?_)
          cases r with
          | error e => exact promises_error e
          | ok refresh =>
            have hentitled : Entitled kit a.call s₃ { sub := user.id, role := user.role } :=
              ⟨user, h₃.2, rfl, rfl, .inr (hid ▸ h₃.1.shown)⟩
            refine Safe.bind (safe_sign (fun s₄ hg₄ => hentitled.grows hg₄)
              (fun e s₄ _ => promises_error e) fun token s₄ _ hsigned => ?_)
            intro x hx
            cases hx
            exact hsigned

theorem safe_revokeFamily {K : Store → Prop} (hK : ∀ s s', s.Grows s' → K s → K s') (hk : K s)
    (familyId : Id) :
    (onSession kit).Safe a (fun _ => K) (Identity.AuthService.revokeFamily familyId) s :=
  safe_plain hK hk (fun _ _ _ => trivial) fun _ _ h₁ =>
    safe_plain hK h₁ (fun _ _ _ => trivial) fun _ _ h₂ => h₂

theorem safe_refresh {raw : Option String} (hc : a.call = .session (.refresh raw)) :
    (onSession kit).Safe a (Promises a) (Identity.AuthService.refresh kit.config raw) s := by
  cases raw with
  | none => exact promises_error _
  | some raw =>
    by_cases hempty : raw = ""
    · simp only [Identity.AuthService.refresh, if_pos hempty, safe_throw]
      exact promises_error _
    · simp only [Identity.AuthService.refresh, if_neg hempty]
      refine safe_session (fun _ _ _ => trivial) fun s₁ _ hi ch r after hx hg => ?_
      cases r with
      | error e => exact promises_error e
      | ok found =>
        obtain ⟨hfound, rfl⟩ := found_of_exec hx rfl
        cases found with
        | none => exact promises_error _
        | some presented =>
          have hrow : presented ∈ s₁.session.tokens.rows := List.mem_of_find?_eq_some hfound.symm
          have hhash : presented.tokenHash = kit.config.hashToken raw := by
            simpa using List.find?_some hfound.symm
          obtain ⟨f, hf, hrest⟩ := hi.begun presented hrow
          have hshown : Presented kit a.call (s₁.withSession a.tid ch.session
              (.tokenFindUnique (kit.config.hashToken raw)) s₁.session) presented.userId :=
            ⟨raw, hc, presented, hrow, hhash, rfl⟩
          simp only [cont_ok]
          split
          · have hK : ∀ s s' : Store, s.Grows s' → True → True := fun _ _ _ h => h
            refine Safe.bind ((safe_revokeFamily hK trivial presented.familyId).imp fun r s₂ _ => ?_)
            cases r with
            | error e => exact promises_error e
            | ok u => exact promises_error _
          · exact safe_refreshPresented ⟨hshown, f, List.mem_append_left _ hf, hrest⟩

theorem safe_logout (raw : Option String) :
    (onSession kit).Safe a (fun _ _ => True) (Identity.AuthService.logout kit.config raw) s := by
  cases raw with
  | none => trivial
  | some raw =>
    by_cases hempty : raw = ""
    · simp only [Identity.AuthService.logout, if_pos hempty, safe_pure]
    · simp only [Identity.AuthService.logout, if_neg hempty]
      refine safe_plain (fun _ _ _ h => h) trivial (fun _ _ _ => trivial) fun found s₁ _ => ?_
      cases found with
      | none => trivial
      | some presented => exact safe_revokeFamily (fun _ _ _ h => h) trivial presented.familyId

variable (kit) in
/-- What a registration promises. -/
def Enrols (a : Agent) (dto : RegisterDto) (r : Except Err Registered) (s : Store) : Prop :=
  ∀ v, r = .ok v → Says kit a s (.register dto) (.registered v)

theorem safe_insert {dto : RegisterDto} {data : UserData} (hd : Asked kit a.call data)
    (he : data.email = dto.email) :
    (credentials kit).Safe a (Enrols kit a dto) (AuthService.insert data) s := by
  refine Safe.tryCatch (safe_op (fun _ _ _ => hd) fun s₁ _ ch r s₂ hc heff _ => ?_)
  cases heff with
  | read o r h => cases h
  | refused data e h =>
    rw [cont_error, caught_error]
    by_cases htaken : isEmailTaken e = true
    · rw [if_pos htaken]
      intro v hv
      cases hv
      obtain ⟨u, hu, hemail⟩ := h htaken hc
      exact ⟨u, hu, hemail.trans he⟩
    · rw [if_neg htaken]
      exact fun v hv => by cases hv
  | inserted data id now r hid hfree hr =>
    rcases hr with rfl | ⟨e, rfl, hother⟩
    · rw [cont_ok, safe_pure, caught_ok]
      intro v hv
      cases hv
      exact ⟨⟨a.tid, data.user id⟩, List.mem_append_right _ (List.mem_singleton_self _), rfl, he,
        now, rfl⟩
    · rw [cont_error, caught_error, hother hc]
      exact fun v hv => by cases hv

theorem safe_register {dto : RegisterDto} (hc : a.call = .register dto) :
    (credentials kit).Safe a (Enrols kit a dto) (AuthService.register kit dto) s := by
  refine Safe.bind (safe_op (fun _ _ _ => trivial) fun s₁ _ ch r s₂ _ _ _ => ?_)
  cases r with
  | error e => exact fun v hv => by cases hv
  | ok salt => exact safe_insert ⟨dto, salt, hc, rfl⟩ rfl

variable (kit) in
/-- What the two guards promise about the principal they let through. -/
def Admits (a : Agent) (bearer : Option String) (roles : List Role) (r : Except Err AuthUser)
    (s : Store) : Prop :=
  ∀ v, r = .ok v → Says kit a s (.auth bearer roles) (.principal v)

theorem safe_auth {bearer : Option String} {roles : List Role}
    (hs : ∀ token, bearer.bind kit.verifyJwt = some token → ∃ g ∈ s.signed, g.token = token) :
    (credentials kit).Safe a (Admits kit a bearer roles) (auth kit bearer roles) s := by
  have hroles : ∀ (user : AuthUser) (s' : Store), (∃ g ∈ s'.signed,
      bearer.bind kit.verifyJwt = some g.token ∧ user = JwtStrategy.validate g.token.payload) →
      (credentials kit).Safe a (Admits kit a bearer roles)
        (RolesGuard.canActivate roles (some user) >>= fun _ => pure user) s' := by
    rintro user s' ⟨g, hg, hbearer, huser⟩
    have hadmits : (roles = [] ∨ user.role ∈ roles) →
        Admits kit a bearer roles (.ok user) s' := by
      intro hrole v hv
      cases hv
      exact ⟨g, hg, hbearer, huser, hrole⟩
    unfold RolesGuard.canActivate
    by_cases hempty : roles.length = 0
    · rw [if_pos hempty]
      exact hadmits (.inl (List.length_eq_zero_iff.mp hempty))
    · rw [if_neg hempty]
      by_cases hin : roles.contains user.role = true
      · simp only [hin, if_true]
        exact hadmits (.inr (List.contains_iff_mem.mp hin))
      · simp only [hin]
        exact fun v hv => by cases hv
  unfold auth JwtAuthGuard.canActivate JwtStrategy.authenticate
  cases hb : bearer.bind kit.verifyJwt with
  | none => exact fun v hv => by cases hv
  | some token =>
    obtain ⟨g, hg, rfl⟩ := hs token hb
    refine Safe.bind (Safe.bind (safe_op (fun _ _ _ => trivial) fun s₁ hg₁ ch r s₂ _ _ hg₂ => ?_))
    cases r with
    | error e => exact fun v hv => by cases hv
    | ok now =>
      by_cases hlive : now < g.token.expiresAt
      · simp only [cont_ok, hlive, if_true]
        exact hroles _ s₂ ⟨g, hg₂.signed hg, hb, rfl⟩
      · simp only [cont_ok, hlive, if_false]
        exact fun v hv => by cases hv

/-- A result handed to the caller. -/
theorem safe_answer {α : Type} {Q : Except Err Reply → Store → Prop} {p : Async α} {f : α → Reply}
    (h : (credentials kit).Safe a (fun r s => Q (r.map f) s) p s) :
    (credentials kit).Safe a Q (answer p f) s := by
  refine Safe.bind (h.imp fun r s' hq => ?_)
  cases r with
  | error e => exact hq
  | ok v => exact hq

theorem safe_program (c : Call) (hc : a.call = c) (hs : c.unforged kit s = true) :
    (credentials kit).Safe a (fun r s => ∀ v, r = .ok v → Says kit a s c v) (c.program kit) s := by
  cases c with
  | register dto =>
    refine safe_answer ((safe_register hc).imp fun r s' h v hv => ?_)
    cases r with
    | error e => cases hv
    | ok x =>
      cases hv
      exact h x rfl
  | auth bearer roles =>
    have hsigned : ∀ token, bearer.bind kit.verifyJwt = some token →
        ∃ g ∈ s.signed, g.token = token := by
      intro token hb
      simp only [Call.unforged, hb] at hs
      obtain ⟨g, hg, he⟩ := List.any_eq_true.mp hs
      exact ⟨g, hg, beq_iff_eq.mp he⟩
    refine safe_answer ((safe_auth hsigned).imp fun r s' h v hv => ?_)
    cases r with
    | error e => cases hv
    | ok x =>
      cases hv
      exact h x rfl
  | session c =>
    refine safe_answer ?_
    cases c with
    | login dto =>
      refine safe_ofSession (Safe.bind ((safe_login hc).imp fun r s' h => ?_))
      cases r with
      | error e => exact fun v hv => by cases hv
      | ok x =>
        intro v hv
        cases hv
        exact h x rfl
    | refresh raw =>
      refine safe_ofSession (Safe.bind ((safe_refresh hc).imp fun r s' h => ?_))
      cases r with
      | error e => exact fun v hv => by cases hv
      | ok x =>
        intro v hv
        cases hv
        exact h x rfl
    | logout raw =>
      refine safe_ofSession (Safe.bind ((safe_logout raw).imp fun r s' _ => ?_))
      cases r with
      | error e => exact fun v hv => by cases hv
      | ok x =>
        intro v hv
        cases hv
        trivial

theorem sound (kit : Kit) : Sound (credentials kit) (service kit) (lawful kit) Store.init where
  start := ⟨rfl, List.nodup_nil, fun r hr => by cases hr⟩
  fresh_start := fun _ => trivial
  rely_refl := fun _ s => Store.Grows.refl s
  rely_trans := fun _ _ _ _ => Store.Grows.trans
  guar_rely := fun _ _ _ _ _ _ _ h => h.1
  fresh_stable := fun _ _ _ _ _ => trivial
  post_stable := fun _ _ _ _ hg _ h v hv => (h v hv).grows hg
  lost_stable := fun _ _ _ _ _ => trivial
  step := fun w hr t c o k ch r s' ht hp hx => ⟨ch, hp, hx⟩
  spawn := by
    intro t c s s' hi _ hp hs
    cases hs
    exact ⟨hi, fun _ => Store.Grows.refl s, safe_program c rfl hp⟩
  ret := fun t c r s hi _ => ⟨hi, fun _ => Store.Grows.refl s⟩
  kill := fun t c p s hi _ => ⟨hi, fun _ _ => Store.Grows.refl s, trivial⟩

end Accounts

end NoOverlap.Identity
