import NoOverlap.Concurrency.Alone
import NoOverlap.Identity.Tokens

/-!
# A refresh that fails

A refresh that runs alone, statement by statement, each of which can fail.  The rotation is
committed before the access token is signed, so that a failure to sign comes too late:
`FailsLate`.  Every other failure leaves the tokens alone, and the client can present its token
again.
-/

namespace NoOverlap.Identity

open Relational Concurrency
open Concurrency.Prog

variable {cfg : Config} {t : Nat} {ch : Choice} {s s' s₁ : Store}

/-! ## What was presented -/

/-- The row of the token that was sent. -/
def found (cfg : Config) (s : Store) : Option String → Option RefreshToken
  | none => none
  | some raw => if raw = "" then none else s.findByHash (cfg.hashToken raw)

/-- The row that the rotation inserts, with what the environment has drawn by then. -/
def successor (cfg : Config) (c : Nat → Choice) (presented : RefreshToken) (user : User) :
    TokenData :=
  TokenService.data cfg user.id (some presented.familyId)
    { token := (c 4).token, expiresAt := (c 5).now + cfg.refreshTtMs }

/-- The statements of a refresh, in order: the token is found, the clock, the user, the clock,
the random bytes and the clock are read, the token is rotated, the access token signed.  All up
to the rotation succeed, which takes effect and leaves `s₁`. -/
structure Rotates (cfg : Config) (raw : Option String) (c : Nat → Choice) (s s₁ : Store)
    (presented : RefreshToken) (user : User) : Prop where
  find : (c 0).fault = .none
  sent : found cfg s raw = some presented
  unrevoked : presented.revokedAt = none
  unexpired : (c 1).now < presented.expiresAt
  read : (c 2).fault = .none
  owner : s.users.find? presented.userId = some user
  draw : (c 4).fault = .none
  unstruck : ∀ e, (c 6).fault ≠ .before e
  rotate : s.tokenRotate (c 6) presented.id (c 3).now (successor cfg c presented user) =
    some (.ok (), s₁)

/-- The rotation takes effect, and is then reported as failed, or signing fails. -/
def FailsLate (cfg : Config) (raw : Option String) (c : Nat → Choice) (s : Store) : Prop :=
  (∃ s₁ presented user, Rotates cfg raw c s s₁ presented user) ∧
    ((∃ e, (c 6).fault = .after e) ∨ (c 7).fault ≠ .none)

/-- A failed refresh leaves the tokens as they were, or revokes the family of a token that was
revoked already; and the token can be presented again without that. -/
structure SpendsNothing (cfg : Config) (raw : Option String) (s s' : Store) : Prop where
  tokens : s'.tokens = s.tokens ∨ ∃ presented, found cfg s raw = some presented ∧
    presented.revokedAt.isSome = true ∧
      ∃ now, s'.tokens = (s.revokeFamily 0 presented.familyId now).2.tokens
  again : ∀ presented, found cfg s raw = some presented → presented.revokedAt = none →
    ∀ t c r s'', (AuthService.refresh cfg raw).alone (Statement.exec t) c s' = some (r, s'') →
      s''.revocations = s'.revocations

/-! ## Statements -/

/-- A statement that only reads: it fails as the environment decides, and changes nothing. -/
theorem exec_read {o : Statement} {r : Except Err o.Resp} {v : o.Resp}
    (hv : o.perform t ch s = some (.ok v, s)) (hx : o.exec t ch s = some (r, s₁)) :
    s₁ = s ∧ (r = .ok v ∧ (o.fallible = true → ch.fault = .none) ∨
      (∃ e, r = .error e) ∧ o.fallible = true ∧ ch.fault ≠ .none) := by
  unfold Statement.exec at hx
  split at hx
  · next e he hf =>
    cases hx
    exact ⟨rfl, .inr ⟨⟨e, rfl⟩, hf, by rw [he]; intro h; cases h⟩⟩
  · next e he hf =>
    rw [hv] at hx
    cases hx
    exact ⟨rfl, .inr ⟨⟨e, rfl⟩, hf, by rw [he]; intro h; cases h⟩⟩
  · next hb ha =>
    cases hv.symm.trans hx
    refine ⟨rfl, .inl ⟨rfl, fun hf => ?_⟩⟩
    cases hfault : ch.fault with
    | none => rfl
    | before e => exact (hb e hfault hf).elim
    | after e => exact (ha e hfault hf).elim

/-- A process reads its own clock. -/
theorem exec_newDate {r : Except Err Int} (hx : Statement.newDate.exec t ch s = some (r, s₁)) :
    s₁ = s ∧ r = .ok ch.now := by
  obtain ⟨rfl, ⟨rfl, -⟩ | ⟨-, hf, -⟩⟩ := exec_read (v := ch.now) rfl hx
  · exact ⟨rfl, rfl⟩
  · cases hf

/-- A family is revoked, or nothing has happened. -/
theorem exec_revokeFamily {f : Id} {now : Int} {r : Except Err Nat}
    (hx : (Statement.tokenRevokeFamily f now).exec t ch s = some (r, s₁)) :
    s₁.tokens = s.tokens ∨ s₁.tokens = (s.revokeFamily 0 f now).2.tokens := by
  unfold Statement.exec at hx
  split at hx
  · cases hx
    exact .inl rfl
  · cases hx
    exact .inr rfl
  · cases hx
    exact .inr rfl

/-- A rotation takes effect and is reported or not, or nothing has happened. -/
theorem exec_rotate {id : Id} {now : Int} {data : TokenData} {r : Except Err Unit}
    (hx : (Statement.tokenRotate id now data).exec t ch s = some (r, s₁)) :
    (s₁ = s ∧ (∃ e, r = .error e) ∧
        ((∃ e, ch.fault = .before e) ∨ ∀ s₂, s.tokenRotate ch id now data ≠ some (.ok (), s₂))) ∨
      s.tokenRotate ch id now data = some (.ok (), s₁) ∧ (∀ e, ch.fault ≠ .before e) ∧
        (r = .ok () ∧ ch.fault = .none ∨ (∃ e, r = .error e) ∧ ∃ e, ch.fault = .after e) := by
  have hperform : ∀ r', s.tokenRotate ch id now data = some (r', s₁) →
      (r' = .ok () ∨ (s₁ = s ∧ (∃ e, r' = .error e) ∧
        ∀ s₂, s.tokenRotate ch id now data ≠ some (.ok (), s₂))) := by
    intro r' hr
    cases r' with
    | ok u => exact .inl rfl
    | error e =>
      exact .inr ⟨Store.tokenRotate_eq_error hr, ⟨e, rfl⟩, fun s₂ h => by cases hr.symm.trans h⟩
  unfold Statement.exec at hx
  split at hx
  · next e he _ =>
    cases hx
    exact .inl ⟨rfl, ⟨e, rfl⟩, .inl ⟨e, he⟩⟩
  · next e he _ =>
    have hunstruck : ∀ e', ch.fault ≠ .before e' := fun e' h => by cases he.symm.trans h
    obtain ⟨⟨r', s₂⟩, hp, hr⟩ := Option.map_eq_some_iff.mp hx
    cases hr
    rcases hperform r' hp with rfl | ⟨hs, -, hno⟩
    · exact .inr ⟨hp, hunstruck, .inr ⟨⟨e, rfl⟩, e, he⟩⟩
    · exact .inl ⟨hs, ⟨e, rfl⟩, .inr hno⟩
  · next hb ha =>
    have hclear : ch.fault = .none := by
      cases hfault : ch.fault with
      | none => rfl
      | before e => exact (hb e hfault rfl).elim
      | after e => exact (ha e hfault rfl).elim
    have hunstruck : ∀ e', ch.fault ≠ .before e' := fun e' h => by cases hclear.symm.trans h
    rcases hperform r hx with rfl | ⟨hs, he, hno⟩
    · exact .inr ⟨hx, hunstruck, .inl ⟨rfl, hclear⟩⟩
    · exact .inl ⟨hs, he, .inr hno⟩

/-! ## The call -/

variable {raw : Option String} {c : Nat → Choice} {e : Err} {presented : RefreshToken}
  {user : User}

/-- The rotation does not take effect. -/
def Unrotated (cfg : Config) (raw : Option String) (c : Nat → Choice) (s : Store) : Prop :=
  ∀ s₁ presented user, ¬Rotates cfg raw c s s₁ presented user

/-- The statements of a rotation, and what follows it. -/
theorem rotate_bind (k : IssuedRefresh → Async AuthService.Session) :
    AuthService.rotate cfg presented user >>= k =
      await .newDate >>= fun revokedAt => await .randomBytes >>= fun token =>
        await .newDate >>= fun now =>
          await (.tokenRotate presented.id revokedAt (TokenService.data cfg user.id
            (some presented.familyId)
            { token := token, expiresAt := now + cfg.refreshTtMs })) >>= fun _ =>
              k { token := token, expiresAt := now + cfg.refreshTtMs } := by
  simp only [AuthService.rotate, TokenService.mint, op_bind_bind, pure_bind_eq]

/-- The rotation of a token that is live, and the signing, up to an error. -/
theorem rotate_fails (hfind : (c 0).fault = .none) (hsent : found cfg s raw = some presented)
    (hrevoked : presented.revokedAt = none) (hexpires : (c 1).now < presented.expiresAt)
    (hread : (c 2).fault = .none) (howner : s.users.find? presented.userId = some user)
    (h : (AuthService.rotate cfg presented user >>= fun refresh =>
      TokenService.signAccessToken cfg user >>= fun accessToken =>
        (pure { accessToken := accessToken, refresh := refresh } :
          Async AuthService.Session)).alone (Statement.exec t) (fun n => c (n + 3)) s =
      some (.error e, s')) :
    s' = s ∧ Unrotated cfg raw c s ∨ Rotates cfg raw c s s' presented user ∧
      ((∃ e, (c 6).fault = .after e) ∨ (c 7).fault ≠ .none) := by
  have hsame : ∀ {s₁ presented' user'}, Rotates cfg raw c s s₁ presented' user' →
      presented' = presented ∧ user' = user := by
    intro s₁ presented' user' hrot
    cases hsent.symm.trans hrot.sent
    cases howner.symm.trans hrot.owner
    exact ⟨rfl, rfl⟩
  rw [rotate_bind] at h
  obtain ⟨r₁, s₁, hx₁, h₁⟩ := alone_op_bind h
  obtain ⟨rfl, rfl⟩ := exec_newDate hx₁
  obtain ⟨r₂, s₂, hx₂, h₂⟩ := alone_op_bind h₁
  rcases exec_read (v := (c 4).token) rfl hx₂ with ⟨rfl, ⟨rfl, hdraw⟩ | ⟨⟨e₂, rfl⟩, -, hdraw⟩⟩
  swap
  · exact .inl ⟨h₂.2, fun _ _ _ hrot => hdraw hrot.draw⟩
  obtain ⟨r₃, s₃, hx₃, h₃⟩ := alone_op_bind h₂
  obtain ⟨rfl, rfl⟩ := exec_newDate hx₃
  obtain ⟨r₄, s₄, hx₄, h₄⟩ := alone_op_bind h₃
  rcases exec_rotate hx₄ with ⟨rfl, ⟨e₄, rfl⟩, hno⟩ | ⟨hrot, hunstruck, hend⟩
  · refine .inl ⟨h₄.2, fun s₅ p u hrot => ?_⟩
    obtain ⟨rfl, rfl⟩ := hsame hrot
    rcases hno with ⟨e', he'⟩ | hno
    · exact hrot.unstruck e' he'
    · exact hno s₅ hrot.rotate
  · have hrotates : Rotates cfg raw c s₃ s₄ presented user :=
      ⟨hfind, hsent, hrevoked, hexpires, hread, howner, hdraw rfl, hunstruck, hrot⟩
    rcases hend with ⟨rfl, -⟩ | ⟨⟨e₄, rfl⟩, hafter⟩
    · obtain ⟨r₅, s₅, hx₅, h₅⟩ := alone_op_bind h₄
      rcases exec_read (v := (⟨⟨user.id, user.role⟩, (c 7).now + cfg.accessTtlMs⟩ : AccessToken))
        rfl hx₅ with ⟨rfl, ⟨rfl, -⟩ | ⟨⟨e₅, rfl⟩, -, hsign⟩⟩
      · cases h₅
      · obtain ⟨-, rfl⟩ := h₅
        exact .inr ⟨hrotates, .inr hsign⟩
    · obtain ⟨-, rfl⟩ := h₄
      exact .inr ⟨hrotates, .inl hafter⟩

/-- The family of a token that was revoked is revoked, or nothing has happened. -/
def Replayed (cfg : Config) (raw : Option String) (s s' : Store) : Prop :=
  ∃ presented, found cfg s raw = some presented ∧ presented.revokedAt.isSome = true ∧
    (s'.tokens = s.tokens ∨ ∃ now, s'.tokens = (s.revokeFamily 0 presented.familyId now).2.tokens)

/-- The three ways a refresh fails: without effect, as a replay, or too late. -/
theorem refresh_fails
    (h : (AuthService.refresh cfg raw).alone (Statement.exec t) c s = some (.error e, s')) :
    s' = s ∧ Unrotated cfg raw c s ∨ Replayed cfg raw s s' ∨
      ∃ presented user, Rotates cfg raw c s s' presented user ∧
        ((∃ e, (c 6).fault = .after e) ∨ (c 7).fault ≠ .none) := by
  cases raw with
  | none =>
    cases h
    exact .inl ⟨rfl, fun _ _ _ hrot => by cases hrot.sent⟩
  | some raw =>
  by_cases hraw : raw = ""
  · subst hraw
    cases h
    exact .inl ⟨rfl, fun _ _ _ hrot => by cases hrot.sent⟩
  have hsent : found cfg s (some raw) = s.findByHash (cfg.hashToken raw) := if_neg hraw
  have hcall : AuthService.refresh cfg (some raw) = AuthService.refreshRaw cfg raw := if_neg hraw
  rw [hcall] at h
  obtain ⟨r₁, s₁, hx₁, h₁⟩ := alone_op_bind h
  rcases exec_read (v := s.findByHash (cfg.hashToken raw)) rfl hx₁ with
    ⟨rfl, ⟨rfl, hfind⟩ | ⟨⟨e₁, rfl⟩, -, hfind⟩⟩
  swap
  · exact .inl ⟨h₁.2, fun _ _ _ hrot => hfind hrot.find⟩
  simp only [Follow] at h₁
  rw [← hsent] at h₁
  cases hp : found cfg s₁ (some raw) with
  | none =>
    rw [hp] at h₁
    cases h₁
    exact .inl ⟨rfl, fun _ _ _ hrot => by cases hp.symm.trans hrot.sent⟩
  | some presented =>
  rw [hp] at h₁
  simp only at h₁
  split at h₁
  · next hrevoked =>
    -- The token is a replay.
    refine .inr (.inl ⟨presented, hp, hrevoked, ?_⟩)
    simp only [AuthService.revokeFamily, op_bind_bind] at h₁
    obtain ⟨r₂, s₂, hx₂, h₂⟩ := alone_op_bind h₁
    obtain ⟨rfl, rfl⟩ := exec_newDate hx₂
    obtain ⟨r₃, s₃, hx₃, h₃⟩ := alone_op_bind h₂
    have hend : s' = s₃ := by
      cases r₃ with
      | ok n =>
        cases h₃
        rfl
      | error e₃ => exact h₃.2
    rw [hend]
    exact (exec_revokeFamily hx₃).imp_right fun htokens => ⟨_, htokens⟩
  · next hrevoked =>
    have hrevoked : presented.revokedAt = none := by simpa using hrevoked
    obtain ⟨r₂, s₂, hx₂, h₂⟩ := alone_op_bind h₁
    obtain ⟨rfl, rfl⟩ := exec_newDate hx₂
    simp only [Follow] at h₂
    split at h₂
    · next hexpired =>
      cases h₂
      refine .inl ⟨rfl, fun _ p _ hrot => ?_⟩
      cases hp.symm.trans hrot.sent
      exact Int.not_lt.mpr hexpired hrot.unexpired
    · next hexpires =>
      obtain ⟨r₃, s₃, hx₃, h₃⟩ := alone_op_bind h₂
      rcases exec_read (v := s₂.users.find? presented.userId) rfl hx₃ with
        ⟨rfl, ⟨rfl, hread⟩ | ⟨⟨e₃, rfl⟩, -, hread⟩⟩
      swap
      · exact .inl ⟨h₃.2, fun _ _ _ hrot => hread hrot.read⟩
      simp only [Follow] at h₃
      cases howner : s₃.users.find? presented.userId with
      | none =>
        rw [howner] at h₃
        cases h₃
        refine .inl ⟨rfl, fun _ p _ hrot => ?_⟩
        cases hp.symm.trans hrot.sent
        cases howner.symm.trans hrot.owner
      | some user =>
        rw [howner] at h₃
        rcases rotate_fails (hfind rfl) hp hrevoked (Int.not_le.mp hexpires) (hread rfl) howner h₃
          with hunrotated | hlate
        · exact .inl hunrotated
        · exact .inr (.inr ⟨presented, user, hlate⟩)

/-! ## The next call -/

theorem refreshPresented_uses (presented : RefreshToken) :
    (AuthService.refreshPresented cfg presented).Uses fun o =>
      ∀ f now, o ≠ .tokenRevokeFamily f now := by
  have hplain : ∀ {o : Statement}, (∀ f now, o ≠ .tokenRevokeFamily f now) →
      (await o).Uses fun o => ∀ f now, o ≠ .tokenRevokeFamily f now := fun ho => uses_op ho
  refine Uses.bind (hplain fun _ _ h => by cases h) fun now => uses_ite (fun _ => uses_throw _)
    fun _ => Uses.bind (hplain fun _ _ h => by cases h) fun user => ?_
  cases user with
  | none => exact uses_throw _
  | some user =>
    have hmint : (TokenService.mint cfg).Uses fun o => ∀ f now, o ≠ .tokenRevokeFamily f now :=
      Uses.bind (hplain fun _ _ h => by cases h) fun _ =>
        Uses.bind (hplain fun _ _ h => by cases h) fun _ => uses_pure _
    refine Uses.bind (Uses.bind (hplain fun _ _ h => by cases h) fun _ => Uses.bind hmint fun _ =>
      Uses.bind (hplain fun _ _ h => by cases h) fun _ => uses_pure _) fun refresh => ?_
    exact Uses.bind (hplain fun _ _ h => by cases h) fun _ => uses_pure _

/-- A token that is not revoked is not taken for a replay. -/
theorem revocations_of_refresh (hp : found cfg s raw = some presented)
    (hrevoked : presented.revokedAt = none) {r : Except Err AuthService.Session}
    (h : (AuthService.refresh cfg raw).alone (Statement.exec t) c s = some (r, s')) :
    s'.revocations = s.revocations := by
  cases raw with
  | none => cases hp
  | some raw =>
  by_cases hraw : raw = ""
  · subst hraw
    cases hp
  have hsent : found cfg s (some raw) = s.findByHash (cfg.hashToken raw) := if_neg hraw
  have hcall : AuthService.refresh cfg (some raw) = AuthService.refreshRaw cfg raw := if_neg hraw
  rw [hcall] at h
  obtain ⟨r₁, s₁, hx₁, h₁⟩ := alone_op_bind h
  rcases exec_read (v := s.findByHash (cfg.hashToken raw)) rfl hx₁ with
    ⟨rfl, ⟨rfl, -⟩ | ⟨⟨e₁, rfl⟩, -, -⟩⟩
  swap
  · rw [h₁.2]
  simp only [Follow] at h₁
  rw [← hsent, hp] at h₁
  simp only [hrevoked, Option.isSome_none, Bool.false_eq_true, if_false] at h₁
  refine keeps_of_uses (K := fun s' => s'.revocations = s₁.revocations) ?_
    (refreshPresented_uses presented) h₁ rfl
  intro ch o s₂ r s₃ ho hx hk
  rcases (Store.effect_of_exec hx).revocations with hsame | ⟨f, now, rfl, -⟩
  · exact hsame.trans hk
  · exact (ho f now rfl).elim

/-! ## What a failure spends -/

/-- The row of a token that was rotated has changed. -/
theorem tokens_ne_of_rotates {s₁ : Store} (h : Rotates cfg raw c s s₁ presented user) :
    s₁.tokens ≠ s.tokens := by
  intro hsame
  obtain ⟨familyId, r, hs₁, -⟩ := Store.tokenRotate_eq_ok h.rotate
  have hmem : presented ∈ s.tokens.rows := by
    have hsent := h.sent
    cases raw with
    | none => cases hsent
    | some raw =>
      simp only [found] at hsent
      split at hsent
      · cases hsent
      · exact List.mem_of_find?_eq_some hsent
  have hrow : s.tokens.find? presented.id = some presented := Table.find?_of_mem hmem
  have hrevoked : (s.revokeToken presented.id (c 3).now).tokens.find? presented.id =
      some (Store.revoke presented (c 3).now) := by
    rw [Store.find?_revokeToken, hrow, Option.map_some, if_pos (beq_self_eq_true _)]
  have hnow : s₁.tokens.find? presented.id = some (Store.revoke presented (c 3).now) := by
    rw [hs₁]
    exact Table.find?_insert_of_some hrevoked
  rw [hsame, hrow] at hnow
  have hfield := congrArg RefreshToken.revokedAt (Option.some.inj hnow)
  rw [h.unrevoked] at hfield
  cases hfield

theorem failed_refresh_spends_nothing
    (h : (AuthService.refresh cfg raw).alone (Statement.exec t) c s = some (.error e, s')) :
    SpendsNothing cfg raw s s' ↔ ¬FailsLate cfg raw c s := by
  rcases refresh_fails h with ⟨rfl, hno⟩ | ⟨presented, hp, hrevoked, htokens⟩ |
    ⟨presented, user, hrot, hlate⟩
  · have hspends : SpendsNothing cfg raw s' s' :=
      ⟨.inl rfl, fun p hp hr t c r s'' hx => revocations_of_refresh hp hr hx⟩
    exact iff_of_true hspends fun hlate => by
      obtain ⟨⟨s₁, p, u, hrot⟩, -⟩ := hlate
      exact hno s₁ p u hrot
  · refine iff_of_true ⟨?_, fun p hp' hr => ?_⟩ fun hlate => ?_
    · exact htokens.imp_right fun hfamily => ⟨presented, hp, hrevoked, hfamily⟩
    · cases hp.symm.trans hp'
      rw [hr] at hrevoked
      cases hrevoked
    · obtain ⟨⟨s₁, p, u, hrot⟩, -⟩ := hlate
      cases hp.symm.trans hrot.sent
      rw [hrot.unrevoked] at hrevoked
      cases hrevoked
  · refine iff_of_false (fun hspends => ?_) fun hno => hno ⟨⟨s', presented, user, hrot⟩, hlate⟩
    rcases hspends.tokens with hsame | ⟨p, hp, hrevoked, -⟩
    · exact tokens_ne_of_rotates hrot hsame
    · cases hp.symm.trans hrot.sent
      rw [hrot.unrevoked] at hrevoked
      cases hrevoked

section Runs

open Scenario

/-- One session, whose token is `a`. -/
def Scenario.session : Store :=
  { Store.init users with tokens := Table.empty.insert ⟨10, 1, 20, "a", 1000, none⟩ }

/-- Everything is drawn anew, and statement `n` fails. -/
def Scenario.failing (n : Nat) (k : Nat) : Choice :=
  { fault := if k = n then .before (.other "failed") else .none, id := 11, familyId := 21,
    token := "b" }

/-- How a refresh of `a` under these choices ends. -/
def Scenario.retry (c : Nat → Choice) (s : Store) :
    Option (Except Err AuthService.Session × Store) :=
  (AuthService.refresh Scenario.cfg (some "a")).alone (Statement.exec 0) c s

/-- The user cannot be read, and the token is as good as before. -/
theorem failed_refresh_spends_nothing_unread :
    ∃ s', retry (failing 2) session = some (.error (.other "failed"), s') ∧
      (SpendsNothing Scenario.cfg (some "a") session s' ↔
        ¬FailsLate Scenario.cfg (some "a") (failing 2) session) := by
  have hrun : retry (failing 2) session = some (.error (.other "failed"), session) := rfl
  exact ⟨_, hrun, failed_refresh_spends_nothing hrun⟩

/-- The access token cannot be signed.  The token is spent, and when it is presented again its
family is revoked. -/
theorem not_failed_refresh_spends_nothing :
    session.tokens.rows.map (·.revokedAt) = [none] ∧
    ∃ s' s'', retry (failing 7) session = some (.error (.other "failed"), s') ∧
      s'.tokens.rows.map (·.revokedAt) = [some 0, none] ∧
      retry (failing 100) s' = some (.error (.app .unauthenticated none), s'') ∧
      s''.tokens.rows.map (·.revokedAt) = [some 0, some 0] := by
  refine ⟨rfl, _, _, rfl, rfl, rfl, rfl⟩

end Runs

end NoOverlap.Identity
