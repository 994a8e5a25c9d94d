import NoOverlap.Identity.Credentials

/-!
# Who an access token speaks for

Every access token names an account that exists, with the role the account has, and goes
back to a password: someone has logged in to the account with one that its hash verifies,
and the hash is of the one that the account was registered with.  The histories say which
threads these were.

An email is taken once, although registration does not look: the unique index answers, and
its answer is what the caller is told.
-/

namespace NoOverlap.Identity

namespace Accounts

open Relational Concurrency RelyGuarantee

section Run

variable {kit : Kit} {a : Agent} {s s' : Store} {w : World}

/-! ## The histories -/

section Histories

variable {ch : Choice} {o : Statement} {r : Except Err o.Resp}

theorem family_accounted (h : s.Effect a.tid ch o r s') (ho : Lawful kit a.call s o) {f : Family}
    (hf : f ∈ s'.families) : f ∈ s.families ∨ f.tid = a.tid ∧ Proven kit a.call s' f.userId := by
  have hgrows := h.grows
  cases h with
  | session o r after hx =>
    rcases List.mem_append.mp hf with hold | hnew
    · exact .inl hold
    · obtain ⟨data, rfl, -, htid, huser⟩ := Store.mem_begun (Identity.Store.effect_of_exec hx) hnew
      exact .inr ⟨htid, huser ▸ ho.2.grows hgrows⟩
  | read o r h => exact .inl hf
  | refused data e h => exact .inl hf
  | inserted data id now r hid hfree hr => exact .inl hf

theorem signature_accounted (h : s.Effect a.tid ch o r s') (ho : Lawful kit a.call s o)
    {g : Signature} (hg : g ∈ s'.signed) :
    g ∈ s.signed ∨ g.tid = a.tid ∧ Entitled kit a.call s' g.token.payload := by
  have hgrows := h.grows
  cases h with
  | session o r after hx =>
    rcases List.mem_append.mp hg with hold | hnew
    · exact .inl hold
    · cases o with
      | signAccessToken payload ttlMs =>
        by_cases hfirst : ch.session.strikesFirst = true
        · simp [Store.signs, hfirst] at hnew
        · simp only [Store.signs, hfirst, Bool.false_eq_true, if_false, Option.map_some,
            Option.toList_some, List.mem_singleton] at hnew
          subst hnew
          have hlaw : Entitled kit a.call s payload := ho
          exact .inr ⟨rfl, hlaw.grows hgrows⟩
      | _ => cases hnew
  | read o r h => exact .inl hg
  | refused data e h => exact .inl hg
  | inserted data id now r hid hfree hr => exact .inl hg

/-- The registration that an account is from. -/
def Enrolled (kit : Kit) (c : Call) (user : User) : Prop :=
  ∃ dto salt, c = .register dto ∧ user.email = dto.email ∧ user.role = dto.role ∧
    user.passwordHash = kit.hash salt dto.password

theorem registration_accounted (h : s.Effect a.tid ch o r s') (ho : Lawful kit a.call s o)
    {g : Registration} (hg : g ∈ s'.registrations) :
    g ∈ s.registrations ∨ g.tid = a.tid ∧ Enrolled kit a.call g.user := by
  cases h with
  | session o r after hx => exact .inl hg
  | read o r h => exact .inl hg
  | refused data e h => exact .inl hg
  | inserted data id now r hid hfree hr =>
    rcases List.mem_append.mp hg with hold | hnew
    · exact .inl hold
    · rw [List.mem_singleton.mp hnew]
      obtain ⟨dto, salt, hc, rfl⟩ := ho
      exact .inr ⟨rfl, dto, salt, hc, rfl, rfl, rfl⟩

end Histories

/-- An account that somebody has registered and somebody has logged in to, and what the hash
of the password had to do with either. -/
structure Earned (kit : Kit) (w : World) (user : User) : Prop where
  registered : ∃ (t : Nat) (th : Thread Call Statement.Resp Err Reply) (dto : RegisterDto)
    (salt : String), w.threads[t]? = some th ∧ th.call = .register dto ∧
      user.email = dto.email ∧ user.role = dto.role ∧
      user.passwordHash = kit.hash salt dto.password
  login : ∃ (t : Nat) (th : Thread Call Statement.Resp Err Reply) (dto : LoginDto),
    w.threads[t]? = some th ∧ th.call = .session (.login dto) ∧ user.email = dto.email ∧
      kit.config.verify user.passwordHash dto.password = true

theorem earned_of_proven (hr : (service kit).Reaches (lawful kit) initial w) {user : User}
    (hu : user ∈ w.shared.users) {t : Nat} {th : Thread Call Statement.Resp Err Reply}
    (ht : w.threads[t]? = some th) (hp : Proven kit th.call w.shared user.id) :
    Earned kit w user := by
  have hsound := sound kit
  have hlisted := (hsound.inv hr).listed
  rw [hlisted] at hu
  obtain ⟨g, hg, rfl⟩ := List.mem_map.mp hu
  have haccounts := hsound.accounts (i := Registration.tid) (L := Store.registrations)
    (A := fun c g _ => Enrolled kit c g.user) rfl (fun _ _ _ _ _ _ h => h)
    (fun _ _ _ hs => by cases hs; rfl)
    (fun a s o r s' hstep hguar e he => by
      obtain ⟨ch, -, hx⟩ := hstep
      exact registration_accounted (Store.effect_of_exec hx) hguar.2 he)
    (fun _ _ _ _ => rfl) (fun _ _ _ => rfl) hr g hg
  obtain ⟨th₁, ht₁, dto₁, salt, hc₁, hemail, hrole, hhash⟩ := haccounts
  obtain ⟨dto, hc, u, hmem, hid, hemail', hverify⟩ := hp
  have hrow : g.user ∈ w.shared.session.users.rows := by
    have hin : g.user ∈ w.shared.users := by
      rw [hlisted]
      exact List.mem_map_of_mem hg
    exact hin
  have heq : u = g.user := Table.eq_of_key_eq hmem hrow hid
  subst heq
  exact ⟨⟨_, th₁, dto₁, salt, ht₁, hc₁, hemail, hrole, hhash⟩,
    ⟨t, th, dto, ht, hc, hemail', hverify⟩⟩

/-- A family is of an account that somebody has logged in to. -/
theorem earned_of_family (hr : (service kit).Reaches (lawful kit) initial w) {f : Family}
    (hf : f ∈ w.shared.families) : ∃ u ∈ w.shared.users, u.id = f.userId ∧ Earned kit w u := by
  have haccounts := (sound kit).accounts (i := Family.tid) (L := Store.families)
    (A := fun c f s => Proven kit c s f.userId) rfl (fun _ _ _ _ _ hg h => h.grows hg)
    (fun _ _ _ hs => by cases hs; rfl)
    (fun a s o r s' hstep hguar e he => by
      obtain ⟨ch, -, hx⟩ := hstep
      exact family_accounted (Store.effect_of_exec hx) hguar.2 he)
    (fun _ _ _ _ => rfl) (fun _ _ _ => rfl) hr f hf
  obtain ⟨th, ht, hp⟩ := haccounts
  have hp' := hp
  obtain ⟨dto, hc, u, hmem, hid, -, -⟩ := hp'
  exact ⟨u, hmem, hid, earned_of_proven hr hmem ht (hid ▸ hp)⟩

theorem earned_of_token (hr : (service kit).Reaches (lawful kit) initial w) {r : RefreshToken}
    (hmem : r ∈ w.shared.session.tokens.rows) :
    ∃ u ∈ w.shared.users, u.id = r.userId ∧ Earned kit w u := by
  obtain ⟨f, hf, -, hfu⟩ := ((sound kit).inv hr).begun r hmem
  obtain ⟨u, hu, hid, he⟩ := earned_of_family hr hf
  exact ⟨u, hu, hid.trans hfu, he⟩

theorem earned_of_signature (hr : (service kit).Reaches (lawful kit) initial w) {g : Signature}
    (hg : g ∈ w.shared.signed) :
    ∃ u ∈ w.shared.users, u.id = g.token.payload.sub ∧ u.role = g.token.payload.role ∧
      Earned kit w u := by
  have haccounts := (sound kit).accounts (i := Signature.tid) (L := Store.signed)
    (A := fun c g s => Entitled kit c s g.token.payload) rfl (fun _ _ _ _ _ hg h => h.grows hg)
    (fun _ _ _ hs => by cases hs; rfl)
    (fun a s o r s' hstep hguar e he => by
      obtain ⟨ch, -, hx⟩ := hstep
      exact signature_accounted (Store.effect_of_exec hx) hguar.2 he)
    (fun _ _ _ _ => rfl) (fun _ _ _ => rfl) hr g hg
  obtain ⟨th, ht, u, hu, hid, hrole, hproven | ⟨raw, -, r, hr₀, -, hru⟩⟩ := haccounts
  · exact ⟨u, hu, hid, hrole, earned_of_proven hr hu ht hproven⟩
  · obtain ⟨u', hu', hid', he⟩ := earned_of_token hr hr₀
    have heq : u' = u := Table.eq_of_key_eq hu' hu (hid'.trans hru)
    exact ⟨u, hu, hid, hrole, heq ▸ he⟩

/-- A principal that the guards let through is one that has logged in. -/
theorem earned_of_principal (hr : (service kit).Reaches (lawful kit) initial w) {t : Nat}
    {bearer : Option String} {roles : List Role} {user : AuthUser}
    (hs : Says kit ⟨t, .auth bearer roles⟩ w.shared (.auth bearer roles) (.principal user)) :
    (roles = [] ∨ user.role ∈ roles) ∧
      ∃ u ∈ w.shared.users, u.id = user.userId ∧ u.role = user.role ∧ Earned kit w u := by
  obtain ⟨g, hg, -, rfl, hrole⟩ := hs
  exact ⟨hrole, earned_of_signature hr hg⟩

/-- In every run from a database without accounts, whatever fails and whoever crashes: an
access token that has been signed, a refresh token that has been stored, and a principal
that the guards have let through are each of an account that was registered, and that was
logged in to with a password which verifies against the hash of the one registered.  The
role is the one registered, and one of those asked for. -/
theorem access_is_earned (hr : (service kit).Reaches (lawful kit) initial w) :
    (∀ g ∈ w.shared.signed, ∃ u ∈ w.shared.users, u.id = g.token.payload.sub ∧
      u.role = g.token.payload.role ∧ Earned kit w u) ∧
    (∀ r ∈ w.shared.session.tokens.rows, ∃ u ∈ w.shared.users, u.id = r.userId ∧ Earned kit w u) ∧
    ∀ (t : Nat) bearer roles user,
      w.threads[t]? = some (.returned (.auth bearer roles) (.ok (.principal user))) →
        (roles = [] ∨ user.role ∈ roles) ∧
        ∃ u ∈ w.shared.users, u.id = user.userId ∧ u.role = user.role ∧ Earned kit w u := by
  refine ⟨fun g hg => earned_of_signature hr hg, fun r hmem => earned_of_token hr hmem,
    fun t bearer roles user ht => ?_⟩
  exact earned_of_principal hr ((sound kit).post hr ht _ rfl)

/-! ## One account for an email -/

/-- In every run: no two accounts have the same email; of the registrations for an email at
most one is answered with an account, which is the stored one, and stays it; and a
registration that is told the email is taken is told the truth. -/
theorem emails_are_taken_once (hr : (service kit).Reaches (lawful kit) initial w) :
    (w.shared.users.map (·.email)).Nodup ∧
    (∀ (t t' : Nat) dto dto' user user',
      w.threads[t]? = some (.returned (.register dto) (.ok (.registered (.created user)))) →
      w.threads[t']? = some (.returned (.register dto') (.ok (.registered (.created user')))) →
      dto.email = dto'.email → t = t') ∧
    (∀ (t : Nat) dto user,
      w.threads[t]? = some (.returned (.register dto) (.ok (.registered (.created user)))) →
      ∀ w', (service kit).Reaches (lawful kit) w w' → ∃ u ∈ w'.shared.users, u.id = user.id ∧
        u.email = dto.email ∧ u.email = user.email ∧ u.role = user.role) ∧
    ∀ (t : Nat) dto,
      w.threads[t]? = some (.returned (.register dto) (.ok (.registered .emailAlreadyExists))) →
      ∃ u ∈ w.shared.users, u.email = dto.email := by
  have hsound := sound kit
  have hi := hsound.inv hr
  refine ⟨hi.emails, fun t t' dto dto' user user' ht ht' he => ?_, fun t dto user ht w' hr' => ?_,
    fun t dto ht => hsound.post hr ht _ rfl⟩
  · obtain ⟨g, hg, htid, hemail, -⟩ := hsound.post hr ht _ rfl
    obtain ⟨g', hg', htid', hemail', -⟩ := hsound.post hr ht' _ rfl
    have hnodup := hi.emails
    rw [hi.listed, List.map_map] at hnodup
    have heq : g = g' := List.inj_on_of_nodup_map hnodup hg hg'
      (hemail.trans (he.trans hemail'.symm))
    have hsame : g.tid = g'.tid := congrArg Registration.tid heq
    exact htid.symm.trans (hsame.trans htid')
  · obtain ⟨g, hg, -, hemail, now, rfl⟩ := hsound.post hr ht _ rfl
    have hin : g.user ∈ w.shared.users := by
      rw [hi.listed]
      exact List.mem_map_of_mem hg
    have hgrows : w.shared.Grows w'.shared := hsound.rely_of_reaches hr hr' (Nat.le_refl _)
    exact ⟨g.user, hgrows.users hin, rfl, hemail, rfl, rfl⟩

end Run

/-! ## A run: a registration, a second one for the same email, a login and a request -/

namespace Scenario

/-- A hash shows its salt and its password, and `bearer` is the guest's access token. -/
def kit : Kit :=
  { config :=
      { Identity.Scenario.cfg with verify := fun hash password => hash == "salt:" ++ password }
    hash := fun salt password => salt ++ ":" ++ password
    verifyJwt := fun text =>
      if text = "bearer" then some { payload := { sub := 1, role := .guest }, expiresAt := 10 }
      else none }

def dto : RegisterDto := { email := "guest@example.com", password := "secret", role := .guest }

def again : RegisterDto := { email := "guest@example.com", password := "other", role := .host }

def plain : Choice := {}

def schedule : List Event :=
  [.spawn (.register dto), .spawn (.register again), .step 0 { salt := "salt" }, .step 1 plain,
    .step 0 { session := { id := 1 } }, .step 1 { session := { id := 2 } }, .ret 0, .ret 1,
    .spawn (.session (.login { email := "guest@example.com", password := "secret" })),
    .step 2 plain, .step 2 plain, .step 2 { session := { token := "token" } }, .step 2 plain,
    .step 2 { session := { id := 3, familyId := 4 } }, .ret 2,
    .spawn (.auth (some "bearer") [.guest]), .step 3 plain, .ret 3]

/-- The first registration has its account, the second has none, and the guard lets the
guest through. -/
def done (w : World) : Bool :=
  (match w.threads[(0 : Nat)]? with
    | some (.returned _ (.ok (.registered (.created user)))) => user.id == 1
    | _ => false) &&
  (match w.threads[(1 : Nat)]? with
    | some (.returned _ (.ok (.registered .emailAlreadyExists))) => true
    | _ => false) &&
  (match w.threads[(3 : Nat)]? with
    | some (.returned _ (.ok (.principal user))) => user == { userId := 1, role := .guest }
    | _ => false) && w.shared.signed.length == 1

theorem reaches_done : ∃ w, (service kit).Reaches (lawful kit) initial w ∧ done w = true :=
  have hrun : ((service kit).run (lawful kit) initial schedule).any done = true := by decide +kernel
  Machine.exists_reaches_of_run hrun

end Scenario

theorem access_is_earned_guest :
    ∃ w, (service Scenario.kit).Reaches (lawful Scenario.kit) initial w ∧ Scenario.done w = true ∧
      ∀ g ∈ w.shared.signed, ∃ u ∈ w.shared.users, u.id = g.token.payload.sub ∧
        u.role = g.token.payload.role ∧ Earned Scenario.kit w u := by
  obtain ⟨w, hr, hd⟩ := Scenario.reaches_done
  exact ⟨w, hr, hd, (access_is_earned hr).1⟩

theorem emails_are_taken_once_guest :
    ∃ w, (service Scenario.kit).Reaches (lawful Scenario.kit) initial w ∧ Scenario.done w = true ∧
      (w.shared.users.map (·.email)).Nodup := by
  obtain ⟨w, hr, hd⟩ := Scenario.reaches_done
  exact ⟨w, hr, hd, (emails_are_taken_once hr).1⟩

end Accounts

end NoOverlap.Identity
