import NoOverlap.Concurrency.RelyGuarantee
import NoOverlap.Identity.Session

/-!
# What can be counted on

Under every schedule and every fault, no token is deleted, a revoked one stays revoked,
no two have the same hash, and a successor is inserted into the family of the token it
replaces.  `sessions` says so of every statement that the three calls issue.
-/

namespace NoOverlap.Identity

open Relational Concurrency RelyGuarantee

/-! ## What a statement does -/

/-- A row later on: only `revokedAt` changes, and a revoked row stays revoked. -/
structure RefreshToken.Later (r r' : RefreshToken) : Prop where
  id : r'.id = r.id
  userId : r'.userId = r.userId
  familyId : r'.familyId = r.familyId
  tokenHash : r'.tokenHash = r.tokenHash
  expiresAt : r'.expiresAt = r.expiresAt
  revoked : r.revokedAt.isSome = true → r'.revokedAt.isSome = true

theorem RefreshToken.Later.refl (r : RefreshToken) : r.Later r := ⟨rfl, rfl, rfl, rfl, rfl, fun h => h⟩

theorem RefreshToken.Later.trans {r₁ r₂ r₃ : RefreshToken} (h : r₁.Later r₂) (h' : r₂.Later r₃) :
    r₁.Later r₃ :=
  ⟨h'.id.trans h.id, h'.userId.trans h.userId, h'.familyId.trans h.familyId,
    h'.tokenHash.trans h.tokenHash, h'.expiresAt.trans h.expiresAt, fun hr => h'.revoked (h.revoked hr)⟩

theorem later_revoke (r : RefreshToken) (now : Int) : r.Later (Store.revoke r now) :=
  ⟨rfl, rfl, rfl, rfl, rfl, fun _ => rfl⟩

/-- The row that an insert adds. -/
def TokenData.row (data : TokenData) (id familyId : Id) : RefreshToken :=
  { id := id, userId := data.userId, familyId := familyId, tokenHash := data.tokenHash,
    expiresAt := data.expiresAt, revokedAt := none }

namespace Store

variable {s s' : Store} {t : Nat} {c : Choice}

/-- The four things a statement can do to the tokens. -/
inductive Effect (s : Store) (t : Nat) : Statement → Store → Prop where
  | unchanged (o : Statement) : Effect s t o s
  | created (data : TokenData) (id familyId : Id) (hid : s.tokens.find? id = none)
      (hf : data.familyId = some familyId ∨ data.familyId = none ∧ s.freshFamily familyId = true)
      (hh : s.findByHash data.tokenHash = none) :
      Effect s t (.tokenCreate data) (s.insertToken id familyId data)
  | rotated (id : Id) (now : Int) (data : TokenData) (new familyId : Id) (r : RefreshToken)
      (hr : s.tokens.find? id = some r) (hid : s.tokens.find? new = none)
      (hf : data.familyId = some familyId ∨ data.familyId = none ∧ s.freshFamily familyId = true)
      (hh : s.findByHash data.tokenHash = none) :
      Effect s t (.tokenRotate id now data)
        { (s.revokeToken id now).insertToken new familyId data with
          exchanges := s.exchanges ++ [⟨id, new⟩] }
  | revoked (familyId : Id) (now : Int) :
      Effect s t (.tokenRevokeFamily familyId now) (s.revokeFamily t familyId now).2

theorem find?_revokeToken (id k : Id) (now : Int) :
    (s.revokeToken id now).tokens.find? k =
      (s.tokens.find? k).map fun r => if (r.id == id) = true then revoke r now else r := by
  rw [revokeToken, Table.find?_update]

theorem find?_revokeToken_eq_none {id k : Id} {now : Int} :
    (s.revokeToken id now).tokens.find? k = none ↔ s.tokens.find? k = none := by
  rw [find?_revokeToken, Option.map_eq_none_iff]

theorem findByHash_revokeToken {id : Id} {now : Int} {hash : String} :
    (s.revokeToken id now).findByHash hash = none ↔ s.findByHash hash = none := by
  simp only [findByHash, revokeToken, Table.update, List.find?_eq_none, List.mem_map]
  constructor
  · intro h r hr
    have hrow := h _ ⟨r, hr, rfl⟩
    split at hrow <;> exact hrow
  · rintro h - ⟨r, hr, rfl⟩
    have hrow := h r hr
    split <;> exact hrow

theorem freshFamily_revokeToken {id f : Id} {now : Int}
    (h : (s.revokeToken id now).freshFamily f = true) : s.freshFamily f = true := by
  simp only [freshFamily, revokeToken, Table.update, List.all_eq_true, List.mem_map] at h ⊢
  intro r hr
  have hrow := h _ ⟨r, hr, rfl⟩
  split at hrow <;> exact hrow

/-- An insert that takes place. -/
theorem tokenCreate_eq_ok {data : TokenData} (h : s.tokenCreate c data = some (.ok (), s')) :
    ∃ familyId, s' = s.insertToken c.id familyId data ∧ s.tokens.find? c.id = none ∧
      (data.familyId = some familyId ∨ data.familyId = none ∧ s.freshFamily familyId = true) ∧
      s.findByHash data.tokenHash = none := by
  unfold tokenCreate at h
  split at h
  · cases h
  · next hrefuse =>
    have hh : s.findByHash data.tokenHash = none := by
      unfold refuses at hrefuse
      split_ifs at hrefuse with hu hh
      simpa using hh
    split at h
    · cases h
    · next hid =>
      have hid : s.tokens.find? c.id = none := by simpa using hid
      split at h
      · next f hf =>
        cases h
        exact ⟨f, rfl, hid, .inl hf, hh⟩
      · next hf =>
        split at h
        · next hfresh =>
          cases h
          exact ⟨c.familyId, rfl, hid, .inr ⟨hf, hfresh⟩, hh⟩
        · cases h

/-- An insert that is refused changes nothing. -/
theorem tokenCreate_eq_error {data : TokenData} {e : Err}
    (h : s.tokenCreate c data = some (.error e, s')) : s' = s := by
  unfold tokenCreate at h
  split at h
  · cases h
    rfl
  · split at h
    · cases h
    · split at h
      · cases h
      · split at h <;> cases h

/-- A login's insert begins the family that the environment has drawn. -/
theorem tokenCreate_begins {data : TokenData} (hnone : data.familyId = none)
    (h : s.tokenCreate c data = some (.ok (), s')) :
    s' = s.insertToken c.id c.familyId data ∧ s.tokens.find? c.id = none ∧
      s.freshFamily c.familyId = true ∧ s.findByHash data.tokenHash = none := by
  obtain ⟨-, -, hid, -, hh⟩ := tokenCreate_eq_ok h
  unfold tokenCreate at h
  simp only [hid, hnone, Option.isSome_none, Bool.false_eq_true, if_false] at h
  split at h
  · cases h
  · split at h
    · next hfresh =>
      cases h
      exact ⟨rfl, hid, hfresh, hh⟩
    · cases h

/-- A rotation that takes place. -/
theorem tokenRotate_eq_ok {id : Id} {now : Int} {data : TokenData}
    (h : s.tokenRotate c id now data = some (.ok (), s')) :
    ∃ familyId r, s' = { (s.revokeToken id now).insertToken c.id familyId data with
        exchanges := s.exchanges ++ [⟨id, c.id⟩] } ∧
      s.tokens.find? id = some r ∧ s.tokens.find? c.id = none ∧
      (data.familyId = some familyId ∨ data.familyId = none ∧ s.freshFamily familyId = true) ∧
      s.findByHash data.tokenHash = none := by
  unfold tokenRotate at h
  split at h
  · cases h
  · next hr =>
    obtain ⟨row, hrow⟩ := Option.ne_none_iff_exists'.mp (by simpa using hr)
    split at h
    · next s₁ hc =>
      cases h
      obtain ⟨f, rfl, hid, hf, hh⟩ := tokenCreate_eq_ok hc
      exact ⟨f, row, rfl, hrow, find?_revokeToken_eq_none.mp hid,
        hf.imp_right fun h => ⟨h.1, freshFamily_revokeToken h.2⟩, findByHash_revokeToken.mp hh⟩
    · cases h
    · cases h

/-- A rotation that is refused changes nothing. -/
theorem tokenRotate_eq_error {id : Id} {now : Int} {data : TokenData} {e : Err}
    (h : s.tokenRotate c id now data = some (.error e, s')) : s' = s := by
  unfold tokenRotate at h
  split at h
  · cases h
    rfl
  · split at h
    · cases h
    · cases h
      rfl
    · cases h

theorem effect_of_perform {o : Statement} {r : Except Err o.Resp}
    (hx : o.perform t c s = some (r, s')) : s.Effect t o s' := by
  cases o with
  | tokenRevokeFamily f now => cases hx; exact .revoked f now
  | tokenCreate data =>
    cases r with
    | ok u =>
      obtain ⟨f, rfl, hid, hf, hh⟩ := tokenCreate_eq_ok hx
      exact .created data _ f hid hf hh
    | error e =>
      have he : s' = s := tokenCreate_eq_error hx
      subst he
      exact .unchanged _
  | tokenRotate id now data =>
    cases r with
    | ok u =>
      obtain ⟨f, row, rfl, hrow, hid, hf, hh⟩ := tokenRotate_eq_ok hx
      exact .rotated id now data c.id f row hrow hid hf hh
    | error e =>
      have he : s' = s := tokenRotate_eq_error hx
      subst he
      exact .unchanged _
  | _ => cases hx; exact .unchanged _

theorem effect_of_exec {o : Statement} {r : Except Err o.Resp} (hx : o.exec t c s = some (r, s')) :
    s.Effect t o s' := by
  unfold Statement.exec at hx
  split at hx
  · cases hx
    exact .unchanged _
  · obtain ⟨⟨r', s₁⟩, hp, he⟩ := Option.map_eq_some_iff.mp hx
    cases he
    exact effect_of_perform hp
  · exact effect_of_perform hx

/-- No row is deleted, no user changes, and history is only added to. -/
structure Grows (s s' : Store) : Prop where
  users : s'.users = s.users
  tokens : Table.Extends RefreshToken.Later s.tokens s'.tokens
  exchanges : s.exchanges ⊆ s'.exchanges
  revocations : s.revocations ⊆ s'.revocations

theorem Grows.refl (s : Store) : s.Grows s :=
  ⟨rfl, Table.Extends.refl RefreshToken.Later.refl _, fun _ h => h, fun _ h => h⟩

theorem Grows.trans {s₁ s₂ s₃ : Store} (h : s₁.Grows s₂) (h' : s₂.Grows s₃) : s₁.Grows s₃ :=
  ⟨h'.users.trans h.users, h.tokens.trans (fun _ _ _ => RefreshToken.Later.trans) h'.tokens,
    fun _ hx => h'.exchanges (h.exchanges hx), fun _ hx => h'.revocations (h.revocations hx)⟩

theorem extends_revoke (s : Store) (hit : RefreshToken → Bool) (now : Int) :
    Table.Extends RefreshToken.Later s.tokens
      (s.tokens.update hit (revoke · now) (key_revoke now)) := by
  refine Table.Extends.update (key_revoke now) fun r _ => ?_
  split
  · exact later_revoke r now
  · exact RefreshToken.Later.refl r

theorem Effect.grows {o : Statement} (h : s.Effect t o s') : s.Grows s' := by
  cases h with
  | unchanged => exact Grows.refl s
  | created data id familyId hid hf hh =>
    have hinsert : Table.Extends RefreshToken.Later s.tokens
        (s.insertToken id familyId data).tokens :=
      Table.Extends.insert RefreshToken.Later.refl _ _
    exact ⟨rfl, hinsert, fun _ h => h, fun _ h => h⟩
  | rotated id now data new familyId r hr hid hf hh =>
    have hrevoke := s.extends_revoke (fun r => r.id == id) now
    have hinsert : Table.Extends RefreshToken.Later (s.revokeToken id now).tokens
        ((s.revokeToken id now).insertToken new familyId data).tokens :=
      Table.Extends.insert RefreshToken.Later.refl _ _
    exact ⟨rfl, hrevoke.trans (fun _ _ _ => RefreshToken.Later.trans) hinsert,
      fun _ h => List.mem_append_left _ h, fun _ h => h⟩
  | revoked familyId now =>
    exact ⟨rfl, s.extends_revoke _ now, fun _ h => h, fun _ h => List.mem_append_left _ h⟩

theorem mem_insertToken {id f : Id} {data : TokenData} (hid : s.tokens.find? id = none)
    {r : RefreshToken} :
    r ∈ (s.insertToken id f data).tokens.rows ↔ r ∈ s.tokens.rows ∨ r = data.row id f := by
  have hrows : (s.insertToken id f data).tokens.rows = s.tokens.rows ++ [data.row id f] :=
    Table.insert_of_fresh hid
  rw [hrows, List.mem_append, List.mem_singleton]

theorem mem_revoke {hit : RefreshToken → Bool} {now : Int} {r' : RefreshToken}
    (h : r' ∈ (s.tokens.update hit (revoke · now) (key_revoke now)).rows) :
    ∃ r ∈ s.tokens.rows, r.Later r' ∧ (hit r = true → r'.revokedAt.isSome = true) ∧
      (hit r = false → r' = r) := by
  obtain ⟨r, hr, rfl⟩ := Table.mem_update.mp h
  refine ⟨r, hr, ?_⟩
  by_cases hh : hit r = true
  · rw [if_pos hh]
    refine ⟨later_revoke r now, fun _ => rfl, fun hn => ?_⟩
    rw [hh] at hn
    cases hn
  · rw [if_neg hh]
    exact ⟨RefreshToken.Later.refl r, fun ht => (hh ht).elim, fun _ => rfl⟩

/-- The unique index on `token_hash`. -/
def HashUnique (s : Store) : Prop :=
  ∀ r ∈ s.tokens.rows, ∀ r' ∈ s.tokens.rows, r.tokenHash = r'.tokenHash → r.id = r'.id

theorem HashUnique.revoke (h : s.HashUnique) {hit : RefreshToken → Bool} {now : Int}
    (hs : s'.tokens = s.tokens.update hit (revoke · now) (key_revoke now)) : s'.HashUnique := by
  intro r₁ h₁ r₂ h₂ hh
  rw [hs] at h₁ h₂
  obtain ⟨r₁', hm₁, hl₁, -⟩ := mem_revoke h₁
  obtain ⟨r₂', hm₂, hl₂, -⟩ := mem_revoke h₂
  rw [hl₁.tokenHash, hl₂.tokenHash] at hh
  rw [hl₁.id, hl₂.id]
  exact h r₁' hm₁ r₂' hm₂ hh

theorem HashUnique.insertToken (h : s.HashUnique) {id f : Id} {data : TokenData}
    (hid : s.tokens.find? id = none) (hh : s.findByHash data.tokenHash = none) :
    (s.insertToken id f data).HashUnique := by
  have hnew : ∀ r ∈ s.tokens.rows, r.tokenHash ≠ data.tokenHash := by
    simpa [findByHash] using hh
  intro r hr r' hr' he
  rcases (mem_insertToken hid).mp hr with hr | rfl
  · rcases (mem_insertToken hid).mp hr' with hr' | rfl
    · exact h r hr r' hr' he
    · exact (hnew r hr he).elim
  · rcases (mem_insertToken hid).mp hr' with hr' | rfl
    · exact (hnew r' hr' he.symm).elim
    · rfl

theorem HashUnique.effect (h : s.HashUnique) {o : Statement} (he : s.Effect t o s') :
    s'.HashUnique := by
  cases he with
  | unchanged => exact h
  | created data id f hid hf hh => exact h.insertToken hid hh
  | rotated id now data new f r hr hid hf hh =>
    have hrevoke : (s.revokeToken id now).HashUnique := h.revoke rfl
    exact hrevoke.insertToken (find?_revokeToken_eq_none.mpr hid) (findByHash_revokeToken.mpr hh)
  | revoked f now => exact h.revoke rfl

theorem findByHash_eq_some (h : s.HashUnique) {hash : String} {r : RefreshToken} :
    s.findByHash hash = some r ↔ r ∈ s.tokens.rows ∧ r.tokenHash = hash := by
  constructor
  · intro hf
    exact ⟨List.mem_of_find?_eq_some hf, by simpa using List.find?_some hf⟩
  · rintro ⟨hr, rfl⟩
    cases hf : s.findByHash r.tokenHash with
    | none =>
      have hne := List.find?_eq_none.mp hf r hr
      simp at hne
    | some r' =>
      have hm : r' ∈ s.tokens.rows := List.mem_of_find?_eq_some hf
      have hhash : r'.tokenHash = r.tokenHash := by simpa using List.find?_some hf
      have hid : key r' = key r := h r' hm r hr hhash
      rw [Table.eq_of_key_eq hm hr hid]

/-- A token is found again, as it is by now. -/
theorem findByHash_grows (h : s.HashUnique) (h' : s'.HashUnique) (hg : s.Grows s') {hash : String}
    {r : RefreshToken} (hr : s.findByHash hash = some r) :
    ∃ r', s'.findByHash hash = some r' ∧ r.Later r' := by
  obtain ⟨hm, rfl⟩ := (findByHash_eq_some h).mp hr
  obtain ⟨r', hr', hl⟩ := hg.tokens r.id r (Table.find?_of_mem hm)
  exact ⟨r', (findByHash_eq_some h').mpr ⟨Table.mem_of_find? hr', hl.tokenHash⟩, hl⟩

/-- The two ways a statement treats the record of revocations. -/
theorem Effect.revocations {o : Statement} (h : s.Effect t o s') :
    s'.revocations = s.revocations ∨
      ∃ f now, o = .tokenRevokeFamily f now ∧ s' = (s.revokeFamily t f now).2 := by
  cases h with
  | revoked f now => exact .inr ⟨f, now, rfl, rfl⟩
  | _ => exact .inl rfl

/-- The token of this id belongs to this family. -/
def Belongs (s : Store) (id familyId : Id) : Prop :=
  ∃ r, s.tokens.find? id = some r ∧ r.familyId = familyId

theorem Belongs.grows {id f : Id} (h : s.Belongs id f) (hg : s.Grows s') : s'.Belongs id f := by
  obtain ⟨r, hr, rfl⟩ := h
  obtain ⟨r', hr', hl⟩ := hg.tokens id r hr
  exact ⟨r', hr', hl.familyId⟩

end Store

/-! ## What the programs issue -/

/-- A new family is begun by a login only, a rotation stays in the family of its token,
and a family that is revoked has a token. -/
def Store.Lawful (s : Store) : Statement → Prop
  | .tokenCreate data => data.familyId = none
  | .tokenRotate id _ data => ∃ f, data.familyId = some f ∧ s.Belongs id f
  | .tokenRevokeFamily f _ => ∃ id, s.Belongs id f
  | _ => True

def sessions : RelyGuarantee Store Call Statement.Resp Err Reply :=
  { Step := fun a s o r s' => ∃ ch, o.exec a.tid ch s = some (r, s')
    Inv := Store.HashUnique
    Rely := fun _ => Store.Grows
    Guar := fun _ s o _ s' => s.Grows s' ∧ s.Lawful o
    Post := fun _ _ _ => True
    Fresh := fun _ _ => True
    Lost := fun _ _ => True }

namespace Sessions

/-- A statement that reports a value took place. -/
theorem perform_of_exec_ok {t : Nat} {ch : Choice} {o : Statement} {v : o.Resp} {s s' : Store}
    (hx : o.exec t ch s = some (.ok v, s')) : o.perform t ch s = some (.ok v, s') := by
  unfold Statement.exec at hx
  split at hx
  · cases hx
  · obtain ⟨x, -, he⟩ := Option.map_eq_some_iff.mp hx
    cases he
  · exact hx

theorem revoked_of_exec {t : Nat} {ch : Choice} {f : Id} {now : Int} {n : Nat} {s s' : Store}
    (hx : (Statement.tokenRevokeFamily f now).exec t ch s = some (.ok n, s')) :
    ⟨t, f⟩ ∈ s'.revocations := by
  have hp := perform_of_exec_ok hx
  cases hp
  exact List.mem_append_right _ (List.mem_singleton_self _)

variable {a : Agent} {s : Store} {cfg : Config}

/-- A statement that is lawful whatever the thread knows, and the rest. -/
theorem safe_op {γ : Type} {Q : Except Err γ → Store → Prop} {o : Statement}
    {f : o.Resp → Async γ} (ho : ∀ s₁ : Store, s.Grows s₁ → s₁.Lawful o)
    (h : ∀ s₁, s.Grows s₁ → s₁.HashUnique → ∀ ch r s₂, o.exec a.tid ch s₁ = some (r, s₂) →
      s₁.Grows s₂ → sessions.Cont a Q f r s₂) : sessions.Safe a Q (await o >>= f) s := by
  refine Safe.op_bind fun s₁ hg hi r s₂ hx => ?_
  obtain ⟨ch, hx⟩ := hx
  have heff := Store.effect_of_exec hx
  exact ⟨hi.effect heff, ⟨heff.grows, ho s₁ hg⟩, h s₁ hg hi ch r s₂ hx heff.grows⟩

/-- The family is revoked in the name of the thread. -/
theorem safe_revokeFamily {Q : Except Err Unit → Store → Prop} {id f : Id} (hb : s.Belongs id f)
    (herr : ∀ e s', s.Grows s' → Q (.error e) s')
    (hok : ∀ s', s.Grows s' → ⟨a.tid, f⟩ ∈ s'.revocations → Q (.ok ()) s') :
    sessions.Safe a Q (AuthService.revokeFamily f) s := by
  refine safe_op (o := .newDate) (fun _ _ => trivial) fun s₁ hg₁ _ ch r s₂ hx hg₂ => ?_
  have hg := hg₁.trans hg₂
  cases r with
  | error e => exact herr e s₂ hg
  | ok now =>
    refine safe_op (o := .tokenRevokeFamily f now) (fun s₃ hg₃ => ⟨id, (hb.grows hg).grows hg₃⟩)
      fun s₃ hg₃ _ ch r s₄ hx hg₄ => ?_
    have hg' := (hg.trans hg₃).trans hg₄
    cases r with
    | error e => exact herr e s₄ hg'
    | ok n => exact hok s₄ hg' (revoked_of_exec hx)

theorem safe_mint {γ : Type} {K : Store → Prop} {f : IssuedRefresh → Async γ}
    (hK : ∀ s s', s.Grows s' → K s → K s') (hk : K s)
    (hf : ∀ issued s', K s' → sessions.Safe a (fun _ => K) (f issued) s') :
    sessions.Safe a (fun _ => K) (TokenService.mint cfg >>= f) s := by
  have hmint : sessions.Safe a (fun _ => K) (TokenService.mint cfg) s := by
    refine safe_op (o := .randomBytes) (fun _ _ => trivial) fun s₁ hg₁ _ ch r s₂ _ hg₂ => ?_
    have hk₂ : K s₂ := hK _ _ (hg₁.trans hg₂) hk
    cases r with
    | error e => exact hk₂
    | ok token =>
      refine safe_op (o := .newDate) (fun _ _ => trivial) fun s₃ hg₃ _ ch r s₄ _ hg₄ => ?_
      have hk₄ : K s₄ := hK _ _ (hg₃.trans hg₄) hk₂
      cases r with
      | error e => exact hk₄
      | ok now => exact hk₄
  exact Safe.seq hmint hf

theorem safe_sign {K : Store → Prop} (hK : ∀ s s', s.Grows s' → K s → K s') (hk : K s)
    (user : User) : sessions.Safe a (fun _ => K) (TokenService.signAccessToken cfg user) s := by
  intro s₁ hg hi r s₂ hx
  obtain ⟨ch, hx⟩ := hx
  have heff := Store.effect_of_exec hx
  exact ⟨hi.effect heff, ⟨heff.grows, trivial⟩, hK _ _ (hg.trans heff.grows) hk⟩

theorem safe_login (dto : LoginDto) :
    sessions.Safe a (fun _ _ => True) (AuthService.login cfg dto) s := by
  have hK : ∀ s s' : Store, s.Grows s' → True → True := fun _ _ _ h => h
  refine safe_op (o := .userFindByEmail dto.email) (fun _ _ => trivial)
    fun s₁ _ _ ch r s₂ _ _ => ?_
  cases r with
  | error e => trivial
  | ok user =>
    cases user with
    | none => trivial
    | some user =>
      simp only [cont_ok]
      split
      · trivial
      · refine Safe.seq (safe_sign hK trivial user) fun token s₃ _ => ?_
        refine Safe.seq (safe_mint hK trivial fun issued s₄ _ => ?_) fun _ _ _ => trivial
        refine safe_op (o := .tokenCreate _) (fun _ _ => rfl) fun s₅ _ _ ch r s₆ _ _ => ?_
        cases r with
        | error e => trivial
        | ok u => trivial

/-- What a refresh does with a token of family `f`. -/
theorem safe_refreshPresented {presented : RefreshToken}
    (hb : s.Belongs presented.id presented.familyId) :
    sessions.Safe a (fun _ _ => True) (AuthService.refreshPresented cfg presented) s := by
  refine safe_op (o := .newDate) (fun _ _ => trivial) fun s₁ hg₁ _ ch r s₂ _ hg₂ => ?_
  cases r with
  | error e => trivial
  | ok now =>
    rw [cont_ok]
    split
    · trivial
    · refine safe_op (o := .userFindById presented.userId) (fun _ _ => trivial)
        fun s₃ hg₃ _ ch r s₄ _ hg₄ => ?_
      have hb₄ := (((hb.grows hg₁).grows hg₂).grows hg₃).grows hg₄
      cases r with
      | error e => trivial
      | ok user =>
        cases user with
        | none => trivial
        | some user =>
          let K : Store → Prop := fun s => s.Belongs presented.id presented.familyId
          have hK : ∀ s s' : Store, s.Grows s' → K s → K s' := fun _ _ hg h => h.grows hg
          have hrotate :
              sessions.Safe a (fun _ => K) (AuthService.rotate cfg presented user) s₄ := by
            refine safe_op (o := .newDate) (fun _ _ => trivial) fun s₅ hg₅ _ ch r s₆ _ hg₆ => ?_
            have hb₆ : K s₆ := (hb₄.grows hg₅).grows hg₆
            cases r with
            | error e => exact hb₆
            | ok revokedAt =>
              refine safe_mint hK hb₆ fun issued s₇ hb₇ => ?_
              refine safe_op (o := .tokenRotate _ _ _)
                (fun s₈ hg₈ => ⟨presented.familyId, rfl, hb₇.grows hg₈⟩)
                fun s₈ hg₈ _ ch r s₉ _ hg₉ => ?_
              have hb₉ : K s₉ := (hb₇.grows hg₈).grows hg₉
              cases r with
              | error e => exact hb₉
              | ok u => exact hb₉
          refine Safe.bind (hrotate.imp fun r s₅ _ => ?_)
          cases r with
          | error e => trivial
          | ok refresh =>
            exact Safe.seq (safe_sign (fun _ _ _ h => h) trivial user) fun _ _ _ => trivial

theorem findByHash_of_exec {t : Nat} {ch : Choice} {hash : String} {r : Option RefreshToken}
    {s s' : Store} (hx : (Statement.tokenFindUnique hash).exec t ch s = some (.ok r, s')) :
    s.findByHash hash = r := by
  have hp := perform_of_exec_ok hx
  simp only [Statement.perform, Option.some.injEq, Prod.mk.injEq, Except.ok.injEq] at hp
  exact hp.1

/-- The token of a hash, once it has been found. -/
theorem belongs_of_tokenFindUnique {t : Nat} {ch : Choice} {hash : String} {r : RefreshToken}
    {s s' : Store} (hx : (Statement.tokenFindUnique hash).exec t ch s = some (.ok (some r), s')) :
    s' = s ∧ s.findByHash hash = some r ∧ s'.Belongs r.id r.familyId := by
  have hr := findByHash_of_exec hx
  have hp := perform_of_exec_ok hx
  simp only [Statement.perform, Option.some.injEq, Prod.mk.injEq] at hp
  obtain ⟨-, rfl⟩ := hp
  exact ⟨rfl, hr, r, Table.find?_of_mem (List.mem_of_find?_eq_some hr), rfl⟩

theorem safe_refresh (raw : Option String) :
    sessions.Safe a (fun _ _ => True) (AuthService.refresh cfg raw) s := by
  cases raw with
  | none => trivial
  | some raw =>
    by_cases hempty : raw = ""
    · simp only [AuthService.refresh, if_pos hempty, safe_throw]
    · simp only [AuthService.refresh, if_neg hempty]
      refine safe_op (o := .tokenFindUnique (cfg.hashToken raw)) (fun _ _ => trivial)
        fun s₁ _ _ ch r s₂ hx _ => ?_
      cases r with
      | error e => trivial
      | ok presented =>
        cases presented with
        | none => trivial
        | some presented =>
          have hb := (belongs_of_tokenFindUnique hx).2.2
          simp only [cont_ok]
          split
          · have hrevoke : sessions.Safe a (fun _ _ => True)
                (AuthService.revokeFamily presented.familyId) s₂ :=
              safe_revokeFamily hb (fun _ _ _ => trivial) fun _ _ _ => trivial
            exact Safe.seq hrevoke fun _ _ _ => trivial
          · exact safe_refreshPresented hb

/-- A logout that returns has revoked the family of its token. -/
theorem safe_logout {raw : String} {r : RefreshToken} (hu : s.HashUnique)
    (hr : s.findByHash (cfg.hashToken raw) = some r) (hraw : raw ≠ "") :
    sessions.Safe a (fun res s' => res = .ok () → ⟨a.tid, r.familyId⟩ ∈ s'.revocations)
      (AuthService.logout cfg (some raw)) s := by
  simp only [AuthService.logout, if_neg hraw]
  refine safe_op (o := .tokenFindUnique (cfg.hashToken raw)) (fun _ _ => trivial)
    fun s₁ hg₁ hi ch res s₂ hx _ => ?_
  obtain ⟨r₁, hr₁, hl⟩ := Store.findByHash_grows hu hi hg₁ hr
  cases res with
  | error e => exact fun h => by cases h
  | ok presented =>
    cases presented with
    | none =>
      have hnone := findByHash_of_exec hx
      rw [hnone] at hr₁
      cases hr₁
    | some presented =>
      obtain ⟨rfl, hfound, hb⟩ := belongs_of_tokenFindUnique hx
      have hrow : presented = r₁ := Option.some.inj (hfound.symm.trans hr₁)
      have hf : presented.familyId = r.familyId := hrow ▸ hl.familyId
      refine safe_revokeFamily hb (fun e s' _ h => by cases h) fun s' _ hrev _ => ?_
      rwa [← hf]

theorem safe_logout_any (raw : Option String) :
    sessions.Safe a (fun _ _ => True) (AuthService.logout cfg raw) s := by
  cases raw with
  | none => trivial
  | some raw =>
    by_cases hempty : raw = ""
    · simp only [AuthService.logout, if_pos hempty, safe_pure]
    · simp only [AuthService.logout, if_neg hempty]
      refine safe_op (o := .tokenFindUnique (cfg.hashToken raw)) (fun _ _ => trivial)
        fun s₁ _ _ ch r s₂ hx _ => ?_
      cases r with
      | error e => trivial
      | ok presented =>
        cases presented with
        | none => trivial
        | some presented =>
          exact safe_revokeFamily (belongs_of_tokenFindUnique hx).2.2 (fun _ _ _ => trivial)
            fun _ _ _ => trivial

theorem safe_program (c : Call) : sessions.Safe a (fun _ _ => True) (c.program cfg) s := by
  cases c with
  | login dto => exact Safe.seq (safe_login dto) fun _ _ _ => trivial
  | refresh raw => exact Safe.seq (safe_refresh raw) fun _ _ _ => trivial
  | logout raw => exact Safe.seq (safe_logout_any raw) fun _ _ _ => trivial

theorem sound (cfg : Config) (users : Table User) :
    Sound sessions (service cfg) anything (Store.init users) where
  start := by simp [sessions, Store.HashUnique, Store.init]
  fresh_start := fun _ => trivial
  rely_refl := fun _ s => Store.Grows.refl s
  rely_trans := fun _ _ _ _ => Store.Grows.trans
  guar_rely := fun _ _ _ _ _ _ _ h => h.1
  fresh_stable := fun _ _ _ _ _ => trivial
  post_stable := fun _ _ _ _ _ _ _ => trivial
  lost_stable := fun _ _ _ _ _ => trivial
  step := fun w hr t c o k ch r s' ht hp hx => ⟨ch, hx⟩
  spawn := by
    intro t c s s' hi _ _ hs
    cases hs
    exact ⟨hi, fun _ => Store.Grows.refl s, safe_program c⟩
  ret := fun t c r s hi _ => ⟨hi, fun _ => Store.Grows.refl s⟩
  kill := fun t c p s hi _ => ⟨hi, fun _ _ => Store.Grows.refl s, trivial⟩

end Sessions

theorem eq_of_strikesFirst {t : Nat} {ch : Choice} {o : Statement} {r : Except Err o.Resp}
    {s s' : Store} (hs : ch.strikesFirst = true) (ho : o.fallible = true)
    (hx : o.exec t ch s = some (r, s')) : s' = s := by
  unfold Choice.strikesFirst at hs
  split at hs
  · next e hf =>
    simp only [Statement.exec, hf, ho] at hx
    cases hx
    rfl
  · cases hs

end NoOverlap.Identity
