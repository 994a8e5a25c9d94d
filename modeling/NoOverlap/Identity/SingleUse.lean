import NoOverlap.Identity.Tokens

/-!
# Refresh tokens are single-use

A refresh checks its token in one statement and rotates it in another, and the update
of the rotation is by id alone.  Two refreshes that have both seen the token unrevoked
both rotate it.  `rotatesOnce` is the condition that this does not happen: nobody else
has exchanged the token when its rotation runs.  That it has been revoked in the
meantime, along with its family, does no harm here.
-/

namespace NoOverlap.Identity

open Relational Concurrency RelyGuarantee

/-- The token has a successor. -/
def Store.exchanged (s : Store) (id : Id) : Bool := s.exchanges.any (·.presented == id)

/-- Every rotation finds that the token it was given has not been exchanged yet. -/
def rotatesOnce : Policy :=
  { anything with
    op := fun _ ch o s => match o with
      | .tokenRotate id _ _ => ch.strikesFirst || !s.exchanged id
      | _ => true }

/-- A family has one token that has not been exchanged, and an exchanged token is revoked. -/
structure Store.SingleUse (s : Store) : Prop where
  alone : ∀ r ∈ s.tokens.rows, ∀ r' ∈ s.tokens.rows, r.familyId = r'.familyId →
    s.exchanged r.id = false → s.exchanged r'.id = false → r.id = r'.id
  spent : ∀ x ∈ s.exchanges, ∃ r, s.tokens.find? x.presented = some r ∧ r.revokedAt.isSome = true
  once : (s.exchanges.map (·.presented)).Nodup

namespace Store.SingleUse

variable {s s' : Store}

theorem exchanged_eq_false {id : Id} :
    s.exchanged id = false ↔ id ∉ s.exchanges.map (·.presented) := by
  simp [exchanged]

theorem spent_grows (h : s.SingleUse) (hg : s.Grows s') {x : Exchange} (hx : x ∈ s.exchanges) :
    ∃ r, s'.tokens.find? x.presented = some r ∧ r.revokedAt.isSome = true := by
  obtain ⟨r, hr, hs⟩ := h.spent x hx
  obtain ⟨r', hr', hl⟩ := hg.tokens _ r hr
  exact ⟨r', hr', hl.revoked hs⟩

theorem created (h : s.SingleUse) {data : TokenData} {id f : Id}
    (hid : s.tokens.find? id = none) (hf : s.freshFamily f = true) :
    (s.insertToken id f data).SingleUse := by
  have hnew : ∀ r ∈ s.tokens.rows, r.familyId ≠ f := by
    simpa [freshFamily] using hf
  have hg : s.Grows (s.insertToken id f data) :=
    ⟨rfl, Table.Extends.insert RefreshToken.Later.refl _ _, fun _ h => h, fun _ h => h⟩
  refine ⟨fun r hr r' hr' he hn hn' => ?_, fun x hx => h.spent_grows hg hx, h.once⟩
  rcases (mem_insertToken hid).mp hr with hr | rfl
  · rcases (mem_insertToken hid).mp hr' with hr' | rfl
    · exact h.alone r hr r' hr' he hn hn'
    · exact (hnew r hr he).elim
  · rcases (mem_insertToken hid).mp hr' with hr' | rfl
    · exact (hnew r' hr' he.symm).elim
    · rfl

/-- The token that is rotated was the one of its family. -/
theorem rotated (h : s.SingleUse) {t : Nat} {data : TokenData} {id new f : Id} {now : Int}
    {r : RefreshToken} (hr : s.tokens.find? id = some r) (hn : s.exchanged id = false)
    (hf : r.familyId = f) (hid : s.tokens.find? new = none)
    (heff : s.Effect t (.tokenRotate id now data)
      { (s.revokeToken id now).insertToken new f data with
        exchanges := s.exchanges ++ [⟨id, new⟩] }) :
    SingleUse { (s.revokeToken id now).insertToken new f data with
      exchanges := s.exchanges ++ [⟨id, new⟩] } := by
  have hnew : (s.revokeToken id now).tokens.find? new = none := find?_revokeToken_eq_none.mpr hid
  have hrid : r.id = id := Table.key_of_find? hr
  -- What has no successor now had none before, and is not the token that is rotated.
  let xs : List Exchange := s.exchanges ++ [⟨id, new⟩]
  have hbefore : ∀ k, (xs.any fun x => x.presented == k) = false →
      s.exchanged k = false ∧ k ≠ id := by
    intro k hk
    rw [List.any_append, Bool.or_eq_false_iff] at hk
    exact ⟨hk.1, fun he => by simp [he] at hk⟩
  have hold : ∀ r' ∈ (s.revokeToken id now).tokens.rows, ∃ r₀ ∈ s.tokens.rows,
      r₀.id = r'.id ∧ r₀.familyId = r'.familyId := by
    intro r' hr'
    obtain ⟨r₀, hr₀, hl, -⟩ := mem_revoke hr'
    exact ⟨r₀, hr₀, hl.id.symm, hl.familyId.symm⟩
  -- The others of the family have been exchanged before.
  have hothers : ∀ r' ∈ (s.revokeToken id now).tokens.rows, r'.familyId = f →
      (xs.any fun x => x.presented == r'.id) = true := by
    intro r' hr' hf'
    by_contra hunspent
    obtain ⟨hn', hne⟩ := hbefore r'.id (by simpa using hunspent)
    obtain ⟨r₀, hr₀, hid₀, hf₀⟩ := hold r' hr'
    have heq := h.alone r₀ hr₀ r (Table.mem_of_find? hr) (by rw [hf₀, hf', hf])
      (by rw [hid₀]; exact hn') (by rw [hrid]; exact hn)
    exact hne (by rw [← hid₀, heq, hrid])
  constructor
  · intro r₁ h₁ r₂ h₂ he hn₁ hn₂
    rcases (mem_insertToken hnew).mp h₁ with h₁ | rfl
    · rcases (mem_insertToken hnew).mp h₂ with h₂ | rfl
      · obtain ⟨r₁', h₁', hid₁, hf₁⟩ := hold r₁ h₁
        obtain ⟨r₂', h₂', hid₂, hf₂⟩ := hold r₂ h₂
        rw [← hid₁, ← hid₂]
        exact h.alone r₁' h₁' r₂' h₂' (by rw [hf₁, hf₂]; exact he)
          (by rw [hid₁]; exact (hbefore _ hn₁).1) (by rw [hid₂]; exact (hbefore _ hn₂).1)
      · exact (Bool.false_ne_true (hn₁.symm.trans (hothers r₁ h₁ he))).elim
    · rcases (mem_insertToken hnew).mp h₂ with h₂ | rfl
      · exact (Bool.false_ne_true (hn₂.symm.trans (hothers r₂ h₂ he.symm))).elim
      · rfl
  · intro x hx
    rcases List.mem_append.mp hx with hx | hx
    · exact h.spent_grows heff.grows hx
    · obtain rfl := List.mem_singleton.mp hx
      refine ⟨revoke r now, ?_, rfl⟩
      refine Table.find?_insert_of_some ?_
      rw [find?_revokeToken, hr, Option.map_some, if_pos (beq_iff_eq.mpr hrid)]
  · rw [List.map_append, List.map_singleton]
    refine h.once.append (List.nodup_singleton _) ?_
    intro k hk hk'
    obtain rfl := List.mem_singleton.mp hk'
    exact exchanged_eq_false.mp hn hk

theorem effect (h : s.SingleUse) {t : Nat} {o : Statement} (heff : s.Effect t o s')
    (hl : s.Lawful o) (hp : ∀ id now data, o = .tokenRotate id now data →
      s.exchanged id = false) : s'.SingleUse := by
  cases heff with
  | unchanged => exact h
  | created data id f hid hf hh =>
    have hnone : data.familyId = none := hl
    rcases hf with hf | ⟨-, hfresh⟩
    · rw [hnone] at hf
      cases hf
    · exact h.created hid hfresh
  | rotated id now data new f r hr hid hf hh =>
    have heff : s.Effect t (.tokenRotate id now data) _ := .rotated id now data new f r hr hid hf hh
    obtain ⟨f', hf', r', hr', hfam⟩ := hl
    have hrr : r' = r := Option.some.inj (hr'.symm.trans hr)
    have hff : r.familyId = f := by
      rcases hf with hf | ⟨hnone, -⟩
      · rw [hf] at hf'
        rw [← hrr, hfam]
        exact (Option.some.inj hf').symm
      · rw [hnone] at hf'
        cases hf'
    exact h.rotated hr (hp id now data rfl) hff hid heff
  | revoked f now =>
    have hg := (Effect.revoked (s := s) (t := t) f now).grows
    refine ⟨fun r hr r' hr' he hn hn' => ?_, fun x hx => h.spent_grows hg hx, h.once⟩
    obtain ⟨r₀, hr₀, hl, -⟩ := mem_revoke hr
    obtain ⟨r₀', hr₀', hl', -⟩ := mem_revoke hr'
    rw [hl.id, hl'.id]
    refine h.alone r₀ hr₀ r₀' hr₀' (by rw [← hl.familyId, ← hl'.familyId]; exact he) ?_ ?_
    · rw [← hl.id]
      exact hn
    · rw [← hl'.id]
      exact hn'

/-- What is not revoked has not been exchanged. -/
theorem exchanged_of_live (h : s.SingleUse) {r : RefreshToken} (hr : r ∈ s.tokens.rows)
    (hn : r.revokedAt = none) : s.exchanged r.id = false := by
  rw [exchanged_eq_false]
  intro hin
  obtain ⟨x, hx, hid⟩ := List.mem_map.mp hin
  obtain ⟨r', hr', hs⟩ := h.spent x hx
  rw [hid] at hr'
  cases (Table.find?_of_mem hr).symm.trans hr'
  rw [hn] at hs
  cases hs

end Store.SingleUse

variable {cfg : Config} {users : Table User} {w : World}

theorem singleUse_of_reaches (hr : (service cfg).Reaches rotatesOnce (initial users) w) :
    w.shared.SingleUse := by
  have h₀ : (Store.init users).SingleUse := by
    constructor <;> simp [Store.init]
  refine (Sessions.sound cfg users).inv_of_guar (R := rotatesOnce) (fun _ _ _ => rfl)
    (fun _ _ _ _ _ => rfl) (fun _ _ _ h => h) h₀ ?_ ?_ (fun _ _ _ _ h => h) (fun _ _ _ h => h) hr
  · intro c s s' h hs
    cases hs
    exact h
  · intro t c ch o s r s' hp hi h hx hg
    by_cases hstrike : ch.strikesFirst = true ∧ o.fallible = true
    · rw [eq_of_strikesFirst hstrike.1 hstrike.2 hx]
      exact h
    · refine h.effect (Store.effect_of_exec hx) hg.2 ?_
      rintro id now data rfl
      have hstrike : ch.strikesFirst = false := by simpa [Statement.fallible] using hstrike
      simpa [rotatesOnce, hstrike] using hp

/-- If every rotation finds its token without a successor, a family has one live token at most,
and no token is exchanged twice. -/
theorem refresh_tokens_single_use
    (hr : (service cfg).Reaches rotatesOnce (initial users) w) :
    (∀ now, ∀ r ∈ w.shared.tokens.rows, ∀ r' ∈ w.shared.tokens.rows, r.familyId = r'.familyId →
      r.live now = true → r'.live now = true → r = r') ∧
    (w.shared.exchanges.map (·.presented)).Nodup := by
  have h := singleUse_of_reaches hr
  refine ⟨fun now r hm r' hm' he hl hl' => ?_, h.once⟩
  simp only [RefreshToken.live, Bool.and_eq_true, Option.isNone_iff_eq_none] at hl hl'
  exact Table.eq_of_key_eq hm hm' (h.alone r hm r' hm' he (h.exchanged_of_live hm hl.1)
    (h.exchanged_of_live hm' hl'.1))

section Runs

open Scenario

/-- One token is rotated after the other. -/
theorem refresh_tokens_single_use_in_turn :
    ∃ w, (service Scenario.cfg).Reaches rotatesOnce (initial Scenario.users) w ∧
      w.shared.exchanges = [⟨10, 11⟩, ⟨11, 12⟩] ∧
      (w.shared.exchanges.map (·.presented)).Nodup := by
  have hrun : ((service Scenario.cfg).run rotatesOnce (initial Scenario.users)
      (login 0 10 20 "a" ++ check 1 "a" ++ rotate 1 11 "b" ++ finish 1 ++
        check 2 "b" ++ rotate 2 12 "c" ++ finish 2)).any
      (fun w => w.shared.exchanges == [⟨10, 11⟩, ⟨11, 12⟩]) = true := by decide
  obtain ⟨w, hr, ht⟩ := Machine.exists_reaches_of_run hrun
  exact ⟨w, hr, beq_iff_eq.mp ht, (refresh_tokens_single_use hr).2⟩

/-- Two refreshes have both seen the token unrevoked, and both rotate it. -/
theorem not_refresh_tokens_single_use :
    (¬ ∀ w, (service Scenario.cfg).Reaches anything (initial Scenario.users) w →
      ∀ now, ∀ r ∈ w.shared.tokens.rows, ∀ r' ∈ w.shared.tokens.rows, r.familyId = r'.familyId →
        r.live now = true → r'.live now = true → r = r') ∧
    ¬ ∀ w, (service Scenario.cfg).Reaches anything (initial Scenario.users) w →
      (w.shared.exchanges.map (·.presented)).Nodup := by
  have hrun : ((service Scenario.cfg).run anything (initial Scenario.users)
      (login 0 10 20 "a" ++ check 1 "a" ++ check 2 "a" ++ rotate 1 11 "b" ++ rotate 2 12 "c")).any
      (fun w => w.shared.exchanges == [⟨10, 11⟩, ⟨10, 12⟩] &&
        w.shared.tokens.find? 11 == some ⟨11, 1, 20, "b", 1000, none⟩ &&
        w.shared.tokens.find? 12 == some ⟨12, 1, 20, "c", 1000, none⟩) = true := by decide
  obtain ⟨w, hr, ht⟩ := Machine.exists_reaches_of_run hrun
  simp only [Bool.and_eq_true, beq_iff_eq] at ht
  obtain ⟨⟨hx, hb⟩, hc⟩ := ht
  constructor
  · intro h
    have heq := h w hr 0 _ (Table.mem_of_find? hb) _ (Table.mem_of_find? hc) rfl rfl rfl
    cases heq
  · intro h
    have hnodup := h w hr
    rw [hx] at hnodup
    simp at hnodup

end Runs

end NoOverlap.Identity
