import NoOverlap.Identity.Tokens

/-!
# Revocation is final

A logout, or a refresh that meets a replay, revokes the tokens its family has at that
moment.  A refresh that has seen its token unrevoked before then goes on to rotate it
and adds a live token to a family that has been ended.  `rotatesOpenFamily` is the
condition that a rotation finds a token of its family unrevoked.
-/

namespace NoOverlap.Identity

open Relational Concurrency RelyGuarantee

/-- The family has a token that is not revoked. -/
def Store.openFamily (s : Store) (familyId : Id) : Bool :=
  s.tokens.rows.any fun r => r.familyId == familyId && r.revokedAt.isNone

/-- No rotation runs in a family that has no unrevoked token left. -/
def rotatesOpenFamily : Policy :=
  { anything with
    op := fun _ ch o s => match o with
      | .tokenRotate id _ _ =>
        ch.strikesFirst || (s.tokens.find? id).all fun r => s.openFamily r.familyId
      | _ => true }

/-- The family has tokens, and all of them are revoked. -/
structure Store.Closed (s : Store) (familyId : Id) : Prop where
  inhabited : ∃ id, s.Belongs id familyId
  revoked : ∀ r ∈ s.tokens.rows, r.familyId = familyId → r.revokedAt.isSome = true

namespace Store.Closed

variable {s s' : Store} {t : Nat} {f : Id}

theorem not_openFamily (h : s.Closed f) : s.openFamily f = false := by
  simp only [openFamily, List.any_eq_false, Bool.and_eq_true, beq_iff_eq]
  rintro r hr ⟨hf, hn⟩
  have hs := h.revoked r hr hf
  rw [Option.isNone_iff_eq_none.mp hn] at hs
  cases hs

theorem not_fresh (h : s.Closed f) : s.freshFamily f = false := by
  obtain ⟨id, r, hr, hf⟩ := h.inhabited
  simp only [freshFamily, List.all_eq_false]
  exact ⟨r, Table.mem_of_find? hr, by simp [hf]⟩

/-- An insert into another family. -/
theorem insertToken (h : s.Closed f) {id f' : Id} {data : TokenData}
    (hid : s.tokens.find? id = none) (hne : f' ≠ f) : (s.insertToken id f' data).Closed f := by
  constructor
  · obtain ⟨id₀, r, hr, hf⟩ := h.inhabited
    exact ⟨id₀, r, Table.find?_insert_of_some hr, hf⟩
  · intro r hr hf
    rcases (mem_insertToken hid).mp hr with hr | rfl
    · exact h.revoked r hr hf
    · exact (hne hf).elim

theorem update (h : s.Closed f) {hit : RefreshToken → Bool} {now : Int}
    (hs : s'.tokens = s.tokens.update hit (revoke · now) (key_revoke now)) : s'.Closed f := by
  constructor
  · obtain ⟨id, r, hr, hf⟩ := h.inhabited
    obtain ⟨r', hr', hl⟩ := s.extends_revoke hit now id r hr
    exact ⟨id, r', by rw [hs]; exact hr', hl.familyId.trans hf⟩
  · intro r' hr' hf
    rw [hs] at hr'
    obtain ⟨r, hr, hl, -⟩ := mem_revoke hr'
    exact hl.revoked (h.revoked r hr (hl.familyId.symm.trans hf))

/-- A statement that leaves the family ended. -/
theorem effect (h : s.Closed f) {o : Statement} (heff : s.Effect t o s') (hl : s.Lawful o)
    (hp : ∀ id now data, o = .tokenRotate id now data →
      ∀ r, s.tokens.find? id = some r → s.openFamily r.familyId = true) : s'.Closed f := by
  have hfresh : ∀ f', s.freshFamily f' = true → f' ≠ f := by
    rintro f' hf' rfl
    rw [h.not_fresh] at hf'
    cases hf'
  cases heff with
  | unchanged => exact h
  | created data id f' hid hf hh =>
    have hnone : data.familyId = none := hl
    rcases hf with hf | ⟨-, hf⟩
    · rw [hnone] at hf
      cases hf
    · exact h.insertToken hid (hfresh f' hf)
  | rotated id now data new f' r hr hid hf hh =>
    have hopen : r.familyId ≠ f := by
      intro hrf
      have hopen := hp id now data rfl r hr
      rw [hrf, h.not_openFamily] at hopen
      cases hopen
    have hne : f' ≠ f := by
      obtain ⟨f₀, hf₀, r₀, hr₀, hfam⟩ := hl
      have hrr : r₀ = r := Option.some.inj (hr₀.symm.trans hr)
      rcases hf with hf | ⟨-, hf⟩
      · rw [hf₀] at hf
        cases hf
        rw [← hfam, hrr]
        exact hopen
      · exact hfresh f' hf
    have hrevoke : (s.revokeToken id now).Closed f := h.update rfl
    have hinsert : ((s.revokeToken id now).insertToken new f' data).Closed f :=
      hrevoke.insertToken (find?_revokeToken_eq_none.mpr hid) hne
    exact ⟨hinsert.inhabited, hinsert.revoked⟩
  | revoked f' now =>
    have hrevoke : Closed { s with tokens := (s.revokeFamily t f' now).2.tokens } f := h.update rfl
    exact ⟨hrevoke.inhabited, hrevoke.revoked⟩

/-- A family that has just been revoked. -/
theorem of_revokeFamily {now : Int} (hb : ∃ id, s.Belongs id f) :
    (s.revokeFamily t f now).2.Closed f := by
  constructor
  · obtain ⟨id, hb⟩ := hb
    exact ⟨id, hb.grows (Effect.revoked (t := t) f now).grows⟩
  · intro r' hr' hf
    obtain ⟨r, hr, hl, hhit, hmiss⟩ := mem_revoke hr'
    by_cases hn : r.revokedAt = none
    · refine hhit ?_
      have hrf : r.familyId = f := hl.familyId.symm.trans hf
      simp [hrf, hn]
    · exact hl.revoked (Option.isSome_iff_ne_none.mpr hn)

end Store.Closed

variable {cfg : Config} {users : Table User} {w w' : World}

/-- Families that have been revoked are ended. -/
theorem closed_of_reaches (hr : (service cfg).Reaches rotatesOpenFamily (initial users) w) :
    ∀ x ∈ w.shared.revocations, w.shared.Closed x.familyId := by
  have h₀ : ∀ x ∈ (Store.init users).revocations, (Store.init users).Closed x.familyId := by
    simp [Store.init]
  refine (Sessions.sound cfg users).inv_of_guar (R := rotatesOpenFamily)
    (I := fun s => ∀ x ∈ s.revocations, s.Closed x.familyId) (fun _ _ _ => rfl)
    (fun _ _ _ _ _ => rfl) (fun _ _ _ h => h) h₀ ?_ ?_ (fun _ _ _ _ h => h) (fun _ _ _ h => h) hr
  · intro c s s' h hs
    cases hs
    exact h
  · intro t c ch o s r s' hp hi h hx hg
    by_cases hstrike : ch.strikesFirst = true ∧ o.fallible = true
    · rw [eq_of_strikesFirst hstrike.1 hstrike.2 hx]
      exact h
    · have heff := Store.effect_of_exec hx
      have hkeep : ∀ f, s.Closed f → s'.Closed f := by
        intro f hf
        refine hf.effect heff hg.2 ?_
        rintro id now data rfl row hrow
        have hstrike : ch.strikesFirst = false := by simpa [Statement.fallible] using hstrike
        simpa [rotatesOpenFamily, hstrike, hrow] using hp
      intro x hx'
      rcases heff.revocations with he | ⟨f, now, rfl, rfl⟩
      · rw [he] at hx'
        exact hkeep _ (h x hx')
      · rcases List.mem_append.mp hx' with hx' | hx'
        · exact hkeep _ (h x hx')
        · obtain rfl := List.mem_singleton.mp hx'
          exact Store.Closed.of_revokeFamily hg.2

theorem Store.Closed.not_live {s : Store} {f : Id} (h : s.Closed f) {r : RefreshToken}
    (hr : r ∈ s.tokens.rows) (hf : r.familyId = f) (now : Int) : r.live now = false := by
  have hs := h.revoked r hr hf
  rw [RefreshToken.live, Option.isNone_eq_false_iff.mpr hs, Bool.false_and]

theorem anything_of_rotatesOpenFamily {w₀ : World}
    (hr : (service cfg).Reaches rotatesOpenFamily w₀ w) :
    (service cfg).Reaches anything w₀ w :=
  hr.relax (P := rotatesOpenFamily) (Q := anything) (fun _ _ _ => rfl) (fun _ _ _ _ _ => rfl)
    fun _ _ _ _ => rfl

/-- A logout that returns has revoked the family of the token it was given. -/
theorem revoked_of_logout {w₁ w₂ : World} {raw : String} {r : RefreshToken}
    (hr : (service cfg).Reaches anything (initial users) w)
    (hraw : raw ≠ "") (hfind : w.shared.findByHash (cfg.hashToken raw) = some r)
    (hn : (service cfg).next anything w (.spawn (.logout (some raw))) = some w₁)
    (hr₁ : (service cfg).Reaches anything w₁ w₂)
    (ht : w₂.threads[w.threads.length]? = some (.returned (.logout (some raw)) (.ok .none))) :
    ⟨w.threads.length, r.familyId⟩ ∈ w₂.shared.revocations := by
  have hsound := Sessions.sound cfg users
  have hi := hsound.inv hr
  let a : Agent := ⟨w.threads.length, .logout (some raw)⟩
  let Q : Except Err Reply → Store → Prop := fun res s' =>
    res = .ok .none → ⟨a.tid, r.familyId⟩ ∈ s'.revocations
  have hsafe : sessions.Safe a Q (Call.program cfg a.call) w.shared := by
    refine Safe.bind ((Sessions.safe_logout hi hfind hraw).imp fun res s' h => ?_)
    cases res with
    | error e => exact fun h' => by cases h'
    | ok u => exact fun _ => h rfl
  have hw₁ : w₁ = ⟨w.shared, w.threads ++ [.running a.call (Call.program cfg a.call)]⟩ := by
    cases Machine.next_moves _ _ hn with
    | spawn hp hs => cases hs; rfl
  have ht₁ : w₁.threads[a.tid]? = some (.running a.call (Call.program cfg a.call)) := by
    rw [hw₁]
    exact List.getElem?_concat_length
  have hf : Sound.Follows sessions a Q (.running a.call (Call.program cfg a.call)) w₁.shared := by
    rw [hw₁]
    exact ⟨rfl, hsafe⟩
  have hQ : ∀ res s s', sessions.Rely a.tid s s' → sessions.Inv s' → Q res s → Q res s' :=
    fun res s s' hg _ h he => hg.revocations (h he)
  obtain ⟨th, hth, hfollows⟩ := hsound.follows_of_reaches hQ (.tail _ hr hn) hr₁ ht₁ hf
  have hret : th = .returned (.logout (some raw)) (.ok .none) := Option.some.inj (hth.symm.trans ht)
  rw [hret] at hfollows
  exact hfollows.2 rfl

/-- If no rotation runs in a family that has no unrevoked token left, then a family that
has been revoked has no live token any more.  A logout that has returned is one that has
revoked the family of its token. -/
theorem revocation_is_final (hr : (service cfg).Reaches rotatesOpenFamily (initial users) w) :
    (∀ x ∈ w.shared.revocations, ∀ w', (service cfg).Reaches rotatesOpenFamily w w' →
      ∀ r ∈ w'.shared.tokens.rows, r.familyId = x.familyId → ∀ now, r.live now = false) ∧
    ∀ raw r w₁ w₂, raw ≠ "" → w.shared.findByHash (cfg.hashToken raw) = some r →
      (service cfg).next rotatesOpenFamily w (.spawn (.logout (some raw))) = some w₁ →
      (service cfg).Reaches rotatesOpenFamily w₁ w₂ →
      w₂.threads[w.threads.length]? = some (.returned (.logout (some raw)) (.ok .none)) →
      ∀ w', (service cfg).Reaches rotatesOpenFamily w₂ w' →
        ∀ r' ∈ w'.shared.tokens.rows, r'.familyId = r.familyId → ∀ now, r'.live now = false := by
  have hfinal : ∀ w, (service cfg).Reaches rotatesOpenFamily (initial users) w →
      ∀ x ∈ w.shared.revocations, ∀ w', (service cfg).Reaches rotatesOpenFamily w w' →
        ∀ r ∈ w'.shared.tokens.rows, r.familyId = x.familyId → ∀ now, r.live now = false := by
    intro w hr x hx w' hr' r hm hf now
    have hg := (Sessions.sound cfg users).rely_of_reaches (anything_of_rotatesOpenFamily hr)
      (anything_of_rotatesOpenFamily hr') (Nat.le_refl _)
    exact (closed_of_reaches (hr.trans hr') x (hg.revocations hx)).not_live hm hf now
  refine ⟨hfinal w hr, ?_⟩
  intro raw r w₁ w₂ hraw hfind hn hr₁ ht w' hr'
  have hr₂ := Machine.Reaches.trans (.tail _ hr hn) hr₁
  have hmem := revoked_of_logout (anything_of_rotatesOpenFamily hr) hraw hfind hn
    (anything_of_rotatesOpenFamily hr₁) ht
  exact hfinal w₂ hr₂ _ hmem w' hr'

section Runs

open Scenario

/-- Thread `t` is a logout that has returned. -/
def Scenario.loggedOut (t : Nat) (raw : String) (w : World) : Bool :=
  match w.threads[t]? with
  | some (.returned (.logout (some raw')) (.ok .none)) => raw' == raw
  | _ => false

theorem Scenario.of_loggedOut {t : Nat} {raw : String} {w : World} (h : loggedOut t raw w = true) :
    w.threads[t]? = some (.returned (.logout (some raw)) (.ok .none)) := by
  unfold loggedOut at h
  split at h
  · next raw' ht => rwa [beq_iff_eq.mp h] at ht
  · cases h

/-- A session is refreshed once and then ended by a logout. -/
theorem revocation_is_final_logged_out :
    ∃ w, (service Scenario.cfg).Reaches rotatesOpenFamily (initial Scenario.users) w ∧
      loggedOut 2 "b" w = true ∧
      ∀ w', (service Scenario.cfg).Reaches rotatesOpenFamily w w' →
        ∀ r' ∈ w'.shared.tokens.rows, r'.familyId = 20 → ∀ now, r'.live now = false := by
  let row : RefreshToken := ⟨11, 1, 20, "b", 1000, none⟩
  have hrun : ((service Scenario.cfg).run rotatesOpenFamily (initial Scenario.users)
      (login 0 10 20 "a" ++ check 1 "a" ++ rotate 1 11 "b" ++ finish 1)).any
      (fun w => ((service Scenario.cfg).next rotatesOpenFamily w (.spawn (.logout (some "b")))).any
        fun w₁ => w.threads.length == 2 && w.shared.findByHash "b" == some row &&
          ((service Scenario.cfg).run rotatesOpenFamily w₁
            [.step 2 {}, .step 2 {}, .step 2 {}, .ret 2]).any (loggedOut 2 "b")) = true := by decide
  obtain ⟨w, w₁, hr, hn, ht⟩ := Machine.exists_next_of_run hrun
  simp only [Bool.and_eq_true, beq_iff_eq] at ht
  obtain ⟨⟨hlen, hfind⟩, hlogout⟩ := ht
  obtain ⟨w₂, hr₁, hout⟩ := Machine.exists_reaches_of_run hlogout
  have hret := of_loggedOut hout
  rw [← hlen] at hret
  exact ⟨w₂, .trans (.tail _ hr hn) hr₁, hout, fun w' hr' =>
    (revocation_is_final hr).2 "b" row w₁ w₂ (by decide) hfind hn hr₁ hret w' hr'⟩

/-- A refresh has seen its token unrevoked; a logout ends the family and returns; the
refresh rotates the token. -/
theorem not_revocation_is_final :
    ¬ ∀ w, (service Scenario.cfg).Reaches anything (initial Scenario.users) w →
      ∀ t raw, loggedOut t raw w = true → ∀ x ∈ w.shared.revocations, x.tid = t →
        ∀ w', (service Scenario.cfg).Reaches anything w w' →
          ∀ r ∈ w'.shared.tokens.rows, r.familyId = x.familyId → ∀ now, r.live now = false := by
  intro h
  have hrun : ((service Scenario.cfg).run anything (initial Scenario.users)
      (login 0 10 20 "a" ++ check 1 "a" ++ logout 2 "a")).any
      (fun w => loggedOut 2 "a" w && w.shared.revocations == [⟨2, 20⟩] &&
        ((service Scenario.cfg).run anything w (rotate 1 11 "b")).any fun w' =>
          w'.shared.tokens.find? 11 == some ⟨11, 1, 20, "b", 1000, none⟩) = true := by decide
  obtain ⟨w, hr, ht⟩ := Machine.exists_reaches_of_run hrun
  simp only [Bool.and_eq_true, beq_iff_eq] at ht
  obtain ⟨⟨hout, hrev⟩, hrotate⟩ := ht
  obtain ⟨w', hr', hfind⟩ := Machine.exists_reaches_of_run hrotate
  have hmem : (⟨2, 20⟩ : Revocation) ∈ w.shared.revocations := by
    rw [hrev]
    exact List.mem_singleton_self _
  have hrow := Table.mem_of_find? (beq_iff_eq.mp hfind)
  have hlive := h w hr 2 "a" hout _ hmem rfl w' hr' _ hrow rfl 0
  cases hlive

end Runs

end NoOverlap.Identity
