import NoOverlap.Concurrency.Alone
import NoOverlap.Concurrency.Chronicle

/-!
# Bringing a pool to rest

What a scheduler can do that wishes the pool well.  `Reaches.until` lets one thread run until a
condition holds or its program is at its end, where `K` is what holds while only that thread
runs.  `Reaches.finish` lets it run to its answer, and `reaches_each` does so for every thread
of the pool in turn.

A program is a well-founded tree, so nothing here needs a measure: a run can only fail to end
where an operation has to wait.  That none has to is the hypothesis `hlive`.
-/

namespace Concurrency

variable {Op : Type} {Resp : Op → Type} {ε α κ σ χ : Type}

namespace Prog

variable {exec : χ → (o : Op) → σ → Option (Except ε (Resp o) × σ)} {C : χ → Prop}

/-- A program whose operations need not wait while `K` holds, and keep it. -/
theorem completes_of_uses {A : Op → Prop} {K : σ → Prop} {p : Prog Resp ε α} {s : σ}
    (hstep : ∀ ch o s, C ch → A o → K s → ∃ r s', exec ch o s = some (r, s') ∧ K s')
    (hp : p.Uses A) (hk : K s) : Completes exec C (fun _ s' => K s') p s := by
  induction p generalizing s with
  | done r => exact hk
  | call o k ih =>
    intro ch hc
    obtain ⟨r, s', hx, hk'⟩ := hstep ch o s hc hp.1 hk
    exact ⟨r, s', hx, ih r (hp.2 r) hk'⟩

end Prog

namespace Machine

variable {M : Machine σ κ χ Resp ε α} {P : Policy σ κ χ Resp ε α} {w₀ w : World σ κ Resp ε α}

/-- Only thread `t` moves, until `S` holds or its program is done. -/
theorem Reaches.until {t : Nat} {c : κ} {K S : σ → Prop}
    (hlive : ∀ w o k, M.Reaches P w₀ w → w.threads[t]? = some (.running c (.call o k)) →
      K w.shared → ¬S w.shared → ∃ ch r s', P.op ⟨t, c⟩ ch o w.shared = true ∧
        M.exec t ch o w.shared = some (r, s') ∧ K s')
    {p : Prog Resp ε α} (hr : M.Reaches P w₀ w) (ht : w.threads[t]? = some (.running c p))
    (hk : K w.shared) :
    ∃ p' s', M.Reaches P w₀ { shared := s', threads := w.threads.set t (.running c p') } ∧
      K s' ∧ (S s' ∨ ∃ r, p' = .done r) := by
  have hstay : M.Reaches P w₀
      { shared := w.shared, threads := w.threads.set t (.running c p) } := by
    rw [World.set_of_getElem? ht]
    exact hr
  induction p generalizing w with
  | done r => exact ⟨.done r, w.shared, hstay, hk, .inr ⟨r, rfl⟩⟩
  | call o k ih =>
    by_cases hstop : S w.shared
    · exact ⟨.call o k, w.shared, hstay, hk, .inl hstop⟩
    · obtain ⟨ch, r, s', hp, hx, hk'⟩ := hlive w o k hr ht hk hstop
      have hlt := (List.getElem?_eq_some_iff.mp ht).1
      have hnext := hr.step ht hp hx
      obtain ⟨p', s'', hreach, hrest⟩ := ih r hnext (List.getElem?_set_self hlt) hk' (by
        rw [List.set_set]
        exact hnext)
      rw [List.set_set] at hreach
      exact ⟨p', s'', hreach, hrest⟩

/-- Only thread `t` moves, until it has answered. -/
theorem Reaches.finish {t : Nat} {c : κ} {K : σ → Prop}
    (hlive : ∀ w o k, M.Reaches P w₀ w → w.threads[t]? = some (.running c (.call o k)) →
      K w.shared → ∃ ch r s', P.op ⟨t, c⟩ ch o w.shared = true ∧
        M.exec t ch o w.shared = some (r, s') ∧ K s')
    (hret : ∀ r s, K s → K (M.returned t c r s))
    {p : Prog Resp ε α} (hr : M.Reaches P w₀ w) (ht : w.threads[t]? = some (.running c p))
    (hk : K w.shared) :
    ∃ r s', M.Reaches P w₀ { shared := s', threads := w.threads.set t (.returned c r) } ∧
      K s' := by
  obtain ⟨p', s, hreach, hks, hend⟩ := hr.until (S := fun _ => False)
    (fun w o k hw ho hk _ => hlive w o k hw ho hk) ht hk
  obtain ⟨r, rfl⟩ : ∃ r, p' = .done r := by simpa using hend
  have hlt := (List.getElem?_eq_some_iff.mp ht).1
  refine ⟨r, M.returned t c r s, .tail (.ret t) hreach ?_, hret r s hks⟩
  simp only [next, List.getElem?_set_self hlt, List.set_set]

/-- The same for a program that has been followed to its end. -/
theorem Reaches.completes {t : Nat} {c : κ} {C : χ → Prop} {Q : Except ε α → σ → Prop}
    {p : Prog Resp ε α} (hr : M.Reaches P w₀ w) (ht : w.threads[t]? = some (.running c p))
    (h : Prog.Completes (M.exec t) C Q p w.shared)
    (hC : ∃ ch, C ch ∧ ∀ o s, P.op ⟨t, c⟩ ch o s = true) :
    ∃ r s, Q r s ∧ M.Reaches P w₀
      { shared := M.returned t c r s, threads := w.threads.set t (.returned c r) } := by
  obtain ⟨ch, hch, hP⟩ := hC
  induction p generalizing w with
  | done r =>
    exact ⟨r, w.shared, h, .tail (.ret t) hr (by simp only [next, ht])⟩
  | call o k ih =>
    obtain ⟨r, s', hx, hk⟩ := h ch hch
    have hlt := (List.getElem?_eq_some_iff.mp ht).1
    obtain ⟨v, s, hq, hreach⟩ :=
      ih r (hr.step ht (hP o _) hx) (List.getElem?_set_self hlt) hk
    rw [List.set_set] at hreach
    exact ⟨v, s, hq, hreach⟩

/-- A call from its start to its answer. -/
theorem Reaches.call {c : κ} {C : χ → Prop} {Q : Except ε α → σ → Prop} {s : σ}
    (hr : M.Reaches P w₀ w) (hp : P.spawn c w.shared = true) (hs : M.spawned c w.shared = some s)
    (h : Prog.Completes (M.exec w.threads.length) C Q (M.program c) s)
    (hC : ∃ ch, C ch ∧ ∀ o s, P.op ⟨w.threads.length, c⟩ ch o s = true) :
    ∃ r s', Q r s' ∧ M.Reaches P w₀
      { shared := M.returned w.threads.length c r s'
        threads := w.threads ++ [.returned c r] } := by
  have hstart : M.Reaches P w₀
      { shared := s, threads := w.threads ++ [.running c (M.program c)] } :=
    .tail (.spawn c) hr (by simp only [next, hp, hs, if_true, Option.map_some])
  obtain ⟨r, s', hq, hreach⟩ := hstart.completes List.getElem?_concat_length h hC
  refine ⟨r, s', hq, ?_⟩
  rw [List.set_append_right _ _ (Nat.le_refl _), Nat.sub_self] at hreach
  exact hreach

/-- If any thread can be brought from `A` to `B`, all can, one after the other. -/
theorem reaches_each {A : Nat → World σ κ Resp ε α → Prop} {n : Nat} (h₀ : A 0 w₀)
    (hstep : ∀ t w, t < n → M.Reaches P w₀ w → w.threads.length = n → A t w →
      ∃ w', M.Reaches P w₀ w' ∧ w'.threads.length = n ∧ A (t + 1) w')
    (hn : w₀.threads.length = n) :
    ∃ w', M.Reaches P w₀ w' ∧ w'.threads.length = n ∧ A n w' := by
  have hall : ∀ t, t ≤ n → ∃ w', M.Reaches P w₀ w' ∧ w'.threads.length = n ∧ A t w' := by
    intro t
    induction t with
    | zero => exact fun _ => ⟨w₀, .refl, hn, h₀⟩
    | succ t ih =>
      intro ht
      obtain ⟨w', hr, hlen, ha⟩ := ih (by omega)
      exact hstep t w' (by omega) hr hlen ha
  exact hall n (Nat.le_refl n)

end Machine

end Concurrency
