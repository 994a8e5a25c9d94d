import NoOverlap.Realtime.Stream

/-!
# The numbers of the events

`Numbering` is what holds of the publishers in every world: a number is given once, every
event carries one, and a call that has asked for a number commits nothing more.  `Onward`
is what a step does to the numbers and to the changes: a new number is above the old ones
of its listing, and a new change is by a call that has no number yet.
-/

namespace NoOverlap

open Relational Concurrency

theorem Statement.exec_incr {t : Nat} {ch : Choice} {s s' : Store} {listingId : Id}
    {r : Except Err Nat} (hx : (redis (.incr listingId)).exec t ch s = some (r, s')) :
    (∃ e, ch.fault = .before e ∧ r = .error e ∧ s' = s) ∨
      (∀ e, ch.fault ≠ .before e) ∧ (∀ n, r = .ok n → n = s.redis.seq listingId + 1) ∧
        s' = { s with redis := (Redis.perform (.incr listingId) s.redis).2 } := by
  cases hf : ch.fault with
  | none =>
    rw [exec_of_fault_none hf] at hx
    cases hx
    exact .inr ⟨fun _ => Fault.noConfusion, fun n hn => (Except.ok.inj hn).symm, rfl⟩
  | before e =>
    simp only [exec, hf, fallible] at hx
    cases hx
    exact .inl ⟨e, rfl, rfl, rfl⟩
  | after e =>
    simp only [exec, hf, fallible] at hx
    cases hx
    exact .inr ⟨fun _ => Fault.noConfusion, fun n hn => (by cases hn), rfl⟩

theorem Statement.exec_emit {t : Nat} {ch : Choice} {s s' : Store} {e : ReservationChanged}
    {r : Except Err Unit} (hx : (redis (.emit e)).exec t ch s = some (r, s')) :
    (∃ err, ch.fault = .before err ∧ s' = s) ∨
      (∀ err, ch.fault ≠ .before err) ∧
        s' = { s with redis := (Redis.perform (.emit e) s.redis).2 } := by
  cases hf : ch.fault with
  | none =>
    rw [exec_of_fault_none hf] at hx
    cases hx
    exact .inr ⟨fun _ => Fault.noConfusion, rfl⟩
  | before e =>
    simp only [exec, hf, fallible] at hx
    cases hx
    exact .inl ⟨e, rfl, rfl⟩
  | after e =>
    simp only [exec, hf, fallible] at hx
    cases hx
    exact .inr ⟨fun _ => Fault.noConfusion, rfl⟩

/-- No other statement allocates or emits. -/
theorem Statement.exec_unannounced {o : Statement} (ho : o.Unannounced) {t : Nat} {ch : Choice}
    {s s' : Store} {r : Except Err o.Resp} (hx : o.exec t ch s = some (r, s')) :
    s'.redis.seq = s.redis.seq ∧ s'.redis.emitted = s.redis.emitted := by
  rcases exec_cases hx with ⟨rfl, -⟩ | ⟨r', hp, -⟩
  · exact ⟨rfl, rfl⟩
  cases o with
  | db o =>
    obtain ⟨d, -, rfl⟩ := perform_db hp
    exact ⟨rfl, rfl⟩
  | queue o => cases hp; exact ⟨rfl, rfl⟩
  | provider o => cases hp; exact ⟨rfl, rfl⟩
  | redis o =>
    cases hp
    cases o with
    | incr | emit => exact ho.elim
    | _ => exact ⟨rfl, rfl⟩
  | host o =>
    obtain ⟨m, rfl⟩ := perform_host hp
    exact ⟨rfl, rfl⟩

namespace Realtime

variable {S : Setup} {w w' w₁ : World}

/-! ## What a statement is to the stream -/

/-- The note of a statement, with what the statement did. -/
inductive Noted (S : Setup) (w : World) (t : Nat) (o : Statement) (r : Except Err o.Resp)
    (s' : Store) : World → Prop where
  | number (listingId : Id) (ho : o.Numbers) (hdb : s'.db = w.api.shared.db)
      (hseq : s'.redis.seq = Function.update w.seq listingId (w.seq listingId + 1))
      (hem : s'.redis.emitted = w.emitted)
      (hg : ∀ f, o.gives r f → f = (listingId, w.seq listingId + 1)) :
      Noted S w t o r s' (w.allocate t listingId)
  | giveUp (listingId : Id) (ho : o.Numbers) (hs : s' = w.api.shared) (hg : ∀ f, ¬o.gives r f) :
      Noted S w t o r s' { w with queued := w.queued ++ [(t, listingId)] }
  | emit (e : ReservationChanged) (ho : o = .redis (.emit e))
      (hdb : s'.db = w.api.shared.db) (hseq : s'.redis.seq = w.seq)
      (hem : s'.redis.emitted = w.emitted ++ [e]) (hg : ∀ f, ¬o.gives r f) :
      Noted S w t o r s' (w.broadcast S e)
  | other (hseq : s'.redis.seq = w.seq) (hem : s'.redis.emitted = w.emitted)
      (hg : ∀ f, ¬o.gives r f) : Noted S w t o r s' w

theorem noted_of_exec {t : Nat} {ch : Choice} {o : Statement} {r : Except Err o.Resp} {s' : Store}
    (hx : o.exec t ch w.api.shared = some (r, s')) : Noted S w t o r s' (w.note S t ch o) := by
  have hother : o.Unannounced → w.note S t ch o = w → (∀ f, ¬o.gives r f) →
      Noted S w t o r s' (w.note S t ch o) := by
    intro ho hn hg
    obtain ⟨hseq, hem⟩ := Statement.exec_unannounced ho hx
    rw [hn]
    exact .other hseq hem hg
  cases o with
  | redis o =>
    cases o with
    | incr listingId =>
      rcases Statement.exec_incr hx with ⟨e, hf, rfl, rfl⟩ | ⟨hf, hr, rfl⟩
      · have hnote : w.note S t ch (.redis (.incr listingId)) =
            { w with queued := w.queued ++ [(t, listingId)] } := by simp only [World.note, hf]
        rw [hnote]
        exact .giveUp listingId trivial rfl fun f hg => hg
      · have hnote : w.note S t ch (.redis (.incr listingId)) = w.allocate t listingId := by
          simp only [World.note]
        rw [hnote]
        refine .number listingId trivial rfl rfl rfl fun f hg => ?_
        cases r with
        | ok n => exact hr n rfl ▸ hg
        | error e => exact hg.elim
    | emit e =>
      rcases Statement.exec_emit hx with ⟨err, hf, rfl⟩ | ⟨hf, rfl⟩
      · have hnote : w.note S t ch (.redis (.emit e)) = w := by simp only [World.note, hf]
        rw [hnote]
        exact .other rfl rfl fun f hg => hg
      · have hnote : w.note S t ch (.redis (.emit e)) = w.broadcast S e := by
          simp only [World.note]
        rw [hnote]
        exact .emit e rfl rfl rfl rfl fun f hg => hg
    | _ => exact hother trivial rfl fun f hg => hg
  | _ => exact hother trivial rfl fun f hg => hg

namespace World

/-- The call has asked for a number. -/
def Numbered (w : World) (t : Nat) : Prop :=
  (∃ a ∈ w.allocated, a.tid = t) ∨ ∃ q ∈ w.queued, q.1 = t

/-- The numbers a call has been given. -/
def Given (w : World) (t : Nat) (f : Id × Nat) : Prop :=
  { tid := t, listingId := f.1, seq := f.2 } ∈ w.allocated

theorem mem_allocate {t : Nat} {listingId : Id} {a : Allocation} :
    a ∈ (w.allocate t listingId).allocated ↔ a ∈ w.allocated ∨
      a = { tid := t, listingId := listingId, seq := w.seq listingId + 1 } := by
  simp only [allocate, List.mem_append, List.mem_singleton]

theorem numbered_allocate {t u : Nat} {listingId : Id} (h : (w.allocate t listingId).Numbered u) :
    w.Numbered u ∨ u = t := by
  rcases h with ⟨a, ha, rfl⟩ | hq
  · rcases mem_allocate.mp ha with ha | rfl
    · exact .inl (.inl ⟨a, ha, rfl⟩)
    · exact .inr rfl
  · exact .inl (.inr hq)

theorem broadcast_cases (S : Setup) (w : World) (e : ReservationChanged) :
    w.broadcast S e = w ∨ w.broadcast S e = { w with down := w.down ++ [e] } := by
  unfold broadcast
  split
  · exact .inr rfl
  · exact .inl rfl

@[simp] theorem allocated_broadcast (e : ReservationChanged) :
    (w.broadcast S e).allocated = w.allocated := by
  rcases broadcast_cases S w e with h | h <;> rw [h]

@[simp] theorem queued_broadcast (e : ReservationChanged) :
    (w.broadcast S e).queued = w.queued := by
  rcases broadcast_cases S w e with h | h <;> rw [h]

end World

structure Numbering (w : World) : Prop where
  after : ∀ (t : Nat) c p, w.api.threads[t]? = some (.running c p) →
    p.After Statement.Numbers Statement.Quiet
  earned : ∀ (t : Nat) c p, w.api.threads[t]? = some (.running c p) →
    p.Earned Statement.gives Statement.needs (w.Given t)
  begun : ∀ t, w.Numbered t → t < w.api.threads.length
  quiet : ∀ t, w.Numbered t → ∀ c p, w.api.threads[t]? = some (.running c p) →
    p.Uses Statement.Quiet
  bound : ∀ a ∈ w.allocated, a.seq ≤ w.seq a.listingId
  unique : ∀ a ∈ w.allocated, ∀ b ∈ w.allocated, a.listingId = b.listingId → a.seq = b.seq → a = b
  emitted : ∀ e ∈ w.emitted, ∃ a ∈ w.allocated, a.listingId = e.listingId ∧ a.seq = e.seq

namespace Numbering

theorem start (listings : Table Listing) : Numbering (start listings) where
  after := fun t c p ht => by cases ht
  earned := fun t c p ht => by cases ht
  begun := fun t ht => by rcases ht with ⟨a, ha, -⟩ | ⟨q, hq, -⟩ <;> contradiction
  quiet := fun t _ c p ht => by cases ht
  bound := fun a ha => by cases ha
  unique := fun a ha => by cases ha
  emitted := fun e he => by cases he

/-- A new number is above those of its listing. -/
theorem bound_allocate (h : Numbering w) {t : Nat} {listingId : Id} {f : Id → Nat}
    (hf : f = Function.update w.seq listingId (w.seq listingId + 1)) :
    ∀ a ∈ (w.allocate t listingId).allocated, a.seq ≤ f a.listingId := by
  intro a ha
  rcases World.mem_allocate.mp ha with ha | rfl
  · have hle := h.bound a ha
    by_cases hl : a.listingId = listingId
    · rw [hf, hl, Function.update_self]
      rw [hl] at hle
      omega
    · rwa [hf, Function.update_of_ne hl]
  · rw [hf, Function.update_self]

theorem unique_allocate (h : Numbering w) (t : Nat) (listingId : Id) :
    ∀ a ∈ (w.allocate t listingId).allocated, ∀ b ∈ (w.allocate t listingId).allocated,
      a.listingId = b.listingId → a.seq = b.seq → a = b := by
  have hnew : ∀ a ∈ w.allocated, a.listingId = listingId → a.seq ≠ w.seq listingId + 1 := by
    intro a ha hl hs
    have hle := h.bound a ha
    rw [hl] at hle
    omega
  intro a ha b hb hl hs
  rcases World.mem_allocate.mp ha with ha | rfl
  · rcases World.mem_allocate.mp hb with hb | rfl
    · exact h.unique a ha b hb hl hs
    · exact (hnew a ha hl hs).elim
  · rcases World.mem_allocate.mp hb with hb | rfl
    · exact (hnew b hb hl.symm hs.symm).elim
    · rfl

/-- The numbers and the events are as they were, and every thread is, or is new. -/
theorem of_threads (h : Numbering w) (hal : w'.allocated = w.allocated) (hq : w'.queued = w.queued)
    (hseq : w'.seq = w.seq) (hem : w'.emitted = w.emitted)
    (hlen : w.api.threads.length ≤ w'.api.threads.length)
    (hth : ∀ (t : Nat) c p, w'.api.threads[t]? = some (.running c p) →
      w.api.threads[t]? = some (.running c p) ∨ w.api.threads.length ≤ t ∧ Announces p) :
    Numbering w' := by
  have hnum : ∀ t, w'.Numbered t → w.Numbered t := by
    intro t ht
    rwa [World.Numbered, hal, hq] at ht
  have hgiven : ∀ t, w'.Given t = w.Given t := by
    intro t
    funext f
    rw [World.Given, World.Given, hal]
  constructor
  case after =>
    intro t c p ht
    rcases hth t c p ht with ht | ⟨-, hp⟩
    · exact h.after t c p ht
    · exact hp.after
  case earned =>
    intro t c p ht
    rcases hth t c p ht with ht | ⟨-, hp⟩
    · exact hgiven t ▸ h.earned t c p ht
    · exact hp.earned _
  case begun => exact fun t ht => Nat.lt_of_lt_of_le (h.begun t (hnum t ht)) hlen
  case quiet =>
    intro t hn c p ht
    rcases hth t c p ht with ht | ⟨hle, -⟩
    · exact h.quiet t (hnum t hn) c p ht
    · exact absurd (h.begun t (hnum t hn)) (Nat.not_lt.mpr hle)
  case bound =>
    rw [hal, hseq]
    exact h.bound
  case unique =>
    rw [hal]
    exact h.unique
  case emitted =>
    rw [hem, hal]
    exact h.emitted

/-- Nothing has happened to the publishers. -/
theorem of_api (h : Numbering w) (ha : w'.api = w.api) (hal : w'.allocated = w.allocated)
    (hq : w'.queued = w.queued) : Numbering w' := by
  refine h.of_threads hal hq ?_ ?_ (Nat.le_of_eq (congrArg _ (congrArg _ ha.symm)))
    fun t c p ht => .inl (ha ▸ ht)
  · unfold World.seq
    rw [ha]
  · unfold World.emitted
    rw [ha]

end Numbering

namespace Noted

variable {t : Nat} {o : Statement} {r : Except Err o.Resp} {s' : Store}

theorem allocated (h : Noted S w t o r s' w₁) : ∀ a ∈ w.allocated, a ∈ w₁.allocated := by
  cases h with
  | number listingId => exact fun a ha => World.mem_allocate.mpr (.inl ha)
  | emit e => exact fun a ha => (World.allocated_broadcast e).symm ▸ ha
  | _ => exact fun a ha => ha

theorem given (h : Noted S w t o r s' w₁) : ∀ f, o.gives r f → w₁.Given t f := by
  intro f hf
  cases h with
  | number listingId ho hdb hseq hem hg =>
    rw [hg f hf]
    exact World.mem_allocate.mpr (.inr rfl)
  | giveUp listingId ho hs hg => exact (hg f hf).elim
  | emit e ho hdb hseq hem hg => exact (hg f hf).elim
  | other hseq hem hg => exact (hg f hf).elim

theorem numbered (h : Noted S w t o r s' w₁) {u : Nat} (hu : w₁.Numbered u) :
    w.Numbered u ∨ u = t ∧ o.Numbers := by
  cases h with
  | number listingId ho =>
    exact (World.numbered_allocate hu).imp_right fun he => ⟨he, ho⟩
  | giveUp listingId ho =>
    rcases hu with ha | ⟨q, hq, rfl⟩
    · exact .inl (.inl ha)
    · rcases List.mem_append.mp hq with hq | hq
      · exact .inl (.inr ⟨q, hq, rfl⟩)
      · rw [List.mem_singleton.mp hq]
        exact .inr ⟨rfl, ho⟩
  | emit e =>
    rw [World.Numbered, World.allocated_broadcast, World.queued_broadcast] at hu
    exact .inl hu
  | other => exact .inl hu

theorem bound (h : Noted S w t o r s' w₁) (hw : Numbering w) :
    ∀ a ∈ w₁.allocated, a.seq ≤ s'.redis.seq a.listingId := by
  cases h with
  | number listingId ho hdb hseq => exact hw.bound_allocate hseq
  | giveUp listingId ho hs => exact hs ▸ hw.bound
  | emit e ho hdb hseq =>
    rw [World.allocated_broadcast, hseq]
    exact hw.bound
  | other hseq =>
    rw [hseq]
    exact hw.bound

theorem unique (h : Noted S w t o r s' w₁) (hw : Numbering w) :
    ∀ a ∈ w₁.allocated, ∀ b ∈ w₁.allocated, a.listingId = b.listingId → a.seq = b.seq → a = b := by
  cases h with
  | number listingId => exact hw.unique_allocate t listingId
  | emit e =>
    rw [World.allocated_broadcast]
    exact hw.unique
  | _ => exact hw.unique

theorem emitted (h : Noted S w t o r s' w₁) :
    ∀ e ∈ s'.redis.emitted, e ∈ w.emitted ∨ o = .redis (.emit e) ∧
      (w.link.connected = true → w.link.inRoom (S.text e.listingId) = true → e ∈ w₁.down) := by
  intro e he
  cases h with
  | number listingId ho hdb hseq hem => exact .inl (hem ▸ he)
  | giveUp listingId ho hs =>
    rw [hs] at he
    exact .inl he
  | emit e' ho hdb hseq hem =>
    rw [hem] at he
    rcases List.mem_append.mp he with he | he
    · exact .inl he
    · rw [List.mem_singleton.mp he]
      refine .inr ⟨ho, fun hc hroom => ?_⟩
      rw [World.broadcast, hc, hroom, Bool.and_self, if_pos rfl]
      exact List.mem_append_right _ (List.mem_singleton_self e')
  | other hseq hem => exact .inl (hem ▸ he)

theorem kept (h : Noted S w t o r s' w₁) : ∀ e ∈ w.down, e ∈ w₁.down := by
  intro e he
  cases h with
  | emit e' =>
    rcases World.broadcast_cases S w e' with hb | hb <;> rw [hb]
    · exact he
    · exact List.mem_append_left _ he
  | _ => exact he

theorem down (h : Noted S w t o r s' w₁) :
    ∀ e ∈ w₁.down, e ∈ w.down ∨ e ∈ s'.redis.emitted := by
  intro e he
  cases h with
  | emit e' ho hdb hseq hem =>
    rcases World.broadcast_cases S w e' with hb | hb <;> rw [hb] at he
    · exact .inl he
    · rw [hem]
      exact (List.mem_append.mp he).imp_right fun hm => List.mem_append_right _ hm
  | _ => exact .inl he

end Noted

namespace Numbering

/-- The step of a thread. -/
theorem step (h : Numbering w) {t : Nat} {c : Call} {o : Statement}
    {k : Except Err o.Resp → Async Reply} {r : Except Err o.Resp} {s' : Store}
    (ht : w.api.threads[t]? = some (.running c (.call o k))) (hn : Noted S w t o r s' w₁)
    (hapi : w'.api = { shared := s', threads := w.api.threads.set t (.running c (k r)) })
    (hal : w'.allocated = w₁.allocated) (hq : w'.queued = w₁.queued) : Numbering w' := by
  have hgiven : ∀ u f, w₁.Given u f → w'.Given u f := by
    intro u f hf
    rwa [World.Given, hal]
  have hnum : ∀ u, w'.Numbered u → w.Numbered u ∨ u = t ∧ o.Numbers := by
    intro u hu
    rw [World.Numbered, hal, hq] at hu
    exact hn.numbered hu
  have hth : ∀ (u : Nat) c' p, w'.api.threads[u]? = some (.running c' p) →
      (u = t ∧ p = k r) ∨ u ≠ t ∧ w.api.threads[u]? = some (.running c' p) := by
    intro u c' p hu
    rw [hapi] at hu
    rcases getElem?_of_set hu with ⟨rfl, he⟩ | hold
    · cases he
      exact .inl ⟨rfl, rfl⟩
    · exact .inr hold
  have hafter := h.after t c _ ht
  have hearned := h.earned t c _ ht
  constructor
  case after =>
    intro u c' p hu
    rcases hth u c' p hu with ⟨rfl, rfl⟩ | ⟨-, hu⟩
    · exact (hafter r).2
    · exact h.after u c' p hu
  case earned =>
    intro u c' p hu
    rcases hth u c' p hu with ⟨rfl, rfl⟩ | ⟨-, hu⟩
    · refine (hearned.2 r).mono fun f hf => hgiven _ f ?_
      rcases hf with hf | hf
      · exact hn.allocated _ hf
      · exact hn.given f hf
    · exact (h.earned u c' p hu).mono fun f hf => hgiven u f (hn.allocated _ hf)
  case begun =>
    intro u hu
    rw [hapi, List.length_set]
    rcases hnum u hu with hu | ⟨rfl, -⟩
    · exact h.begun u hu
    · exact (List.getElem?_eq_some_iff.mp ht).1
  case quiet =>
    intro u hu c' p hp
    rcases hth u c' p hp with ⟨rfl, rfl⟩ | ⟨hne, hp⟩
    · rcases hnum u hu with hu | ⟨-, ho⟩
      · exact (h.quiet u hu c _ ht).2 r
      · exact (hafter r).1 ho
    · rcases hnum u hu with hu | ⟨he, -⟩
      · exact h.quiet u hu c' p hp
      · exact (hne he).elim
  case bound =>
    rw [hal]
    unfold World.seq
    rw [hapi]
    exact hn.bound h
  case unique =>
    rw [hal]
    exact hn.unique h
  case emitted =>
    intro e he
    rw [hal]
    unfold World.emitted at he
    rw [hapi] at he
    rcases hn.emitted e he with he | ⟨ho, -⟩
    · obtain ⟨a, ha, heq⟩ := h.emitted e he
      exact ⟨a, hn.allocated a ha, heq⟩
    · have hneeds : o.needs (e.listingId, e.seq) := ho ▸ rfl
      exact ⟨_, hn.allocated _ (hearned.1 _ hneeds), rfl, rfl⟩

/-- A command that was given up is executed. -/
theorem late (h : Numbering w) {i : Nat} {q : Nat × Id} (hi : w.queued[i]? = some q)
    (hth : w'.api.threads = w.api.threads)
    (hseq : w'.seq = Function.update w.seq q.2 (w.seq q.2 + 1)) (hem : w'.emitted = w.emitted)
    (hal : w'.allocated = (w.allocate q.1 q.2).allocated) (hq : w'.queued = w.queued.eraseIdx i) :
    Numbering w' := by
  have hnum : ∀ u, w'.Numbered u → w.Numbered u := by
    rintro u (⟨a, ha, rfl⟩ | ⟨q', hq', rfl⟩)
    · rw [hal] at ha
      rcases World.mem_allocate.mp ha with ha | rfl
      · exact .inl ⟨a, ha, rfl⟩
      · exact .inr ⟨q, List.mem_of_getElem? hi, rfl⟩
    · rw [hq] at hq'
      exact .inr ⟨q', List.mem_of_mem_eraseIdx hq', rfl⟩
  constructor
  case after =>
    intro u c p hu
    exact h.after u c p (hth ▸ hu)
  case earned =>
    intro u c p hu
    refine (h.earned u c p (hth ▸ hu)).mono fun f hf => ?_
    rw [World.Given, hal]
    exact World.mem_allocate.mpr (.inl hf)
  case begun =>
    intro u hu
    rw [hth]
    exact h.begun u (hnum u hu)
  case quiet =>
    intro u hu c p hp
    exact h.quiet u (hnum u hu) c p (hth ▸ hp)
  case bound =>
    rw [hal]
    exact h.bound_allocate hseq
  case unique =>
    rw [hal]
    exact h.unique_allocate q.1 q.2
  case emitted =>
    intro e he
    rw [hem] at he
    obtain ⟨a, ha, heq⟩ := h.emitted e he
    rw [hal]
    exact ⟨a, World.mem_allocate.mpr (.inl ha), heq⟩

end Numbering

/-! ## Steps of the publishers -/

structure Onward (w w' : World) : Prop where
  seq : ∀ listingId, w.seq listingId ≤ w'.seq listingId
  allocated : ∀ a ∈ w'.allocated, a ∈ w.allocated ∨ w.seq a.listingId < a.seq
  changes : ∀ c ∈ w.changes, c ∈ w'.changes
  fresh : ∀ c ∈ w'.changes, c ∈ w.changes ∨ ∀ a ∈ w.allocated, a.tid ≠ c.tid
  emitted : ∀ e ∈ w.emitted, e ∈ w'.emitted

theorem Onward.of_api (ha : w'.api = w.api) (hal : w'.allocated = w.allocated)
    (hc : w'.changes = w.changes) : Onward w w' where
  seq := fun listingId => Nat.le_of_eq (by rw [World.seq, World.seq, ha])
  allocated := fun a h => .inl (hal ▸ h)
  changes := fun c h => hc ▸ h
  fresh := fun c h => .inl (hc ▸ h)
  emitted := fun e h => by rwa [World.emitted, ha]

/-- The page is as it was, up to what has been sent to it. -/
structure SamePage (w w' : World) : Prop where
  link : w'.link = w.link
  screen : w'.screen = w.screen
  read : w'.read = w.read
  reread : w'.reread = w.reread

/-- The event is the emission of `e`. -/
def World.Emits (w : World) (ev : Event) (e : ReservationChanged) : Prop :=
  ∃ t ch c k, ev = .api (.step t ch) ∧
    w.api.threads[t]? = some (.running c (.call (.redis (.emit e)) k))

/-- What an event of the processes does. -/
structure Published (S : Setup) (w : World) (ev : Event) (w' : World) : Prop where
  numbering : Numbering w'
  onward : Onward w w'
  page : SamePage w w'
  kept : ∀ e ∈ w.down, e ∈ w'.down
  down : ∀ e ∈ w'.down, e ∈ w.down ∨ e ∈ w'.emitted
  emits : ∀ e ∈ w'.emitted, e ∈ w.emitted ∨ w.Emits ev e ∧
    (w.link.connected = true → w.link.inRoom (S.text e.listingId) = true → e ∈ w'.down)

namespace Noted

variable {t : Nat} {o : Statement} {r : Except Err o.Resp} {s' : Store}

theorem page (h : Noted S w t o r s' w₁) : SamePage w w₁ := by
  cases h with
  | emit e =>
    rcases World.broadcast_cases S w e with hb | hb <;> rw [hb] <;> exact ⟨rfl, rfl, rfl, rfl⟩
  | _ => exact ⟨rfl, rfl, rfl, rfl⟩

theorem changes (h : Noted S w t o r s' w₁) : w₁.api = w.api ∧ w₁.changes = w.changes := by
  cases h with
  | emit e => rcases World.broadcast_cases S w e with hb | hb <;> rw [hb] <;> exact ⟨rfl, rfl⟩
  | _ => exact ⟨rfl, rfl⟩

theorem seq (h : Noted S w t o r s' w₁) (listingId : Id) :
    w.seq listingId ≤ s'.redis.seq listingId := by
  cases h with
  | number lid ho hdb hseq =>
    rw [hseq]
    by_cases hl : listingId = lid
    · rw [hl, Function.update_self]
      exact Nat.le_succ _
    · rw [Function.update_of_ne hl]
  | giveUp lid ho hs => rw [hs]; rfl
  | emit e ho hdb hseq => rw [hseq]
  | other hseq => rw [hseq]

theorem fresh (h : Noted S w t o r s' w₁) :
    ∀ a ∈ w₁.allocated, a ∈ w.allocated ∨ w.seq a.listingId < a.seq := by
  intro a ha
  cases h with
  | number listingId =>
    rcases World.mem_allocate.mp ha with ha | rfl
    · exact .inl ha
    · exact .inr (Nat.lt_succ_self _)
  | emit e => exact .inl (World.allocated_broadcast (w := w) (S := S) e ▸ ha)
  | _ => exact .inl ha

theorem emitted_sub (h : Noted S w t o r s' w₁) : ∀ e ∈ w.emitted, e ∈ s'.redis.emitted := by
  intro e he
  cases h with
  | number listingId ho hdb hseq hem => exact hem ▸ he
  | giveUp listingId ho hs => exact hs ▸ he
  | emit e' ho hdb hseq hem =>
    rw [hem]
    exact List.mem_append_left _ he
  | other hseq hem => exact hem ▸ he

end Noted

namespace Published

/-- The processes move without a word to the stream. -/
theorem of_threads (h : Numbering w) {ev : Event} (hpage : SamePage w w') (hd : w'.down = w.down)
    (hal : w'.allocated = w.allocated) (hq : w'.queued = w.queued) (hc : w'.changes = w.changes)
    (hredis : w'.api.shared.redis = w.api.shared.redis)
    (hlen : w.api.threads.length ≤ w'.api.threads.length)
    (hth : ∀ (t : Nat) c p, w'.api.threads[t]? = some (.running c p) →
      w.api.threads[t]? = some (.running c p) ∨ w.api.threads.length ≤ t ∧ Announces p) :
    Published S w ev w' := by
  have hseq : w'.seq = w.seq := by
    unfold World.seq
    rw [hredis]
  have hem : w'.emitted = w.emitted := by
    unfold World.emitted
    rw [hredis]
  have honward : Onward w w' :=
    { seq := fun listingId => Nat.le_of_eq (congrFun hseq.symm listingId)
      allocated := fun a ha => .inl (hal ▸ ha)
      changes := fun c hm => hc ▸ hm
      fresh := fun c hm => .inl (hc ▸ hm)
      emitted := fun e he => hem ▸ he }
  exact { numbering := h.of_threads hal hq hseq hem hlen hth
          onward := honward
          page := hpage
          kept := fun e he => hd ▸ he
          down := fun e he => .inl (hd ▸ he)
          emits := fun e he => .inl (hem ▸ he) }

/-- A thread issues a statement. -/
theorem step (h : Numbering w) {t : Nat} {ch : Choice} {c : Call} {o : Statement}
    {k : Except Err o.Resp → Async Reply} {r : Except Err o.Resp} {s' : Store}
    (ht : w.api.threads[t]? = some (.running c (.call o k)))
    (hx : o.exec t ch w.api.shared = some (r, s')) :
    Published S w (.api (.step t ch)) (w.act S (.step t ch)
      { shared := s', threads := w.api.threads.set t (.running c (k r)) }) := by
  have hact : w.act S (.step t ch)
      { shared := s', threads := w.api.threads.set t (.running c (k r)) } =
      { (w.note S t ch o).commit t s'.db with
        api := { shared := s', threads := w.api.threads.set t (.running c (k r)) } } := by
    simp only [World.act, ht]
  have hn : Noted S w t o r s' (w.note S t ch o) := noted_of_exec hx
  rw [hact]
  generalize w.note S t ch o = w₁ at hn ⊢
  obtain ⟨hapi, hchanges⟩ := hn.changes
  have hfresh : ∀ e ∈ (w₁.commit t s'.db).changes,
      e ∈ w.changes ∨ ∀ a ∈ w.allocated, a.tid ≠ e.tid := by
    intro e he
    simp only [World.commit, hapi, hchanges, List.mem_append, List.mem_map] at he
    rcases he with he | ⟨row, hrow, rfl⟩
    · exact .inl he
    · refine .inr fun a ha htid => ?_
      have huses := h.quiet t (.inl ⟨a, ha, htid⟩) c _ ht
      rw [World.altered, Statement.reservations_of_quiet huses.1 hx] at hrow
      obtain ⟨hmem, hnot⟩ := List.mem_filter.mp hrow
      exact of_decide_eq_true hnot hmem
  have honward : Onward w { w₁.commit t s'.db with
      api := { shared := s', threads := w.api.threads.set t (.running c (k r)) } } :=
    { seq := hn.seq
      allocated := hn.fresh
      changes := fun e he => List.mem_append_left _ (hchanges ▸ he)
      fresh := hfresh
      emitted := hn.emitted_sub }
  have hpage := hn.page
  have hemits : ∀ e ∈ s'.redis.emitted, e ∈ w.emitted ∨ w.Emits (.api (.step t ch)) e ∧
      (w.link.connected = true → w.link.inRoom (S.text e.listingId) = true → e ∈ w₁.down) := by
    intro e he
    rcases hn.emitted e he with he | ⟨rfl, hdown⟩
    · exact .inl he
    · exact .inr ⟨⟨t, ch, c, k, rfl, ht⟩, hdown⟩
  exact { numbering := h.step ht hn rfl rfl rfl
          onward := honward
          page := ⟨hpage.link, hpage.screen, hpage.read, hpage.reread⟩
          kept := hn.kept
          down := hn.down
          emits := hemits }

/-- Any event of the API and the worker. -/
theorem of_moves (h : Numbering w) {e : NoOverlap.Event} {api' : NoOverlap.World}
    (hm : (system S.api).Moves anything w.api e api') :
    Published S w (.api e) (w.act S e api') := by
  have hpage : SamePage w { w with api := api' } := ⟨rfl, rfl, rfl, rfl⟩
  cases hm with
  | @spawn c s hp hs =>
    obtain ⟨q, rfl⟩ := exists_queues_of_spawned hs
    refine of_threads h hpage rfl rfl rfl rfl rfl ?_ fun t c' p ht => ?_
    · exact Nat.le_of_lt (by simp [World.act])
    · rcases getElem?_of_append ht with ⟨rfl, he⟩ | ht
      · cases he
        exact .inr ⟨Nat.le_refl _, program_announces S.unannounced c⟩
      · exact .inl ht
  | step ht hp hx => exact step h ht hx
  | @ret t c r ht =>
    refine of_threads h hpage rfl rfl rfl rfl (returned_redis t c r _) ?_ fun u c' p hu => ?_
    · exact Nat.le_of_eq (List.length_set).symm
    · rcases getElem?_of_set hu with ⟨-, he⟩ | ⟨-, hu⟩
      · cases he
      · exact .inl hu
  | @kill t c p ht hp =>
    refine of_threads h hpage rfl rfl rfl rfl rfl ?_ fun u c' p' hu => ?_
    · exact Nat.le_of_eq (List.length_set).symm
    · rcases getElem?_of_set hu with ⟨-, he⟩ | ⟨-, hu⟩
      · cases he
      · exact .inl hu

theorem late (h : Numbering w) {i : Nat} (hn : next S w (.late i) = some w') :
    Published S w (.late i) w' := by
  obtain ⟨q, hi, rfl⟩ := Option.map_eq_some_iff.mp hn
  have hseq : ∀ listingId, w.seq listingId ≤
      Function.update w.seq q.2 (w.seq q.2 + 1) listingId := by
    intro listingId
    by_cases hl : listingId = q.2
    · rw [hl, Function.update_self]
      exact Nat.le_succ _
    · rw [Function.update_of_ne hl]
  have hfresh : ∀ a ∈ (w.allocate q.1 q.2).allocated,
      a ∈ w.allocated ∨ w.seq a.listingId < a.seq := by
    intro a ha
    rcases World.mem_allocate.mp ha with ha | rfl
    · exact .inl ha
    · exact .inr (Nat.lt_succ_self _)
  exact { numbering := h.late hi rfl rfl rfl rfl rfl
          onward := ⟨hseq, hfresh, fun _ hc => hc, fun _ hc => .inl hc, fun _ he => he⟩
          page := ⟨rfl, rfl, rfl, rfl⟩
          kept := fun _ he => he
          down := fun _ he => .inl he
          emits := fun _ he => .inl he }

end Published

end Realtime

end NoOverlap
