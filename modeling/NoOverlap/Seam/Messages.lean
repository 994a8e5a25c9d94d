import NoOverlap.Lifecycle.Answers
import NoOverlap.Payments.MockProvider
import NoOverlap.Seam.Agreement
import NoOverlap.Seam.Programs

/-!
# Every message is accepted

The relay, the worker and the runs of the system under `chargesSomething`.  Every job that
is ever stored decodes, on the other side, to the fields that were written.
-/

namespace NoOverlap

open Relational Concurrency RelyGuarantee
open Concurrency.Prog

namespace Agreement

variable {listings : Table Listing} {a : Agent} {s s' : Store} {ch : Choice}

/-! ## The relay -/

theorem payable_of_selectUnpublished {limit : Nat} {rows : List OutboxRow} (hi : Inv listings s)
    (hx : (Statement.db (.selectUnpublished limit)).exec a.tid ch s = some (.ok rows, s')) :
    ∀ row ∈ rows, Payable row.payload.amountCents := by
  have heff := effect_of_ok hx
  generalize s'.db = d at heff
  cases heff with
  | read _ _ h => cases h
  | selectUnpublished _ tx ht =>
    intro row hrow
    have hm := List.mem_of_mem_take hrow
    rw [List.mem_insertionSort] at hm
    exact hi.db.outbox row (List.mem_filter.mp hm).1

theorem safe_publishBatch : (agreement listings).Safe a (fun _ _ => True) publishBatch s := by
  refine (safe_transaction (Q := fun _ => True) fun s => ?_).imp fun _ _ _ => trivial
  refine safe_op (o := .db (.selectUnpublished _)) trivial fun s₁ hi ch r s₂ _ hx => ?_
  cases r with
  | error e => exact fun _ _ => trivial
  | ok rows =>
    have hrows := payable_of_selectUnpublished hi hx
    by_cases hn : rows.length = 0
    · simp only [cont_ok, if_pos hn, safe_pure]
      exact fun _ _ => trivial
    simp only [cont_ok, if_neg hn]
    refine safe_op (o := .queue (.chargeAddBulk rows)) hrows fun _ _ ch r s₃ _ _ => ?_
    cases r with
    | error e => exact fun _ _ => trivial
    | ok u =>
      have hrest : (newDate >>= fun now => tx.outboxMarkPublished (rows.map (·.id)) now >>= fun _ =>
          (pure rows.length : Async Nat)).Uses Statement.Fine :=
        Uses.bind (uses_op trivial) fun _ => Uses.bind (uses_op trivial) fun _ => uses_pure _
      exact (safe_of_uses hrest).imp fun _ _ _ _ _ => trivial

theorem safe_relayTick : (agreement listings).Safe a (fun _ _ => True) relayTick s :=
  Safe.rescue (K := fun _ => True)
    (Safe.seq (K := fun _ => True) safe_publishBatch fun _ _ _ => trivial) fun _ _ _ => trivial

/-! ## The worker -/

/-- What a function of the worker answers with satisfies `Q`. -/
def Gives {β : Type} (Q : β → Prop) (r : Except Err β) (_ : Store) : Prop := ∀ v, r = .ok v → Q v

theorem gives_error {β : Type} {Q : β → Prop} (e : Err) : ∀ v, Except.error e = .ok v → Q v :=
  fun _ h => by cases h

theorem gives_ok {β : Type} {Q : β → Prop} {v : β} (h : Q v) :
    ∀ v', (Except.ok v : Except Err β) = .ok v' → Q v' := by
  intro v' hv
  cases hv
  exact h

theorem explained_of_getCharge {key : IdempotencyKey} {prior : ChargeOutcome} (hi : Inv listings s)
    (hx : (Statement.redis (.getCharge key)).exec a.tid ch s = some (.ok (some prior), s')) :
    prior.Explained := by
  have hp := Statement.perform_of_exec_ok hx
  simp only [Statement.perform, Redis.perform, Option.some.injEq, Prod.mk.injEq,
    Except.ok.injEq] at hp
  have hentry := Ledger.get_some hp.1
  have hkeep : (s.redis.charges.get key).2.entry key = s.redis.charges.entry key := by
    unfold Ledger.get
    split <;> rfl
  exact hi.ledger key prior (hkeep ▸ hentry)

theorem safe_mockCharge (cfg : MockConfig) (key : IdempotencyKey) (amountCents : Int) :
    (agreement listings).Safe a (Gives ChargeOutcome.Explained)
      (MockPaymentProvider.charge cfg key amountCents) s := by
  refine safe_op (o := .redis (.getCharge key)) trivial fun s₁ hi ch r s₂ _ hx => ?_
  cases r with
  | error e => exact gives_error e
  | ok found =>
    cases found with
    | some prior => exact gives_ok (explained_of_getCharge hi hx)
    | none =>
      have hdelay : (MockPaymentProvider.delay cfg).Uses Statement.Fine :=
        uses_ite (fun _ => uses_op trivial) fun _ => uses_pure ()
      refine Safe.bind ((safe_of_uses hdelay).imp fun r s₃ _ => ?_)
      cases r with
      | error e => exact gives_error e
      | ok u =>
        refine safe_op (o := .host .mathRandom) trivial fun _ _ ch r s₄ _ _ => ?_
        cases r with
        | error e => exact gives_error e
        | ok draw =>
          by_cases ht : draw < cfg.transientRate
          · simp only [cont_ok, if_pos ht, safe_throw]
            exact gives_error _
          simp only [cont_ok, if_neg ht]
          refine safe_op (o := .host .mathRandom) trivial fun _ _ ch r s₅ _ _ => ?_
          cases r with
          | error e => exact gives_error e
          | ok draw' =>
            have hout : (if draw' < cfg.failureRate then ChargeOutcome.declined "Card declined"
                else .succeeded (MockPaymentProvider.providerRef key)).Explained := by
              split
              · exact (by decide : "Card declined" ≠ "")
              · trivial
            refine safe_op (o := .redis (.setCharge _ _)) hout fun _ _ ch r s₆ _ _ => ?_
            cases r with
            | error e => exact gives_error e
            | ok u => exact gives_ok hout

theorem safe_toResult {e : BookingHeld} {p : Payment} (hp : p.Tellable) :
    (agreement listings).Safe a (Gives PaymentResult.Presentable) (PaymentService.toResult e p) s := by
  unfold PaymentService.toResult
  by_cases hst : p.status = .succeeded
  · rw [if_pos hst]
    cases p.providerRef with
    | none => exact gives_error _
    | some ref =>
      by_cases hempty : ref = ""
      · simp only [if_pos hempty, safe_throw]
        exact gives_error _
      · simp only [if_neg hempty, safe_pure]
        exact gives_ok ⟨hp.amount, hempty⟩
  · rw [if_neg hst, safe_pure]
    refine gives_ok ?_
    show p.failureReason.getD "Card declined" ≠ ""
    cases hreason : p.failureReason with
    | none => decide
    | some reason => exact fun heq => hp.reason (hreason.trans (congrArg some heq))

theorem safe_chargeAndRecord (cfg : MockConfig) (e : BookingHeld) :
    (agreement listings).Safe a (Gives PaymentResult.Presentable)
      (PaymentService.chargeAndRecord (mockPaymentProvider cfg) e) s := by
  refine Safe.bind ((safe_mockCharge cfg e.idempotencyKey e.amountCents).imp fun r s₁ hr => ?_)
  cases r with
  | error err => exact gives_error err
  | ok outcome =>
    have hfine : (Statement.db (.paymentUpdate e.idempotencyKey
        (PaymentService.recorded outcome))).Fine := by
      cases outcome with
      | succeeded ref => trivial
      | declined reason => exact hr _ rfl
    refine safe_op (o := .db (.paymentUpdate _ _)) hfine fun s₂ hi ch r s₃ _ hx => ?_
    cases r with
    | error err => exact gives_error err
    | ok p =>
      exact safe_toResult ((hi.exec hfine hx).payments p (Table.mem_of_find? (find?_of_paymentUpdate hx)))

theorem safe_charge (cfg : MockConfig) {e : BookingHeld} (hpay : Payable e.amountCents) :
    (agreement listings).Safe a (Gives PaymentResult.Presentable)
      (PaymentService.charge (mockPaymentProvider cfg) e) s := by
  refine safe_op (o := .db (.paymentFindUnique _)) trivial fun s₁ hi ch r s₂ _ hx => ?_
  cases r with
  | error err => exact gives_error err
  | ok existing =>
    cases existing with
    | some existing =>
      by_cases h : existing.status ≠ .pending
      · simp only [cont_ok, if_pos h]
        have hread := Table.mem_of_find? (find?_of_paymentFindUnique hx)
        exact safe_toResult ((hi.exec (o := .db (.paymentFindUnique _)) trivial hx).payments _ hread)
      · simp only [cont_ok, if_neg h]
        exact safe_chargeAndRecord cfg e
    | none =>
      have hclaim : (PaymentService.claim e).Uses Statement.Fine :=
        Uses.tryCatch (uses_op hpay) fun _ => uses_ite (fun _ => uses_throw _) fun _ => uses_pure ()
      refine Safe.bind ((safe_of_uses hclaim).imp fun r s₃ _ => ?_)
      cases r with
      | error err => exact gives_error err
      | ok u => exact safe_chargeAndRecord cfg e

theorem presentable_withTrace {m : PaymentResult} (h : m.Presentable) (tc : TraceContext) :
    (m.withTrace tc).Presentable := by
  cases m with
  | succeeded m => exact h
  | failed m => exact h

theorem safe_processCharge (cfg : MockConfig) {data : BookingHeld}
    (hpay : Payable data.amountCents) :
    (agreement listings).Safe a (fun _ _ => True)
      (processCharge (mockPaymentProvider cfg) data) s := by
  unfold processCharge
  cases hp : bookingHeldSchema data with
  | error e => trivial
  | ok event =>
    obtain ⟨rfl, -⟩ := bookingHeldSchema_eq_ok hp
    refine Safe.bind ((safe_charge cfg hpay).imp fun r s₁ hr => ?_)
    cases r with
    | error e => trivial
    | ok m =>
      have hm : m.Presentable := hr m rfl
      refine safe_of_uses (Uses.bind (uses_op trivial) fun trace => ?_)
      cases trace with
      | none => exact uses_op hm
      | some tc => exact uses_op (presentable_withTrace hm tc)

theorem safe_processRefund (cfg : MockConfig) (data : RefundRequested) :
    (agreement listings).Safe a (fun _ _ => True)
      (processRefund (mockPaymentProvider cfg) data) s := by
  refine safe_of_uses (Uses.bind (uses_op trivial) fun payment => ?_)
  cases payment with
  | none => exact uses_pure ()
  | some payment =>
    refine uses_ite (fun _ => uses_pure ()) fun _ => Uses.bind ?_ fun _ =>
      Uses.bind (uses_op trivial) fun _ => uses_pure ()
    refine Uses.bind (uses_op trivial) fun prior => ?_
    cases prior with
    | some prior => exact uses_pure prior
    | none =>
      exact Uses.bind (uses_ite (fun _ => uses_op trivial) fun _ => uses_pure ()) fun _ =>
        uses_op trivial

/-! ## Runs -/

/-- A call that neither transacts nor works for the worker. -/
theorem safe_of_api {cfg : Config} {c : Call} (ht : c.transacts = false) (hw : c.ofWorker = false) :
    (agreement listings).Safe a (fun _ _ => True) (c.program cfg) s :=
  safe_of_uses ((program_issues cfg c).mono fun _ => fine_of_issues ht hw)

theorem safe_program (ttl : Int) (cfg : MockConfig) {c : Call} (hi : Inv listings s)
    (hext : c.external = true) (hsp : s.spawned c = some s') :
    (agreement listings).Safe a (fun _ _ => True)
      (c.program { holdTtlMs := ttl, provider := mockPaymentProvider cfg }) s' := by
  cases c with
  | hold guestId dto => exact safe_answer (K := fun _ => True) safe_hold
  | relayTick => exact safe_answer (K := fun _ => True) safe_relayTick
  | processCharge id data =>
    obtain ⟨j, hj, rfl⟩ := Seam.has_of_spawned_charge hsp
    exact safe_answer (K := fun _ => True) (safe_processCharge cfg (hi.charge id j hj))
  | processRefund id data => exact safe_answer (K := fun _ => True) (safe_processRefund cfg data)
  | cancel | sweepExpiredHolds | sweepCompletedStays | processResult => exact safe_of_api rfl rfl
  | _ => cases hext

theorem Inv.of_same {q : Queues} (hi : Inv listings s) (h : s.queues.Same q) :
    Inv listings { s with queues := q } := by
  refine ⟨hi.db, hi.payments, fun id j' hj' => ?_, fun id j' hj' => ?_, hi.ledger⟩
  · obtain ⟨j, hj, hd⟩ := h.charge.2 id j' hj'
    rw [← show j.data = j'.data from hd]
    exact hi.charge id j hj
  · obtain ⟨j, hj, hd⟩ := h.result.2 id j' hj'
    rw [← show j.data = j'.data from hd]
    exact hi.result id j hj

theorem Inv.init (listings : Table Listing) : Inv listings (Store.init listings) where
  db := ⟨rfl, fun _ h => by (cases h), fun _ h => by (cases h)⟩
  payments := fun _ h => by cases h
  charge := fun _ _ h => by cases h
  result := fun _ _ h => by cases h
  ledger := fun _ _ h => by cases h

theorem sound (ttl : Int) (cfg : MockConfig) (listings : Table Listing) :
    Sound (agreement listings) (system { holdTtlMs := ttl, provider := mockPaymentProvider cfg })
      chargesSomething (Store.init listings) where
  start := Inv.init listings
  fresh_start := fun _ => trivial
  rely_refl := fun _ _ => trivial
  rely_trans := fun _ _ _ _ _ _ => trivial
  guar_rely := fun _ _ _ _ _ _ _ _ => trivial
  fresh_stable := fun _ _ _ _ _ => trivial
  post_stable := fun _ _ _ _ _ _ _ => trivial
  lost_stable := fun _ _ _ _ _ => trivial
  step := fun _ _ _ _ _ _ ch _ _ _ hop hx => ⟨ch, hop, hx⟩
  spawn := by
    intro t c s s' hi _ hp hs
    have hsafe := safe_program (a := ⟨t, c⟩) ttl cfg hi hp hs
    obtain ⟨q, rfl, hq⟩ := same_of_spawned hs
    exact ⟨hi.of_same hq, fun _ => trivial, hsafe⟩
  ret := by
    intro t c r s hi _
    obtain ⟨q, he, hq⟩ := same_of_returned t c r s
    rw [show (system { holdTtlMs := ttl, provider := mockPaymentProvider cfg }).returned t c r s = _
      from he]
    exact ⟨hi.of_same hq, fun _ => trivial⟩
  kill := by
    intro t c p s hi _
    have hdb : DbInv listings (s.db.rollback t) :=
      ⟨hi.db.listings, Database.forall_rollback hi.db.pending, hi.db.outbox⟩
    exact ⟨⟨hdb, hi.payments, hi.charge, hi.result, hi.ledger⟩, fun _ _ => trivial, trivial⟩

end Agreement

/-! ## The agreement -/

section Messages

variable (ids : IdText)

/-- The consumer reads back what was written.  An event goes through the outbox first. -/
def BookingHeld.Understood (m : BookingHeld) : Prop :=
  Wire.bookingHeldSchema (m.toValue ids).json.json = some (m.written ids)

def PaymentResult.Understood (m : PaymentResult) : Prop :=
  Wire.paymentResultSchema (m.toValue ids).json = some (m.written ids)

def RefundRequested.Understood (m : RefundRequested) : Prop :=
  Wire.refundRequestedSchema (m.toValue ids).json = some (m.written ids)

instance (m : BookingHeld) : Decidable (m.Understood ids) := inferInstanceAs (Decidable (_ = _))

/-- Every message that a producer puts on a queue is understood. -/
def QueueStatement.Understood : QueueStatement → Prop
  | .chargeAddBulk rows => ∀ row ∈ rows, row.payload.Understood ids
  | .resultAdd m _ => m.Understood ids
  | .refundAdd m => m.Understood ids

/-- So is every message that a consumer can be handed. -/
structure Queues.Understood (q : Queues) : Prop where
  charge : ∀ id j, q.charge.find? id = some j → j.data.Understood ids
  result : ∀ id j, q.result.find? id = some j → j.data.Understood ids
  refund : ∀ id j, q.refund.find? id = some j → j.data.Understood ids

variable {ids}

theorem BookingHeld.understood_iff {m : BookingHeld} :
    m.Understood ids ↔ Payable m.amountCents := by
  rw [Understood, Json.Value.json_json, schema_json]
  by_cases h : Payable m.amountCents
  · rw [if_pos h]
    exact ⟨fun _ => h, fun _ => rfl⟩
  · rw [if_neg h]
    exact ⟨fun hc => by (cases hc), fun hp => (h hp).elim⟩

theorem PaymentResult.understood {m : PaymentResult} (h : m.Presentable) : m.Understood ids := by
  rw [Understood, schema_json, if_pos h]

theorem Statement.Fine.understood {o : QueueStatement} (h : (Statement.queue o).Fine) :
    o.Understood ids := by
  cases o with
  | chargeAddBulk rows => exact fun row hrow => BookingHeld.understood_iff.mpr (h row hrow)
  | resultAdd m key => exact PaymentResult.understood h
  | refundAdd m => exact m.schema_json

/-- If every hold that goes through is for a stay that ends on a later day than it begins,
at a listing that costs something, then whatever is put on a queue is read back by its
consumer as it was written. -/
theorem messages_agree {ttl : Int} {cfg : MockConfig} {listings : Table Listing} {w : World}
    (hr : (system { holdTtlMs := ttl, provider := mockPaymentProvider cfg }).Reaches chargesSomething
      (initial listings) w) :
    w.shared.queues.Understood ids ∧
      ∀ (t : Nat) c o k,
        w.threads[t]? = some (.running c (.call (.queue o) k)) → o.Understood ids := by
  have hsound := Agreement.sound ttl cfg listings
  have hi := hsound.inv hr
  constructor
  · exact
      { charge := fun id j hj => BookingHeld.understood_iff.mpr (hi.charge id j hj)
        result := fun id j hj => PaymentResult.understood (hi.result id j hj)
        refund := fun id j _ => j.data.schema_json }
  · intro t c o k ht
    have hx : (system { holdTtlMs := ttl, provider := mockPaymentProvider cfg }).exec t
        ({} : Choice) (.queue o) w.shared =
        some (.ok (), { w.shared with queues := Queues.perform o w.shared.queues }) := rfl
    exact Statement.Fine.understood (hsound.guar hr ht rfl hx).2

end Messages

section Runs

open Scenario Json

namespace Scenario

/-- The last digits of a UUID. -/
def uuidDigits (n : Id) : List Char :=
  [11, 10, 9, 8, 7, 6, 5, 4, 3, 2, 1, 0].map fun k => Nat.digitChar (n / 16 ^ k % 16)

def uuidText (n : Id) : String := "00000000-0000-4000-8000-" ++ String.ofList (uuidDigits n)

theorem isHex_digitChar (n : Nat) : Schema.isHex (Nat.digitChar (n % 16)) = true := by
  have hall : ∀ d : Fin 16, Schema.isHex (Nat.digitChar d) = true := by decide
  exact hall ⟨n % 16, Nat.mod_lt _ (by decide)⟩

theorem isUuid_uuidText (n : Id) : Schema.isUuid (uuidText n) = true := by
  have htext : uuidText n = "00000000-0000-4000-8000-" ++ String.ofList (uuidDigits n) := rfl
  have hlen : (uuidText n).length = 36 := by
    have hstart : "00000000-0000-4000-8000-".length = 24 := by decide +kernel
    rw [htext, String.length_append, hstart, String.length_ofList, uuidDigits, List.length_map]
    rfl
  have hplaces : Schema.uuidPlaces.length = 36 := by decide
  have htake : (Schema.uuidPlaces.take 24).length = "00000000-0000-4000-8000-".toList.length := by
    decide
  have hstart : (List.zipWith (fun p c => p c) (Schema.uuidPlaces.take 24)
      "00000000-0000-4000-8000-".toList).all id = true := by decide
  have hdrop : Schema.uuidPlaces.drop 24 = List.replicate 12 Schema.isHex := by
    simp only [Schema.uuidPlaces, List.replicate, List.cons_append, List.nil_append, List.drop]
  have hdigits : (List.zipWith (fun p c => p c) (List.replicate 12 Schema.isHex)
      (uuidDigits n)).all id = true := by
    simp only [uuidDigits, List.replicate, List.map, List.zipWith, isHex_digitChar, List.all_cons,
      List.all_nil, Bool.and_true, id]
  have hall :
      (List.zipWith (fun p c => p c) Schema.uuidPlaces (uuidText n).toList).all id = true := by
    rw [← List.take_append_drop 24 Schema.uuidPlaces, htext, String.toList_append,
      List.zipWith_append htake, List.all_append, hstart, hdrop, String.toList_ofList, hdigits,
      Bool.and_self]
  simp only [Schema.isUuid, hlen, hplaces, hall, beq_self_eq_true, Bool.and_self, Bool.true_or]

/-- Every id is written out as a UUID. -/
def uuids : IdText := { text := uuidText, valid := isUuid_uuidText }

/-- The hold is announced to the worker, which charges the card at the second draw. -/
def announced : List Event :=
  place 0 stay 5 6 ++ relay 1 ++ .spawn (.processCharge 6 (event 5)) :: steps 2 4 ++
    .step 2 { random := 3 / 4 } :: steps 2 4 ++ [.ret 2]

/-- From morning to evening of one day. -/
def sameDay : CreateReservationDto :=
  { listingId := 7, checkIn := some 1000000000, checkOut := some 1010000000 }

end Scenario

theorem messages_agree_announced :
    ∃ w, (system coin).Reaches chargesSomething (initial Scenario.listings) w ∧
      w.shared.queues.charge.rows.length = 1 ∧ w.shared.queues.result.rows.length = 1 ∧
      w.shared.queues.Understood uuids := by
  have hrun : ((system coin).run chargesSomething (initial Scenario.listings) announced).any
      (fun w => decide (w.shared.queues.charge.rows.length = 1 ∧
        w.shared.queues.result.rows.length = 1)) = true := by
    decide +kernel
  obtain ⟨w, hr, ht⟩ := Machine.exists_reaches_of_run hrun
  obtain ⟨hcharge, hresult⟩ := decide_eq_true_eq.mp ht
  exact ⟨w, hr, hcharge, hresult, (messages_agree hr).1⟩

/-- A stay without a night costs nothing, and its charge is turned away. -/
theorem not_messages_agree :
    ¬ ∀ w, (system coin).Reaches anyRequest (initial Scenario.listings) w →
      w.shared.queues.Understood uuids := by
  intro h
  have hrun : ((system coin).run anyRequest (initial Scenario.listings)
      (place 0 sameDay 5 6 ++ relay 1)).any
      (fun w => (w.shared.queues.charge.find? 6).any fun j => j.data.amountCents == 0) = true := by
    decide +kernel
  obtain ⟨w, hr, ht⟩ := Machine.exists_reaches_of_run hrun
  cases hj : w.shared.queues.charge.find? 6 with
  | none =>
    rw [hj] at ht
    cases ht
  | some j =>
    rw [hj, Option.any_some, beq_iff_eq] at ht
    have hpay := BookingHeld.understood_iff.mp ((h w hr).charge 6 j hj)
    rw [ht] at hpay
    exact absurd hpay (by decide)

end Runs

end NoOverlap
