import NoOverlap.Data.Json
import NoOverlap.Model.Schema

/-!
# The messages on the wire

What the producers write on the three queues, as JavaScript values, and the schemas the
consumers parse them with.  An id is written as the text of its UUID, which a parameter
gives: all that is known of it is that it is the text of a UUID.
-/

namespace NoOverlap

open Json

/-- The texts of the ids. -/
structure IdText where
  text : Id → String
  valid : ∀ id, Schema.isUuid (text id) = true

/-! ## What is parsed -/

namespace Wire

structure BookingHeld where
  reservationId : String
  amountCents : Int
  idempotencyKey : String
  traceContext : Option TraceContext
  deriving DecidableEq

structure PaymentSucceeded where
  reservationId : String
  idempotencyKey : String
  amountCents : Int
  providerRef : String
  traceContext : Option TraceContext
  deriving DecidableEq

structure PaymentFailed where
  reservationId : String
  idempotencyKey : String
  reason : String
  traceContext : Option TraceContext
  deriving DecidableEq

inductive PaymentResult where
  | succeeded (m : PaymentSucceeded)
  | failed (m : PaymentFailed)
  deriving DecidableEq

structure RefundRequested where
  reservationId : String
  idempotencyKey : String
  traceContext : Option TraceContext
  deriving DecidableEq

def traceContextSchema : Schema TraceContext := Schema.object fun get => do
  let traceparent ← Schema.string (get "traceparent")
  let tracestate ← Schema.optional Schema.string (get "tracestate")
  pure { traceparent := traceparent, tracestate := tracestate }

def bookingHeldSchema : Schema BookingHeld := Schema.object fun get => do
  Schema.literal "BookingHeld" (get "type")
  Schema.literalNumber 1 (get "version")
  let reservationId ← Schema.uuid (get "reservationId")
  let amountCents ← Schema.positive (get "amountCents")
  let idempotencyKey ← Schema.nonempty (get "idempotencyKey")
  let traceContext ← Schema.optional traceContextSchema (get "traceContext")
  pure { reservationId := reservationId, amountCents := amountCents,
         idempotencyKey := idempotencyKey, traceContext := traceContext }

def paymentSucceededSchema : Schema PaymentSucceeded := Schema.object fun get => do
  Schema.literal "PaymentSucceeded" (get "type")
  Schema.literalNumber 1 (get "version")
  let reservationId ← Schema.uuid (get "reservationId")
  let idempotencyKey ← Schema.nonempty (get "idempotencyKey")
  let amountCents ← Schema.positive (get "amountCents")
  let providerRef ← Schema.nonempty (get "providerRef")
  let traceContext ← Schema.optional traceContextSchema (get "traceContext")
  pure { reservationId := reservationId, idempotencyKey := idempotencyKey,
         amountCents := amountCents, providerRef := providerRef, traceContext := traceContext }

def paymentFailedSchema : Schema PaymentFailed := Schema.object fun get => do
  Schema.literal "PaymentFailed" (get "type")
  Schema.literalNumber 1 (get "version")
  let reservationId ← Schema.uuid (get "reservationId")
  let idempotencyKey ← Schema.nonempty (get "idempotencyKey")
  let reason ← Schema.nonempty (get "reason")
  let traceContext ← Schema.optional traceContextSchema (get "traceContext")
  pure { reservationId := reservationId, idempotencyKey := idempotencyKey, reason := reason,
         traceContext := traceContext }

/-- `z.discriminatedUnion('type', …)`. -/
def paymentResultSchema : Schema PaymentResult := fun v =>
  match v.get "type" with
  | .string "PaymentSucceeded" => (paymentSucceededSchema v).map .succeeded
  | .string "PaymentFailed" => (paymentFailedSchema v).map .failed
  | _ => none

def refundRequestedSchema : Schema RefundRequested := Schema.object fun get => do
  Schema.literal "RefundRequested" (get "type")
  Schema.literalNumber 1 (get "version")
  let reservationId ← Schema.uuid (get "reservationId")
  let idempotencyKey ← Schema.nonempty (get "idempotencyKey")
  let traceContext ← Schema.optional traceContextSchema (get "traceContext")
  pure { reservationId := reservationId, idempotencyKey := idempotencyKey,
         traceContext := traceContext }

end Wire

/-! ## What is written -/

/-- The trace context, in which `tracestate` may be `undefined`. -/
def TraceContext.toValue (tc : TraceContext) : Value :=
  .object [("traceparent", .string tc.traceparent),
    ("tracestate", (tc.tracestate.map Value.string).getD .undefined)]

/-- `...(carrier.traceparent ? { traceContext } : {})`. -/
def traceFields : Option TraceContext → List (String × Value)
  | none => []
  | some tc => [("traceContext", tc.toValue)]

variable (ids : IdText)

namespace BookingHeld

def toValue (m : BookingHeld) : Value :=
  .object ([("type", .string "BookingHeld"), ("version", .number 1),
    ("reservationId", .string (ids.text m.reservationId)), ("amountCents", .number m.amountCents),
    ("idempotencyKey", .string (ids.text m.idempotencyKey))] ++ traceFields m.traceContext)

/-- The fields that were written. -/
def written (m : BookingHeld) : Wire.BookingHeld :=
  { reservationId := ids.text m.reservationId, amountCents := m.amountCents,
    idempotencyKey := ids.text m.idempotencyKey, traceContext := m.traceContext }

end BookingHeld

namespace PaymentResult

def toValue : PaymentResult → Value
  | succeeded m =>
    .object ([("type", .string "PaymentSucceeded"), ("version", .number 1),
      ("reservationId", .string (ids.text m.reservationId)),
      ("idempotencyKey", .string (ids.text m.idempotencyKey)), ("amountCents", .number m.amountCents),
      ("providerRef", .string m.providerRef)] ++ traceFields m.traceContext)
  | failed m =>
    .object ([("type", .string "PaymentFailed"), ("version", .number 1),
      ("reservationId", .string (ids.text m.reservationId)),
      ("idempotencyKey", .string (ids.text m.idempotencyKey)), ("reason", .string m.reason)] ++
        traceFields m.traceContext)

def written : PaymentResult → Wire.PaymentResult
  | succeeded m => .succeeded
    { reservationId := ids.text m.reservationId, idempotencyKey := ids.text m.idempotencyKey,
      amountCents := m.amountCents, providerRef := m.providerRef, traceContext := m.traceContext }
  | failed m => .failed
    { reservationId := ids.text m.reservationId, idempotencyKey := ids.text m.idempotencyKey,
      reason := m.reason, traceContext := m.traceContext }

end PaymentResult

namespace RefundRequested

def toValue (m : RefundRequested) : Value :=
  .object [("type", .string "RefundRequested"), ("version", .number 1),
    ("reservationId", .string (ids.text m.reservationId)),
    ("idempotencyKey", .string (ids.text m.idempotencyKey))]

def written (m : RefundRequested) : Wire.RefundRequested :=
  { reservationId := ids.text m.reservationId, idempotencyKey := ids.text m.idempotencyKey,
    traceContext := none }

end RefundRequested

/-! ## Producer and consumer -/

/-- An amount that a schema takes. -/
def Payable (n : Int) : Prop := 0 < n ∧ n ≤ 9007199254740991

instance (n : Int) : Decidable (Payable n) := inferInstanceAs (Decidable (_ ∧ _))

theorem positive_number {n : Int} :
    Schema.positive (.number n) = if Payable n then some n else none := by
  simp only [Schema.positive, Schema.refine, Schema.int]
  by_cases hsafe : -9007199254740991 ≤ n ∧ n ≤ 9007199254740991
  · rw [if_pos hsafe, Option.filter_some]
    by_cases hpos : 0 < n
    · have hp : Payable n := ⟨hpos, hsafe.2⟩
      rw [if_pos (decide_eq_true hpos), if_pos hp]
    · have hp : ¬ Payable n := fun h => hpos h.1
      rw [if_neg (by simpa using hpos), if_neg hp]
  · have hp : ¬ Payable n := by
      rintro ⟨hpos, hle⟩
      exact hsafe ⟨by omega, hle⟩
    rw [if_neg hsafe, if_neg hp, Option.filter_none]

theorem traceContextSchema_json (tc : TraceContext) :
    Wire.traceContextSchema tc.toValue.json = some tc := by
  obtain ⟨parent, state⟩ := tc
  cases state <;> rfl

/-- The trace context, among the fields that were sent. -/
def sentTrace (o : Option TraceContext) : Value :=
  (((Value.jsonFields (traceFields o)).find? fun f => f.1 == "traceContext").map (·.2)).getD .undefined

theorem optional_sentTrace (o : Option TraceContext) :
    Schema.optional Wire.traceContextSchema (sentTrace o) = some o := by
  cases o with
  | none => rfl
  | some tc =>
    show (Wire.traceContextSchema tc.toValue.json).map some = _
    rw [traceContextSchema_json]
    rfl

variable {ids}

theorem uuid_text (id : Id) : Schema.uuid (.string (ids.text id)) = some (ids.text id) :=
  Schema.uuid_string (ids.valid id)

theorem nonempty_text (id : Id) : Schema.nonempty (.string (ids.text id)) = some (ids.text id) := by
  rw [Schema.nonempty_string, if_pos (Schema.ne_of_isUuid (ids.valid id))]

theorem BookingHeld.schema_json (m : BookingHeld) :
    Wire.bookingHeldSchema (m.toValue ids).json =
      if Payable m.amountCents then some (m.written ids) else none := by
  have hget : Wire.bookingHeldSchema (m.toValue ids).json = (do
      let reservationId ← Schema.uuid (.string (ids.text m.reservationId))
      let amountCents ← Schema.positive (.number m.amountCents)
      let idempotencyKey ← Schema.nonempty (.string (ids.text m.idempotencyKey))
      let traceContext ← Schema.optional Wire.traceContextSchema (sentTrace m.traceContext)
      pure ⟨reservationId, amountCents, idempotencyKey, traceContext⟩) := rfl
  rw [hget, uuid_text, nonempty_text, optional_sentTrace, positive_number]
  split <;> rfl

/-- What a payment result has to be for its schema to take it. -/
def PaymentResult.Presentable : PaymentResult → Prop
  | succeeded m => Payable m.amountCents ∧ m.providerRef ≠ ""
  | failed m => m.reason ≠ ""

instance : (r : PaymentResult) → Decidable r.Presentable
  | .succeeded m => inferInstanceAs (Decidable (Payable m.amountCents ∧ m.providerRef ≠ ""))
  | .failed m => inferInstanceAs (Decidable (m.reason ≠ ""))

theorem PaymentResult.schema_json (r : PaymentResult) :
    Wire.paymentResultSchema (r.toValue ids).json =
      if r.Presentable then some (r.written ids) else none := by
  cases r with
  | succeeded m =>
    have hget : Wire.paymentResultSchema ((succeeded m).toValue ids).json = (do
        let reservationId ← Schema.uuid (.string (ids.text m.reservationId))
        let idempotencyKey ← Schema.nonempty (.string (ids.text m.idempotencyKey))
        let amountCents ← Schema.positive (.number m.amountCents)
        let providerRef ← Schema.nonempty (.string m.providerRef)
        let traceContext ← Schema.optional Wire.traceContextSchema (sentTrace m.traceContext)
        pure (⟨reservationId, idempotencyKey, amountCents, providerRef, traceContext⟩ :
          Wire.PaymentSucceeded)).map .succeeded := rfl
    rw [hget, uuid_text, nonempty_text, optional_sentTrace, positive_number, Schema.nonempty_string]
    by_cases hpay : Payable m.amountCents
    · by_cases href : m.providerRef ≠ ""
      · have hp : (succeeded m).Presentable := ⟨hpay, href⟩
        rw [if_pos hpay, if_pos href, if_pos hp]
        rfl
      · have hp : ¬ (succeeded m).Presentable := fun h => href h.2
        rw [if_pos hpay, if_neg href, if_neg hp]
        rfl
    · have hp : ¬ (succeeded m).Presentable := fun h => hpay h.1
      rw [if_neg hpay, if_neg hp]
      rfl
  | failed m =>
    have hget : Wire.paymentResultSchema ((failed m).toValue ids).json = (do
        let reservationId ← Schema.uuid (.string (ids.text m.reservationId))
        let idempotencyKey ← Schema.nonempty (.string (ids.text m.idempotencyKey))
        let reason ← Schema.nonempty (.string m.reason)
        let traceContext ← Schema.optional Wire.traceContextSchema (sentTrace m.traceContext)
        pure (⟨reservationId, idempotencyKey, reason, traceContext⟩ : Wire.PaymentFailed)).map
          .failed := rfl
    rw [hget, uuid_text, nonempty_text, optional_sentTrace, Schema.nonempty_string]
    by_cases hreason : m.reason ≠ ""
    · have hp : (failed m).Presentable := hreason
      rw [if_pos hreason, if_pos hp]
      rfl
    · have hp : ¬ (failed m).Presentable := hreason
      rw [if_neg hreason, if_neg hp]
      rfl

theorem RefundRequested.schema_json (m : RefundRequested) :
    Wire.refundRequestedSchema (m.toValue ids).json = some (m.written ids) := by
  have hget : Wire.refundRequestedSchema (m.toValue ids).json = (do
      let reservationId ← Schema.uuid (.string (ids.text m.reservationId))
      let idempotencyKey ← Schema.nonempty (.string (ids.text m.idempotencyKey))
      pure ⟨reservationId, idempotencyKey, none⟩) := rfl
  rw [hget, uuid_text, nonempty_text]
  rfl

/-! The schemas over the typed messages are what is left of these, for the amounts that the
columns of the database hold. -/

theorem bookingHeldSchema_eq_ok_iff {m : BookingHeld} (h : m.amountCents ≤ 9007199254740991) :
    bookingHeldSchema m = .ok m ↔ Wire.bookingHeldSchema (m.toValue ids).json = some (m.written ids) := by
  rw [m.schema_json, bookingHeldSchema]
  by_cases hpos : 0 < m.amountCents
  · rw [if_pos hpos, if_pos ⟨hpos, h⟩]
    exact ⟨fun _ => rfl, fun _ => rfl⟩
  · rw [if_neg hpos, if_neg fun hp => hpos hp.1]
    exact ⟨fun hc => by (cases hc), fun hc => by (cases hc)⟩

end NoOverlap
