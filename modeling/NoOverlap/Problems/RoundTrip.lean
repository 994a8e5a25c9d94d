import NoOverlap.Problems.Client
import NoOverlap.Problems.Server

/-!
# Every failure arrives as itself

What a handler throws becomes a problem, the problem a document, the document an error in the
browser.  The code, the status, the explanation and the message of each field are the same at both
ends, and of an exception that is not ours nothing arrives but that there was one.
-/

namespace NoOverlap

namespace Problems

/-! ## Codes -/

theorem lastSegment_append {s : List Char} (t : List Char) (hs : '/' ∉ s) :
    lastSegment (t ++ '/' :: s) = s := by
  have hall : ∀ c ∈ s.reverse, decide (c ≠ '/') = true := by
    intro c hc
    have hmem : c ∈ s := List.mem_reverse.mp hc
    exact decide_eq_true fun h => hs (h ▸ hmem)
  rw [lastSegment, List.reverse_append, List.reverse_cons, List.append_assoc,
    List.takeWhile_append_of_pos hall]
  simp

/-- Keys are written in capitals, with underscores between the words. -/
def keyChars : List Char := "ABCDEFGHIJKLMNOPQRSTUVWXYZ_".toList

theorem keyChars_key (code : Code) : ∀ c ∈ code.key.toList, c ∈ keyChars := by
  have hall : code.key.toList.all keyChars.contains = true := by
    cases code <;> rfl
  intro c hc
  simpa using List.all_eq_true.mp hall c hc

theorem unslug_slug {key : List Char} (h : ∀ c ∈ key, c ∈ keyChars) : unslug (slug key) = key := by
  have hone : keyChars.all (fun c => unslug (slug [c]) == [c]) = true := by rfl
  induction key with
  | nil => rfl
  | cons c key ih =>
    have hc : unslug (slug [c]) = [c] :=
      beq_iff_eq.mp (List.all_eq_true.mp hone c (h c List.mem_cons_self))
    have hkey := ih fun c' hc' => h c' (List.mem_cons_of_mem _ hc')
    simp only [unslug, slug, List.map_cons, List.map_nil, List.cons.injEq, and_true] at hc hkey ⊢
    exact ⟨hc, hkey⟩

theorem slash_not_mem_slug {key : List Char} (h : ∀ c ∈ key, c ∈ keyChars) : '/' ∉ slug key := by
  have hone : keyChars.all (fun c => (if c = '_' then '-' else c.toLower) != '/') = true := by rfl
  intro hmem
  obtain ⟨c, hc, heq⟩ := List.mem_map.mp hmem
  exact bne_iff_ne.mp (List.all_eq_true.mp hone c (h c hc)) heq

/-- The code that the browser recovers is the code that was told. -/
theorem codeFromType_problemTypeUri (code : Code) :
    codeFromType (problemTypeUri code) = code.key := by
  have hkey := keyChars_key code
  have hne : code.key.toList ≠ [] := by cases code <;> decide
  have hsegment : lastSegment (problemTypeUri code).toList = slug code.key.toList := by
    have happend : (problemTypeUri code).toList =
        problemBaseUri.toList ++ '/' :: slug code.key.toList := by
      simp [problemTypeUri]
    rw [happend, lastSegment_append _ (slash_not_mem_slug hkey)]
  simp only [codeFromType, hsegment, unslug_slug hkey, if_neg hne, String.ofList_toList]

theorem codeFromType_blank : codeFromType "about:blank" = "ABOUT:BLANK" := by decide

/-! ## What there is to tell -/

namespace Thrown

/-- The code that the browser branches on. -/
def code : Thrown → String
  | app e => e.code.key
  | http _ => "ABOUT:BLANK"
  | other _ => Code.internal.key

def status : Thrown → Nat
  | app e => (errorCatalog e.code).status
  | http e => e.status
  | other _ => 500

/-- The line that the browser shows. -/
def message : Thrown → String
  | app e => e.detail.getD (errorCatalog e.code).title
  | http e =>
    match e.response with
    | .text s => s
    | .body m => m.getD e.message
  | other _ => "Internal server error"

def errors : Thrown → List FieldError
  | app e => e.errors.getD []
  | _ => []

/-- The response to it is no success, and it has a body. -/
structure Conveyed (t : Thrown) : Prop where
  failed : 300 ≤ t.status
  body : t.status ≠ 304

/-- Every code of the catalogue is the code of an error. -/
theorem conveyed_app (e : AppException) : (app e).Conveyed := by
  have h : 400 ≤ (errorCatalog e.code).status := by cases e.code <;> decide
  refine ⟨?_, ?_⟩ <;> simp only [status] <;> omega

theorem conveyed_other (stack : String) : (other stack).Conveyed :=
  ⟨by simp [status], by simp [status]⟩

/-- An exception of the framework can carry any status, so only of this one it has to be asked. -/
theorem conveyed {t : Thrown} (h : ∀ e, t = http e → (http e).Conveyed) : t.Conveyed := by
  cases t with
  | app e => exact conveyed_app e
  | http e => exact h e rfl
  | other stack => exact conveyed_other stack

end Thrown

/-- The first message of a field. -/
def firstMessage (errors : List FieldError) (field : String) : Option String :=
  (errors.find? fun e => e.field == field).map (·.message)

/-- The browser has been told of `t`. -/
structure Tells (t : Thrown) (instance' : String) (e : ApiError) : Prop where
  code : e.code = t.code
  status : e.status = some (.number t.status)
  message : e.message = t.message
  occurrence : e.problem.get "instance" = some (.string instance')
  fields : ∃ out, e.fieldErrors = some out ∧ ∀ field, out.lookup field =
    if field ∈ Record.inherited then none else firstMessage t.errors field

/-- The answer as it is received.  The reason phrase is up to the transport, and to some statuses
Express sends no body. -/
def received (a : Answer) (statusText : String) : Res :=
  { status := a.status
    statusText := statusText
    empty := a.status == 205
    body := if a.status < 200 ∨ a.status = 204 ∨ a.status = 205 ∨ a.status = 304 then none
      else some a.body }

/-- The answer to `t` is not one of those that have `apiFetch` refresh the token and ask again. -/
def Surfaces (t : Thrown) (path : String) (retryOnUnauthorized refreshed : Bool) : Prop :=
  t.status = 401 →
    retryOnUnauthorized = false ∨ path ∈ ApiClient.credentialPaths ∨ refreshed = false

/-! ## Documents of problems -/

variable {p : ProblemDetails} {statusText : String}

theorem get_type : p.document.get "type" = some (.string p.type) := rfl

theorem get_title : p.document.get "title" = some (.string p.title) := rfl

theorem get_status : p.document.get "status" = some (.number p.status) := rfl

theorem get_detail : p.document.get "detail" = p.detail.map .string := by
  cases hd : p.detail <;> cases he : p.errors <;>
    simp [Document.get, ProblemDetails.document, hd, he]

theorem get_instance : p.document.get "instance" = some (.string p.instance') := by
  cases hd : p.detail <;> simp [Document.get, ProblemDetails.document, hd]

theorem get_errors : p.document.get "errors" =
    p.errors.map fun es => .array (es.map FieldError.document) := by
  cases hd : p.detail <;> cases he : p.errors <;>
    simp [Document.get, ProblemDetails.document, hd, he]

/-- A problem is read for what it is. -/
theorem readProblem_document {res : Res} (h : res.body = some p.document) :
    readProblem res = p.document := by
  simp only [readProblem, h, get_title, get_status, Document.isString, Document.isNumber,
    Bool.and_self, if_true]

theorem ofProblem_document : ApiError.ofProblem p.document =
    some { problem := p.document, code := codeFromType p.type
           message := p.detail.getD p.title } := by
  cases hd : p.detail <;>
    simp [ApiError.ofProblem, get_type, get_detail, get_title, hd, Document.orElse, Document.text]

theorem readFieldError_document (e : FieldError) :
    readFieldError e.document = some (e.field, e.message) := rfl

theorem mapM_readFieldError (errors : List FieldError) :
    (errors.map FieldError.document).mapM readFieldError =
      some (errors.map fun e => (e.field, e.message)) := by
  induction errors with
  | nil => rfl
  | cons e errors ih =>
    rw [List.map_cons, List.mapM_cons, readFieldError_document, ih]
    rfl

theorem lookup_eq_firstMessage (errors : List FieldError) (field : String) :
    (errors.map fun e => (e.field, e.message)).lookup field = firstMessage errors field := by
  induction errors with
  | nil => rfl
  | cons e errors ih =>
    by_cases h : e.field = field
    · simp [firstMessage, h]
    · have hne : (field == e.field) = false := beq_eq_false_iff_ne.mpr (Ne.symm h)
      simp only [firstMessage] at ih
      simp [firstMessage, List.lookup_cons, h, hne, ih]

theorem fieldErrors_document (e : ApiError) (h : e.problem = p.document) :
    ∃ out, e.fieldErrors = some out ∧ ∀ field, out.lookup field =
      if field ∈ Record.inherited then none else firstMessage (p.errors.getD []) field := by
  cases he : p.errors with
  | none =>
    have hnone : e.fieldErrors = some [] := by
      simp only [ApiError.fieldErrors, h, get_errors, he, Option.map_none]
    exact ⟨[], hnone, fun field => by simp [firstMessage]⟩
  | some errors =>
    refine ⟨(errors.map fun e => (e.field, e.message)).foldl
      (fun out f => Record.assign out f.1 f.2) [], ?_, fun field => ?_⟩
    · simp only [ApiError.fieldErrors, h, get_errors, he, Option.map_some, mapM_readFieldError]
    · rw [Record.lookup_foldl_assign, lookup_eq_firstMessage]
      simp

/-! ## The round trip -/

theorem status_toProblem (t : Thrown) (instance' : String) :
    (toProblem t instance').status = t.status := by
  cases t <;> rfl

theorem code_toProblem (t : Thrown) (instance' : String) :
    codeFromType (toProblem t instance').type = t.code := by
  cases t with
  | app e => exact codeFromType_problemTypeUri e.code
  | http e => exact codeFromType_blank
  | other s => exact codeFromType_problemTypeUri .internal

theorem message_toProblem (t : Thrown) (instance' : String) :
    (toProblem t instance').detail.getD (toProblem t instance').title = t.message := by
  cases t with
  | app e => rfl
  | http e =>
    cases hr : e.response with
    | text s => simp [toProblem, Thrown.message, hr]
    | body m => cases m <;> simp [toProblem, Thrown.message, hr]
  | other s => rfl

theorem status_received (t : Thrown) (requestId : Option String) (randomUUID statusText : String) :
    (received (ProblemDetailsFilter.answer t requestId randomUUID) statusText).status =
      t.status := status_toProblem t _

theorem body_received {t : Thrown} (h : t.Conveyed) (requestId : Option String)
    (randomUUID statusText : String) :
    (received (ProblemDetailsFilter.answer t requestId randomUUID) statusText).body =
      some (toProblem t (requestId.getD randomUUID)).document := by
  have hfailed := h.failed
  have hbody := h.body
  have hstatus := status_received t requestId randomUUID statusText
  refine if_neg fun hnone => ?_
  simp only [← hstatus, received] at hfailed hbody
  omega

/-- The browser is told of what was thrown. -/
theorem exists_tells {t : Thrown} (h : t.Conveyed) (requestId : Option String)
    (randomUUID statusText : String) :
    ∃ e, failure (received (ProblemDetailsFilter.answer t requestId randomUUID) statusText) =
      some e ∧ Tells t (requestId.getD randomUUID) e := by
  let p := toProblem t (requestId.getD randomUUID)
  let e : ApiError :=
    { problem := p.document, code := codeFromType p.type, message := p.detail.getD p.title }
  refine ⟨e, (congrArg ApiError.ofProblem (readProblem_document
    (body_received h requestId randomUUID statusText))).trans ofProblem_document, ?_⟩
  constructor
  · exact code_toProblem t _
  · exact get_status.trans (by rw [status_toProblem])
  · exact message_toProblem t _
  · have hinstance : p.instance' = requestId.getD randomUUID := by cases t <;> rfl
    exact get_instance.trans (congrArg (fun i => some (Document.string i)) hinstance)
  · obtain ⟨out, hout, hlookup⟩ := fieldErrors_document (p := p) e rfl
    refine ⟨out, hout, fun field => ?_⟩
    rw [hlookup]
    cases t <;> rfl

theorem ok_received {t : Thrown} (h : t.Conveyed) (requestId : Option String)
    (randomUUID statusText : String) :
    (received (ProblemDetailsFilter.answer t requestId randomUUID) statusText).ok = false := by
  have hfailed := h.failed
  show decide (200 ≤ (toProblem t _).status ∧ (toProblem t _).status ≤ 299) = false
  rw [status_toProblem]
  exact decide_eq_false (by omega)

/-- A request that a service has refused is not sent again; one that broke down is, twice. -/
theorem retry_thrown (failureCount : Nat) (e : Err) :
    retry failureCount (some e.thrown.status) = true ↔
      (∀ code detail, e ≠ .app code detail) ∧ failureCount < 2 := by
  cases e with
  | app code detail =>
    have hno : retry failureCount (some (Err.app code detail).thrown.status) = false := by
      cases code <;> rfl
    simp [hno]
  | _ => simp [retry, Err.thrown, Thrown.status]

/-- Whatever a handler throws, if only an exception of the framework carries the status of a
failure: the call of `apiFetch` throws an error that tells of it, unless it is a `401` upon which
the token is refreshed.  Then the call comes to whatever the second request is answered, which is
not sent a third time.  And of an exception that is not ours nothing else is told. -/
theorem failures_arrive (t : Thrown) (h : ∀ e, t = .http e → (Thrown.http e).Conveyed)
    (requestId : Option String) (randomUUID statusText path : String)
    (retryOnUnauthorized refreshed : Bool) (again : Option Res) :
    (received (ProblemDetailsFilter.answer t requestId randomUUID) statusText).ok = false ∧
    (Surfaces t path retryOnUnauthorized refreshed → ∃ e,
      apiFetch path retryOnUnauthorized refreshed
        (received (ProblemDetailsFilter.answer t requestId randomUUID) statusText) again =
          .error (some e) ∧ Tells t (requestId.getD randomUUID) e) ∧
    (¬Surfaces t path retryOnUnauthorized refreshed → ∀ res, again = some res →
      apiFetch path retryOnUnauthorized refreshed
        (received (ProblemDetailsFilter.answer t requestId randomUUID) statusText) again =
          apiFetch path false refreshed res none) ∧
    ∀ s s', t = .other s → ProblemDetailsFilter.answer t requestId randomUUID =
      ProblemDetailsFilter.answer (.other s') requestId randomUUID := by
  have hconveyed := Thrown.conveyed h
  have hok := ok_received hconveyed requestId randomUUID statusText
  have hstatus := status_received t requestId randomUUID statusText
  refine ⟨hok, fun hsurfaces => ?_, fun hasked res hagain => ?_, ?_⟩
  · obtain ⟨e, he, htells⟩ := exists_tells hconveyed requestId randomUUID statusText
    refine ⟨e, ?_, htells⟩
    have hnot : ¬(t.status = 401 ∧ retryOnUnauthorized = true ∧
        path ∉ ApiClient.credentialPaths ∧ refreshed = true) := by
      rintro ⟨h401, hretry, hpath, hrefreshed⟩
      rcases hsurfaces h401 with h | h | h
      · exact Bool.false_ne_true (h.symm.trans hretry)
      · exact hpath h
      · exact Bool.false_ne_true (h.symm.trans hrefreshed)
    simp only [apiFetch, hstatus, if_neg hnot, finish, hok, Bool.not_false, if_true, he]
  · simp only [Surfaces, not_forall, not_or, Bool.not_eq_false] at hasked
    obtain ⟨h401, hretry, hpath, hrefreshed⟩ := hasked
    rw [apiFetch_false]
    simp only [apiFetch, hstatus, h401, hretry, hpath, hrefreshed, hagain, not_false_eq_true,
      and_self, if_true]
  · rintro s s' rfl
    rfl

/-- The exception of the router for a path that nobody serves. -/
def unknownPath : HttpException :=
  { name := "NotFoundException"
    status := 404
    response := .body (some "Cannot GET /stays")
    message := "Not Found" }

theorem failures_arrive_unknownPath : ∃ e,
    apiFetch "/stays" true true
      (received (ProblemDetailsFilter.answer (.http unknownPath) none "42") "Not Found") none =
        .error (some e) ∧
      e.message = "Cannot GET /stays" := by
  have h : ∀ e, Thrown.http unknownPath = .http e → (Thrown.http e).Conveyed := by
    rintro e he
    cases he
    exact ⟨by decide, by decide⟩
  obtain ⟨-, harrives, -⟩ := failures_arrive (.http unknownPath) h none "42" "Not Found" "/stays"
    true true none
  obtain ⟨e, he, htells⟩ := harrives fun h401 => by cases h401
  exact ⟨e, he, htells.message⟩

/-! ## Invalid fields -/

/-- What a form shows beside a field: the first message of the first node that lies there and has
one. -/
def messageAt (errors : List ValidationError) (field : String) : Option String :=
  ((nodes [] errors).find? fun node => dotted node.1 == field && !node.2.isEmpty).bind
    fun node => node.2.head?

theorem firstMessage_append (l l' : List FieldError) (field : String) :
    firstMessage (l ++ l') field = (firstMessage l field).or (firstMessage l' field) := by
  simp only [firstMessage, List.find?_append]
  cases l.find? fun e => e.field == field <;> simp

theorem firstMessage_says (node : List String × List String) (field : String) :
    firstMessage (Says node) field = if dotted node.1 = field then node.2.head? else none := by
  obtain ⟨path, messages⟩ := node
  cases messages with
  | nil => simp [firstMessage, Says]
  | cons m ms =>
    by_cases h : dotted path = field
    · simp [firstMessage, Says, h]
    · simp [firstMessage, Says, h]

theorem firstMessage_flatten (errors : List ValidationError) (field : String) :
    firstMessage (flatten "" errors) field = messageAt errors field := by
  have hflatten : flatten "" errors = (nodes [] errors).flatMap Says := flatten_eq [] errors
  rw [hflatten, messageAt]
  induction nodes [] errors with
  | nil => rfl
  | cons node rest ih =>
    rw [List.flatMap_cons, firstMessage_append, firstMessage_says, ih, List.find?_cons]
    obtain ⟨path, messages⟩ := node
    by_cases h : dotted path = field
    · cases messages with
      | nil => simp [h]
      | cons m ms => simp [h]
    · have hb : (dotted path == field) = false := beq_eq_false_iff_ne.mpr h
      simp [h, hb]

/-- Whatever class-validator reports of a request, however deep, the browser shows beside each
field the first message that was reported of it, and beside every other field nothing. -/
theorem invalid_fields_arrive (errors : List ValidationError) (requestId : Option String)
    (randomUUID statusText : String) :
    ∃ e out, failure (received (ProblemDetailsFilter.answer (.app (buildValidationException errors))
        requestId randomUUID) statusText) = some e ∧
      e.code = "VALIDATION_FAILED" ∧ e.status = some (.number 400) ∧
      e.message = "One or more fields are invalid." ∧ e.fieldErrors = some out ∧
      ∀ field, out.lookup field =
        if field ∈ Record.inherited then none else messageAt errors field := by
  obtain ⟨e, he, htells⟩ := exists_tells (Thrown.conveyed_app (buildValidationException errors))
    requestId randomUUID statusText
  obtain ⟨out, hout, hlookup⟩ := htells.fields
  refine ⟨e, out, he, htells.code, htells.status, htells.message, hout, fun field => ?_⟩
  rw [← firstMessage_flatten]
  exact hlookup field

example : messageAt [.mk "stay" none [.mk "checkIn" (some ["must be a date", "is empty"]) []]]
    "stay.checkIn" = some "must be a date" := by decide

end Problems

end NoOverlap
