import Ra2a.Server.Tenant

/-!
# What is a request

JSON-RPC has three answers to a body before any method is called: it is no JSON, it is
JSON but no request, or it is a request.  `handle_request` reads it as a
`JsonRpcRequest` in one step, so that the second is taken for the first or, where the
type is right and the version or the shape is not, for the third
(`handleRequest_tells_iff`).

An answer is a JSON value here, and which methods are called is told by `recorder`.
-/

namespace Ra2a

/-- An identifier of a request: a string, a number or `null`, or none for a notification. -/
def validId : Option Json → Bool
  | none | some .null | some (.string _) | some (.number _) => true
  | _ => false

/-- A request object of JSON-RPC 2.0. -/
def Json.ValidRequest (j : Json) : Prop :=
  ∃ ms, j = .object ms ∧ ms.lookup "jsonrpc" = some (.string "2.0") ∧
    (∃ method, ms.lookup "method" = some (.string method)) ∧ validId (ms.lookup "id")

/-! ### The codes of the dispatcher -/

section

variable {Card α β : Type} {st : ServerState Card} {request : JsonRpcRequest}

theorem unary_eq_ok_error {decode : Json → Except String α} {call : α → Except A2AError β}
    {encode : β → Except String Json} {e : A2AError}
    (h : unary request decode call encode = .ok (.error e)) : ∃ s, e = .json s := by
  cases hp : parseParams decode request with
  | error e' =>
    rw [unary_of_error hp] at h
    cases h
  | ok req =>
    rw [unary_of_ok hp] at h
    cases hc : call req with
    | error e' =>
      rw [hc] at h
      cases h
    | ok resp =>
      rw [hc] at h
      have he : serializeSuccess encode request.id resp = .error e := Except.ok.inj h
      rw [serializeSuccess] at he
      cases hs : encode resp with
      | error s =>
        rw [hs] at he
        cases he
        exact ⟨s, rfl⟩
      | ok r =>
        rw [hs] at he
        cases he

/-- **An error that reaches the end of the dispatch is an internal one.** -/
theorem code_of_dispatch {e : A2AError} (h : dispatch st request = .ok (.error e)) :
    e.toJsonrpcError.code = -32603 := by
  have harm : ∀ {α β : Type} {decode : Json → Except String α} {call : α → Except A2AError β}
      {encode : β → Except String Json}, unary request decode call encode = .ok (.error e) →
      e.toJsonrpcError.code = -32603 := by
    intro α β decode call encode hu
    obtain ⟨s, rfl⟩ := unary_eq_ok_error hu
    rfl
  unfold dispatch at h
  split at h <;> first | exact harm h | (cases h; rfl)

theorem success_of_dispatch {json : Json} (h : dispatch st request = .ok (.ok json)) :
    ∃ r, json = successResponse (some request.id) r := by
  have hd := dispatched st request
  rw [h] at hd
  cases hs : disposition st request with
  | served =>
    rw [hs] at hd
    rcases hd with ⟨e, he⟩ | ⟨r, hr⟩
    · cases he
    · cases hr
      exact ⟨r, rfl⟩
  | refused e =>
    rw [hs] at hd
    cases hd
  | unknown | streaming | undecodable =>
    rw [hs] at hd
    obtain ⟨_, he⟩ := hd
    cases he

/-- No answer says that a request is none. -/
theorem errorCode_handleRequest {body : String} {answer : Json}
    (h : handleRequest st body = .ok answer) :
    errorCode answer ≠ some (codeValue (-32600)) := by
  rw [handleRequest] at h
  cases hp : st.parseRequest body with
  | none =>
    rw [hp] at h
    cases h
    decide
  | some request =>
    rw [hp] at h
    rcases hd : dispatch st request with e | e | json <;>
      simp only [hd, bind, Except.bind, pure, Except.pure] at h
    · cases h
    · cases h
      rw [errorCode_errorResponse, code_of_dispatch hd]
      decide
    · cases h
      obtain ⟨r, rfl⟩ := success_of_dispatch hd
      rw [errorCode, get?_error_successResponse]
      simp

end

/-! ### Bodies -/

section

variable [JsonText] [∀ α, DecodeError α] [Base64] {σ : Type}

/-- The calls that a body makes of a handler, whatever it is. -/
def invoked (body : String) : List HandlerCall := (handleText recorder.toStatefulHandler body []).2

/-- **Any handler is called as `invoked` says.** -/
theorem handleText_invokes (h : StreamingHandler σ) (body : String) (s : σ) :
    (handleText h.toStatefulHandler body s).2 = (invoked body).foldl h.after s := by
  rw [invoked, ← handleJsonrpcText_state, ← handleJsonrpcText_state, handleJsonrpcText_makes,
    handleJsonrpcText_makes]
  cases (fromText body).bind JsonRpcRequest.unaryCall? with
  | none => rfl
  | some call => cases call <;> rfl

/-- A body that is no JSON, one that is no request, and one that is a request are told
apart, and a method is called for the last only. -/
structure TellsApart (h : StatefulHandler σ) (s : σ) (body : String) : Prop where
  notJson : JsonText.parse body = none → invoked body = [] ∧
    ∃ answer, handleRequest (h.state s) body = .ok answer ∧
      errorCode answer = some (codeValue (-32700))
  notRequest : ∀ j, JsonText.parse body = some j → ¬ j.ValidRequest → invoked body = [] ∧
    ∃ answer, handleRequest (h.state s) body = .ok answer ∧
      errorCode answer = some (codeValue (-32600))
  request : invoked body ≠ [] → ∃ j, JsonText.parse body = some j ∧ j.ValidRequest

/-- **They are told apart exactly if** the body is no JSON or a request. -/
theorem handleRequest_tells_iff (h : StatefulHandler σ) (s : σ) (body : String) :
    TellsApart h s body ↔ ∀ j, JsonText.parse body = some j → j.ValidRequest := by
  constructor
  · intro htells j hj
    by_contra hbad
    obtain ⟨-, answer, hanswer, hcode⟩ := htells.notRequest j hj hbad
    exact errorCode_handleRequest hanswer hcode
  · intro hvalid
    have hnone : JsonText.parse body = none → (fromText body : Option JsonRpcRequest) = none := by
      intro hp
      rw [fromText, hp, Option.bind_none]
    have hcalls : JsonText.parse body = none → invoked body = [] :=
      fun hp => handleText_state_of_none (hnone hp)
    refine ⟨fun hp => ⟨hcalls hp, errorResponse none .parseError, ?_, by decide⟩,
      fun j hj hbad => absurd (hvalid j hj) hbad, fun hne => ?_⟩
    · rw [handleRequest, show (h.state s).parseRequest body = none from hnone hp]
    · cases hp : JsonText.parse body with
      | none => exact absurd (hcalls hp) hne
      | some j => exact ⟨j, rfl, hvalid j hp⟩

end

/-! ### A request of another version -/

/-- A `tasks/get` of JSON-RPC 1.0. -/
def oldRequest : JsonRpcRequest :=
  ⟨"1.0", .number 7, METHOD_TASKS_GET, some (.object [("id", .string "t1")])⟩

def oldText : String :=
  braced ("\"jsonrpc\":\"1.0\",\"id\":7,\"method\":\"tasks/get\",\"params\":" ++
    braced "\"id\":\"t1\"")

/-- The texts of this request and of an empty object. -/
@[reducible] def oldTexts : JsonText :=
  tableText [(oldRequest.toJson, oldText), (.object [], "\x7b\x7d")]

theorem parse_oldText : oldTexts.parse oldText = some oldRequest.toJson := by
  decide

theorem fromText_oldText :
    letI := oldTexts
    (fromText oldText : Option JsonRpcRequest) = some oldRequest := by
  have hparams : oldRequest.params ≠ some .null := by
    simp [oldRequest]
  have hread : (deserialize oldRequest.toJson : Option JsonRpcRequest) = some oldRequest :=
    JsonRpcRequest.ofJson_toJson oldRequest hparams
  let := oldTexts
  rw [fromText, parse_oldText, Option.bind_some, hread]

theorem parse_braces : oldTexts.parse "\x7b\x7d" = some (.object []) := by
  decide

theorem not_validRequest_oldRequest : ¬ oldRequest.toJson.ValidRequest := by
  rintro ⟨ms, hms, hversion, -⟩
  cases hms
  exact absurd hversion (by decide)

theorem not_validRequest_empty : ¬ (Json.object []).ValidRequest := by
  rintro ⟨ms, hms, hversion, -⟩
  cases hms
  cases hversion

/-- It is served, and an empty object is taken for no JSON. -/
theorem oldRequest_served :
    letI := byteChars
    letI := oldTexts
    letI : ∀ α, DecodeError α := fun _ => ⟨fun _ => "invalid"⟩
    JsonText.parse oldText = some oldRequest.toJson ∧ ¬ oldRequest.toJson.ValidRequest ∧
      invoked oldText = [.onGetTask ⟨none, "t1", none⟩] ∧
      ¬ TellsApart (StatefulHandler.unsupported Unit) () oldText ∧
      JsonText.parse "\x7b\x7d" = some (.object []) ∧ ¬ (Json.object []).ValidRequest ∧
      handleRequest ((StatefulHandler.unsupported Unit).state ()) "\x7b\x7d" =
        .ok (errorResponse none .parseError) ∧
      ¬ TellsApart (StatefulHandler.unsupported Unit) () "\x7b\x7d" := by
  let := byteChars
  let := oldTexts
  let : ∀ α, DecodeError α := fun _ => ⟨fun _ => "invalid"⟩
  have hunread : (fromText "\x7b\x7d" : Option JsonRpcRequest) = none := by
    rw [fromText, show JsonText.parse "\x7b\x7d" = _ from parse_braces]
    rfl
  refine ⟨parse_oldText, not_validRequest_oldRequest, ?_, fun h => ?_, parse_braces,
    not_validRequest_empty, ?_, fun h => ?_⟩
  · rw [invoked, handleText_state fromText_oldText]
    rfl
  · obtain ⟨-, answer, hanswer, hcode⟩ :=
      h.notRequest _ parse_oldText not_validRequest_oldRequest
    exact errorCode_handleRequest hanswer hcode
  · have hnone : ((StatefulHandler.unsupported Unit).state ()).parseRequest "\x7b\x7d" = none :=
      hunread
    rw [handleRequest, hnone]
  · obtain ⟨-, answer, hanswer, hcode⟩ := h.notRequest _ parse_braces not_validRequest_empty
    exact errorCode_handleRequest hanswer hcode

end Ra2a
