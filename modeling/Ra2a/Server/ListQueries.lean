import Ra2a.Grpc.Requests
import Ra2a.Server.Rest

/-!
# A query for tasks, over three bindings

`tasks/list` of `handle_request`, `handle_list_tasks` of `server/rest.rs` and
`list_tasks` of `grpc/server.rs` each make the native request out of a query, and
each in its own way.  JSON-RPC has serde read the state, which refuses a name it
does not know.  REST takes such a name for the unspecified state.  gRPC drops the
state and the time altogether, and takes an empty string for one that is not there.

So the three hand over the same request exactly when the query has no state, no
time and no empty string (`listsAlike_iff`).
-/

namespace Ra2a

open Url SortedMap

/-! ### A query as it is stated -/

/-- The parameters of a JSON-RPC request. -/
def ListTasksQuery.toParams (q : ListTasksQuery) : Json :=
  .ofFields (fieldUnlessNone "contextId" q.contextId ++ fieldUnlessNone "status" q.status ++
    fieldUnlessNone "pageSize" q.pageSize ++ fieldUnlessNone "pageToken" q.pageToken ++
    fieldUnlessNone "historyLength" q.historyLength ++
    fieldUnlessNone "statusTimestampAfter" q.statusTimestampAfter ++
    fieldUnlessNone "includeArtifacts" q.includeArtifacts)

structure JsonRpcRequest.States (request : JsonRpcRequest) (q : ListTasksQuery) : Prop where
  method : request.method = METHOD_TASKS_LIST
  params : request.params = some q.toParams

structure HttpRequest.States (req : HttpRequest) (q : ListTasksQuery) : Prop where
  method : req.method = .get
  route : RestRoute.ofSegments (segments (afterAuthority req.url)) = some .tasks
  query : ListTasksQuery.extract (formParse (queryOf (afterAuthority req.url))) = some q
  tenant : tenantFromHeaders req.headers = none

/-- The status and the time may be written in any way: nobody reads them. -/
structure Proto.ListTasksRequest.States (req : Proto.ListTasksRequest) (q : ListTasksQuery) :
    Prop where
  tenant : req.tenant = ""
  contextId : req.contextId = q.contextId.getD ""
  pageSize : req.pageSize = q.pageSize
  pageToken : req.pageToken = q.pageToken.getD ""
  historyLength : req.historyLength = q.historyLength
  includeArtifacts : req.includeArtifacts = q.includeArtifacts

/-! ### The request that is handed over -/

/-- The native request of `GrpcServiceImpl::list_tasks`. -/
def convertListTasksRequest (req : Proto.ListTasksRequest) : ListTasksRequest where
  tenant := noneIfEmpty req.tenant
  contextId := noneIfEmpty req.contextId
  status := none
  pageSize := req.pageSize
  pageToken := noneIfEmpty req.pageToken
  historyLength := req.historyLength
  statusTimestampAfter := none
  includeArtifacts := req.includeArtifacts

section

variable [F64] [ProtoEnum Proto.Role] [ProtoEnum Proto.TaskState] [Chrono] {σ : Type}

/-- `GrpcServiceImpl::list_tasks`. -/
def grpcListTasks (h : StatefulHandler σ) (req : Proto.ListTasksRequest) :
    StateM σ (Except GrpcStatus Proto.ListTasksResponse) := do
  match ← (h.onListTasks (convertListTasksRequest req)).run with
  | .error e => pure (.error e.toGrpcStatus)
  | .ok result => pure (.ok {
      tasks := result.tasks.map Task.toProto
      nextPageToken := result.nextPageToken
      pageSize := result.pageSize
      totalSize := result.totalSize })

/-- The calls a gRPC request makes. -/
def handedOverGrpc (req : Proto.ListTasksRequest) : List HandlerCall :=
  (grpcListTasks recorder.toStatefulHandler req []).2

theorem handedOverGrpc_eq (req : Proto.ListTasksRequest) :
    handedOverGrpc req = [.onListTasks (convertListTasksRequest req)] := rfl

end

section

variable [JsonText] [∀ α, DecodeError α] [Base64]

/-- The calls a JSON-RPC request makes. -/
def handedOverJsonrpc (body : String) : List HandlerCall :=
  (handleJsonrpcText recorder.toStatefulHandler body []).2

end

/-! ### The states -/

/-- The name of a state. -/
def NamesState (s : String) : Prop := ∃ state : TaskState, state.asStr = s

theorem deserialize_state_eq_none {s : String} (hne : s ≠ "") (h : ¬ NamesState s) :
    (deserialize (Json.string s) : Option TaskState) = none := by
  show TaskState.deserialize (.string s) = none
  have hread : ∀ t, (deserialize (Json.string t) : Option String) = some t := fun _ => rfl
  rw [TaskState.deserialize, hread]
  simp only [bind, Option.bind_some]
  split
  · exact absurd ⟨.unspecified, rfl⟩ h
  · exact absurd rfl hne
  · exact absurd ⟨.submitted, rfl⟩ h
  · exact absurd ⟨.working, rfl⟩ h
  · exact absurd ⟨.completed, rfl⟩ h
  · exact absurd ⟨.failed, rfl⟩ h
  · exact absurd ⟨.canceled, rfl⟩ h
  · exact absurd ⟨.inputRequired, rfl⟩ h
  · exact absurd ⟨.rejected, rfl⟩ h
  · exact absurd ⟨.authRequired, rfl⟩ h
  · rfl

/-! ### The three bindings -/

/-- The request a query is, with the state that was read. -/
def ListTasksQuery.native (q : ListTasksQuery) (status : Option TaskState) : ListTasksRequest where
  tenant := none
  contextId := q.contextId
  status := status
  pageSize := q.pageSize
  pageToken := q.pageToken
  historyLength := q.historyLength
  statusTimestampAfter := q.statusTimestampAfter
  includeArtifacts := q.includeArtifacts

/-- What serde makes of the parameters. -/
theorem deserialize_toParams (q : ListTasksQuery) :
    (deserialize q.toParams : Option ListTasksRequest) =
      (readOption (q.status.map Json.string) : Option (Option TaskState)).map q.native := by
  show ListTasksRequest.deserialize q.toParams = _
  simp [ListTasksRequest.deserialize, ListTasksQuery.toParams, lookup_ofEntries]
  show (readOption (q.status.map Json.string)).bind (fun status => some (q.native status)) = _
  cases (readOption (q.status.map Json.string) : Option (Option TaskState)) <;> rfl

section

variable [JsonText] [∀ α, DecodeError α] [Base64]

/-- **Over JSON-RPC the request is handed over if the state can be read.** -/
theorem handedOverJsonrpc_eq {body : String} {request : JsonRpcRequest} {q : ListTasksQuery}
    (hbody : (fromText body : Option JsonRpcRequest) = some request) (hq : request.States q) :
    handedOverJsonrpc body = ((readOption (q.status.map Json.string)).map fun status =>
      HandlerCall.onListTasks (q.native status)).toList := by
  have hdispatch : dispatchText recorder.toStatefulHandler request =
      unaryText request recorder.onListTasks := by
    unfold dispatchText
    rw [hq.method]
    rfl
  rw [handedOverJsonrpc, handleJsonrpcText_state, handleText_state hbody, hdispatch,
    unaryText_state, parseParams, hq.params]
  simp only [fromValue, deserialize_toParams]
  cases (readOption (q.status.map Json.string) : Option (Option TaskState)) with
  | none => rfl
  | some status => rfl

omit [∀ α, DecodeError α] in
/-- **Over REST any state is taken for one.** -/
theorem handedOver_listTasks {req : HttpRequest} {q : ListTasksQuery} (hq : req.States q) :
    handedOver req = [.onListTasks (q.native (q.status.map TaskState.fromStateStr))] := by
  rw [handedOver_eq_singleton_iff, HttpRequest.call?, hq.route, Option.bind_some, RestRoute.call?,
    hq.method]
  simp only [hq.query, hq.tenant]
  rfl

end

/-- **Over gRPC there is no state and no time.** -/
theorem convertListTasksRequest_eq {req : Proto.ListTasksRequest} {q : ListTasksQuery}
    (hq : req.States q) : convertListTasksRequest req =
      { q.native none with
        contextId := noneIfEmpty (q.contextId.getD "")
        pageToken := noneIfEmpty (q.pageToken.getD "")
        statusTimestampAfter := none } := by
  rw [convertListTasksRequest, hq.tenant, hq.contextId, hq.pageSize, hq.pageToken,
    hq.historyLength, hq.includeArtifacts]
  rfl

/-! ### When they agree -/

section

variable [JsonText] [∀ α, DecodeError α] [Base64] [F64] [ProtoEnum Proto.Role]
  [ProtoEnum Proto.TaskState] [Chrono]

/-- The three servers hand over one and the same request. -/
def SameRequest (body : String) (req : HttpRequest) (message : Proto.ListTasksRequest) : Prop :=
  ∃ r, handedOverJsonrpc body = [.onListTasks r] ∧ handedOver req = [.onListTasks r] ∧
    handedOverGrpc message = [.onListTasks r]

omit [F64] [ProtoEnum Proto.Role] [ProtoEnum Proto.TaskState] [Chrono] in
/-- JSON-RPC and REST both refuse the query, or both hand it over with the same state. -/
def TreatedAlike (body : String) (req : HttpRequest) : Prop :=
  (handedOverJsonrpc body = [] ∧ handedOver req = []) ∨
    ∃ r r', handedOverJsonrpc body = [.onListTasks r] ∧ handedOver req = [.onListTasks r'] ∧
      r.status = r'.status

variable {body : String} {request : JsonRpcRequest} {req : HttpRequest}
  {message : Proto.ListTasksRequest} {q : ListTasksQuery}

omit [F64] [ProtoEnum Proto.Role] [ProtoEnum Proto.TaskState] [Chrono] in
/-- **A string that names no state is treated alike only when it is empty.** -/
theorem treatedAlike_iff (hbody : (fromText body : Option JsonRpcRequest) = some request)
    (hjson : request.States q) (hrest : req.States q) {s : String} (hs : q.status = some s)
    (hno : ¬ NamesState s) : TreatedAlike body req ↔ s = "" := by
  have hcalls := handedOverJsonrpc_eq hbody hjson
  have hcall := handedOver_listTasks hrest
  rw [hs, Option.map_some] at hcalls hcall
  constructor
  · intro halike
    by_contra hne
    have hnone : (readOption (some (Json.string s)) : Option (Option TaskState)) = none := by
      show Option.map some (deserialize (Json.string s)) = none
      rw [deserialize_state_eq_none hne hno]
      rfl
    rw [hnone, Option.map_none, Option.toList_none] at hcalls
    rcases halike with ⟨-, hempty⟩ | ⟨r, r', hread, -⟩
    · rw [hcall] at hempty
      cases hempty
    · rw [hcalls] at hread
      cases hread
  · rintro rfl
    exact Or.inr ⟨_, _, hcalls, hcall, rfl⟩

/-- The request a query is handed over as when it has nothing that is read apart. -/
theorem sameRequest_iff (hbody : (fromText body : Option JsonRpcRequest) = some request)
    (hjson : request.States q) (hrest : req.States q) (hgrpc : message.States q) :
    SameRequest body req message ↔ q.status = none ∧ q.statusTimestampAfter = none ∧
      q.contextId ≠ some "" ∧ q.pageToken ≠ some "" := by
  have hempty : ∀ o : Option String, o = noneIfEmpty (o.getD "") → o ≠ some "" := by
    rintro o ho rfl
    cases ho
  rw [SameRequest, handedOverJsonrpc_eq hbody hjson, handedOver_listTasks hrest, handedOverGrpc_eq,
    convertListTasksRequest_eq hgrpc]
  constructor
  · rintro ⟨r, -, hread, hmessage⟩
    have hsame := HandlerCall.onListTasks.inj (List.singleton_inj.mp (hread.trans hmessage.symm))
    refine ⟨?_, congrArg ListTasksRequest.statusTimestampAfter hsame, hempty _ ?_, hempty _ ?_⟩
    · exact Option.map_eq_none_iff.mp (congrArg ListTasksRequest.status hsame)
    · exact congrArg ListTasksRequest.contextId hsame
    · exact congrArg ListTasksRequest.pageToken hsame
  · rintro ⟨hstatus, htime, hcontext, hpage⟩
    refine ⟨q.native none, ?_, ?_, ?_⟩
    · rw [hstatus]
      rfl
    · rw [hstatus]
      rfl
    · rw [noneIfEmpty_getD hcontext, noneIfEmpty_getD hpage, ← htime]
      rfl

/-- **The three bindings agree exactly on** the queries without a state, a time and
an empty string. -/
theorem listsAlike_iff (hbody : (fromText body : Option JsonRpcRequest) = some request)
    (hjson : request.States q) (hrest : req.States q) (hgrpc : message.States q) :
    (SameRequest body req message ∧
        ∀ s, q.status = some s → ¬ NamesState s → TreatedAlike body req) ↔
      q.status = none ∧ q.statusTimestampAfter = none ∧ q.contextId ≠ some "" ∧
        q.pageToken ≠ some "" := by
  rw [sameRequest_iff hbody hjson hrest hgrpc, and_iff_left_iff_imp]
  rintro ⟨hnone, -⟩ s hs
  rw [hnone] at hs
  cases hs

end

/-! ### Tasks at work, and tasks of a context -/

/-- A query, as a JSON-RPC request. -/
def listRequest (q : ListTasksQuery) : JsonRpcRequest :=
  ⟨"2.0", .number 1, METHOD_TASKS_LIST, some q.toParams⟩

/-- A query of one field, as a URL. -/
def listUrl (key value : String) : HttpRequest :=
  ⟨.get, ("http://localhost:8080/tasks?" ++ key ++ "=" ++ value).toList, [], ""⟩

/-- The tasks that are at work. -/
def workingQuery : ListTasksQuery :=
  ⟨none, some "TASK_STATE_WORKING", none, none, none, none, none⟩

/-- The tasks of one context. -/
def contextQuery : ListTasksQuery := ⟨some "c1", none, none, none, none, none, none⟩

/-- The text of a request whose parameters are one field. -/
def listText (key value : String) : String :=
  braced ("\"jsonrpc\":\"2.0\",\"id\":1,\"method\":\"tasks/list\",\"params\":" ++
    braced ("\"" ++ key ++ "\":\"" ++ value ++ "\""))

def listTexts : List (Json × String) :=
  [((listRequest workingQuery).toJson, listText "status" "TASK_STATE_WORKING"),
    ((listRequest contextQuery).toJson, listText "contextId" "c1")]

theorem deserialize_listRequest (q : ListTasksQuery) :
    (deserialize (listRequest q).toJson : Option JsonRpcRequest) = some (listRequest q) := by
  have hnull : some q.toParams ≠ some .null := by
    rw [ListTasksQuery.toParams, Json.ofFields]
    simp
  exact JsonRpcRequest.ofJson_toJson (listRequest q) hnull

theorem fromText_listTexts {q : ListTasksQuery} {text : String}
    (h : @JsonText.parse (tableText listTexts) text = some (listRequest q).toJson) :
    letI := tableText listTexts
    (fromText text : Option JsonRpcRequest) = some (listRequest q) := by
  let := tableText listTexts
  rw [fromText, h, Option.bind_some, deserialize_listRequest]

/-- One field that is written as it is. -/
theorem formParse_field {k v : List Char} (hk : IsKey k) (hamp : '&' ∉ v) (hplus : '+' ∉ v)
    (hesc : hasEscape v = false) : formParse (k ++ '=' :: v) = [(k, v)] := by
  rw [formParse_single hk hamp, formDecode_eq_self_iff.mpr ⟨hplus, hesc⟩]

theorem states_workingUrl : (listUrl "status" "TASK_STATE_WORKING").States workingQuery where
  method := rfl
  route := by decide
  query := by
    have hpairs : formParse (queryOf (afterAuthority (listUrl "status" "TASK_STATE_WORKING").url)) =
        [("status".toList, "TASK_STATE_WORKING".toList)] :=
      formParse_field (k := "status".toList) (by decide) (by decide) (by decide) (by decide)
    rw [hpairs]
    rfl
  tenant := rfl

theorem states_contextUrl : (listUrl "contextId" "c1").States contextQuery where
  method := rfl
  route := by decide
  query := by
    have hpairs : formParse (queryOf (afterAuthority (listUrl "contextId" "c1").url)) =
        [("contextId".toList, "c1".toList)] :=
      formParse_field (k := "contextId".toList) (by decide) (by decide) (by decide) (by decide)
    rw [hpairs]
    rfl
  tenant := rfl

/-- A filter by state is not handed over by gRPC. -/
theorem working_not_alike :
    letI := byteChars
    letI := tableText listTexts
    letI : ∀ α, DecodeError α := fun _ => ⟨fun _ => "invalid"⟩
    letI := oneFloat
    letI := roleNumbers
    letI := stateNumbers
    letI := twoDates
    ¬ ∀ (body : String) (request : JsonRpcRequest) (req : HttpRequest)
        (message : Proto.ListTasksRequest) (q : ListTasksQuery),
        (fromText body : Option JsonRpcRequest) = some request → request.States q → req.States q →
        message.States q → SameRequest body req message := by
  let := byteChars
  let := tableText listTexts
  let : ∀ α, DecodeError α := fun _ => ⟨fun _ => "invalid"⟩
  let := oneFloat
  let := roleNumbers
  let := stateNumbers
  let := twoDates
  intro hall
  have hbody : (fromText (listText "status" "TASK_STATE_WORKING") : Option JsonRpcRequest) =
      some (listRequest workingQuery) := fromText_listTexts rfl
  have hsame := hall _ _ (listUrl "status" "TASK_STATE_WORKING")
    ⟨"", "", 2, none, "", none, none, none⟩ workingQuery hbody ⟨rfl, rfl⟩ states_workingUrl
    ⟨rfl, rfl, rfl, rfl, rfl, rfl⟩
  rw [sameRequest_iff hbody ⟨rfl, rfl⟩ states_workingUrl ⟨rfl, rfl, rfl, rfl, rfl, rfl⟩] at hsame
  cases hsame.1

theorem listsAlike_iff_context :
    letI := byteChars
    letI := tableText listTexts
    letI : ∀ α, DecodeError α := fun _ => ⟨fun _ => "invalid"⟩
    letI := oneFloat
    letI := roleNumbers
    letI := stateNumbers
    letI := twoDates
    SameRequest (listText "contextId" "c1") (listUrl "contextId" "c1")
      ⟨"", "c1", 0, none, "", none, none, none⟩ := by
  let := byteChars
  let := tableText listTexts
  let : ∀ α, DecodeError α := fun _ => ⟨fun _ => "invalid"⟩
  let := oneFloat
  let := roleNumbers
  let := stateNumbers
  let := twoDates
  have hbody : (fromText (listText "contextId" "c1") : Option JsonRpcRequest) =
      some (listRequest contextQuery) := fromText_listTexts rfl
  exact ((listsAlike_iff hbody ⟨rfl, rfl⟩ states_contextUrl ⟨rfl, rfl, rfl, rfl, rfl, rfl⟩).mpr
    ⟨rfl, rfl, by decide, by decide⟩).1

end Ra2a
