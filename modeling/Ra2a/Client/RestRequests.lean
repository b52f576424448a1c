import Ra2a.Client.Rest

/-!
# Requests over REST

What a REST operation says in a path and in a query it writes as it is, and the
server decodes it.  So an identifier comes back unless there is a slash, a question
mark, a hash sign or an escape in it, or it is a dot segment or looks like another
route; a value in a query comes back unless there is an ampersand, a hash sign, a plus
sign or an escape in it.  The tenant is read from a header that no operation writes,
and some fields are not sent at all.
-/

namespace Ra2a

open Utf8 Url

/-! ### Captured identifiers -/

theorem extract_taskIdPath_of_not_hasEscape {id : String} (h : hasEscape id.toList = false) :
    TaskIdPath.extract id.toList = some ⟨id⟩ := by
  rw [TaskIdPath.extract, decodeSegment_of_not_hasEscape h, Option.map_some, String.ofList_toList]

theorem extract_pushConfigPath_of_not_hasEscape {id configId : String}
    (h : hasEscape id.toList = false) (h' : hasEscape configId.toList = false) :
    PushConfigPath.extract id.toList configId.toList = some ⟨id, configId⟩ := by
  rw [PushConfigPath.extract, decodeSegment_of_not_hasEscape h, decodeSegment_of_not_hasEscape h']
  show some (PushConfigPath.mk (String.ofList id.toList) (String.ofList configId.toList)) = _
  rw [String.ofList_toList, String.ofList_toList]

/-! ### Fields of a query -/

section Fields

variable {α : Type} {parse : List Char → Option α} {display : α → List Char} {key : String}
  {pairs : List (List Char × List Char)} {value : Option α}

theorem queryField_of_filter (hparse : ∀ a, parse (display a) = some a)
    (h : pairs.filter (fun e => e.1 = key.toList) = queryPart key display value) :
    queryField parse key pairs = some value := by
  rw [queryField, h]
  cases value with
  | none => rfl
  | some a => exact congrArg (Option.map some) (hparse a)

/-- A text that is read as a field was there once. -/
theorem filter_of_queryField {v : String}
    (h : queryField parseString key pairs = some (some v)) :
    pairs.filter (fun e => e.1 = key.toList) = [(key.toList, v.toList)] := by
  rw [queryField] at h
  split at h
  · cases h
  · rename_i e heq
    have hkey : e.1 = key.toList := by
      have hmem : e ∈ pairs.filter fun e => e.1 = key.toList := heq ▸ List.mem_singleton_self e
      simpa using (List.mem_filter.mp hmem).2
    rw [parseString, Option.map_some] at h
    have hv : v.toList = e.2 := by
      rw [← Option.some.inj (Option.some.inj h), String.toList_ofList]
    rw [heq, ← hkey, hv]
  · cases h

theorem mem_queryPart {e : List Char × List Char} :
    e ∈ queryPart key display value ↔ ∃ a ∈ value, e = (key.toList, display a) := by
  simp [queryPart, eq_comm]

theorem filter_queryPart (k : String) : (queryPart key display value).filter
    (fun e => e.1 = k.toList) = if key = k then queryPart key display value else [] := by
  have hkey : key.toList = k.toList ↔ key = k := String.toList_inj
  cases value with
  | none => simp [queryPart]
  | some a =>
    by_cases h : key = k
    · simp [queryPart, h]
    · simp [queryPart, h, hkey]

end Fields

/-! ### The query of `list_tasks` -/

section ListTasks

variable {r : ListTasksRequest} {e : List Char × List Char}

theorem keys_queryPart {α : Type} (key : String) (display : α → List Char) (value : Option α) :
    ((queryPart key display value).map Prod.fst).Sublist [key.toList] := by
  cases value with
  | none => exact List.nil_sublist _
  | some a => exact List.Sublist.refl _

theorem mem_listTasksParts : e ∈ RestTransport.listTasksParts r ↔
    (∃ v ∈ r.contextId, e = ("contextId".toList, v.toList)) ∨
    (∃ v ∈ r.status, e = ("status".toList, v.asStr.toList)) ∨
    (∃ v ∈ r.pageSize, e = ("pageSize".toList, displayI32 v)) ∨
    (∃ v ∈ r.pageToken, e = ("pageToken".toList, v.toList)) ∨
    (∃ v ∈ r.historyLength, e = ("historyLength".toList, displayI32 v)) ∨
    (∃ v ∈ r.statusTimestampAfter, e = ("statusTimestampAfter".toList, v.toList)) ∨
    ∃ v ∈ r.includeArtifacts, e = ("includeArtifacts".toList, displayBool v) := by
  simp only [RestTransport.listTasksParts, List.mem_append, mem_queryPart, or_assoc]

/-- The keys of the query. -/
def listTasksKeys : List String :=
  ["contextId", "status", "pageSize", "pageToken", "historyLength", "statusTimestampAfter",
    "includeArtifacts"]

theorem keys_listTasksParts : ((RestTransport.listTasksParts r).map Prod.fst).Sublist
    (listTasksKeys.map String.toList) := by
  simp only [RestTransport.listTasksParts, List.map_append]
  exact ((((((keys_queryPart _ _ _).append (keys_queryPart _ _ _)).append
    (keys_queryPart _ _ _)).append (keys_queryPart _ _ _)).append (keys_queryPart _ _ _)).append
    (keys_queryPart _ _ _)).append (keys_queryPart _ _ _)

theorem isKey_listTasksParts (he : e ∈ RestTransport.listTasksParts r) : IsKey e.1 := by
  have hkeys : ∀ k ∈ listTasksKeys.map String.toList, IsKey k := by decide
  exact hkeys e.1 (keys_listTasksParts.subset (List.mem_map_of_mem he))

theorem nodup_listTasksParts : ((RestTransport.listTasksParts r).map Prod.fst).Nodup := by
  have hnodup : (listTasksKeys.map String.toList).Nodup := by decide
  exact keys_listTasksParts.nodup hnodup

/-- The values that a caller chooses the text of. -/
def ListTasksRequest.texts (r : ListTasksRequest) : List String :=
  r.contextId.toList ++ r.pageToken.toList ++ r.statusTimestampAfter.toList

theorem mem_texts {v : String} :
    v ∈ r.texts ↔ v ∈ r.contextId ∨ v ∈ r.pageToken ∨ v ∈ r.statusTimestampAfter := by
  simp only [ListTasksRequest.texts, List.mem_append, Option.mem_toList, Option.mem_def, or_assoc]

/-- The other values are written without a separator. -/
theorem isValue_listTasksParts (h : ∀ v ∈ r.texts, IsValue v.toList)
    (he : e ∈ RestTransport.listTasksParts r) : IsValue e.2 := by
  rcases mem_listTasksParts.mp he with ⟨v, hv, rfl⟩ | ⟨v, -, rfl⟩ | ⟨v, -, rfl⟩ | ⟨v, hv, rfl⟩ |
    ⟨v, -, rfl⟩ | ⟨v, hv, rfl⟩ | ⟨v, -, rfl⟩
  · exact h v (mem_texts.mpr (Or.inl hv))
  · exact isValue_asStr v
  · exact isValue_displayI32 v
  · exact h v (mem_texts.mpr (Or.inr (Or.inl hv)))
  · exact isValue_displayI32 v
  · exact h v (mem_texts.mpr (Or.inr (Or.inr hv)))
  · exact isValue_displayBool v

theorem filter_listTasksParts (k : String) :
    (RestTransport.listTasksParts r).filter (fun e => e.1 = k.toList) =
      (if "contextId" = k then queryPart "contextId" String.toList r.contextId else []) ++
      (if "status" = k then queryPart "status" (fun s => s.asStr.toList) r.status else []) ++
      (if "pageSize" = k then queryPart "pageSize" displayI32 r.pageSize else []) ++
      (if "pageToken" = k then queryPart "pageToken" String.toList r.pageToken else []) ++
      (if "historyLength" = k then queryPart "historyLength" displayI32 r.historyLength else []) ++
      (if "statusTimestampAfter" = k then
        queryPart "statusTimestampAfter" String.toList r.statusTimestampAfter else []) ++
      if "includeArtifacts" = k then
        queryPart "includeArtifacts" displayBool r.includeArtifacts else [] := by
  simp only [RestTransport.listTasksParts, List.filter_append, filter_queryPart]

theorem extract_listTasksParts :
    ListTasksQuery.extract (RestTransport.listTasksParts r) =
      some ⟨r.contextId, r.status.map TaskState.asStr, r.pageSize, r.pageToken, r.historyLength,
        r.statusTimestampAfter, r.includeArtifacts⟩ := by
  have hstring : ∀ v : String, parseString v.toList = some v :=
    fun v => congrArg some String.ofList_toList
  have hstatus : queryPart "status" (fun s => s.asStr.toList) r.status =
      queryPart "status" String.toList (r.status.map TaskState.asStr) := by
    cases r.status <;> rfl
  have hcontextId : queryField parseString "contextId" (RestTransport.listTasksParts r) =
      some r.contextId :=
    queryField_of_filter hstring (by
      rw [filter_listTasksParts]
      simp)
  have hstatus : queryField parseString "status" (RestTransport.listTasksParts r) =
      some (r.status.map TaskState.asStr) :=
    queryField_of_filter hstring (by
      rw [filter_listTasksParts]
      simp [hstatus])
  have hpageSize : queryField parseI32 "pageSize" (RestTransport.listTasksParts r) =
      some r.pageSize :=
    queryField_of_filter parseI32_displayI32 (by
      rw [filter_listTasksParts]
      simp)
  have hpageToken : queryField parseString "pageToken" (RestTransport.listTasksParts r) =
      some r.pageToken :=
    queryField_of_filter hstring (by
      rw [filter_listTasksParts]
      simp)
  have hhistoryLength : queryField parseI32 "historyLength" (RestTransport.listTasksParts r) =
      some r.historyLength :=
    queryField_of_filter parseI32_displayI32 (by
      rw [filter_listTasksParts]
      simp)
  have htimestamp : queryField parseString "statusTimestampAfter"
      (RestTransport.listTasksParts r) = some r.statusTimestampAfter :=
    queryField_of_filter hstring (by
      rw [filter_listTasksParts]
      simp)
  have hartifacts : queryField parseBool "includeArtifacts" (RestTransport.listTasksParts r) =
      some r.includeArtifacts :=
    queryField_of_filter parseBool_displayBool (by
      rw [filter_listTasksParts]
      simp)
  rw [ListTasksQuery.extract, hcontextId, hstatus, hpageSize, hpageToken, hhistoryLength,
    htimestamp, hartifacts]
  rfl

theorem mem_listTasksParts_of_mem_texts {v : String} (h : v ∈ r.texts) :
    ∃ k, (k, v.toList) ∈ RestTransport.listTasksParts r := by
  rcases mem_texts.mp h with h | h | h
  · exact ⟨_, mem_listTasksParts.mpr (Or.inl ⟨v, h, rfl⟩)⟩
  · exact ⟨_, mem_listTasksParts.mpr (Or.inr (Or.inr (Or.inr (Or.inl ⟨v, h, rfl⟩))))⟩
  · exact ⟨_, mem_listTasksParts.mpr
      (Or.inr (Or.inr (Or.inr (Or.inr (Or.inr (Or.inl ⟨v, h, rfl⟩))))))⟩

theorem texts_of_extract {pairs : List (List Char × List Char)} {query : ListTasksQuery}
    (h : ListTasksQuery.extract pairs = some query) :
    queryField parseString "contextId" pairs = some query.contextId ∧
      queryField parseString "pageToken" pairs = some query.pageToken ∧
      queryField parseString "statusTimestampAfter" pairs = some query.statusTimestampAfter := by
  obtain ⟨contextId, hcontextId, h⟩ := Option.bind_eq_some_iff.mp h
  obtain ⟨status, -, h⟩ := Option.bind_eq_some_iff.mp h
  obtain ⟨pageSize, -, h⟩ := Option.bind_eq_some_iff.mp h
  obtain ⟨pageToken, hpageToken, h⟩ := Option.bind_eq_some_iff.mp h
  obtain ⟨historyLength, -, h⟩ := Option.bind_eq_some_iff.mp h
  obtain ⟨timestamp, htimestamp, h⟩ := Option.bind_eq_some_iff.mp h
  obtain ⟨artifacts, -, h⟩ := Option.bind_eq_some_iff.mp h
  obtain rfl := Option.some.inj h
  exact ⟨hcontextId, hpageToken, htimestamp⟩

/-- **Texts that are read as they were written** have no separator, no plus sign and no
escape in them. -/
theorem isValue_of_extract {query : ListTasksQuery}
    (h : ListTasksQuery.extract
      (formParse (beforeFragment (formText (RestTransport.listTasksParts r)))) = some query)
    (hcontextId : query.contextId = r.contextId) (hpageToken : query.pageToken = r.pageToken)
    (htimestamp : query.statusTimestampAfter = r.statusTimestampAfter) :
    ∀ v ∈ r.texts, IsValue v.toList := by
  obtain ⟨hread₁, hread₂, hread₃⟩ := texts_of_extract h
  have hall : ∀ e ∈ RestTransport.listTasksParts r, IsValue e.2 := by
    refine isValue_of_filter (fun e he => isKey_listTasksParts he) nodup_listTasksParts
      fun e he => ?_
    rcases mem_listTasksParts.mp he with ⟨v, hv, rfl⟩ | ⟨v, -, rfl⟩ | ⟨v, -, rfl⟩ |
      ⟨v, hv, rfl⟩ | ⟨v, -, rfl⟩ | ⟨v, hv, rfl⟩ | ⟨v, -, rfl⟩
    · exact Or.inr (filter_of_queryField (hread₁.trans (congrArg some (hcontextId.trans hv))))
    · exact Or.inl (isValue_asStr v)
    · exact Or.inl (isValue_displayI32 v)
    · exact Or.inr (filter_of_queryField (hread₂.trans (congrArg some (hpageToken.trans hv))))
    · exact Or.inl (isValue_displayI32 v)
    · exact Or.inr (filter_of_queryField (hread₃.trans (congrArg some (htimestamp.trans hv))))
    · exact Or.inl (isValue_displayBool v)
  intro v hv
  obtain ⟨k, hmem⟩ := mem_listTasksParts_of_mem_texts hv
  exact hall _ hmem

/-- The query of good texts is read as the request. -/
theorem extract_of_isValue (h : ∀ v ∈ r.texts, IsValue v.toList) :
    ListTasksQuery.extract
        (formParse (beforeFragment (formText (RestTransport.listTasksParts r)))) =
      some ⟨r.contextId, r.status.map TaskState.asStr, r.pageSize, r.pageToken, r.historyLength,
        r.statusTimestampAfter, r.includeArtifacts⟩ := by
  rw [formParse_formText (fun e he => isKey_listTasksParts he)
    fun e he => isValue_listTasksParts h he, extract_listTasksParts]

end ListTasks

/-! ### The routes of the calls -/

section Routes

variable {id configId : List Char}

theorem ofSegments_tasks (seg : List Char) :
    RestRoute.ofSegments ["tasks".toList, seg] = RestRoute.ofTask seg := by
  simp only [RestRoute.ofSegments, if_true]

theorem ofSegments_task : RestRoute.ofSegments (RestRoute.task id).path = some (.task id) ↔
    id ≠ [] ∧ capturedBefore ":cancel".toList id = none ∧
      capturedBefore ":subscribe".toList id = none := by
  have hofTask : RestRoute.ofSegments (RestRoute.task id).path = RestRoute.ofTask id :=
    ofSegments_tasks _
  rw [hofTask, RestRoute.ofTask]
  cases capturedBefore ":cancel".toList id with
  | some x => simp
  | none =>
    cases capturedBefore ":subscribe".toList id with
    | some x => simp
    | none =>
      have hself : capturedBefore [] id = some id ↔ id ≠ [] := by
        rw [capturedBefore_eq_some, List.append_nil]
        exact and_iff_right rfl
      simp only [Option.map_eq_some_iff, RestRoute.task.injEq, exists_eq_right, hself, and_true]

theorem ofSegments_cancel : RestRoute.ofSegments (RestRoute.cancel id).path = some (.cancel id) ↔
    id ≠ [] := by
  have hofTask : RestRoute.ofSegments (RestRoute.cancel id).path =
      RestRoute.ofTask (id ++ ":cancel".toList) := ofSegments_tasks _
  rw [hofTask]
  constructor
  · rintro h rfl
    revert h
    decide
  · intro hne
    rw [RestRoute.ofTask, capturedBefore_eq_some.mpr ⟨rfl, hne⟩]

theorem ofSegments_subscribe :
    RestRoute.ofSegments (RestRoute.subscribe id).path = some (.subscribe id) ↔ id ≠ [] := by
  have hofTask : RestRoute.ofSegments (RestRoute.subscribe id).path =
      RestRoute.ofTask (id ++ ":subscribe".toList) := ofSegments_tasks _
  rw [hofTask]
  constructor
  · rintro h rfl
    revert h
    decide
  · intro hne
    -- the two suffixes have different last letters
    have hcancel : capturedBefore ":cancel".toList (id ++ ":subscribe".toList) = none := by
      rw [Option.eq_none_iff_forall_ne_some]
      intro x hx
      have hlast := congrArg List.getLast? (capturedBefore_eq_some.mp hx).1
      have he : ":subscribe".toList.getLast? = some 'e' := by decide
      have hl : ":cancel".toList.getLast? = some 'l' := by decide
      rw [List.getLast?_append, List.getLast?_append, he, hl] at hlast
      cases hlast
    rw [RestRoute.ofTask, hcancel, capturedBefore_eq_some.mpr ⟨rfl, hne⟩]

theorem ofSegments_pushNotificationConfigs :
    RestRoute.ofSegments (RestRoute.pushNotificationConfigs id).path =
      some (.pushNotificationConfigs id) ↔ id ≠ [] := by
  simp [RestRoute.ofSegments, RestRoute.path]

theorem ofSegments_pushNotificationConfig :
    RestRoute.ofSegments (RestRoute.pushNotificationConfig id configId).path =
      some (.pushNotificationConfig id configId) ↔ id ≠ [] ∧ configId ≠ [] := by
  simp [RestRoute.ofSegments, RestRoute.path]

theorem isSegment_tasks : IsSegment "tasks".toList := ⟨by decide, by decide⟩

theorem isSegment_pushNotificationConfigs : IsSegment "pushNotificationConfigs".toList :=
  ⟨by decide, by decide⟩

end Routes

/-! ### The calls of the routes -/

section Calls

/-- Where a route captures a task, its call is the one that is made of it as it is. -/
theorem bind_extract_taskIdPath {id : String} {f : TaskIdPath → HandlerCall}
    {call : HandlerCall} {P : Prop} (hf : ∀ path, f path = call ↔ path = ⟨id⟩ ∧ P) :
    ((TaskIdPath.extract id.toList).bind fun path => some (f path)) = some call ↔
      P ∧ hasEscape id.toList = false := by
  rw [Option.bind_eq_some_iff]
  constructor
  · rintro ⟨path, hpath, h⟩
    obtain ⟨rfl, hP⟩ := (hf path).mp (Option.some.inj h)
    exact ⟨hP, decodeSegment_eq_some_iff.mp (extract_taskIdPath hpath)⟩
  · rintro ⟨hP, hid⟩
    exact ⟨_, extract_taskIdPath_of_not_hasEscape hid, congrArg some ((hf _).mpr ⟨rfl, hP⟩)⟩

/-- Where a route captures a task and a configuration, its call is the one that is made of
them as they are. -/
theorem bind_extract_pushConfigPath {taskId id : String} {f : PushConfigPath → HandlerCall}
    {call : HandlerCall} {P : Prop} (hf : ∀ path, f path = call ↔ path = ⟨taskId, id⟩ ∧ P) :
    ((PushConfigPath.extract taskId.toList id.toList).bind fun path => some (f path)) =
        some call ↔
      P ∧ hasEscape taskId.toList = false ∧ hasEscape id.toList = false := by
  rw [Option.bind_eq_some_iff]
  constructor
  · rintro ⟨path, hpath, h⟩
    obtain ⟨rfl, hP⟩ := (hf path).mp (Option.some.inj h)
    obtain ⟨htaskId, hid⟩ := extract_pushConfigPath hpath
    exact ⟨hP, decodeSegment_eq_some_iff.mp htaskId, decodeSegment_eq_some_iff.mp hid⟩
  · rintro ⟨hP, htaskId, hid⟩
    exact ⟨_, extract_pushConfigPath_of_not_hasEscape htaskId hid,
      congrArg some ((hf _).mpr ⟨rfl, hP⟩)⟩

variable [JsonText] [Base64] {req : HttpRequest}

theorem call?_task {r : GetTaskRequest} (hmethod : req.method = .get)
    (hquery : queryOf (afterAuthority req.url) =
      beforeFragment (formText (queryPart "historyLength" displayI32 r.historyLength))) :
    (RestRoute.task r.id.toList).call? req = some (.onGetTask r) ↔
      r.tenant = tenantFromHeaders req.headers ∧ hasEscape r.id.toList = false := by
  have hread : GetTaskQuery.extract (formParse (queryOf (afterAuthority req.url))) =
      some ⟨r.historyLength⟩ := by
    have hkey : IsKey "historyLength".toList := by decide
    have hparse : formParse (queryOf (afterAuthority req.url)) =
        queryPart "historyLength" displayI32 r.historyLength := by
      rw [hquery]
      refine formParse_formText (fun e he => ?_) fun e he => ?_
      · obtain ⟨v, -, rfl⟩ := mem_queryPart.mp he
        exact hkey
      · obtain ⟨v, -, rfl⟩ := mem_queryPart.mp he
        exact isValue_displayI32 v
    rw [hparse, GetTaskQuery.extract, queryField_of_filter parseI32_displayI32
      ((filter_queryPart _).trans (if_pos rfl))]
    rfl
  simp only [RestRoute.call?, hmethod, hread]
  refine bind_extract_taskIdPath fun path => ?_
  constructor
  · intro h
    have hr : (⟨tenantFromHeaders req.headers, path.id, r.historyLength⟩ : GetTaskRequest) = r :=
      HandlerCall.onGetTask.inj h
    rw [← hr]
    exact ⟨rfl, rfl⟩
  · rintro ⟨rfl, htenant⟩
    rw [← htenant]

theorem call?_tasks {r : ListTasksRequest} (hmethod : req.method = .get)
    (hquery : queryOf (afterAuthority req.url) =
      beforeFragment (formText (RestTransport.listTasksParts r))) :
    RestRoute.tasks.call? req = some (.onListTasks r) ↔
      r.tenant = tenantFromHeaders req.headers ∧ ∀ v ∈ r.texts, IsValue v.toList := by
  simp only [RestRoute.call?, hmethod, hquery]
  constructor
  · intro h
    obtain ⟨query, hread, h⟩ := Option.bind_eq_some_iff.mp h
    cases h
    exact ⟨rfl, isValue_of_extract hread rfl rfl rfl⟩
  · rintro ⟨htenant, hvalues⟩
    have hstatus : (r.status.map TaskState.asStr).map TaskState.fromStateStr = r.status := by
      rw [Option.map_map, show TaskState.fromStateStr ∘ TaskState.asStr = id from
        funext fromStateStr_asStr, Option.map_id_apply]
    rw [extract_of_isValue hvalues, ← htenant]
    show some (HandlerCall.onListTasks ⟨r.tenant, r.contextId,
      (r.status.map TaskState.asStr).map TaskState.fromStateStr, r.pageSize, r.pageToken,
      r.historyLength, r.statusTimestampAfter, r.includeArtifacts⟩) = _
    rw [hstatus]

theorem call?_cancel {r : CancelTaskRequest} (hmethod : req.method = .post) :
    (RestRoute.cancel r.id.toList).call? req = some (.onCancelTask r) ↔
      r.tenant = tenantFromHeaders req.headers ∧ r.metadata = none ∧
        hasEscape r.id.toList = false := by
  simp only [RestRoute.call?, hmethod]
  rw [← and_assoc]
  refine bind_extract_taskIdPath fun path => ?_
  constructor
  · intro h
    cases h
    exact ⟨rfl, rfl, rfl⟩
  · rintro ⟨rfl, htenant, hmetadata⟩
    rw [← htenant, ← hmetadata]

theorem call?_subscribe {r : SubscribeToTaskRequest} (hmethod : req.method = .get) :
    (RestRoute.subscribe r.id.toList).call? req = some (.onSubscribeToTask r) ↔
      r.tenant = tenantFromHeaders req.headers ∧ hasEscape r.id.toList = false := by
  simp only [RestRoute.call?, hmethod]
  refine bind_extract_taskIdPath fun path => ?_
  constructor
  · intro h
    cases h
    exact ⟨rfl, rfl⟩
  · rintro ⟨rfl, htenant⟩
    rw [← htenant]

theorem call?_listPushConfigs {r : ListTaskPushNotificationConfigsRequest}
    (hmethod : req.method = .get) :
    (RestRoute.pushNotificationConfigs r.taskId.toList).call? req =
        some (.onListTaskPushConfigs r) ↔
      r.tenant = tenantFromHeaders req.headers ∧ r.pageSize = none ∧ r.pageToken = none ∧
        hasEscape r.taskId.toList = false := by
  simp only [RestRoute.call?, hmethod]
  rw [← and_assoc, ← and_assoc]
  refine bind_extract_taskIdPath fun path => ?_
  constructor
  · intro h
    cases h
    exact ⟨rfl, ⟨rfl, rfl⟩, rfl⟩
  · rintro ⟨rfl, ⟨htenant, hpageSize⟩, hpageToken⟩
    rw [← htenant]
    nth_rewrite 1 [← hpageSize]
    rw [← hpageToken]

theorem call?_getPushConfig {r : GetTaskPushNotificationConfigRequest}
    (hmethod : req.method = .get) :
    (RestRoute.pushNotificationConfig r.taskId.toList r.id.toList).call? req =
        some (.onGetTaskPushConfig r) ↔
      r.tenant = tenantFromHeaders req.headers ∧ hasEscape r.taskId.toList = false ∧
        hasEscape r.id.toList = false := by
  simp only [RestRoute.call?, hmethod]
  refine bind_extract_pushConfigPath fun path => ?_
  constructor
  · intro h
    cases h
    exact ⟨rfl, rfl⟩
  · rintro ⟨rfl, htenant⟩
    rw [← htenant]

theorem call?_deletePushConfig {r : DeleteTaskPushNotificationConfigRequest}
    (hmethod : req.method = .delete) :
    (RestRoute.pushNotificationConfig r.taskId.toList r.id.toList).call? req =
        some (.onDeleteTaskPushConfig r) ↔
      r.tenant = tenantFromHeaders req.headers ∧ hasEscape r.taskId.toList = false ∧
        hasEscape r.id.toList = false := by
  simp only [RestRoute.call?, hmethod]
  refine bind_extract_pushConfigPath fun path => ?_
  constructor
  · intro h
    cases h
    exact ⟨rfl, rfl⟩
  · rintro ⟨rfl, htenant⟩
    rw [← htenant]

theorem call?_extendedAgentCard {r : GetExtendedAgentCardRequest} (hmethod : req.method = .get) :
    RestRoute.extendedAgentCard.call? req = some (.onGetExtendedAgentCard r) ↔
      r.tenant = tenantFromHeaders req.headers := by
  simp only [RestRoute.call?, hmethod]
  constructor
  · intro h
    cases h
    rfl
  · intro htenant
    rw [← htenant]

theorem call?_messageSend {r : SendMessageRequest} (hmethod : req.method = .post)
    (hjson : jsonContentType req.headers = true) :
    RestRoute.messageSend.call? req = some (.onMessageSend r) ↔ fromText req.body = some r := by
  simp only [RestRoute.call?, hmethod, HttpRequest.json?_of_json hjson]
  constructor
  · intro h
    obtain ⟨body, hbody, h⟩ := Option.bind_eq_some_iff.mp h
    cases h
    exact hbody
  · intro hbody
    rw [hbody]
    rfl

theorem call?_messageStream {r : SendMessageRequest} (hmethod : req.method = .post)
    (hjson : jsonContentType req.headers = true) :
    RestRoute.messageStream.call? req = some (.onMessageStream r) ↔ fromText req.body = some r := by
  simp only [RestRoute.call?, hmethod, HttpRequest.json?_of_json hjson]
  constructor
  · intro h
    obtain ⟨body, hbody, h⟩ := Option.bind_eq_some_iff.mp h
    cases h
    exact hbody
  · intro hbody
    rw [hbody]
    rfl

theorem call?_createPushConfig {r : TaskPushNotificationConfig} (hmethod : req.method = .post)
    (hjson : jsonContentType req.headers = true)
    (hbody : ∀ config : TaskPushNotificationConfig, fromText req.body = some config → config = r) :
    (RestRoute.pushNotificationConfigs (r.taskId.getD "").toList).call? req =
        some (.onCreateTaskPushConfig r) ↔
      ∃ id, r.taskId = some id ∧ hasEscape id.toList = false ∧ fromText req.body = some r := by
  simp only [RestRoute.call?, hmethod, HttpRequest.json?_of_json hjson]
  constructor
  · intro h
    obtain ⟨path, hpath, h⟩ := Option.bind_eq_some_iff.mp h
    obtain ⟨config, hconfig, h⟩ := Option.bind_eq_some_iff.mp h
    have hid := extract_taskIdPath hpath
    have hr : { config with taskId := some path.id } = r :=
      HandlerCall.onCreateTaskPushConfig.inj (Option.some.inj h)
    have htaskId : r.taskId = some path.id := by rw [← hr]
    rw [htaskId, Option.getD_some] at hid
    exact ⟨path.id, htaskId, decodeSegment_eq_some_iff.mp hid, hbody config hconfig ▸ hconfig⟩
  · rintro ⟨id, htaskId, hid, hconfig⟩
    rw [htaskId, Option.getD_some, extract_taskIdPath_of_not_hasEscape hid, hconfig]
    show some (HandlerCall.onCreateTaskPushConfig { r with taskId := some id }) = _
    rw [← htaskId]

end Calls

/-! ### The requests that come back -/

/-- An identifier that a route captures before a suffix as it is. -/
structure IsCaptured (suffix : String) (id : String) : Prop where
  ne_nil : id.toList ≠ []
  segment : IsSegment (id.toList ++ suffix.toList)
  no_escape : hasEscape id.toList = false

section Bodies

variable [Base64]

/-- The body of an operation. -/
def HandlerCall.body? : HandlerCall → Option Json
  | .onMessageSend req => some (serialize req)
  | .onMessageStream req => some (serialize req)
  | .onCancelTask req => some (serialize req)
  | .onCreateTaskPushConfig req => some (serialize req)
  | _ => none

/-- The requests that come back, from a client that sends these headers, where a URL is
taken apart as it is written.  The `url` crate of `reqwest` also reads a backslash as a
slash, and drops tabs, line breaks and blanks at the end. -/
def Carried (headers : HeaderMap) : HandlerCall → Prop
  | .onMessageSend req => (serialize req).depth ≤ recursionLimit
  | .onMessageStream req => (serialize req).depth ≤ recursionLimit
  | .onGetTask req =>
    req.tenant = tenantFromHeaders headers ∧ IsCaptured "" req.id ∧
      capturedBefore ":cancel".toList req.id.toList = none ∧
      capturedBefore ":subscribe".toList req.id.toList = none
  | .onListTasks req =>
    req.tenant = tenantFromHeaders headers ∧ ∀ v ∈ req.texts, IsValue v.toList
  | .onCancelTask req =>
    req.tenant = tenantFromHeaders headers ∧ req.metadata = none ∧ IsCaptured ":cancel" req.id
  | .onSubscribeToTask req =>
    req.tenant = tenantFromHeaders headers ∧ IsCaptured ":subscribe" req.id
  | .onCreateTaskPushConfig req =>
    ∃ id, req.taskId = some id ∧ IsCaptured "" id ∧ (serialize req).depth ≤ recursionLimit
  | .onGetTaskPushConfig req =>
    req.tenant = tenantFromHeaders headers ∧ IsCaptured "" req.taskId ∧ IsCaptured "" req.id
  | .onListTaskPushConfigs req =>
    req.tenant = tenantFromHeaders headers ∧ req.pageSize = none ∧ req.pageToken = none ∧
      IsCaptured "" req.taskId
  | .onDeleteTaskPushConfig req =>
    req.tenant = tenantFromHeaders headers ∧ IsCaptured "" req.taskId ∧ IsCaptured "" req.id
  | .onGetExtendedAgentCard req => req.tenant = tenantFromHeaders headers

end Bodies

theorem isCaptured_iff {suffix id : String} : IsCaptured suffix id ↔
    id.toList ≠ [] ∧ IsSegment (id.toList ++ suffix.toList) ∧ hasEscape id.toList = false :=
  ⟨fun h => ⟨h.1, h.2, h.3⟩, fun h => ⟨h.1, h.2.1, h.2.2⟩⟩

theorem isCaptured_empty_iff {id : String} : IsCaptured "" id ↔
    id.toList ≠ [] ∧ IsSegment id.toList ∧ hasEscape id.toList = false := by
  rw [isCaptured_iff, show "".toList = [] from rfl, List.append_nil]

/-- A body that is nested too deep is not read, and any other one is read as it is. -/
theorem fromText_body [JsonText] {α : Type} [Serde α] [LawfulSerde α] {a : α}
    (h : JsonText.Readable recursionLimit (serialize a)) :
    ∃ text, toText a = some text ∧
      ∀ b, fromText text = some b ↔ b = a ∧ (serialize a).depth ≤ recursionLimit := by
  obtain ⟨text, hprint, hparse⟩ := h
  refine ⟨text, hprint, fun b => ?_⟩
  rw [fromText, hparse]
  split_ifs with hdepth
  · rw [Option.bind_some, LawfulSerde.deserialize_serialize, Option.some.injEq]
    exact ⟨fun h => ⟨h.symm, hdepth⟩, fun h => h.1.symm⟩
  · exact ⟨fun h => (by cases h), fun h => absurd h.2 hdepth⟩

theorem exists_postJson [JsonText] {α : Type} [Serde α] {a : α} {text : String}
    (c : RestTransport) (path : List Char) (h : toText a = some text) :
    ∃ req, c.postJson path a = some req :=
  ⟨_, congrArg (Option.map _) h⟩

theorem exists_postSseStream [JsonText] {α : Type} [Serde α] {a : α} {text : String}
    (c : RestTransport) (path : List Char) (h : toText a = some text) :
    ∃ req, c.postSseStream path a = some req :=
  ⟨_, congrArg (Option.map _) h⟩

section Main

variable [JsonText] [Base64] {base : List Char} {o : Origin} {headers : HeaderMap}
  {call : HandlerCall} {req : HttpRequest}

/-- What is handed over depends on the segments of the path, on the route and on what
the route's handler reads. -/
theorem handedOver_send {routed read : Prop} (hbase : trimEndSlashes base = o.text)
    (hsend : (RestTransport.withConfig base headers).send call = some req)
    (hroute : RestRoute.ofSegments call.route.path = some call.route ↔ routed)
    (hread : (∀ seg ∈ call.route.path, IsSegment seg) →
      (call.route.call? req = some call ↔ read)) :
    handedOver req = [call] ↔ (∀ seg ∈ call.route.path, IsSegment seg) ∧ routed ∧ read := by
  rw [handedOver_eq_singleton_iff, call?_iff (queryText_cases _) (target_send hbase hsend), hroute]
  exact and_congr_right fun hall => and_congr_right fun _ => hread hall

theorem queryOf_send (hbase : trimEndSlashes base = o.text)
    (hsend : (RestTransport.withConfig base headers).send call = some req)
    (hall : ∀ seg ∈ call.route.path, IsSegment seg) :
    queryOf (afterAuthority req.url) = beforeFragment (formText call.query) := by
  rw [target_send hbase hsend, queryOf_queryText hall]

theorem tenant_withConfig (hsend : (RestTransport.withConfig base headers).send call = some req) :
    tenantFromHeaders req.headers = tenantFromHeaders headers :=
  tenant_send hsend

theorem getTask_carried_iff (hbase : trimEndSlashes base = o.text) {r : GetTaskRequest}
    (hsend : (RestTransport.withConfig base headers).send (.onGetTask r) = some req) :
    handedOver req = [.onGetTask r] ↔ Carried headers (.onGetTask r) := by
  have hmethod : req.method = .get := by
    rw [← Option.some.inj hsend, RestTransport.getTask]
    cases r.historyLength <;> rfl
  rw [handedOver_send hbase hsend ofSegments_task fun hall =>
    call?_task hmethod (queryOf_send hbase hsend hall), tenant_withConfig hsend]
  simp only [HandlerCall.route, RestRoute.path, Carried, isCaptured_empty_iff, List.forall_mem_cons,
    List.not_mem_nil, false_imp_iff, implies_true, isSegment_tasks, true_and, and_true]
  tauto

theorem listTasks_carried_iff (hbase : trimEndSlashes base = o.text) {r : ListTasksRequest}
    (hsend : (RestTransport.withConfig base headers).send (.onListTasks r) = some req) :
    handedOver req = [.onListTasks r] ↔ Carried headers (.onListTasks r) := by
  have hmethod : req.method = .get := by
    rw [← Option.some.inj hsend, RestTransport.listTasks]
    cases (RestTransport.listTasksParts r).isEmpty <;> rfl
  have hroute : RestRoute.ofSegments RestRoute.tasks.path = some .tasks := by decide
  rw [handedOver_send hbase hsend (iff_true_intro hroute) fun hall =>
    call?_tasks hmethod (queryOf_send hbase hsend hall), tenant_withConfig hsend]
  simp only [HandlerCall.route, RestRoute.path, Carried, List.forall_mem_cons, List.not_mem_nil,
    false_imp_iff, implies_true, isSegment_tasks, true_and, and_true]

theorem subscribeToTask_carried_iff (hbase : trimEndSlashes base = o.text)
    {r : SubscribeToTaskRequest}
    (hsend : (RestTransport.withConfig base headers).send (.onSubscribeToTask r) = some req) :
    handedOver req = [.onSubscribeToTask r] ↔ Carried headers (.onSubscribeToTask r) := by
  have hmethod : req.method = .get := by rw [← Option.some.inj hsend]; rfl
  rw [handedOver_send hbase hsend ofSegments_subscribe fun _ => call?_subscribe hmethod,
    tenant_withConfig hsend]
  simp only [HandlerCall.route, RestRoute.path, Carried, isCaptured_iff, List.forall_mem_cons,
    List.not_mem_nil, false_imp_iff, implies_true, isSegment_tasks, true_and, and_true]
  tauto

theorem getTaskPushConfig_carried_iff (hbase : trimEndSlashes base = o.text)
    {r : GetTaskPushNotificationConfigRequest}
    (hsend : (RestTransport.withConfig base headers).send (.onGetTaskPushConfig r) = some req) :
    handedOver req = [.onGetTaskPushConfig r] ↔ Carried headers (.onGetTaskPushConfig r) := by
  have hmethod : req.method = .get := by rw [← Option.some.inj hsend]; rfl
  rw [handedOver_send hbase hsend ofSegments_pushNotificationConfig fun _ =>
    call?_getPushConfig hmethod, tenant_withConfig hsend]
  simp only [HandlerCall.route, RestRoute.path, Carried, isCaptured_empty_iff, List.forall_mem_cons,
    List.not_mem_nil, false_imp_iff, implies_true, isSegment_tasks,
    isSegment_pushNotificationConfigs, true_and, and_true]
  tauto

theorem deleteTaskPushConfig_carried_iff (hbase : trimEndSlashes base = o.text)
    {r : DeleteTaskPushNotificationConfigRequest}
    (hsend : (RestTransport.withConfig base headers).send (.onDeleteTaskPushConfig r) = some req) :
    handedOver req = [.onDeleteTaskPushConfig r] ↔ Carried headers (.onDeleteTaskPushConfig r) := by
  have hmethod : req.method = .delete := by rw [← Option.some.inj hsend]; rfl
  rw [handedOver_send hbase hsend ofSegments_pushNotificationConfig fun _ =>
    call?_deletePushConfig hmethod, tenant_withConfig hsend]
  simp only [HandlerCall.route, RestRoute.path, Carried, isCaptured_empty_iff, List.forall_mem_cons,
    List.not_mem_nil, false_imp_iff, implies_true, isSegment_tasks,
    isSegment_pushNotificationConfigs, true_and, and_true]
  tauto

theorem listTaskPushConfigs_carried_iff (hbase : trimEndSlashes base = o.text)
    {r : ListTaskPushNotificationConfigsRequest}
    (hsend : (RestTransport.withConfig base headers).send (.onListTaskPushConfigs r) = some req) :
    handedOver req = [.onListTaskPushConfigs r] ↔ Carried headers (.onListTaskPushConfigs r) := by
  have hmethod : req.method = .get := by rw [← Option.some.inj hsend]; rfl
  rw [handedOver_send hbase hsend ofSegments_pushNotificationConfigs fun _ =>
    call?_listPushConfigs hmethod, tenant_withConfig hsend]
  simp only [HandlerCall.route, RestRoute.path, Carried, isCaptured_empty_iff, List.forall_mem_cons,
    List.not_mem_nil, false_imp_iff, implies_true, isSegment_tasks,
    isSegment_pushNotificationConfigs, true_and, and_true]
  tauto

theorem getExtendedAgentCard_carried_iff (hbase : trimEndSlashes base = o.text)
    {r : GetExtendedAgentCardRequest}
    (hsend : (RestTransport.withConfig base headers).send (.onGetExtendedAgentCard r) = some req) :
    handedOver req = [.onGetExtendedAgentCard r] ↔ Carried headers (.onGetExtendedAgentCard r) := by
  have hmethod : req.method = .get := by rw [← Option.some.inj hsend]; rfl
  have hroute : RestRoute.ofSegments RestRoute.extendedAgentCard.path =
      some .extendedAgentCard := by
    decide
  have hseg : IsSegment "extendedAgentCard".toList := ⟨by decide, by decide⟩
  rw [handedOver_send hbase hsend (iff_true_intro hroute) fun _ =>
    call?_extendedAgentCard hmethod, tenant_withConfig hsend]
  simp only [HandlerCall.route, RestRoute.path, Carried, List.forall_mem_cons, List.not_mem_nil,
    false_imp_iff, implies_true, hseg, true_and]

/-! ### The operations with a body -/

theorem cancelTask_carried_iff (hbase : trimEndSlashes base = o.text) {r : CancelTaskRequest}
    (hsend : (RestTransport.withConfig base headers).send (.onCancelTask r) = some req) :
    handedOver req = [.onCancelTask r] ↔ Carried headers (.onCancelTask r) := by
  have hmethod : req.method = .post := by
    obtain ⟨text, -, rfl⟩ := Option.map_eq_some_iff.mp hsend
    rfl
  rw [handedOver_send hbase hsend ofSegments_cancel fun _ =>
    call?_cancel hmethod, tenant_withConfig hsend]
  simp only [HandlerCall.route, RestRoute.path, Carried, isCaptured_iff, List.forall_mem_cons,
    List.not_mem_nil, false_imp_iff, implies_true, isSegment_tasks, true_and, and_true]
  tauto

theorem sendMessage_carried_iff (hbase : trimEndSlashes base = o.text) {r : SendMessageRequest}
    {text : String} (htext : toText r = some text)
    (hread : ∀ r', fromText text = some r' ↔ r' = r ∧ (serialize r).depth ≤ recursionLimit)
    (hsend : (RestTransport.withConfig base headers).send (.onMessageSend r) = some req) :
    handedOver req = [.onMessageSend r] ↔ Carried headers (.onMessageSend r) := by
  obtain ⟨hmethod, hjson, hbody⟩ :
      req.method = .post ∧ jsonContentType req.headers = true ∧ req.body = text := by
    obtain ⟨text', htext', rfl⟩ := Option.map_eq_some_iff.mp hsend
    exact ⟨rfl, jsonContentType_json _, Option.some.inj (htext'.symm.trans htext)⟩
  have hroute : RestRoute.ofSegments RestRoute.messageSend.path = some .messageSend := by decide
  have hseg : IsSegment "message:send".toList := ⟨by decide, by decide⟩
  rw [handedOver_send hbase hsend (iff_true_intro hroute) fun _ =>
    call?_messageSend hmethod hjson, hbody, hread]
  simp only [HandlerCall.route, RestRoute.path, Carried, List.forall_mem_cons, List.not_mem_nil,
    false_imp_iff, implies_true, hseg, true_and]

theorem sendStreamingMessage_carried_iff (hbase : trimEndSlashes base = o.text)
    {r : SendMessageRequest} {text : String} (htext : toText r = some text)
    (hread : ∀ r', fromText text = some r' ↔ r' = r ∧ (serialize r).depth ≤ recursionLimit)
    (hsend : (RestTransport.withConfig base headers).send (.onMessageStream r) = some req) :
    handedOver req = [.onMessageStream r] ↔ Carried headers (.onMessageStream r) := by
  obtain ⟨hmethod, hjson, hbody⟩ :
      req.method = .post ∧ jsonContentType req.headers = true ∧ req.body = text := by
    obtain ⟨text', htext', rfl⟩ := Option.map_eq_some_iff.mp hsend
    exact ⟨rfl, jsonContentType_json _, Option.some.inj (htext'.symm.trans htext)⟩
  have hroute : RestRoute.ofSegments RestRoute.messageStream.path = some .messageStream := by decide
  have hseg : IsSegment "message:stream".toList := ⟨by decide, by decide⟩
  rw [handedOver_send hbase hsend (iff_true_intro hroute) fun _ =>
    call?_messageStream hmethod hjson, hbody, hread]
  simp only [HandlerCall.route, RestRoute.path, Carried, List.forall_mem_cons, List.not_mem_nil,
    false_imp_iff, implies_true, hseg, true_and]

theorem createTaskPushConfig_carried_iff (hbase : trimEndSlashes base = o.text)
    {r : TaskPushNotificationConfig} {text : String} (htext : toText r = some text)
    (hread : ∀ r', fromText text = some r' ↔ r' = r ∧ (serialize r).depth ≤ recursionLimit)
    (hsend : (RestTransport.withConfig base headers).send (.onCreateTaskPushConfig r) = some req) :
    handedOver req = [.onCreateTaskPushConfig r] ↔ Carried headers (.onCreateTaskPushConfig r) := by
  obtain ⟨hmethod, hjson, hbody⟩ :
      req.method = .post ∧ jsonContentType req.headers = true ∧ req.body = text := by
    obtain ⟨text', htext', rfl⟩ := Option.map_eq_some_iff.mp hsend
    exact ⟨rfl, jsonContentType_json _, Option.some.inj (htext'.symm.trans htext)⟩
  have hsame : ∀ config, fromText req.body = some config → config = r := by
    intro config hconfig
    rw [hbody] at hconfig
    exact ((hread config).mp hconfig).1
  rw [handedOver_send hbase hsend
    ofSegments_pushNotificationConfigs fun _ => call?_createPushConfig hmethod hjson hsame, hbody,
    hread]
  simp only [HandlerCall.route, RestRoute.path, Carried, isCaptured_empty_iff, List.forall_mem_cons,
    List.not_mem_nil, false_imp_iff, implies_true, isSegment_tasks,
    isSegment_pushNotificationConfigs, true_and, and_true]
  constructor
  · rintro ⟨hseg, hne, id, htaskId, hescape, hdepth⟩
    rw [htaskId, Option.getD_some] at hseg hne
    exact ⟨id, htaskId, ⟨hne, hseg, hescape⟩, hdepth⟩
  · rintro ⟨id, htaskId, ⟨hne, hseg, hescape⟩, hdepth⟩
    rw [htaskId, Option.getD_some]
    exact ⟨hseg, hne, id, rfl, hescape, hdepth⟩

/-- **A REST operation hands its request over as it is** exactly when the request has
the tenant of the header, leaves out what is not sent, and has no separator and no escape
in what is written into the URL. -/
theorem rest_requests_carried_iff [LawfulBase64] (headers : HeaderMap)
    (hbase : trimEndSlashes base = o.text)
    (hbody : ∀ j ∈ call.body?, JsonText.Readable recursionLimit j) :
    ∃ req, (RestTransport.withConfig base headers).send call = some req ∧
      (handedOver req = [call] ↔ Carried headers call) := by
  cases call with
  | onMessageSend r =>
    obtain ⟨text, htext, hread⟩ := fromText_body (hbody _ rfl)
    obtain ⟨req, hsend⟩ := exists_postJson (RestTransport.withConfig base headers) _ htext
    exact ⟨req, hsend, sendMessage_carried_iff hbase htext hread hsend⟩
  | onMessageStream r =>
    obtain ⟨text, htext, hread⟩ := fromText_body (hbody _ rfl)
    obtain ⟨req, hsend⟩ := exists_postSseStream (RestTransport.withConfig base headers)
      "/message:stream".toList htext
    exact ⟨req, hsend, sendStreamingMessage_carried_iff hbase htext hread hsend⟩
  | onGetTask r => exact ⟨_, rfl, getTask_carried_iff hbase rfl⟩
  | onListTasks r => exact ⟨_, rfl, listTasks_carried_iff hbase rfl⟩
  | onCancelTask r =>
    obtain ⟨text, htext, -⟩ := fromText_body (hbody _ rfl)
    obtain ⟨req, hsend⟩ := exists_postJson (RestTransport.withConfig base headers) _ htext
    exact ⟨req, hsend, cancelTask_carried_iff hbase hsend⟩
  | onSubscribeToTask r => exact ⟨_, rfl, subscribeToTask_carried_iff hbase rfl⟩
  | onCreateTaskPushConfig r =>
    obtain ⟨text, htext, hread⟩ := fromText_body (hbody _ rfl)
    obtain ⟨req, hsend⟩ := exists_postJson (RestTransport.withConfig base headers) _ htext
    exact ⟨req, hsend, createTaskPushConfig_carried_iff hbase htext hread hsend⟩
  | onGetTaskPushConfig r => exact ⟨_, rfl, getTaskPushConfig_carried_iff hbase rfl⟩
  | onListTaskPushConfigs r => exact ⟨_, rfl, listTaskPushConfigs_carried_iff hbase rfl⟩
  | onDeleteTaskPushConfig r => exact ⟨_, rfl, deleteTaskPushConfig_carried_iff hbase rfl⟩
  | onGetExtendedAgentCard r => exact ⟨_, rfl, getExtendedAgentCard_carried_iff hbase rfl⟩

end Main

/-! ### A task identifier with a question mark -/

/-- Where a server runs. -/
def localOrigin : Origin where
  scheme := "http".toList
  authority := "localhost:8080".toList
  scheme_plain := by decide
  authority_plain := List.all_iff_forall_prop.mp (by decide)

/-- A configuration to create for a task whose name needs escaping, and its text. -/
def hookConfig : TaskPushNotificationConfig :=
  ⟨none, some "c1", some "tâche 1", "https://example.com/hook", none, none⟩

def hookTexts : List (Json × String) :=
  [(serialize hookConfig, braced ("\"id\":\"c1\",\"taskId\":\"tâche 1\"," ++
    "\"url\":\"https://example.com/hook\""))]

def acmeHeaders : HeaderMap := [("x-a2a-tenant", encode "acme".toList)]

/-- The name is the same on the other side, and so is the tenant of the header. -/
theorem rest_requests_carried_iff_escaped :
    letI := byteChars
    letI := tableText hookTexts
    (∃ req, (RestTransport.withConfig "http://localhost:8080/".toList acmeHeaders).send
        (.onGetTask ⟨some "acme", "tâche 1", some 5⟩) = some req ∧
      handedOver req = [.onGetTask ⟨some "acme", "tâche 1", some 5⟩]) ∧
    ∃ req, (RestTransport.withConfig "http://localhost:8080/".toList acmeHeaders).send
        (.onCreateTaskPushConfig hookConfig) = some req ∧
      handedOver req = [.onCreateTaskPushConfig hookConfig] := by
  let := byteChars
  have := lawful_byteChars
  let := tableText hookTexts
  have hbase : trimEndSlashes "http://localhost:8080/".toList = localOrigin.text := by decide
  have hid : IsCaptured "" "tâche 1" := ⟨by decide, ⟨by decide, by decide⟩, by decide⟩
  constructor
  · have hbody : ∀ j ∈ (HandlerCall.onGetTask ⟨some "acme", "tâche 1", some 5⟩).body?,
        JsonText.Readable recursionLimit j := by
      intro j hj
      cases hj
    obtain ⟨req, hsend, hiff⟩ := rest_requests_carried_iff acmeHeaders hbase hbody
    refine ⟨req, hsend, hiff.mpr ⟨?_, hid, by decide, by decide⟩⟩
    decide +kernel
  · have hbody : ∀ j ∈ (HandlerCall.onCreateTaskPushConfig hookConfig).body?,
        JsonText.Readable recursionLimit j := by
      intro j hj
      cases hj
      exact ⟨_, rfl, rfl⟩
    obtain ⟨req, hsend, hiff⟩ := rest_requests_carried_iff acmeHeaders hbase hbody
    exact ⟨req, hsend, hiff.mpr ⟨_, rfl, hid, by decide⟩⟩

/-- A question mark in the identifier of a task ends the path. -/
theorem questionMark_read_apart :
    letI := byteChars
    letI := tableText []
    let c := RestTransport.withConfig "http://localhost:8080/".toList []
    c.send (.onGetTask ⟨none, "t1?historyLength=5", none⟩) =
        some (c.getTask ⟨none, "t1?historyLength=5", none⟩) ∧
      handedOver (c.getTask ⟨none, "t1?historyLength=5", none⟩) =
        [.onGetTask ⟨none, "t1", some 5⟩] ∧
      handedOver (c.getTask ⟨none, "t1?historyLength=5", none⟩) ≠
        [.onGetTask ⟨none, "t1?historyLength=5", none⟩] := by
  let := byteChars
  let := tableText []
  have hbase : trimEndSlashes "http://localhost:8080/".toList = localOrigin.text := by decide
  have hsame : (RestTransport.withConfig "http://localhost:8080/".toList []).getTask
      ⟨none, "t1?historyLength=5", none⟩ =
      (RestTransport.withConfig "http://localhost:8080/".toList []).getTask
        ⟨none, "t1", some 5⟩ := by
    decide
  have hid : IsCaptured "" "t1" := ⟨by decide, ⟨by decide, by decide⟩, by decide⟩
  have hread : handedOver ((RestTransport.withConfig "http://localhost:8080/".toList []).getTask
      ⟨none, "t1", some 5⟩) = [.onGetTask ⟨none, "t1", some 5⟩] :=
    (getTask_carried_iff hbase rfl).mpr ⟨rfl, hid, by decide, by decide⟩
  refine ⟨rfl, by rw [hsame, hread], ?_⟩
  rw [hsame, hread]
  simp

end Ra2a
