import Ra2a.Server.Tenant

/-!
# Whose request it is

A native request that is read of a body has the tenant that the body names, as its
first field (`NamesTenant`).  Any other one has the tenant of the header, which is the
one in the path if this can be written in a header and read as a text again
(`tenantFromHeaders_injectTenantHeader`).
-/

namespace Ra2a

open Utf8 Url

/-! ### The tenant a request names -/

/-- What a request names as its tenant: all have this field first. -/
def Json.tenant? : Json → Option String
  | .object ms => (ms.lookup "tenant").bind asStr?
  | .array xs => xs.head?.bind asStr?
  | _ => none

/-- A request with a tenant, as it is read. -/
class NamesTenant (α : Type) [Serde α] where
  tenant : α → Option String
  tenant_deserialize : ∀ {j : Json} {a : α}, deserialize j = some a → tenant a = j.tenant?

section

variable {j : Json} {least : ℕ} {names : List String}

theorem readOption_eq_some {v : Option Json} {t : Option String} (h : readOption v = some t) :
    t = v.bind Json.asStr? := by
  unfold readOption at h
  split at h
  · cases h
    rfl
  · cases h
    rfl
  · rename_i v hv
    cases v <;> cases h
    rfl

theorem eq_tenant?_of_members {ms : List (String × Json)} {t : Option String}
    (hms : j.members least ("tenant" :: names) = some ms)
    (hread : readOption (ms.lookup "tenant") = some t) : t = j.tenant? := by
  rw [readOption_eq_some hread]
  cases j with
  | object ms' =>
    cases hms
    rfl
  | array xs =>
    obtain ⟨-, rfl⟩ : (_ ∧ _) ∧ ("tenant" :: names).zip xs = ms := by
      simpa only [Json.members, Option.ite_none_right_eq_some, Option.some.injEq] using hms
    cases xs <;> rfl
  | _ => cases hms

/-- A record whose first field is the tenant. -/
theorem tenant_of_bind {α : Type} {tenant : α → Option String}
    {rest : List (String × Json) → Option String → Option α}
    (hrest : ∀ ms t a, rest ms t = some a → tenant a = t) {a : α}
    (h : (do
      let ms ← j.members least ("tenant" :: names)
      let t ← readOption (ms.lookup "tenant")
      rest ms t) = some a) : tenant a = j.tenant? := by
  obtain ⟨ms, hms, h⟩ := Option.bind_eq_some_iff.mp h
  obtain ⟨t, ht, h⟩ := Option.bind_eq_some_iff.mp h
  rw [hrest ms t a h]
  exact eq_tenant?_of_members hms ht

end

instance [Base64] : NamesTenant SendMessageRequest where
  tenant := SendMessageRequest.tenant
  tenant_deserialize := tenant_of_bind fun ms t a h => by
    simp only [Option.bind_eq_bind, Option.bind_eq_some_iff] at h
    obtain ⟨_, -, _, -, _, -, ⟨⟩⟩ := h
    rfl

instance : NamesTenant GetTaskRequest where
  tenant := GetTaskRequest.tenant
  tenant_deserialize := tenant_of_bind fun ms t a h => by
    simp only [Option.bind_eq_bind, Option.bind_eq_some_iff] at h
    obtain ⟨_, -, _, -, ⟨⟩⟩ := h
    rfl

instance : NamesTenant ListTasksRequest where
  tenant := ListTasksRequest.tenant
  tenant_deserialize := tenant_of_bind fun ms t a h => by
    simp only [Option.bind_eq_bind, Option.bind_eq_some_iff] at h
    obtain ⟨_, -, _, -, _, -, _, -, _, -, _, -, _, -, ⟨⟩⟩ := h
    rfl

instance : NamesTenant CancelTaskRequest where
  tenant := CancelTaskRequest.tenant
  tenant_deserialize := tenant_of_bind fun ms t a h => by
    simp only [Option.bind_eq_bind, Option.bind_eq_some_iff] at h
    obtain ⟨_, -, _, -, ⟨⟩⟩ := h
    rfl

instance : NamesTenant SubscribeToTaskRequest where
  tenant := SubscribeToTaskRequest.tenant
  tenant_deserialize := tenant_of_bind fun ms t a h => by
    simp only [Option.bind_eq_bind, Option.bind_eq_some_iff] at h
    obtain ⟨_, -, ⟨⟩⟩ := h
    rfl

instance : NamesTenant TaskPushNotificationConfig where
  tenant := TaskPushNotificationConfig.tenant
  tenant_deserialize := tenant_of_bind fun ms t a h => by
    simp only [Option.bind_eq_bind, Option.bind_eq_some_iff] at h
    obtain ⟨_, -, _, -, _, -, _, -, _, -, ⟨⟩⟩ := h
    rfl

instance : NamesTenant GetTaskPushNotificationConfigRequest where
  tenant := GetTaskPushNotificationConfigRequest.tenant
  tenant_deserialize := tenant_of_bind fun ms t a h => by
    simp only [Option.bind_eq_bind, Option.bind_eq_some_iff] at h
    obtain ⟨_, -, _, -, ⟨⟩⟩ := h
    rfl

instance : NamesTenant DeleteTaskPushNotificationConfigRequest where
  tenant := DeleteTaskPushNotificationConfigRequest.tenant
  tenant_deserialize := tenant_of_bind fun ms t a h => by
    simp only [Option.bind_eq_bind, Option.bind_eq_some_iff] at h
    obtain ⟨_, -, _, -, ⟨⟩⟩ := h
    rfl

instance : NamesTenant ListTaskPushNotificationConfigsRequest where
  tenant := ListTaskPushNotificationConfigsRequest.tenant
  tenant_deserialize := tenant_of_bind fun ms t a h => by
    simp only [Option.bind_eq_bind, Option.bind_eq_some_iff] at h
    obtain ⟨_, -, _, -, _, -, ⟨⟩⟩ := h
    rfl

instance : NamesTenant GetExtendedAgentCardRequest where
  tenant := GetExtendedAgentCardRequest.tenant
  tenant_deserialize := tenant_of_bind fun ms t a h => by
    cases h
    rfl

/-! ### The tenant in a header -/

/-- A text that can be read of a header: of ASCII, blanks and tabs. -/
def Printable (T : List Char) : Prop := ∀ b ∈ encode T, b = 9 ∨ 32 ≤ b ∧ b < 127

theorem headerStr_eq_some_iff {value : List UInt8} {T : List Char} :
    headerStr value = some (String.ofList T) ↔ value = encode T ∧ Printable T := by
  have hall : (value.all fun b => decide (b = 9 ∨ 32 ≤ b ∧ b < 127)) = true ↔
      ∀ b ∈ value, b = 9 ∨ 32 ≤ b ∧ b < 127 := by
    simp only [List.all_eq_true, decide_eq_true_eq]
  rw [headerStr, Option.ite_none_right_eq_some, hall, Option.map_eq_some_iff]
  constructor
  · rintro ⟨hvisible, cs, hcs, heq⟩
    obtain rfl : cs = T := String.ofList_injective heq
    obtain rfl := encode_of_fromUtf8 hcs
    exact ⟨rfl, hvisible⟩
  · rintro ⟨rfl, hvisible⟩
    exact ⟨hvisible, T, fromUtf8_encode T, rfl⟩

theorem headerFromStr_of_printable {T : List Char} (h : Printable T) :
    headerFromStr T = some (encode T) := by
  have hall : ((encode T).all fun b => decide (b = 9 ∨ 32 ≤ b ∧ b ≠ 127)) = true := by
    rw [List.all_eq_true]
    intro b hb
    rw [decide_eq_true_eq]
    rcases h b hb with htab | ⟨hle, hlt⟩
    · exact Or.inl htab
    · refine Or.inr ⟨hle, ?_⟩
      rintro rfl
      exact absurd hlt (by decide)
  rw [headerFromStr, if_pos hall]

/-- **The header has the tenant of the path exactly if this is printable**, whatever the
request came with. -/
theorem tenantFromHeaders_injectTenantHeader {T : List Char} (hne : T ≠ [])
    (headers : HeaderMap) :
    tenantFromHeaders (injectTenantHeader T headers) = some (String.ofList T) ↔ Printable T := by
  have hnonempty : String.ofList T ≠ "" := by
    rw [← String.ofList_nil]
    exact fun h => hne (String.ofList_injective h)
  constructor
  · intro h
    obtain ⟨hread, -⟩ := Option.filter_eq_some_iff.mp h
    obtain ⟨value, -, hvalue⟩ := Option.bind_eq_some_iff.mp hread
    exact (headerStr_eq_some_iff.mp hvalue).2
  · intro h
    have hlookup : (injectTenantHeader T headers).lookup "x-a2a-tenant" = some (encode T) := by
      rw [injectTenantHeader, headerFromStr_of_printable h]
      exact List.lookup_cons_self
    rw [tenantFromHeaders, hlookup, Option.bind_some, headerStr_eq_some_iff.mpr ⟨rfl, h⟩]
    simp [hnonempty]

/-! ### The tenant of a call -/

/-- The tenant of the request that is handed over. -/
def HandlerCall.tenant : HandlerCall → Option String
  | .onMessageSend req | .onMessageStream req => req.tenant
  | .onGetTask req => req.tenant
  | .onListTasks req => req.tenant
  | .onCancelTask req => req.tenant
  | .onSubscribeToTask req => req.tenant
  | .onCreateTaskPushConfig req => req.tenant
  | .onGetTaskPushConfig req => req.tenant
  | .onListTaskPushConfigs req => req.tenant
  | .onDeleteTaskPushConfig req => req.tenant
  | .onGetExtendedAgentCard req => req.tenant

section

variable [JsonText] [Base64]

/-- The JSON that a native request is read of, if it is read of a body. -/
def Endpoint.source? (req : HttpRequest) : Endpoint → Option Json
  | .jsonrpc | .sse => (fromText req.body : Option JsonRpcRequest).bind JsonRpcRequest.params
  | .rest .messageSend | .rest .messageStream => JsonText.parse req.body
  | .rest (.pushNotificationConfigs _) =>
    match req.method with
    | .post => JsonText.parse req.body
    | _ => none
  | .rest _ => none

variable {req : HttpRequest} {call : HandlerCall}

/-- A call whose request is read of this JSON. -/
def ReadOf (call : HandlerCall) (source : Option Json) : Prop :=
  ∃ j, source = some j ∧ call.tenant = j.tenant?

omit [JsonText] [Base64] in
theorem readOf_of_deserialize {α : Type} [Serde α] [NamesTenant α] {source : Option Json} {a : α}
    (hread : source.bind deserialize = some a) (hcall : call.tenant = NamesTenant.tenant a) :
    ReadOf call source := by
  obtain ⟨j, hj, hdes⟩ := Option.bind_eq_some_iff.mp hread
  exact ⟨j, hj, hcall.trans (NamesTenant.tenant_deserialize hdes)⟩

omit [JsonText] [Base64] in
theorem readOf_callWith {α : Type} [Serde α] [NamesTenant α] {request : JsonRpcRequest}
    {f : α → HandlerCall} (hf : ∀ a, (f a).tenant = NamesTenant.tenant a)
    (h : request.callWith f = some call) : ReadOf call request.params := by
  obtain ⟨a, ha, rfl⟩ := Option.map_eq_some_iff.mp h
  exact readOf_of_deserialize ha (hf a)

omit [JsonText] in
theorem readOf_unaryCall? {request : JsonRpcRequest} (h : request.unaryCall? = some call) :
    ReadOf call request.params := by
  unfold JsonRpcRequest.unaryCall? at h
  split at h <;> first | exact readOf_callWith (fun _ => rfl) h | cases h

omit [JsonText] in
theorem readOf_streamingCall? {request : JsonRpcRequest}
    (h : request.streamingCall? = some call) : ReadOf call request.params := by
  unfold JsonRpcRequest.streamingCall? at h
  split at h <;> first | exact readOf_callWith (fun _ => rfl) h | cases h

/-- A call has the tenant of the body it is read of, or of the header. -/
def OfBodyOrHeader (call : HandlerCall) (headers : HeaderMap) (source : Option Json) : Prop :=
  call.tenant = source.elim (tenantFromHeaders headers) Json.tenant?

omit [JsonText] [Base64] in
theorem ReadOf.ofBodyOrHeader {source : Option Json} {headers : HeaderMap}
    (h : ReadOf call source) : OfBodyOrHeader call headers source := by
  obtain ⟨j, rfl, hj⟩ := h
  exact hj

theorem RestRoute.ofBodyOrHeader {r : RestRoute} (h : r.call? req = some call) :
    OfBodyOrHeader call req.headers ((Endpoint.rest r).source? req) := by
  rcases req with ⟨_ | _ | _, url, headers, body⟩
  · cases r with
    | task id =>
      obtain ⟨path, -, h⟩ := Option.bind_eq_some_iff.mp h
      obtain ⟨query, -, h⟩ := Option.bind_eq_some_iff.mp h
      cases h
      rfl
    | tasks | subscribe id | pushNotificationConfigs id | pushNotificationConfig id configId =>
      obtain ⟨path, -, h⟩ := Option.bind_eq_some_iff.mp h
      cases h
      rfl
    | extendedAgentCard =>
      cases h
      rfl
    | _ => cases h
  · cases r with
    | messageSend | messageStream =>
      obtain ⟨params, hread, h⟩ := Option.bind_eq_some_iff.mp h
      cases h
      exact (readOf_of_deserialize (HttpRequest.json?_eq_some_iff.mp hread).2 rfl).ofBodyOrHeader
    | cancel id =>
      obtain ⟨path, -, h⟩ := Option.bind_eq_some_iff.mp h
      cases h
      rfl
    | pushNotificationConfigs id =>
      obtain ⟨path, -, h⟩ := Option.bind_eq_some_iff.mp h
      obtain ⟨config, hread, h⟩ := Option.bind_eq_some_iff.mp h
      cases h
      exact (readOf_of_deserialize (HttpRequest.json?_eq_some_iff.mp hread).2 rfl).ofBodyOrHeader
    | _ => cases h
  · cases r with
    | pushNotificationConfig id configId =>
      obtain ⟨path, -, h⟩ := Option.bind_eq_some_iff.mp h
      cases h
      rfl
    | _ => cases h

theorem Endpoint.call?_messageSend {params : SendMessageRequest} (hmethod : req.method = .post)
    (hjson : jsonContentType req.headers = true) (hread : fromText req.body = some params) :
    (Endpoint.rest .messageSend).call? req = some (.onMessageSend params) := by
  rw [Endpoint.call?, RestRoute.call?, hmethod]
  simp only [HttpRequest.json?_eq_some_iff.mpr ⟨hjson, hread⟩]
  rfl

/-- **Where the tenant of a native request comes from.** -/
theorem Endpoint.ofBodyOrHeader {endpoint : Endpoint} (h : endpoint.call? req = some call) :
    OfBodyOrHeader call req.headers (endpoint.source? req) := by
  cases endpoint with
  | rest r => exact r.ofBodyOrHeader h
  | jsonrpc =>
    rcases req with ⟨_ | _ | _, url, headers, body⟩
    · cases h
    · obtain ⟨request, hrequest, h⟩ := Option.bind_eq_some_iff.mp h
      rw [Endpoint.source?, hrequest]
      exact (readOf_unaryCall? h).ofBodyOrHeader
    · cases h
  | sse =>
    rcases req with ⟨_ | _ | _, url, headers, body⟩
    · cases h
    · obtain ⟨request, hrequest, h⟩ := Option.bind_eq_some_iff.mp h
      rw [Endpoint.source?, hrequest]
      exact (readOf_streamingCall? h).ofBodyOrHeader
    · cases h

end

/-! ### Whom a call serves -/

/-- An interceptor that leaves the tenant of a context alone. -/
def RequestContextInterceptor.KeepsTenant (i : RequestContextInterceptor) : Prop :=
  ∀ store ctx ctx', i store ctx = .ok ctx' → ctx'.tenant = ctx.tenant

/-- The native request is one of `T`, and so is the context that the executor gets of a
message, if the interceptors leave its tenant alone. -/
structure HandlerCall.Serves (call : HandlerCall) (T : String) : Prop where
  tenant : call.tenant = some T
  executed : ∀ (h : DefaultRequestHandler) (params : SendMessageRequest)
    (serviceParams : Finmap fun _ : String => List String) (tick : Tick) (ctx : RequestContext),
    call = .onMessageSend params ∨ call = .onMessageStream params →
    (∀ i ∈ h.reqContextInterceptors, i.KeepsTenant) →
    h.executed params serviceParams tick = some ctx → ctx.tenant = some T

/-- The executor gets the tenant of the native request. -/
theorem DefaultRequestHandler.tenant_executed {h : DefaultRequestHandler}
    {params : SendMessageRequest} {serviceParams : Finmap fun _ : String => List String}
    {tick : Tick} {ctx : RequestContext}
    (hkeep : ∀ i ∈ h.reqContextInterceptors, i.KeepsTenant)
    (hexec : h.executed params serviceParams tick = some ctx) : ctx.tenant = params.tenant := by
  obtain ⟨resolved, hres, hint, -⟩ := executed_eq_some hexec
  obtain ⟨taskId, contextId, storedTask, rfl⟩ := resolveContext_eq_ok hres
  exact intercept_keeps RequestContext.tenant hkeep hint

theorem HandlerCall.serves_iff {call : HandlerCall} {T : String} :
    call.Serves T ↔ call.tenant = some T := by
  refine ⟨Serves.tenant, fun htenant => ⟨htenant, ?_⟩⟩
  intro h params serviceParams tick ctx hcall hkeep hexec
  rw [DefaultRequestHandler.tenant_executed hkeep hexec, ← htenant]
  rcases hcall with rfl | rfl <;> rfl

section

variable [JsonText] [∀ α, DecodeError α] [Base64] {req : HttpRequest} {tenant T : List Char}
  {endpoint : Endpoint} {call : HandlerCall}

theorem tenantHandedOver_eq (hroute : req.tenantRoute? = some (.nested tenant endpoint)) :
    tenantHandedOver req = (req.tenantCall? tenant endpoint).toList := by
  obtain ⟨requestMeta, hmakes⟩ := a2aTenantRouter_makes
    (fun _ => ⟨recorder, throw .extendedCardNotConfigured⟩) "" [] hroute
  rw [tenantHandedOver, hmakes]
  cases req.tenantCall? tenant endpoint with
  | none => rfl
  | some call => cases call <;> rfl

omit [JsonText] [∀ α, DecodeError α] [Base64] in
theorem TenantRoute.tenant_ne_nil {segs : List (List Char)}
    (h : ofSegments segs = some (.nested tenant endpoint)) : tenant ≠ [] := by
  unfold ofSegments at h
  split at h
  · cases h
  · split at h
    · cases h
    · split at h
      · cases h
      · split at h
        · cases h
        · obtain ⟨e, -, heq⟩ := Option.map_eq_some_iff.mp h
          cases heq
          assumption

/-- **A request below the name of a tenant serves this tenant exactly if** the body it is
read of names it, or if it is read of no body and the name is printable. -/
theorem tenantHandedOver_serves_iff (hroute : req.tenantRoute? = some (.nested tenant endpoint))
    (hT : decodeSegment tenant = some T) (hcall : tenantHandedOver req = [call]) :
    call.Serves (String.ofList T) ↔
      (endpoint.source? req).elim (Printable T) fun j => j.tenant? = some (String.ofList T) := by
  have hne : T ≠ [] := decodeSegment_ne_nil hT (TenantRoute.tenant_ne_nil hroute)
  rw [tenantHandedOver_eq hroute, Option.toList_eq_singleton_iff, HttpRequest.tenantCall?,
    Option.bind_eq_some_iff] at hcall
  obtain ⟨t, ht, hcall⟩ := hcall
  obtain rfl : t = T := by
    rw [decodedTenant, Option.ite_none_right_eq_some, hT] at ht
    exact (Option.some.inj ht.2).symm
  have hof : OfBodyOrHeader call (injectTenantHeader t req.headers) (endpoint.source? req) := by
    have hof := endpoint.ofBodyOrHeader hcall
    cases endpoint <;> exact hof
  rw [HandlerCall.serves_iff, hof]
  cases endpoint.source? req with
  | none => exact tenantFromHeaders_injectTenantHeader hne req.headers
  | some j => exact Iff.rfl

end

/-! ### A request below the name of `acme` -/

/-- A message that is said to be from somebody else, and the text of its request. -/
def mallorySends : SendMessageRequest :=
  ⟨some "mallory", .new "m1" .user [.text "hello"], none, none⟩

def malloryText : String :=
  braced ("\"message\":" ++ braced ("\"messageId\":\"m1\",\"parts\":[" ++
    braced "\"text\":\"hello\"" ++ "],\"role\":\"ROLE_USER\"") ++ ",\"tenant\":\"mallory\"")

/-- `POST /acme/message:send`. -/
def acmePost : HttpRequest where
  method := .post
  url := "http://localhost:8080/acme/message:send".toList
  headers := [("content-type", encode "application/json".toList)]
  body := malloryText

/-- `GET /acme/extendedAgentCard`, with another tenant in its header. -/
def acmeGet : HttpRequest where
  method := .get
  url := "http://localhost:8080/acme/extendedAgentCard".toList
  headers := [("x-a2a-tenant", encode "mallory".toList)]
  body := ""

theorem decodeSegment_acme : decodeSegment "acme".toList = some "acme".toList :=
  decodeSegment_of_not_hasEscape (by decide)

/-- The message of somebody else is handed over as theirs. -/
theorem mallory_served_below_acme :
    letI := byteChars
    letI := tableText [(serialize mallorySends, malloryText)]
    letI : ∀ α, DecodeError α := fun _ => ⟨fun _ => "invalid"⟩
    acmePost.tenantRoute? = some (.nested "acme".toList (.rest .messageSend)) ∧
      tenantHandedOver acmePost = [.onMessageSend mallorySends] ∧
      ¬ (HandlerCall.onMessageSend mallorySends).Serves "acme" := by
  let := byteChars
  have := lawful_byteChars
  let := tableText [(serialize mallorySends, malloryText)]
  let : ∀ α, DecodeError α := fun _ => ⟨fun _ => "invalid"⟩
  have hroute : acmePost.tenantRoute? = some (.nested "acme".toList (.rest .messageSend)) := by
    decide
  have hdecoded : decodedTenant "acme".toList (.rest .messageSend) = some "acme".toList :=
    decodeSegment_acme
  have hnodup : ([(serialize mallorySends, malloryText)].map (·.2)).Nodup :=
    List.nodup_singleton _
  have hdepth : (serialize mallorySends).depth ≤ recursionLimit := by decide
  have hparse : JsonText.parse malloryText = some (serialize mallorySends) :=
    (parse_tableText hnodup List.mem_cons_self).trans (if_pos hdepth)
  have hbody : (fromText malloryText : Option SendMessageRequest) = some mallorySends := by
    rw [fromText, hparse, Option.bind_some, LawfulSerde.deserialize_serialize]
  have hjson : jsonContentType (injectTenantHeader "acme".toList acmePost.headers) = true := by
    decide +kernel
  refine ⟨hroute, ?_, ?_⟩
  · have hcall : (Endpoint.rest .messageSend).call?
        { acmePost with headers := injectTenantHeader "acme".toList acmePost.headers } =
        some (.onMessageSend mallorySends) := Endpoint.call?_messageSend rfl hjson hbody
    rw [tenantHandedOver_eq hroute, HttpRequest.tenantCall?, hdecoded, Option.bind_some, hcall]
    rfl
  · rw [HandlerCall.serves_iff]
    decide

theorem tenantHandedOver_serves_iff_acme :
    letI := byteChars
    letI := tableText []
    letI : ∀ α, DecodeError α := fun _ => ⟨fun _ => "invalid"⟩
    ∃ call, tenantHandedOver acmeGet = [call] ∧ call.Serves "acme" := by
  let := byteChars
  let := tableText []
  let : ∀ α, DecodeError α := fun _ => ⟨fun _ => "invalid"⟩
  have hroute : acmeGet.tenantRoute? = some (.nested "acme".toList (.rest .extendedAgentCard)) := by
    decide
  have hdecoded : decodedTenant "acme".toList (.rest .extendedAgentCard) = some "acme".toList :=
    decodeSegment_acme
  have hcall : tenantHandedOver acmeGet = [.onGetExtendedAgentCard ⟨tenantFromHeaders
      (injectTenantHeader "acme".toList acmeGet.headers)⟩] := by
    rw [tenantHandedOver_eq hroute, HttpRequest.tenantCall?, hdecoded]
    rfl
  have hprintable : Printable "acme".toList := List.all_iff_forall_prop.mp (by decide)
  exact ⟨_, hcall, (tenantHandedOver_serves_iff hroute decodeSegment_acme hcall).mpr hprintable⟩

end Ra2a
