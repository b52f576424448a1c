import Ra2a.Client.ServiceParams
import Ra2a.Ext.Activator
import Ra2a.Lib.Hops
import Ra2a.Server.Tenancy

/-!
# Extensions along a chain of agents

Each agent of a chain serves a request and, inside `init_propagation`, sends one to the
next.  The hook of its server copies what the request asks for, and the hooks of its
client, activators and propagators in any order, make the parameters of the request it
sends.  Headers arrive as they are sent.

A URI is in the header of the last request exactly if it was in that of the first one or
an activator on the way has offered it, and each agent from there on has handed it on
(`chain_extensions`).  Only an agent that sends over JSON-RPC does.
-/

namespace Ra2a

open Interceptor SortedMap Utf8

/-- The name of the extensions header of a request. -/
def extensionsHeader : String := "a2a-extensions"

/-- The headers a transport sends with each request. -/
def ClientTransport.defaults : ClientTransport → HeaderMap
  | jsonRpc _ defaults => defaults
  | rest c => c.headers
  | grpc => []

/-- An agent on the way: how it is asked for something, and what it then asks the next
one for. -/
structure ChainedAgent where
  tenant : Option String
  method : String
  served : Middleware.Request
  server : ServerPropagator
  hooks : List ExtensionHook
  card : Option AgentCard
  transport : ClientTransport
  net : Transport PropagatorCell
  op : ClientOperation
  sendsOp : op ≠ .getAgentCard
  plain : ∀ e ∈ transport.defaults, lowerCase e.1 = e.1 ∧ e.1 ≠ extensionsHeader

namespace ChainedAgent

variable (a : ChainedAgent)

/-- The metadata of a request with these headers, by the route it is served at. -/
def requestMeta (hs : HeaderMap) : RequestMeta :=
  match a.tenant with
  | none => .fromHeaderMap hs
  | some t => (RequestMeta.fromHeaderMap hs).set "x-a2a-tenant" t

def context (hs : HeaderMap) : CallContext := .new a.method (a.requestMeta hs)

/-- What the hook of the server copies. -/
def copied (hs : HeaderMap) : PropagatorContext := a.server.extract (a.context hs) a.served

section

variable [JsonText] [Base64]

/-- The headers of what the agent sends while it serves a request with the headers `hs`. -/
def sends (hs : HeaderMap) : List HeaderMap :=
  let cell := (a.server.interceptor.before (a.context hs) a.served (some none)).2
  (hookedClient a.net a.card a.hooks).sent a.transport a.op cell

end

/-- The agent hands a URI on. -/
def handsOn : Set String :=
  {u | (∃ id defaults, a.transport = .jsonRpc id defaults) ∧
    a.server.headerPredicate extensionsHeader ∧
    ∃ c, .propagator c ∈ a.hooks ∧ c.headerPredicate a.card extensionsHeader u}

/-- The agent asks for an extension of its own. -/
def offers : Set String :=
  {u | (∃ id defaults, a.transport = .jsonRpc id defaults) ∧ Printable u.toList ∧
    Activates a.card a.hooks u}

variable {a : ChainedAgent} {hs hs' : HeaderMap} {u : String}

theorem ofRequest : (a.context hs).requestMeta.OfRequest hs := by
  change (a.requestMeta hs).OfRequest hs
  rw [requestMeta]
  cases a.tenant with
  | none => exact .base
  | some t => exact .tenant t

/-- What a request with these headers asks for. -/
theorem requested_eq : (a.context hs).requestedExtensionUris = hs.texts extensionsHeader :=
  ServerPropagator.requestedExtensionUris_eq ofRequest

/-! ### Values of a header -/

theorem mem_texts_iff {name : String} :
    u ∈ hs.texts name ↔ ∃ value, (name, value) ∈ hs ∧ headerStr value = some u := by
  rw [HeaderMap.texts, List.mem_filterMap]
  constructor
  · rintro ⟨⟨k, value⟩, hmem, hif⟩
    obtain ⟨hk, hvalue⟩ := Option.ite_none_right_eq_some.mp hif
    obtain rfl : k = name := hk
    exact ⟨value, hmem, hvalue⟩
  · rintro ⟨value, hmem, hvalue⟩
    exact ⟨(name, value), hmem, by rw [if_pos rfl, hvalue]⟩

/-- What can be read of a header is printable. -/
theorem printable_of_mem_texts {name : String} (h : u ∈ hs.texts name) : Printable u.toList := by
  obtain ⟨value, -, hvalue⟩ := mem_texts_iff.mp h
  rw [← String.ofList_toList (s := u)] at hvalue
  exact (headerStr_eq_some_iff.mp hvalue).2

/-- A value that is sent is read as it is, if it is printable. -/
theorem headerStr_encode_iff {v : String} :
    headerStr (encode v.toList) = some u ↔ v = u ∧ Printable u.toList := by
  rw [← String.ofList_toList (s := u), headerStr_eq_some_iff, String.toList_ofList]
  constructor
  · rintro ⟨henc, hprint⟩
    refine ⟨?_, hprint⟩
    have hread := congrArg fromUtf8 henc
    rw [fromUtf8_encode, fromUtf8_encode, Option.some.injEq] at hread
    rw [← hread, String.ofList_toList]
  · rintro ⟨rfl, hprint⟩
    exact ⟨by rw [String.toList_ofList], hprint⟩

/-! ### What is sent -/

theorem toLower_toLower (c : Char) : c.toLower.toLower = c.toLower := by
  unfold Char.toLower
  grind

theorem lowerCase_lowerCase (s : String) : lowerCase (lowerCase s) = lowerCase s := by
  rw [lowerCase, lowerCase, String.toList_ofList, List.map_map]
  congr 2
  funext c
  exact toLower_toLower c

/-- The headers of the parameters, one for each pair. -/
theorem mem_of_mapM_header {pairs : List (String × String)} {ps : HeaderMap}
    (h : pairs.mapM header = some ps) {name : String} {value : List UInt8} :
    (name, value) ∈ ps ↔ ∃ e ∈ pairs, lowerCase e.1 = name ∧ encode e.2.toList = value := by
  induction pairs generalizing ps with
  | nil =>
    cases h
    simp
  | cons e pairs ih =>
    rw [List.mapM_cons] at h
    obtain ⟨p, hp, h⟩ := Option.bind_eq_some_iff.mp h
    obtain ⟨ps', hps, h⟩ := Option.bind_eq_some_iff.mp h
    cases h
    obtain rfl := Client.eq_of_header hp
    rw [List.mem_cons, ih hps, List.exists_mem_cons_iff, Prod.mk.injEq, eq_comm (a := name),
      eq_comm (a := value)]

/-- The operation the hooks prepare, and the parameters they leave. -/
theorem prepared_hookedClient (net : Transport PropagatorCell) (card : Option AgentCard)
    (hooks : List ExtensionHook) {op : ClientOperation} (hop : op ≠ .getAgentCard)
    (propCtx : PropagatorContext) :
    ∃ op' req, req.serviceParams = .empty ∧ req.card = card ∧ op' ≠ .getAgentCard ∧
      (hookedClient net card hooks).prepared op (some (some propCtx)) =
        (.ok (op', (applyHooks propCtx hooks req).serviceParams), some (some propCtx)) := by
  have hbefore : ∀ (method : String) (P : PayloadType) (payload : P.Carrier),
      ∃ p req, req.serviceParams = .empty ∧ req.card = card ∧
        (hookedClient net card hooks).interceptBefore method P payload (some (some propCtx)) =
          (.ok (p, (applyHooks propCtx hooks req).serviceParams), some (some propCtx)) := by
    intro method P payload
    obtain ⟨p, hp⟩ := interceptBefore_hookedClient net card hooks propCtx method P payload
    exact ⟨p, ⟨method, card, .empty, ⟨P, payload⟩⟩, rfl, rfl, hp⟩
  cases op with
  | sendMessage req =>
    obtain ⟨p, req', hempty, hcard, hp⟩ := hbefore "SendMessage" .sendMessageRequest req
    refine ⟨.sendMessage p, req', hempty, hcard, by simp, ?_⟩
    rw [Client.prepared, Chain.bind_of_ok hp]
    rfl
  | sendStreamingMessage req =>
    obtain ⟨p, req', hempty, hcard, hp⟩ := hbefore "SendStreamingMessage" .sendMessageRequest req
    refine ⟨Client.streamed card p, req', hempty, hcard, ?_, ?_⟩
    · rw [Client.streamed]
      split <;> simp
    · have hcached : (hookedClient net card hooks).cached (some (some propCtx)) =
          (.ok card, some (some propCtx)) := rfl
      rw [Client.prepared, Chain.bind_of_ok hp, Chain.bind_of_ok hcached, Client.streamed]
      split <;> rfl
  | getTask req =>
    obtain ⟨p, req', hempty, hcard, hp⟩ := hbefore "GetTask" .getTaskRequest req
    refine ⟨.getTask p, req', hempty, hcard, by simp, ?_⟩
    rw [Client.prepared, Chain.bind_of_ok hp]
    rfl
  | listTasks req =>
    obtain ⟨p, req', hempty, hcard, hp⟩ := hbefore "ListTasks" .listTasksRequest req
    refine ⟨.listTasks p, req', hempty, hcard, by simp, ?_⟩
    rw [Client.prepared, Chain.bind_of_ok hp]
    rfl
  | cancelTask req =>
    obtain ⟨p, req', hempty, hcard, hp⟩ := hbefore "CancelTask" .cancelTaskRequest req
    refine ⟨.cancelTask p, req', hempty, hcard, by simp, ?_⟩
    rw [Client.prepared, Chain.bind_of_ok hp]
    rfl
  | subscribeToTask req =>
    obtain ⟨p, req', hempty, hcard, hp⟩ := hbefore "SubscribeToTask" .subscribeToTaskRequest req
    refine ⟨.subscribeToTask p, req', hempty, hcard, by simp, ?_⟩
    rw [Client.prepared, Chain.bind_of_ok hp]
    rfl
  | getAgentCard => exact absurd rfl hop

/-- The names of the headers that a REST client sends. -/
theorem mem_withHeaders {c : RestTransport} {own : List (String × String)}
    {e : String × List UInt8} (h : e ∈ c.withHeaders own) :
    e.1 ∈ own.map Prod.fst ∨ e ∈ c.headers := by
  rw [RestTransport.withHeaders, withDefaults, List.mem_append, List.mem_filter] at h
  rcases h with h | h
  · obtain ⟨d, hd, rfl⟩ := List.mem_map.mp h
    exact Or.inl (List.mem_map_of_mem hd)
  · exact Or.inr (mem_of_mem_firstValues h.1)

theorem exists_of_builtHeaders {req : Option HttpRequest} (h : builtHeaders req = .ok hs') :
    ∃ req', req = some req' ∧ req'.headers = hs' := by
  cases req with
  | none => cases h
  | some req' =>
    cases h
    exact ⟨req', rfl, rfl⟩

/-- **What a request over JSON-RPC asks for**: what its parameters have under the name, in
any spelling. -/
theorem mem_texts_rpcHeaders [JsonText] {P : Type} [Serde P] {defaults accept : HeaderMap}
    {id : RequestId} {method : String} {sp : ServiceParams} {params : P}
    (hdefaults : ∀ e ∈ defaults, e.1 ≠ extensionsHeader) (haccept : ∀ e ∈ accept, e.1 = "accept")
    (h : rpcHeaders defaults accept id method sp params = .ok hs') :
    u ∈ hs'.texts extensionsHeader ↔
      Printable u.toList ∧ ∃ k, lowerCase k = extensionsHeader ∧ (k, u) ∈ sp.pairs := by
  rw [rpcHeaders] at h
  split at h
  · rename_i text own _ hown
    cases h
    obtain ⟨ps, hps, rfl⟩ := Option.map_eq_some_iff.mp hown
    have hmem : ∀ value, (extensionsHeader, value) ∈ withDefaults defaults
        ((("content-type", encode "application/json".toList) :: accept) ++ ps) ↔
        (extensionsHeader, value) ∈ ps := by
      intro value
      rw [withDefaults, List.mem_append, List.mem_append, List.mem_cons, List.mem_filter]
      constructor
      · rintro (((heq | hin) | hin) | ⟨hin, -⟩)
        · have hname : extensionsHeader = "content-type" := congrArg Prod.fst heq
          exact absurd hname (by decide)
        · have hname : extensionsHeader = "accept" := haccept _ hin
          exact absurd hname (by decide)
        · exact hin
        · exact absurd rfl (hdefaults _ (mem_of_mem_firstValues hin))
      · exact fun hin => Or.inl (Or.inr hin)
    rw [mem_texts_iff]
    constructor
    · rintro ⟨value, hin, hvalue⟩
      obtain ⟨⟨k, v⟩, he, hk, rfl⟩ := (mem_of_mapM_header hps).mp ((hmem value).mp hin)
      obtain ⟨rfl, hprint⟩ := headerStr_encode_iff.mp hvalue
      exact ⟨hprint, k, hk, he⟩
    · rintro ⟨hprint, k, hk, he⟩
      refine ⟨encode u.toList, (hmem _).mpr ((mem_of_mapM_header hps).mpr ⟨_, he, hk, rfl⟩), ?_⟩
      exact headerStr_encode_iff.mpr ⟨rfl, hprint⟩
  · cases h

theorem lowerCase_rpcHeaders [JsonText] {P : Type} [Serde P] {defaults accept : HeaderMap}
    {id : RequestId} {method : String} {sp : ServiceParams} {params : P}
    (hdefaults : ∀ e ∈ defaults, lowerCase e.1 = e.1) (haccept : ∀ e ∈ accept, e.1 = "accept")
    (h : rpcHeaders defaults accept id method sp params = .ok hs') :
    ∀ e ∈ hs', lowerCase e.1 = e.1 := by
  rw [rpcHeaders] at h
  split at h
  · rename_i text own _ hown
    cases h
    obtain ⟨ps, hps, rfl⟩ := Option.map_eq_some_iff.mp hown
    rintro ⟨name, value⟩ he
    rw [withDefaults, List.mem_append, List.mem_append, List.mem_cons, List.mem_filter] at he
    rcases he with ((heq | hin) | hin) | ⟨hin, -⟩
    · obtain rfl : name = "content-type" := congrArg Prod.fst heq
      change lowerCase "content-type" = "content-type"
      decide
    · obtain rfl : name = "accept" := haccept _ hin
      change lowerCase "accept" = "accept"
      decide
    · obtain ⟨d, -, rfl, -⟩ := (mem_of_mapM_header hps).mp hin
      exact lowerCase_lowerCase d.1
    · exact hdefaults _ (mem_of_mem_firstValues hin)
  · cases h

section

variable [JsonText] [Base64]

theorem sends_eq : a.sends hs =
    (hookedClient a.net a.card a.hooks).sent a.transport a.op (some (some (a.copied hs))) := rfl

/-- What an agent sends is what its transport sends, with the parameters of its hooks. -/
theorem exists_of_mem_sends (h : hs' ∈ a.sends hs) :
    ∃ op req, req.serviceParams = .empty ∧ req.card = a.card ∧ op ≠ .getAgentCard ∧
      a.transport.headers (applyHooks (a.copied hs) a.hooks req).serviceParams op = .ok hs' := by
  obtain ⟨op, req, hempty, hcard, hop, hprep⟩ :=
    prepared_hookedClient a.net a.card a.hooks a.sendsOp (a.copied hs)
  rw [sends_eq, Client.sent_eq a.transport a.sendsOp, hprep] at h
  exact ⟨op, req, hempty, hcard, hop, Client.mem_sentOf_iff.mp h⟩

/-- Over JSON-RPC, every operation has its parameters as headers. -/
theorem exists_of_jsonRpc_headers {id : RequestId} {defaults : HeaderMap} {sp : ServiceParams}
    {op : ClientOperation} (hop : op ≠ .getAgentCard)
    (h : (ClientTransport.jsonRpc id defaults).headers sp op = .ok hs') :
    ∃ (P : Type) (_ : Serde P) (accept : HeaderMap) (method : String) (params : P),
      (∀ e ∈ accept, e.1 = "accept") ∧
        rpcHeaders defaults accept id method sp params = .ok hs' := by
  have hnone : ∀ e ∈ ([] : HeaderMap), e.1 = "accept" := by simp
  have hone : ∀ e ∈ ([("accept", encode "text/event-stream".toList)] : HeaderMap),
      e.1 = "accept" := by simp
  cases op with
  | sendMessage req => exact ⟨_, _, [], _, req, hnone, h⟩
  | sendStreamingMessage req => exact ⟨_, _, _, _, req, hone, h⟩
  | getTask req => exact ⟨_, _, [], _, req, hnone, h⟩
  | listTasks req => exact ⟨_, _, [], _, req, hnone, h⟩
  | cancelTask req => exact ⟨_, _, [], _, req, hnone, h⟩
  | subscribeToTask req => exact ⟨_, _, _, _, req, hone, h⟩
  | getAgentCard => exact absurd rfl hop

/-- Over REST, an operation has no headers but those of the client and two of its own. -/
theorem exists_of_rest_headers {c : RestTransport} {sp : ServiceParams} {op : ClientOperation}
    (hop : op ≠ .getAgentCard) (h : (ClientTransport.rest c).headers sp op = .ok hs') :
    ∃ own : List (String × String), hs' = c.withHeaders own ∧
      ∀ n ∈ own.map Prod.fst, n = "content-type" ∨ n = "accept" := by
  cases op with
  | sendMessage req =>
    obtain ⟨_, hreq, rfl⟩ := exists_of_builtHeaders h
    obtain ⟨_, -, rfl⟩ := Option.map_eq_some_iff.mp hreq
    exact ⟨_, rfl, by simp⟩
  | sendStreamingMessage req =>
    obtain ⟨_, hreq, rfl⟩ := exists_of_builtHeaders h
    obtain ⟨_, -, rfl⟩ := Option.map_eq_some_iff.mp hreq
    exact ⟨_, rfl, by simp⟩
  | getTask req =>
    refine ⟨[("accept", "application/json")], ?_, by simp⟩
    cases h
    rw [RestTransport.getTask]
    cases req.historyLength <;> rfl
  | listTasks req =>
    rw [Client.headers_rest_listTasks] at h
    cases h
    exact ⟨_, rfl, by simp⟩
  | cancelTask req =>
    obtain ⟨_, hreq, rfl⟩ := exists_of_builtHeaders h
    obtain ⟨_, -, rfl⟩ := Option.map_eq_some_iff.mp hreq
    exact ⟨_, rfl, by simp⟩
  | subscribeToTask req =>
    cases h
    exact ⟨_, rfl, by simp⟩
  | getAgentCard => exact absurd rfl hop

/-- Over gRPC, it has none. -/
theorem eq_nil_of_grpc_headers {sp : ServiceParams} {op : ClientOperation}
    (h : ClientTransport.grpc.headers sp op = .ok hs') : hs' = [] := by
  cases op <;> cases h <;> rfl

/-! ### One agent -/

/-- The names of the headers that an agent sends are in lower case. -/
theorem lowerCase_of_mem_sends (h : hs' ∈ a.sends hs) : ∀ e ∈ hs', lowerCase e.1 = e.1 := by
  obtain ⟨op, req, -, -, hop, hheaders⟩ := exists_of_mem_sends h
  have hplain := a.plain
  cases ht : a.transport with
  | jsonRpc id defaults =>
    rw [ht] at hheaders hplain
    obtain ⟨P, _, accept, method, params, haccept, hrpc⟩ := exists_of_jsonRpc_headers hop hheaders
    exact lowerCase_rpcHeaders (fun e he => (hplain e he).1) haccept hrpc
  | rest c =>
    rw [ht] at hheaders hplain
    obtain ⟨own, rfl, hown⟩ := exists_of_rest_headers hop hheaders
    intro e he
    rcases mem_withHeaders he with hin | hin
    · rcases hown _ hin with hname | hname
      · rw [hname]
        decide
      · rw [hname]
        decide
    · exact (hplain e hin).1
  | grpc =>
    rw [ht] at hheaders
    obtain rfl := eq_nil_of_grpc_headers hheaders
    simp

/-- Without JSON-RPC nothing is asked for. -/
theorem notMem_texts_of_mem_sends (h : hs' ∈ a.sends hs)
    (hrpc : ¬ ∃ id defaults, a.transport = .jsonRpc id defaults) :
    u ∉ hs'.texts extensionsHeader := by
  intro hu
  obtain ⟨value, hin, -⟩ := mem_texts_iff.mp hu
  obtain ⟨op, req, -, -, hop, hheaders⟩ := exists_of_mem_sends h
  have hplain := a.plain
  cases ht : a.transport with
  | jsonRpc id defaults => exact hrpc ⟨id, defaults, ht⟩
  | rest c =>
    rw [ht] at hheaders hplain
    obtain ⟨own, rfl, hown⟩ := exists_of_rest_headers hop hheaders
    rcases mem_withHeaders hin with hin | hin
    · have hname : extensionsHeader = "content-type" ∨ extensionsHeader = "accept" := hown _ hin
      exact absurd hname (by decide)
    · exact (hplain _ hin).2 rfl
  | grpc =>
    rw [ht] at hheaders
    obtain rfl := eq_nil_of_grpc_headers hheaders
    cases hin

/-- **What an agent asks the next one for**: what it hands on of what it is asked for, and
what it offers of its own. -/
theorem mem_texts_of_mem_sends (hlower : ∀ e ∈ hs, lowerCase e.1 = e.1) (h : hs' ∈ a.sends hs) :
    u ∈ hs'.texts extensionsHeader ↔
      (u ∈ hs.texts extensionsHeader ∧ u ∈ a.handsOn) ∨ u ∈ a.offers := by
  by_cases hrpc : ∃ id defaults, a.transport = .jsonRpc id defaults
  · obtain ⟨op, req, hempty, hcard, hop, hheaders⟩ := exists_of_mem_sends h
    obtain ⟨id, defaults, ht⟩ := id hrpc
    have hplain := a.plain
    rw [ht] at hheaders hplain
    obtain ⟨P, _, accept, method, params, haccept, hsent⟩ := exists_of_jsonRpc_headers hop hheaders
    have hkeys : ∀ name ∈ (a.context hs).requestMeta.kv, lowerCase name = name :=
      fun name hname => ofRequest.lowerCase_eq hlower hname
    have hname : lowerCase SVC_PARAM_EXTENSIONS = extensionsHeader := by decide
    have hpairs : ∀ k, lowerCase k = extensionsHeader →
        ((k, u) ∈ (applyHooks (a.copied hs) a.hooks req).serviceParams.pairs ↔
          (k = SVC_PARAM_EXTENSIONS ∧ Activates a.card a.hooks u) ∨
            (k = extensionsHeader ∧ Forwards a.server (a.context hs) a.card a.hooks u)) := by
      intro k hk
      rw [← hcard]
      exact mem_pairs_applyHooks a.hooks a.server a.served hkeys hempty (k, u) (hk.trans hname.symm)
    rw [mem_texts_rpcHeaders (fun e he => (hplain e he).2) haccept hsent]
    constructor
    · rintro ⟨hprint, k, hk, hpair⟩
      rcases (hpairs k hk).mp hpair with ⟨-, hact⟩ | ⟨-, hserver, hasked, hhook⟩
      · exact Or.inr ⟨hrpc, hprint, hact⟩
      · rw [requested_eq] at hasked
        exact Or.inl ⟨hasked, hrpc, hserver, hhook⟩
    · rintro (⟨hasked, -, hserver, hhook⟩ | ⟨-, hprint, hact⟩)
      · refine ⟨printable_of_mem_texts hasked, extensionsHeader, by decide, ?_⟩
        rw [← requested_eq] at hasked
        exact (hpairs _ (by decide)).mpr (Or.inr ⟨rfl, hserver, hasked, hhook⟩)
      · exact ⟨hprint, SVC_PARAM_EXTENSIONS, hname, (hpairs _ hname).mpr (Or.inl ⟨rfl, hact⟩)⟩
  · refine iff_of_false (notMem_texts_of_mem_sends h hrpc) ?_
    rintro (⟨-, hhands⟩ | hoffers)
    · exact hrpc hhands.1
    · exact hrpc hoffers.1

end

end ChainedAgent

/-! ### A chain -/

/-- Each agent is sent what the one before it sends. -/
abbrev AgentChain [JsonText] [Base64] : List ChainedAgent → HeaderMap → HeaderMap → Prop :=
  Hops fun a hs hs' => hs' ∈ a.sends hs

/-- **Along a chain of agents** a URI is asked for at the end exactly if it was at the start,
or an agent on the way has offered it, and every agent from there on hands it on. -/
theorem chain_extensions [JsonText] [Base64] {agents : List ChainedAgent} {hs hs' : HeaderMap}
    (hlower : ∀ e ∈ hs, lowerCase e.1 = e.1) (h : AgentChain agents hs hs') (u : String) :
    u ∈ hs'.texts extensionsHeader ↔
      (u ∈ hs.texts extensionsHeader ∧ ∀ a ∈ agents, u ∈ a.handsOn) ∨
        ∃ before a after, agents = before ++ a :: after ∧ u ∈ a.offers ∧
          ∀ a' ∈ after, u ∈ a'.handsOn := by
  have hinv : ∀ (a : ChainedAgent) (hs hs' : HeaderMap), (∀ e ∈ hs, lowerCase e.1 = e.1) →
      hs' ∈ a.sends hs → ∀ e ∈ hs', lowerCase e.1 = e.1 :=
    fun a hs hs' _ hsends => ChainedAgent.lowerCase_of_mem_sends hsends
  have hseen : ∀ (a : ChainedAgent) (hs hs' : HeaderMap), (∀ e ∈ hs, lowerCase e.1 = e.1) →
      hs' ∈ a.sends hs → ∀ u, u ∈ {u | u ∈ hs'.texts extensionsHeader} ↔
        (u ∈ {u | u ∈ hs.texts extensionsHeader} ∧ u ∈ a.handsOn) ∨ u ∈ a.offers :=
    fun a hs hs' hlower hsends u => ChainedAgent.mem_texts_of_mem_sends hlower hsends
  exact Hops.mem_iff hinv hseen h hlower u

/-! ### Two agents -/

/-- An agent that hands on what it is asked for, and asks the next one for a task. -/
def taskAgent : ChainedAgent where
  tenant := none
  method := METHOD_MESSAGE_SEND
  served := ⟨⟨.sendMessageRequest, durationMessage⟩⟩
  server := .new
  hooks := [.propagator .new]
  card := some (makeCard ["urn:a2a:ext:duration"])
  transport := .jsonRpc (.number 1) []
  net := unreachable
  op := .getTask ⟨none, "t1", none⟩
  sendsOp := by simp
  plain := by simp [ClientTransport.defaults]

def getTaskTexts : List (Json × String) :=
  [((JsonRpcRequest.new (.number 1) METHOD_TASKS_GET (⟨none, "t1", none⟩ : GetTaskRequest)).toJson,
    braced ("\"jsonrpc\":\"2.0\",\"id\":1,\"method\":\"tasks/get\",\"params\":" ++
      braced "\"id\":\"t1\""))]

/-- What it sends. -/
def taskHeaders : HeaderMap :=
  ("content-type", encode "application/json".toList) :: durationHeaders

/-- The header that is always there is not copied. -/
theorem copied_taskHeaders : taskAgent.copied taskHeaders = taskAgent.copied durationHeaders := by
  have hkv : (RequestMeta.fromHeaderMap taskHeaders).kv =
      ((RequestMeta.fromHeaderMap durationHeaders).kv).insert "content-type"
        ["application/json"] := by
    decide +kernel
  have hasked : (taskAgent.context taskHeaders).requestedExtensionUris =
      (taskAgent.context durationHeaders).requestedExtensionUris := by
    rw [ChainedAgent.requested_eq, ChainedAgent.requested_eq]
    decide
  rw [ChainedAgent.copied, ChainedAgent.copied, ServerPropagator.extract,
    ServerPropagator.extract, hasked, PropagatorContext.mk.injEq]
  refine ⟨Finmap.ext_lookup fun k => ?_, rfl⟩
  rw [lookup_insertWhere, lookup_insertWhere]
  congr 1
  split
  · rename_i hk
    refine (congrArg (Finmap.lookup k) hkv).trans (Finmap.lookup_insert_of_ne _ ?_)
    rintro rfl
    exact absurd hk (by decide)
  · rfl

theorem handsOn_taskAgent : "urn:a2a:ext:duration" ∈ taskAgent.handsOn :=
  ⟨⟨_, _, rfl⟩, by decide, .new, List.mem_singleton_self _, by decide⟩

/-- Two such agents, one after the other. -/
theorem chain_extensions_twice :
    letI := byteChars
    letI := tableText getTaskTexts
    AgentChain [taskAgent, taskAgent] durationHeaders taskHeaders ∧
      "urn:a2a:ext:duration" ∈ taskHeaders.texts extensionsHeader := by
  let := byteChars
  let := tableText getTaskTexts
  have hfirst : taskHeaders ∈ taskAgent.sends durationHeaders := by decide +kernel
  have hsecond : taskHeaders ∈ taskAgent.sends taskHeaders := by
    rw [ChainedAgent.sends_eq, copied_taskHeaders]
    exact hfirst
  have hchain : AgentChain [taskAgent, taskAgent] durationHeaders taskHeaders :=
    .cons hfirst (.cons hsecond (.nil _))
  have hasked : "urn:a2a:ext:duration" ∈ durationHeaders.texts extensionsHeader := by decide
  refine ⟨hchain, (chain_extensions lowerCase_durationHeaders hchain _).mpr (Or.inl ⟨hasked, ?_⟩)⟩
  simpa using handsOn_taskAgent

end Ra2a
