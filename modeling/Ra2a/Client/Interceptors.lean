import Ra2a.Server.Requests
import Ra2a.Types.Payload

/-!
# The client and its interceptors

`client/interceptor.rs`, and the `Client` of `client/mod.rs` around a transport.
An operation runs the hooks `before`, calls the transport with the service
parameters they leave, and runs the hooks `after`, in the same order.

The transport is given the parameters twice, as an argument and in a task local
that holds the same; here it is one argument.
-/

namespace Ra2a

namespace Interceptor

/-- A `HashMap`, in the order it is iterated. -/
structure ServiceParams where
  inner : List (String × List String)
  deriving DecidableEq

namespace ServiceParams

def empty : ServiceParams := ⟨[]⟩

/-- One value more for a key, unless it has it. -/
def appendTo (key value : String) : List (String × List String) → List (String × List String)
  | [] => [(key, [value])]
  | (k, vals) :: rest =>
    if k = key then (k, if value ∈ vals then vals else vals ++ [value]) :: rest
    else (k, vals) :: appendTo key value rest

/-- `append`. -/
def append (sp : ServiceParams) (key value : String) : ServiceParams :=
  ⟨appendTo key value sp.inner⟩

/-- The keys with each of their values. -/
def pairs (sp : ServiceParams) : List (String × String) :=
  sp.inner.flatMap fun e => e.2.map fun v => (e.1, v)

variable {key value : String} {e : String × String}

theorem mem_pairs_iff {sp : ServiceParams} :
    e ∈ sp.pairs ↔ ∃ vals, (e.1, vals) ∈ sp.inner ∧ e.2 ∈ vals := by
  rw [pairs, List.mem_flatMap]
  constructor
  · rintro ⟨⟨k, vals⟩, hmem, he⟩
    obtain ⟨v, hv, rfl⟩ := List.mem_map.mp he
    exact ⟨vals, hmem, hv⟩
  · rintro ⟨vals, hmem, hv⟩
    exact ⟨(e.1, vals), hmem, List.mem_map.mpr ⟨e.2, hv, rfl⟩⟩

theorem mem_pairs_cons {k : String} {vals : List String} {rest : List (String × List String)} :
    e ∈ pairs ⟨(k, vals) :: rest⟩ ↔ (e.1 = k ∧ e.2 ∈ vals) ∨ e ∈ pairs ⟨rest⟩ := by
  rw [mem_pairs_iff, mem_pairs_iff]
  constructor
  · rintro ⟨vs, hmem, hv⟩
    rcases List.mem_cons.mp hmem with heq | hmem
    · cases heq
      exact Or.inl ⟨rfl, hv⟩
    · exact Or.inr ⟨vs, hmem, hv⟩
  · rintro (⟨rfl, hv⟩ | ⟨vs, hmem, hv⟩)
    · exact ⟨vals, List.mem_cons_self, hv⟩
    · exact ⟨vs, List.mem_cons_of_mem _ hmem, hv⟩

theorem mem_pairs_appendTo (inner : List (String × List String)) :
    e ∈ pairs ⟨appendTo key value inner⟩ ↔ e ∈ pairs ⟨inner⟩ ∨ e = (key, value) := by
  induction inner with
  | nil => simp [appendTo, pairs]
  | cons p rest ih =>
    obtain ⟨k, vals⟩ := p
    rw [appendTo]
    split
    · rename_i hk
      subst hk
      rw [mem_pairs_cons, mem_pairs_cons, Prod.ext_iff]
      split
      · rename_i hval
        constructor
        · exact Or.inl
        · rintro (h | ⟨hk, hv⟩)
          · exact h
          · exact Or.inl ⟨hk, hv ▸ hval⟩
      · rw [List.mem_append, List.mem_singleton]
        tauto
    · rw [mem_pairs_cons, mem_pairs_cons, ih, or_assoc]

/-- **A value that is appended is there, and nothing else is new.** -/
theorem mem_pairs_append {sp : ServiceParams} :
    e ∈ (sp.append key value).pairs ↔ e ∈ sp.pairs ∨ e = (key, value) :=
  mem_pairs_appendTo sp.inner

/-- A map, each of whose keys has its values once. -/
structure WellFormed (sp : ServiceParams) : Prop where
  keys : (sp.inner.map Prod.fst).Nodup
  values : ∀ p ∈ sp.inner, p.2.Nodup

theorem wellFormed_empty : WellFormed empty := ⟨List.nodup_nil, fun p hp => by cases hp⟩

theorem map_fst_appendTo (inner : List (String × List String)) :
    (appendTo key value inner).map Prod.fst =
      if key ∈ inner.map Prod.fst then inner.map Prod.fst else inner.map Prod.fst ++ [key] := by
  induction inner with
  | nil => rfl
  | cons p rest ih =>
    obtain ⟨k, vals⟩ := p
    rw [appendTo]
    split
    · rename_i hk
      simp [hk]
    · rename_i hk
      rw [List.map_cons, ih]
      simp only [List.map_cons, List.mem_cons, Ne.symm hk, false_or]
      split <;> rfl

theorem nodup_of_mem_appendTo {inner : List (String × List String)}
    (h : ∀ p ∈ inner, p.2.Nodup) : ∀ p ∈ appendTo key value inner, p.2.Nodup := by
  induction inner with
  | nil => simp [appendTo]
  | cons q rest ih =>
    obtain ⟨k, vals⟩ := q
    obtain ⟨hvals, hrest⟩ := List.forall_mem_cons.mp h
    rw [appendTo]
    split
    · refine List.forall_mem_cons.mpr ⟨?_, hrest⟩
      dsimp only
      split
      · exact hvals
      · rename_i hval
        exact List.nodup_append.mpr ⟨hvals, List.nodup_singleton _, fun v hv w hw he =>
          hval (List.mem_singleton.mp hw ▸ he ▸ hv)⟩
    · exact List.forall_mem_cons.mpr ⟨hvals, ih hrest⟩

/-- An append keeps the map one. -/
theorem WellFormed.append {sp : ServiceParams} (h : sp.WellFormed) (key value : String) :
    (sp.append key value).WellFormed where
  keys := by
    rw [ServiceParams.append, map_fst_appendTo]
    split
    · exact h.keys
    · rename_i hkey
      exact List.nodup_append.mpr ⟨h.keys, List.nodup_singleton _, fun k hk l hl he =>
        hkey (List.mem_singleton.mp hl ▸ he ▸ hk)⟩
  values := nodup_of_mem_appendTo h.values

/-- **In a map every pair stands once.** -/
theorem WellFormed.nodup_pairs {sp : ServiceParams} (h : sp.WellFormed) : sp.pairs.Nodup := by
  rw [pairs, List.nodup_flatMap]
  refine ⟨fun p hp => (h.values p hp).map fun v w he => (Prod.mk.inj he).2, ?_⟩
  refine (List.pairwise_map.mp h.keys).imp fun {p q} hne e he he' => ?_
  obtain ⟨v, -, rfl⟩ := List.mem_map.mp he
  obtain ⟨w, -, heq⟩ := List.mem_map.mp he'
  exact hne (Prod.mk.inj heq).1.symm

end ServiceParams

structure Request where
  method : String
  card : Option AgentCard
  serviceParams : ServiceParams
  payload : Payload

structure Response where
  method : String
  card : Option AgentCard
  payload : Option Payload
  err : Option A2AError

structure CallInterceptor (τ : Type) where
  before : Request → Handling τ Request
  after : Response → Handling τ Response

/-- `PassthroughInterceptor`. -/
def passthroughInterceptor (τ : Type) : CallInterceptor τ where
  before req := pure req
  after resp := pure resp

/-- `StaticParamsInjector`. -/
def staticParamsInjector (τ : Type) (inject : ServiceParams) : CallInterceptor τ where
  before req := pure { req with
    serviceParams := inject.pairs.foldl (fun sp e => sp.append e.1 e.2) req.serviceParams }
  after resp := pure resp

/-- The response made of a result. -/
def Response.ofResult (method : String) (card : Option AgentCard) (R : PayloadType) :
    Except A2AError R.Carrier → Response
  | .ok r => ⟨method, card, some ⟨R, r⟩, none⟩
  | .error e => ⟨method, card, none, some e⟩

/-- What an operation makes of the response that the hooks leave. -/
def Response.result (R : PayloadType) (resp : Response) : Except A2AError R.Carrier :=
  match resp.err with
  | some e => .error e
  | none =>
    match resp.payload with
    | none => .error (.other "no response payload after interceptor")
    | some p =>
      match p.downcast R with
      | some r => .ok r
      | none => .error (.other "interceptor changed response payload type")

end Interceptor

open Interceptor

def AgentCard.supportsStreaming (card : AgentCard) : Bool := card.capabilities.streaming.getD false

def AgentCard.supportsExtendedCard (card : AgentCard) : Bool :=
  card.capabilities.extendedAgentCard.getD false

/-- The methods of `Transport` that a client calls. -/
structure Transport (τ : Type) where
  sendMessage : ServiceParams → SendMessageRequest → Handling τ SendMessageResponse
  sendStreamingMessage : ServiceParams → SendMessageRequest →
    Handling τ (List (Except A2AError Event))
  getTask : ServiceParams → GetTaskRequest → Handling τ Task
  listTasks : ServiceParams → ListTasksRequest → Handling τ ListTasksResponse
  cancelTask : ServiceParams → CancelTaskRequest → Handling τ Task
  subscribeToTask : ServiceParams → SubscribeToTaskRequest →
    Handling τ (List (Except A2AError Event))
  getAgentCard : Handling τ AgentCard

/-- A client, with the place of its cached card in the state. -/
structure Client (τ : Type) where
  transport : Transport τ
  interceptors : List (CallInterceptor τ)
  card : τ → Option AgentCard
  setCard : AgentCard → τ → τ

/-- The event a single response is, on a stream. -/
def SendMessageResponse.toEvent : SendMessageResponse → Event
  | .task t => .task t
  | .message m => .message m

namespace Client

variable {τ : Type} (c : Client τ)

/-- `Client::card`. -/
def cached : Handling τ (Option AgentCard) := fun s => (.ok (c.card s), s)

/-- `intercept_before`. -/
def interceptBefore (method : String) (P : PayloadType) (payload : P.Carrier) :
    Handling τ (P.Carrier × ServiceParams) :=
  if c.interceptors.isEmpty then pure (payload, .empty)
  else do
    let card ← c.cached
    let req ← Chain.run (c.interceptors.map CallInterceptor.before)
      ⟨method, card, .empty, ⟨P, payload⟩⟩
    match req.payload.downcast P with
    | some p => pure (p, req.serviceParams)
    | none => throw A2AError.requestTypeChanged

/-- `intercept_after`. -/
def interceptAfter (method : String) (R : PayloadType) (result : Except A2AError R.Carrier) :
    Handling τ R.Carrier :=
  if c.interceptors.isEmpty then liftExcept result
  else do
    let card ← c.cached
    let resp ← Chain.run (c.interceptors.map CallInterceptor.after)
      (.ofResult method card R result)
    liftExcept (resp.result R)

/-- An operation that is answered once. -/
def unary (method : String) (P R : PayloadType)
    (call : ServiceParams → P.Carrier → Handling τ R.Carrier) (req : P.Carrier) :
    Handling τ R.Carrier := do
  let p ← c.interceptBefore method P req
  let result ← liftM (call p.2 p.1).run
  c.interceptAfter method R result

def sendMessage : SendMessageRequest → Handling τ SendMessageResponse :=
  c.unary "SendMessage" .sendMessageRequest .sendMessageResponse c.transport.sendMessage

def getTask : GetTaskRequest → Handling τ Task :=
  c.unary "GetTask" .getTaskRequest .task c.transport.getTask

def listTasks : ListTasksRequest → Handling τ ListTasksResponse :=
  c.unary "ListTasks" .listTasksRequest .listTasksResponse c.transport.listTasks

def cancelTask : CancelTaskRequest → Handling τ Task :=
  c.unary "CancelTask" .cancelTaskRequest .task c.transport.cancelTask

/-- An agent that is known not to stream is asked once instead. -/
def sendStreamingMessage (req : SendMessageRequest) :
    Handling τ (List (Except A2AError Event)) := do
  let p ← c.interceptBefore "SendStreamingMessage" .sendMessageRequest req
  let card ← c.cached
  if card.any fun card => !card.supportsStreaming then
    let result ← liftM (c.transport.sendMessage p.2 p.1).run
    let result ← c.interceptAfter "SendStreamingMessage" .sendMessageResponse result
    pure [.ok result.toEvent]
  else c.transport.sendStreamingMessage p.2 p.1

def subscribeToTask (req : SubscribeToTaskRequest) :
    Handling τ (List (Except A2AError Event)) := do
  let p ← c.interceptBefore "SubscribeToTask" .subscribeToTaskRequest req
  c.transport.subscribeToTask p.2 p.1

/-- A cached card is the answer if the agent has no extended one. -/
def getAgentCard : Handling τ AgentCard := do
  let cached ← c.cached
  match cached.filter fun card => !card.supportsExtendedCard with
  | some card => pure card
  | none => do
    let result ← liftM c.transport.getAgentCard.run
    let card ← c.interceptAfter "GetAgentCard" .agentCard result
    modify (c.setCard card)
    pure card

end Client

end Ra2a
