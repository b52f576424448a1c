import Ra2a.Client.Interceptors
import Ra2a.Server.Handler.Hooks

/-!
# Which outcomes the hooks see

The hooks `after` are there for whatever comes of a call.  They are run on it if
the call is answered once.  Of a stream, a handler runs them on the events and a
client on nothing at all: an error item, and a stream that cannot be opened, go
past them, as does everything if a hook `before` has changed the type of the
request (`seesOutcomes_iff`).
-/

namespace Ra2a

open Interceptor

section

variable {τ : Type}

/-- The interceptor, with a note of every visit to `after`. -/
def Interceptor.CallInterceptor.observed (i : CallInterceptor τ) (k : ℕ) :
    CallInterceptor (τ × List (ℕ × CallOutcome)) where
  before req := Chain.beside (i.before req)
  after := Chain.observed (fun resp => (k, ⟨resp.payload, resp.err⟩)) i.after

/-- The transport, beside a log. -/
def Transport.beside {β : Type} (t : Transport τ) : Transport (τ × List β) where
  sendMessage sp req := Chain.beside (t.sendMessage sp req)
  sendStreamingMessage sp req := Chain.beside (t.sendStreamingMessage sp req)
  getTask sp req := Chain.beside (t.getTask sp req)
  listTasks sp req := Chain.beside (t.listTasks sp req)
  cancelTask sp req := Chain.beside (t.cancelTask sp req)
  subscribeToTask sp req := Chain.beside (t.subscribeToTask sp req)
  getAgentCard := Chain.beside t.getAgentCard

end

namespace Client

variable {τ : Type} (c : Client τ)

/-- The client with all its interceptors observed. -/
def observed : Client (τ × List (ℕ × CallOutcome)) where
  transport := c.transport.beside
  interceptors := c.interceptors.zipIdx.map fun p => p.1.observed p.2
  card s := c.card s.1
  setCard card s := (c.setCard card s.1, s.2)

/-- The hooks `after` in the order they are run, with what is noted of each. -/
def afterHooks : List ((Interceptor.Response → ℕ × CallOutcome) ×
    Chain.Step A2AError τ Interceptor.Response) :=
  c.interceptors.zipIdx.map fun p =>
    ((fun resp => (p.2, ⟨resp.payload, resp.err⟩)), p.1.after)

/-- What the hooks `after` are given about a result. -/
def round (method : String) (R : PayloadType) (result : Except A2AError R.Carrier) (s : τ) :
    List (ℕ × CallOutcome) :=
  Chain.given c.afterHooks (.ofResult method (c.card s) R result) s

theorem isEmpty_observed : c.observed.interceptors.isEmpty = c.interceptors.isEmpty := by
  rw [observed, List.isEmpty_map]
  cases c.interceptors <;> rfl

section Beside

variable {c} {β : Type} {c' : Client (τ × List β)}

theorem writes_cached (hcard : ∀ p, c'.card p = c.card p.1) :
    Chain.Writes (fun _ => ([] : List β)) c.cached c'.cached := by
  intro s log
  rw [List.append_nil]
  exact congrArg (fun card => (Except.ok card, (s, log))) (hcard (s, log))

/-- A client with the same hooks `before`, beside a log, writes nothing with them. -/
theorem writes_interceptBefore_beside
    (hbefore : c'.interceptors.map CallInterceptor.before =
      (c.interceptors.map CallInterceptor.before).map fun f a => Chain.beside (f a))
    (hcard : ∀ p, c'.card p = c.card p.1) (method : String) (P : PayloadType)
    (payload : P.Carrier) :
    Chain.Writes (fun _ => ([] : List β)) (c.interceptBefore method P payload)
      (c'.interceptBefore method P payload) := by
  have hempty : c'.interceptors.isEmpty = c.interceptors.isEmpty := by
    have hmaps := congrArg List.isEmpty hbefore
    simpa only [List.isEmpty_map] using hmaps
  unfold interceptBefore
  rw [hempty]
  split
  · exact .pure (Except.ok _)
  · refine (writes_cached hcard).bind_silent fun card => ?_
    rw [hbefore]
    refine (Chain.writes_run_beside _ _).bind_silent fun req => ?_
    cases req.payload.downcast P with
    | some p => exact .pure (Except.ok _)
    | none => exact .pure (Except.error _)

end Beside

theorem writes_interceptBefore (method : String) (P : PayloadType) (payload : P.Carrier) :
    Chain.Writes (fun _ => []) (c.interceptBefore method P payload)
      (c.observed.interceptBefore method P payload) := by
  refine writes_interceptBefore_beside ?_ (fun _ => rfl) method P payload
  rw [observed, List.map_map, List.map_map]
  conv_rhs => rw [← List.zipIdx_map_fst 0 c.interceptors, List.map_map]
  rfl

theorem writes_interceptAfter (method : String) (R : PayloadType)
    (result : Except A2AError R.Carrier) :
    Chain.Writes (c.round method R result) (c.interceptAfter method R result)
      (c.observed.interceptAfter method R result) := by
  unfold interceptAfter
  rw [isEmpty_observed]
  split
  · rename_i hempty
    refine (writes_liftExcept result).congr fun s => ?_
    rw [round, afterHooks, List.isEmpty_iff.mp hempty]
    rfl
  · have hplain : c.interceptors.map CallInterceptor.after = c.afterHooks.map Prod.snd := by
      rw [afterHooks, List.map_map]
      conv_lhs => rw [← List.zipIdx_map_fst 0 c.interceptors, List.map_map]
      rfl
    have hhooks : c.observed.interceptors.map CallInterceptor.after =
        c.afterHooks.map fun p => Chain.observed p.1 p.2 := by
      rw [afterHooks, observed, List.map_map, List.map_map]
      rfl
    rw [hplain, hhooks]
    refine ((writes_cached fun _ => rfl).silent_bind fun card =>
      (Chain.writes_run c.afterHooks (.ofResult method card R result)).bind_silent fun resp =>
        writes_liftExcept _).congr fun s => rfl

theorem writes_call {α : Type} (m : Handling τ α) :
    Chain.Writes (fun _ => ([] : List (ℕ × CallOutcome))) (liftM m.run : Handling τ (Except _ α))
      (liftM (Chain.beside (β := ℕ × CallOutcome) m).run : Handling _ (Except _ α)) :=
  (Chain.Writes.beside m).lift

/-- **The visits of an operation that is answered once.** -/
theorem writes_unary (method : String) (P R : PayloadType)
    (call : ServiceParams → P.Carrier → Handling τ R.Carrier) (req : P.Carrier) :
    Chain.Writes
      (fun s => Chain.onOk (c.interceptBefore method P req s) fun p s =>
        c.round method R (call p.2 p.1 s).1 (call p.2 p.1 s).2)
      (c.unary method P R call req)
      (c.observed.unary method P R (fun sp req => Chain.beside (call sp req)) req) := by
  refine (c.writes_interceptBefore method P req).silent_bind fun p => ?_
  exact ((writes_call (call p.2 p.1)).silent_bind fun result =>
    c.writes_interceptAfter method R result).congr fun s => rfl

/-- What is noted about a streaming send: the single call in its place, if any. -/
def fallbackRound (sp : ServiceParams) (req : SendMessageRequest) (card : Option AgentCard)
    (s : τ) : List (ℕ × CallOutcome) :=
  if card.any fun card => !card.supportsStreaming then
    c.round "SendStreamingMessage" .sendMessageResponse (c.transport.sendMessage sp req s).1
      (c.transport.sendMessage sp req s).2
  else []

/-- **The visits of a streaming send** are those of the single call in its place. -/
theorem writes_sendStreamingMessage (req : SendMessageRequest) :
    Chain.Writes
      (fun s => Chain.onOk (c.interceptBefore "SendStreamingMessage" .sendMessageRequest req s)
        fun p s => c.fallbackRound p.2 p.1 (c.card s) s)
      (c.sendStreamingMessage req) (c.observed.sendStreamingMessage req) := by
  refine (c.writes_interceptBefore _ _ _).silent_bind fun p => ?_
  refine ((writes_cached fun _ => rfl).silent_bind fun card =>
    (?_ : Chain.Writes (c.fallbackRound p.2 p.1 card) _ _)).congr fun s => rfl
  unfold fallbackRound
  split
  · exact ((writes_call (c.transport.sendMessage p.2 p.1)).silent_bind fun result =>
      (c.writes_interceptAfter _ .sendMessageResponse result).bind_silent fun result =>
        .pure (Except.ok _)).congr fun s => rfl
  · exact .beside _

theorem writes_subscribeToTask (req : SubscribeToTaskRequest) :
    Chain.Writes (fun _ => []) (c.subscribeToTask req) (c.observed.subscribeToTask req) :=
  (c.writes_interceptBefore _ _ _).bind_silent fun _ => .beside _

/-- What is noted about a card: the call for one that is not answered by the cached
one. -/
def cardRound (card : Option AgentCard) (s : τ) : List (ℕ × CallOutcome) :=
  match card.filter fun card => !card.supportsExtendedCard with
  | some _ => []
  | none =>
    c.round "GetAgentCard" .agentCard (c.transport.getAgentCard s).1 (c.transport.getAgentCard s).2

theorem writes_getAgentCard :
    Chain.Writes (fun s => c.cardRound (c.card s) s) c.getAgentCard c.observed.getAgentCard := by
  refine ((writes_cached fun _ => rfl).silent_bind fun card =>
    (?_ : Chain.Writes (c.cardRound card) _ _)).congr fun s => rfl
  unfold cardRound
  cases card.filter fun card => !card.supportsExtendedCard with
  | some card => exact .pure (Except.ok card)
  | none =>
    refine ((writes_call c.transport.getAgentCard).silent_bind fun result =>
      (c.writes_interceptAfter _ .agentCard result).bind_silent fun card => ?_).congr fun s => rfl
    intro s log
    rw [List.append_nil]
    rfl

end Client

/-! ### The outcomes of an operation -/

/-- An operation of `Client` that calls the transport. -/
inductive ClientOperation
  | sendMessage (req : SendMessageRequest)
  | sendStreamingMessage (req : SendMessageRequest)
  | getTask (req : GetTaskRequest)
  | listTasks (req : ListTasksRequest)
  | cancelTask (req : CancelTaskRequest)
  | subscribeToTask (req : SubscribeToTaskRequest)
  | getAgentCard

/-- An interceptor whose hooks return `Ok`. -/
structure Interceptor.CallInterceptor.Succeeds {τ : Type} (i : CallInterceptor τ) : Prop where
  before : ∀ req s, ∃ r s', i.before req s = (.ok r, s')
  after : ∀ resp s, ∃ r s', i.after resp s = (.ok r, s')

namespace Client

variable {τ : Type} {c : Client τ}

/-- Which hook `after` is run on what during an operation from state `s`. -/
def visits (c : Client τ) : ClientOperation → τ → List (ℕ × CallOutcome)
  | .sendMessage req, s => (c.observed.sendMessage req (s, [])).2.2
  | .sendStreamingMessage req, s => (c.observed.sendStreamingMessage req (s, [])).2.2
  | .getTask req, s => (c.observed.getTask req (s, [])).2.2
  | .listTasks req, s => (c.observed.listTasks req (s, [])).2.2
  | .cancelTask req, s => (c.observed.cancelTask req (s, [])).2.2
  | .subscribeToTask req, s => (c.observed.subscribeToTask req (s, [])).2.2
  | .getAgentCard, s => (c.observed.getAgentCard (s, [])).2.2

/-- The outcomes of an operation after its hooks `before`. -/
def outcomesAfter {α : Type} (r : Except A2AError α × τ) (rest : α → τ → List CallOutcome) :
    List CallOutcome :=
  match r with
  | (.ok p, s) => rest p s
  | (.error e, _) => [⟨none, some e⟩]

/-- The outcome of an operation that is answered once. -/
def unaryOutcomes (c : Client τ) (method : String) (P R : PayloadType)
    (call : ServiceParams → P.Carrier → Handling τ R.Carrier) (req : P.Carrier) (s : τ) :
    List CallOutcome :=
  outcomesAfter (c.interceptBefore method P req s) fun p s => [.ofResult R (call p.2 p.1 s).1]

/-- The card, as it is cached or as the transport gets it. -/
def cardOutcomes (c : Client τ) (card : Option AgentCard) (s : τ) : List CallOutcome :=
  match card.filter fun card => !card.supportsExtendedCard with
  | some card => [.ofResult .agentCard (.ok card)]
  | none => [.ofResult .agentCard (c.transport.getAgentCard s).1]

/-- What comes of an operation from state `s`. -/
def outcomes (c : Client τ) : ClientOperation → τ → List CallOutcome
  | .sendMessage req, s => c.unaryOutcomes "SendMessage" .sendMessageRequest .sendMessageResponse
      c.transport.sendMessage req s
  | .sendStreamingMessage req, s =>
    outcomesAfter (c.interceptBefore "SendStreamingMessage" .sendMessageRequest req s) fun p s =>
      if (c.card s).any fun card => !card.supportsStreaming then
        [.ofResult .sendMessageResponse (c.transport.sendMessage p.2 p.1 s).1]
      else streamOutcomes (c.transport.sendStreamingMessage p.2 p.1 s).1
  | .getTask req, s => c.unaryOutcomes "GetTask" .getTaskRequest .task c.transport.getTask req s
  | .listTasks req, s => c.unaryOutcomes "ListTasks" .listTasksRequest .listTasksResponse
      c.transport.listTasks req s
  | .cancelTask req, s =>
    c.unaryOutcomes "CancelTask" .cancelTaskRequest .task c.transport.cancelTask req s
  | .subscribeToTask req, s =>
    outcomesAfter (c.interceptBefore "SubscribeToTask" .subscribeToTaskRequest req s) fun p s =>
      streamOutcomes (c.transport.subscribeToTask p.2 p.1 s).1
  | .getAgentCard, s => c.cardOutcomes (c.card s) s

/-- Every hook `after` is run on every outcome of the operation, in order. -/
def SeesOutcomes (c : Client τ) (op : ClientOperation) (s : τ) : Prop :=
  Chain.AllVisited (List.range c.interceptors.length) (c.outcomes op s) (c.visits op s)

/-- The hooks `before` leave the request its type, and `after` holds of what they
leave. -/
def Keeps (c : Client τ) (method : String) (P : PayloadType) (req : P.Carrier) (s : τ)
    (after : P.Carrier × ServiceParams → τ → Prop) : Prop :=
  ∃ p s', c.interceptBefore method P req s = (.ok p, s') ∧ after p s'

/-- Nobody intercepts, or the request keeps its type and the operation is answered
once, by the transport, or with a stream of no items. -/
def AnsweredOnce (c : Client τ) (op : ClientOperation) (s : τ) : Prop :=
  c.interceptors = [] ∨
    match op with
    | .sendMessage req => c.Keeps "SendMessage" .sendMessageRequest req s fun _ _ => True
    | .sendStreamingMessage req =>
      c.Keeps "SendStreamingMessage" .sendMessageRequest req s fun p s' =>
        ((c.card s').any fun card => !card.supportsStreaming) = true ∨
          (c.transport.sendStreamingMessage p.2 p.1 s').1 = .ok []
    | .getTask req => c.Keeps "GetTask" .getTaskRequest req s fun _ _ => True
    | .listTasks req => c.Keeps "ListTasks" .listTasksRequest req s fun _ _ => True
    | .cancelTask req => c.Keeps "CancelTask" .cancelTaskRequest req s fun _ _ => True
    | .subscribeToTask req =>
      c.Keeps "SubscribeToTask" .subscribeToTaskRequest req s fun p s' =>
        (c.transport.subscribeToTask p.2 p.1 s').1 = .ok []
    | .getAgentCard => ((c.card s).any fun card => !card.supportsExtendedCard) = false

/-- **A round of hooks that return `Ok`** visits everybody. -/
theorem visited_round (hok : ∀ i ∈ c.interceptors, i.Succeeds) (method : String) (R : PayloadType)
    (result : Except A2AError R.Carrier) (s : τ) :
    Chain.Visited (List.range c.interceptors.length) (.ofResult R result)
      (c.round method R result s) := by
  have horder : List.range c.interceptors.length = c.interceptors.zipIdx.map Prod.snd := by
    rw [List.zipIdx_map_snd, List.range_eq_range']
  rw [horder, ← List.map_id (c.round method R result s), round, afterHooks]
  refine Chain.visited_given (fun p _ resp' => ?_) (fun p hp resp' s => ?_) (fun p _ => ?_) s
  · rfl
  · exact (hok p.1 (List.fst_mem_of_mem_zipIdx hp)).after resp' s
  · cases result <;> rfl

theorem round_of_nil (hnil : c.interceptors = []) (method : String) (R : PayloadType)
    (result : Except A2AError R.Carrier) (s : τ) : c.round method R result s = [] := by
  rw [round, afterHooks, hnil]
  rfl

/-- What is noted about an operation that is answered once. -/
def unaryNotes (c : Client τ) (method : String) (P R : PayloadType)
    (call : ServiceParams → P.Carrier → Handling τ R.Carrier) (req : P.Carrier) (s : τ) :
    List (ℕ × CallOutcome) :=
  Chain.onOk (c.interceptBefore method P req s) fun p s =>
    c.round method R (call p.2 p.1 s).1 (call p.2 p.1 s).2

/-- What is noted about an operation. -/
def notes (c : Client τ) : ClientOperation → τ → List (ℕ × CallOutcome)
  | .sendMessage req, s => c.unaryNotes "SendMessage" .sendMessageRequest .sendMessageResponse
      c.transport.sendMessage req s
  | .sendStreamingMessage req, s =>
    Chain.onOk (c.interceptBefore "SendStreamingMessage" .sendMessageRequest req s)
      fun p s => c.fallbackRound p.2 p.1 (c.card s) s
  | .getTask req, s => c.unaryNotes "GetTask" .getTaskRequest .task c.transport.getTask req s
  | .listTasks req, s => c.unaryNotes "ListTasks" .listTasksRequest .listTasksResponse
      c.transport.listTasks req s
  | .cancelTask req, s =>
    c.unaryNotes "CancelTask" .cancelTaskRequest .task c.transport.cancelTask req s
  | .subscribeToTask _, _ => []
  | .getAgentCard, s => c.cardRound (c.card s) s

theorem visits_eq_notes (op : ClientOperation) (s : τ) : c.visits op s = c.notes op s := by
  have hlog : ∀ {α : Type} {notes : τ → List (ℕ × CallOutcome)} {m : Handling τ α}
      {m' : Handling (τ × List (ℕ × CallOutcome)) α}, Chain.Writes notes m m' →
      (m' (s, [])).2.2 = notes s := by
    intro α notes m m' hm
    rw [hm]
    exact List.nil_append _
  cases op with
  | sendMessage req =>
    exact hlog (c.writes_unary "SendMessage" .sendMessageRequest .sendMessageResponse
      c.transport.sendMessage req)
  | sendStreamingMessage req => exact hlog (c.writes_sendStreamingMessage req)
  | getTask req =>
    exact hlog (c.writes_unary "GetTask" .getTaskRequest .task c.transport.getTask req)
  | listTasks req =>
    exact hlog (c.writes_unary "ListTasks" .listTasksRequest .listTasksResponse
      c.transport.listTasks req)
  | cancelTask req =>
    exact hlog (c.writes_unary "CancelTask" .cancelTaskRequest .task c.transport.cancelTask req)
  | subscribeToTask req => exact hlog (c.writes_subscribeToTask req)
  | getAgentCard => exact hlog c.writes_getAgentCard

/-- Without interceptors nobody is visited. -/
theorem visits_of_nil (hnil : c.interceptors = []) (op : ClientOperation) (s : τ) :
    c.visits op s = [] := by
  rw [visits_eq_notes]
  cases op with
  | sendStreamingMessage req =>
    simp only [notes, fallbackRound, round_of_nil hnil, ite_self, Chain.onOk_nil]
  | subscribeToTask req => rfl
  | getAgentCard =>
    simp only [notes, cardRound, round_of_nil hnil]
    split <;> rfl
  | _ => simp only [notes, unaryNotes, round_of_nil hnil, Chain.onOk_nil]

/-- An outcome that nobody is visited for. -/
theorem not_allVisited_singleton {outcome : CallOutcome} (hne : c.interceptors ≠ []) :
    ¬ Chain.AllVisited (List.range c.interceptors.length) [outcome] [] := by
  refine Chain.not_allVisited_singleton (fun hnil => hne ?_) outcome
  rwa [List.range_eq_nil, List.length_eq_zero_iff] at hnil

/-- A stream that nobody is visited for has no items. -/
theorem allVisited_stream_iff (hne : c.interceptors ≠ [])
    {r : Except A2AError (List (Except A2AError Event))} :
    Chain.AllVisited (List.range c.interceptors.length) (streamOutcomes r) [] ↔ r = .ok [] := by
  cases r with
  | error e => exact iff_of_false (not_allVisited_singleton hne) (by intro he; cases he)
  | ok stream =>
    constructor
    · intro hall
      have hlength := hall.length_eq
      rw [List.length_nil, List.length_range, eq_comm, Nat.mul_eq_zero,
        List.length_eq_zero_iff, List.length_eq_zero_iff] at hlength
      have hnil := hlength.resolve_right hne
      rw [streamOutcomes, List.map_eq_nil_iff] at hnil
      rw [hnil]
    · intro he
      cases he
      exact ⟨[], .nil, rfl⟩

/-- The hooks see what comes after the hooks before, if these keep the request. -/
theorem allVisited_after_iff {method : String} {P : PayloadType} {req : P.Carrier} {s : τ}
    {rest : P.Carrier × ServiceParams → τ → List CallOutcome}
    {notes : P.Carrier × ServiceParams → τ → List (ℕ × CallOutcome)}
    {good : P.Carrier × ServiceParams → τ → Prop} (hne : c.interceptors ≠ [])
    (h : ∀ p s', Chain.AllVisited (List.range c.interceptors.length) (rest p s') (notes p s') ↔
      good p s') :
    Chain.AllVisited (List.range c.interceptors.length)
        (outcomesAfter (c.interceptBefore method P req s) rest)
        (Chain.onOk (c.interceptBefore method P req s) notes) ↔ c.Keeps method P req s good := by
  unfold Keeps
  rcases c.interceptBefore method P req s with ⟨e | p, s'⟩
  · refine iff_of_false (not_allVisited_singleton hne) ?_
    rintro ⟨p, s'', he, -⟩
    cases he
  · refine (h p s').trans ⟨fun hgood => ⟨p, s', rfl, hgood⟩, ?_⟩
    rintro ⟨p', s'', he, hgood⟩
    cases he
    exact hgood

theorem allVisited_unary_iff (hne : c.interceptors ≠ []) (hok : ∀ i ∈ c.interceptors, i.Succeeds)
    {method : String} {P R : PayloadType} {call : ServiceParams → P.Carrier → Handling τ R.Carrier}
    {req : P.Carrier} {s : τ} :
    Chain.AllVisited (List.range c.interceptors.length) (c.unaryOutcomes method P R call req s)
        (c.unaryNotes method P R call req s) ↔ c.Keeps method P req s fun _ _ => True :=
  allVisited_after_iff hne fun _ _ =>
    iff_of_true (Chain.allVisited_singleton (visited_round hok _ _ _ _)) trivial

/-- The hooks see a card that is not the cached one. -/
theorem allVisited_card_iff (hne : c.interceptors ≠ []) (hok : ∀ i ∈ c.interceptors, i.Succeeds)
    {card : Option AgentCard} {s : τ} :
    Chain.AllVisited (List.range c.interceptors.length) (c.cardOutcomes card s)
        (c.cardRound card s) ↔ (card.any fun card => !card.supportsExtendedCard) = false := by
  unfold cardOutcomes cardRound
  cases hcard : card.filter fun card => !card.supportsExtendedCard with
  | none =>
    refine iff_of_true (Chain.allVisited_singleton (visited_round hok _ _ _ _)) ?_
    have hnone := Option.filter_eq_none_iff.mp hcard
    cases card with
    | none => rfl
    | some k => exact Bool.eq_false_iff.mpr (hnone k rfl)
  | some k =>
    obtain ⟨rfl, hk⟩ := Option.filter_eq_some_iff.mp hcard
    refine iff_of_false (not_allVisited_singleton hne) ?_
    intro hany
    change (!k.supportsExtendedCard) = false at hany
    rw [hk] at hany
    cases hany

/-- **The hooks after an operation see its outcomes** if they are there and return
`Ok`, unless the request has changed its type, or the card is cached, or there is
a stream. -/
theorem seesOutcomes_iff (hok : ∀ i ∈ c.interceptors, i.Succeeds) {op : ClientOperation} {s : τ} :
    c.SeesOutcomes op s ↔ c.AnsweredOnce op s := by
  unfold SeesOutcomes AnsweredOnce
  by_cases hne : c.interceptors = []
  · rw [visits_of_nil hne, hne]
    exact iff_of_true (Chain.allVisited_nil _) (Or.inl rfl)
  · rw [or_iff_right hne, visits_eq_notes]
    cases op with
    | sendMessage req => exact allVisited_unary_iff hne hok
    | getTask req => exact allVisited_unary_iff hne hok
    | listTasks req => exact allVisited_unary_iff hne hok
    | cancelTask req => exact allVisited_unary_iff hne hok
    | sendStreamingMessage req =>
      refine allVisited_after_iff hne fun p s' => ?_
      unfold fallbackRound
      split
      · rename_i hfallback
        exact iff_of_true (Chain.allVisited_singleton (visited_round hok _ _ _ _))
          (Or.inl hfallback)
      · rename_i hfallback
        rw [allVisited_stream_iff hne, or_iff_right hfallback]
    | subscribeToTask req =>
      have hnone : Chain.onOk (c.interceptBefore "SubscribeToTask" .subscribeToTaskRequest req s)
          (fun _ _ => ([] : List (ℕ × CallOutcome))) = [] := Chain.onOk_nil _
      change Chain.AllVisited _ (outcomesAfter _ _) [] ↔ _
      rw [← hnone]
      exact allVisited_after_iff hne fun p s' => allVisited_stream_iff hne
    | getAgentCard => exact allVisited_card_iff hne hok

end Client

/-! ### Both sides -/

/-- **Hooks that return `Ok` see every outcome** of a call of a handler and of an
operation of a client exactly where these lose none. -/
theorem afterHooks_see_iff {σ τ : Type} {h : InterceptedHandler σ} {c : Client τ}
    (hserver : ∀ i ∈ h.interceptors, i.Succeeds) (hclient : ∀ i ∈ c.interceptors, i.Succeeds)
    (requestMeta : RequestMeta) (m : HandlerMethod) (req : m.request.Carrier) (s : σ)
    (op : ClientOperation) (t : τ) :
    (h.SeesOutcomes requestMeta m req s ↔ h.NoErrorApart requestMeta m req s) ∧
      (c.SeesOutcomes op t ↔ c.AnsweredOnce op t) :=
  ⟨InterceptedHandler.seesOutcomes_iff hserver, Client.seesOutcomes_iff hclient⟩

/-- A transport that reaches nobody. -/
def offline : Transport Unit where
  sendMessage _ _ := throw (.http "connection refused")
  sendStreamingMessage _ _ := throw (.http "connection refused")
  getTask _ _ := throw (.http "connection refused")
  listTasks _ _ := throw (.http "connection refused")
  cancelTask _ _ := throw (.http "connection refused")
  subscribeToTask _ _ := throw (.http "connection refused")
  getAgentCard := throw (.http "connection refused")

def offlineClient : Client Unit where
  transport := offline
  interceptors := [passthroughInterceptor Unit]
  card _ := none
  setCard _ s := s

/-- A handler with one interceptor, around one that cannot be subscribed to. -/
def interceptedEcho : InterceptedHandler Unit where
  inner _ := echoing Unit
  interceptors := [Middleware.passthroughInterceptor Unit]

theorem passthroughs_succeed :
    (∀ i ∈ interceptedEcho.interceptors, i.Succeeds) ∧
      ∀ i ∈ offlineClient.interceptors, i.Succeeds := by
  constructor <;> intro i hi <;> obtain rfl := List.mem_singleton.mp hi
  · exact ⟨fun ctx req s => ⟨_, s, rfl⟩, fun _ resp s => ⟨resp, s, rfl⟩⟩
  · exact ⟨fun req s => ⟨req, s, rfl⟩, fun resp s => ⟨resp, s, rfl⟩⟩

/-- A subscription that fails, on both sides: the hooks after it are not run. -/
theorem failedSubscription_unseen :
    ((∀ i ∈ interceptedEcho.interceptors, i.Succeeds) ∧
        ¬ interceptedEcho.SeesOutcomes ⟨∅⟩ (.streaming .subscribeToTask) ⟨none, "t1"⟩ ()) ∧
      (∀ i ∈ offlineClient.interceptors, i.Succeeds) ∧
        ¬ offlineClient.SeesOutcomes (.subscribeToTask ⟨none, "t1"⟩) () := by
  refine ⟨⟨passthroughs_succeed.1, fun hsees => ?_⟩, passthroughs_succeed.2, fun hsees => ?_⟩
  · have hlength := hsees.length_eq
    change 0 = 1 at hlength
    omega
  · have hlength := hsees.length_eq
    change 0 = 1 at hlength
    omega

/-- The hooks see the event of a stream, and a send that fails. -/
theorem afterHooks_see_iff_echo :
    interceptedEcho.SeesOutcomes ⟨∅⟩ (.streaming .messageStream)
        ⟨none, .new "m1" .user [.text "hello"], none, none⟩ () ∧
      offlineClient.SeesOutcomes
        (.sendMessage ⟨none, .new "m1" .user [.text "hello"], none, none⟩) () := by
  obtain ⟨hserver, hclient⟩ := afterHooks_see_iff passthroughs_succeed.1 passthroughs_succeed.2
    ⟨∅⟩ (.streaming .messageStream) ⟨none, .new "m1" .user [.text "hello"], none, none⟩ ()
    (.sendMessage ⟨none, .new "m1" .user [.text "hello"], none, none⟩) ()
  refine ⟨hserver.mpr (Or.inr ⟨_, (), rfl, _, (), rfl, fun e he => ?_⟩),
    hclient.mpr (Or.inr ⟨_, (), rfl, trivial⟩)⟩
  cases List.mem_singleton.mp he

end Ra2a
