import Ra2a.Server.Handler.Frames
import Ra2a.Types.Agent

/-!
# Push configurations beside the running server

The four methods on push configurations first ask `require_push_support`, which
refuses them if the card does not announce push notifications.  Here their calls
run beside the server: `operations` is a machine with the whole server as one
thread and every such call as another.

The configuration that comes with a message is saved with no such question.  So
the store of an agent without push notifications stays empty along the runs in
which no message brings one that the store accepts (`pushConfigs_reach`).
-/

namespace Ra2a

open Interleave

/-! ### The four methods -/

/-- A call of one of the methods on push configurations. -/
inductive PushCall
  | create (params : TaskPushNotificationConfig)
  | get (params : GetTaskPushNotificationConfigRequest)
  | list (params : ListTaskPushNotificationConfigsRequest)
  | delete (params : DeleteTaskPushNotificationConfigRequest)

/-- The task the call is about. -/
def PushCall.taskId : PushCall → String
  | create params => params.taskId.getD ""
  | get params => params.taskId
  | list params => params.taskId
  | delete params => params.taskId

inductive PushResponse
  | config (config : TaskPushNotificationConfig)
  | configs (response : ListTaskPushNotificationConfigsResponse)
  | deleted

namespace DefaultRequestHandler

variable (h : DefaultRequestHandler)

/-- `require_push_support`. -/
def requirePushSupport (card : AgentCard) (taskId : String) : Except A2AError Unit :=
  if card.supportsPushNotifications then
    match h.getTaskInternal taskId with
    | some _ => .ok ()
    | none => .error (.taskNotFound taskId)
  else .error .pushNotificationNotSupported

/-- `on_create_task_push_config`, once it is let through. -/
def createTaskPushConfig (params : TaskPushNotificationConfig) (uuid : String) :
    Except A2AError TaskPushNotificationConfig × DefaultRequestHandler :=
  match h.pushConfigStore.save (params.taskId.getD "")
      ⟨params.id, params.url, params.token, params.authentication⟩ uuid with
  | (.error e, store) => (.error e, { h with pushConfigStore := store })
  | (.ok saved, store) =>
    (.ok ⟨params.tenant, saved.id, params.taskId, saved.url, saved.token, saved.authentication⟩,
      { h with pushConfigStore := store })

/-- `on_get_task_push_config`, once it is let through. -/
def getTaskPushConfig (params : GetTaskPushNotificationConfigRequest) :
    Except A2AError TaskPushNotificationConfig :=
  match h.pushConfigStore.get params.taskId params.id with
  | .error e => .error e
  | .ok config => .ok ⟨params.tenant, some params.id, some params.taskId, config.url, config.token,
      config.authentication⟩

/-- `on_list_task_push_configs`, once it is let through and has its list. -/
def listTaskPushConfigs (params : ListTaskPushNotificationConfigsRequest)
    (configs : List PushNotificationConfig) : ListTaskPushNotificationConfigsResponse where
  configs := configs.mapIdx fun i c =>
    ⟨params.tenant, some (c.id.getD (toString i)), some params.taskId, c.url, c.token,
      c.authentication⟩
  nextPageToken := none

/-- `on_delete_task_push_config`, once it is let through. -/
def deleteTaskPushConfig (params : DeleteTaskPushNotificationConfigRequest) :
    DefaultRequestHandler :=
  { h with pushConfigStore := h.pushConfigStore.delete params.taskId params.id }

/-- What a call does once it is let through.  `order` is the order in which the
hash map gives the configurations of a task. -/
def onPushCall (tick : Tick) (order : List PushNotificationConfig) :
    PushCall → Option (Except A2AError PushResponse × DefaultRequestHandler)
  | .create params =>
    let r := h.createTaskPushConfig params tick.configUuid
    some (r.1.map .config, r.2)
  | .get params => some ((h.getTaskPushConfig params).map .config, h)
  | .list params =>
    if (order : Multiset PushNotificationConfig) = h.pushConfigStore.list params.taskId then
      some (.ok (.configs (listTaskPushConfigs params order)), h)
    else none
  | .delete params => some (.ok .deleted, h.deleteTaskPushConfig params)

end DefaultRequestHandler

/-! ### All operations -/

/-- Where a call is: before the question, before it works on the store, or
through with it. -/
inductive PushPc
  | received
  | supported
  | done (result : Except A2AError PushResponse)
  | dropped

/-- The server with its own threads, or a call beside it. -/
inductive Operation
  | service
  | push (call : PushCall) (pc : PushPc)

inductive OperationMove
  | serve (l : Label Thread Move)
  | tick (t : Tick) (order : List PushNotificationConfig)
  | drop

def Operation.isFresh : Operation → Bool
  | .push _ .received => true
  | _ => false

def Operation.advance (card : AgentCard) (c : ServerConfig) (m : OperationMove) :
    Operation → Option (ServerConfig × Operation)
  | .service =>
    match m with
    | .serve l => (server.step c l).map fun c' => (c', .service)
    | _ => none
  | .push call .received =>
    match m with
    | .tick _ _ =>
      match c.shared.requirePushSupport card call.taskId with
      | .ok () => some (c, .push call .supported)
      | .error e => some (c, .push call (.done (.error e)))
    | .drop => some (c, .push call .dropped)
    | .serve _ => none
  | .push call .supported =>
    match m with
    | .tick t order =>
      (c.shared.onPushCall t order call).map fun r => (⟨r.2, c.threads⟩, .push call (.done r.1))
    | .drop => some (c, .push call .dropped)
    | .serve _ => none
  | .push _ (.done _) => none
  | .push _ .dropped => none

/-- **The server and the calls beside it**, for an agent with this card. -/
def operations (card : AgentCard) : Machine ServerConfig Operation OperationMove where
  fresh := Operation.isFresh
  advance c _ _ m o := (o.advance card c m).map fun r => (r.1, r.2, [])

abbrev OperationsConfig := Config ServerConfig Operation

/-- A server and no call beside it. -/
def serving (c : ServerConfig) : OperationsConfig := ⟨c, [.service]⟩

/-! ### Who writes the store -/

variable {h h' : DefaultRequestHandler} {threads new : List Thread} {i : ℕ}

@[simp] theorem DefaultRequestHandler.pushConfigStore_abortRunning (k : TaskId) :
    (h.abortRunning k).pushConfigStore = h.pushConfigStore := by
  obtain ⟨_, _, he⟩ := h.abortRunning_eq k
  rw [he]

/-- The request is about to save the configuration of its message. -/
def Request.Configures (r : Request) (params : SendMessageRequest) (ctx : RequestContext) : Prop :=
  r.pc = .resolved ctx ∧ (r.call = .messageSend params ∨ r.call = .messageStream params)

theorem Request.Step.pushConfigStore {r r' : Request} (hs : r.Step h threads i h' r' new) :
    h'.pushConfigStore = h.pushConfigStore ∨
      ∃ params ctx tick, r.Configures params ctx ∧
        h' = h.saveInlinePushConfig params ctx.taskId tick := by
  cases hs with
  | configure params ctx tick hpc hcall => exact Or.inr ⟨params, ctx, tick, ⟨hpc, hcall⟩, rfl⟩
  | abort => exact Or.inl (by simp)
  | _ => exact Or.inl rfl

theorem Execution.Step.pushConfigStore {x x' : Execution} {m : Move}
    (hs : x.Step h i m h' x') : h'.pushConfigStore = h.pushConfigStore := by
  cases hs <;> rfl

/-- **Only a request with a message writes the store of push configurations.** -/
theorem pushConfigStore_step {m : Move} {t t' : Thread}
    (ha : server.advance h threads i m t = some (h', t', new)) :
    h'.pushConfigStore = h.pushConfigStore ∨
      ∃ r params ctx tick, t = .request r ∧ r.Configures params ctx ∧ (∃ tick, m = .tick tick) ∧
        h' = h.saveInlinePushConfig params ctx.taskId tick := by
  rcases cases_of_step ha with ⟨r, r', rfl, rfl, hs, hm⟩ | ⟨x, x', rfl, rfl, rfl, hs⟩ |
    ⟨g, rfl, -, rfl, rfl, rfl⟩
  · rcases hm with hm | ⟨rfl, -⟩
    · rcases hs.pushConfigStore with hsame | ⟨params, ctx, tick, hr, rfl⟩
      · exact Or.inl hsame
      · exact Or.inr ⟨r, params, ctx, tick, rfl, hr, hm, rfl⟩
    · exact Or.inl rfl
  · exact Or.inl hs.pushConfigStore
  · exact Or.inl rfl

/-- What such a request does at its step. -/
theorem Request.Configures.advance {r : Request} {params : SendMessageRequest}
    {ctx : RequestContext} (hr : r.Configures params ctx) (tick : Tick) :
    server.advance h threads i (.tick tick) (.request r) =
      some (h.saveInlinePushConfig params ctx.taskId tick,
        .request (r.goto (.intercepting ctx.taskId ctx 0)), []) := by
  obtain ⟨hpc, hcall⟩ := hr
  change (r.advance h threads i tick).map _ = _
  rw [Request.advance, hpc]
  rcases hcall with hcall | hcall <;> rw [hcall] <;> rfl

/-! ### An agent without push notifications -/

/-- The configuration a message brings. -/
def SendMessageRequest.inlineConfig (params : SendMessageRequest) : Option PushNotificationConfig :=
  (params.configuration.bind SendMessageConfiguration.taskPushNotificationConfig).map fun tpc =>
    ⟨tpc.id, tpc.url, tpc.token, tpc.authentication⟩

/-- A save leaves an empty store empty exactly if the configuration is not valid. -/
theorem save_new_iff {k uuid : String} {config : PushNotificationConfig} :
    ((InMemoryPushNotificationConfigStore.new).save k config uuid).2 = .new ↔
      validatePushConfig config ≠ .ok () := by
  rw [InMemoryPushNotificationConfigStore.save_eq_self_iff,
    InMemoryPushNotificationConfigStore.Takes, not_and_or]
  constructor
  · rintro (hv | hin)
    · exact hv
    · refine absurd ?_ hin
      change (∅ : Finmap fun _ : String => PushNotificationConfig).lookup _ ≠ _
      rw [Finmap.lookup_empty]
      simp
  · exact Or.inl

/-- The same of what a message brings. -/
theorem saveInlinePushConfig_new_iff {params : SendMessageRequest} {k : TaskId} {tick : Tick}
    (hnew : h.pushConfigStore = .new) :
    (h.saveInlinePushConfig params k tick).pushConfigStore = .new ↔
      ∀ config, params.inlineConfig = some config → validatePushConfig config ≠ .ok () := by
  rw [DefaultRequestHandler.saveInlinePushConfig, SendMessageRequest.inlineConfig]
  cases params.configuration.bind SendMessageConfiguration.taskPushNotificationConfig with
  | none => simp [hnew]
  | some tpc =>
    dsimp only
    rw [hnew, save_new_iff]
    simp

/-- At this step of the server no message brings a valid configuration. -/
def BringsNoConfig (c : OperationsConfig) : Label Operation OperationMove → Prop
  | .run _ (.serve (.run j (.tick _))) =>
    ∀ r params ctx config, c.shared.threads[j]? = some (.request r) → r.Configures params ctx →
      params.inlineConfig = some config → validatePushConfig config ≠ .ok ()
  | _ => True

/-- Nothing is configured, and no call is let through. -/
structure Unconfigured (c : OperationsConfig) : Prop where
  empty : c.shared.shared.pushConfigStore = .new
  refused : ∀ (j : ℕ) (call : PushCall), c.threads[j]? ≠ some (.push call .supported)

variable {card : AgentCard}

theorem requirePushSupport_of_not_supports (hcard : card.supportsPushNotifications = false)
    (k : String) : h.requirePushSupport card k = .error .pushNotificationNotSupported := by
  rw [DefaultRequestHandler.requirePushSupport, hcard]
  rfl

/-- A step of the server keeps the store empty exactly if it brings nothing. -/
theorem serve_empty_iff {c : OperationsConfig} {s' : ServerConfig} {l : Label Thread Move} {n : ℕ}
    (hempty : c.shared.shared.pushConfigStore = .new) (hs : server.step c.shared l = some s') :
    s'.shared.pushConfigStore = .new ↔ BringsNoConfig c (.run n (.serve l)) := by
  rcases Machine.step_cases hs with ⟨t, rfl, -, rfl⟩ | ⟨j, m, t, h', t', new, rfl, ht, ha, rfl⟩
  · exact iff_of_true hempty trivial
  · by_cases hr : ∃ r params ctx tick, t = .request r ∧ r.Configures params ctx ∧ m = .tick tick
    · obtain ⟨r, params, ctx, tick, rfl, hr, rfl⟩ := hr
      rw [hr.advance] at ha
      cases ha
      rw [saveInlinePushConfig_new_iff hempty]
      constructor
      · intro hall r' params' ctx' config hr' hconf hin
        rw [ht] at hr'
        cases hr'
        obtain rfl : params' = params := by
          rcases hr.2 with h₁ | h₁ <;> rcases hconf.2 with h₂ | h₂ <;> rw [h₁] at h₂ <;>
            cases h₂ <;> rfl
        exact hall config hin
      · intro hall config hin
        exact hall r params ctx config ht hr hin
    · refine iff_of_true ?_ ?_
      · rcases pushConfigStore_step ha with hsame | ⟨r, params, ctx, tick, rfl, hconf, ⟨t, rfl⟩, -⟩
        · exact hsame.trans hempty
        · exact absurd ⟨r, params, ctx, t, rfl, hconf, rfl⟩ hr
      · cases m with
        | tick tick =>
          intro r params ctx config hr' hconf
          rw [ht] at hr'
          cases hr'
          exact absurd ⟨r, params, ctx, tick, rfl, hconf, rfl⟩ hr
        | _ => exact trivial

/-- A call that is not let through leaves all as it was. -/
theorem push_refused (hcard : card.supportsPushNotifications = false) {s s' : ServerConfig}
    {m : OperationMove} {call : PushCall} {pc : PushPc} {o' : Operation} (hpc : pc ≠ .supported)
    (ha : Operation.advance card s m (.push call pc) = some (s', o')) :
    s' = s ∧ ∀ call', o' ≠ .push call' .supported := by
  cases pc with
  | received =>
    cases m with
    | serve l => cases ha
    | tick t order =>
      rw [Operation.advance, requirePushSupport_of_not_supports hcard] at ha
      cases ha
      exact ⟨rfl, by simp⟩
    | drop =>
      cases ha
      exact ⟨rfl, by simp⟩
  | supported => exact absurd rfl hpc
  | done result => cases m <;> cases ha
  | dropped => cases m <;> cases ha

/-- One operation, whichever it is. -/
theorem Unconfigured.advance (hcard : card.supportsPushNotifications = false) {c : OperationsConfig}
    {m : OperationMove} {o o' : Operation} {s' : ServerConfig} (hI : Unconfigured c)
    (hok : BringsNoConfig c (.run i m)) (ho : c.threads[i]? = some o)
    (ha : o.advance card c.shared m = some (s', o')) :
    s'.shared.pushConfigStore = .new ∧ ∀ call, o' ≠ .push call .supported := by
  cases o with
  | service =>
    cases m with
    | serve l =>
      obtain ⟨s₁, hstep, he⟩ := Option.map_eq_some_iff.mp ha
      cases he
      exact ⟨(serve_empty_iff hI.empty hstep).mpr hok, by simp⟩
    | tick t order => cases ha
    | drop => cases ha
  | push call pc =>
    have hpc : pc ≠ .supported := by
      rintro rfl
      exact hI.refused i call ho
    obtain ⟨rfl, hnot⟩ := push_refused hcard hpc ha
    exact ⟨hI.empty, hnot⟩

/-- **Along a run in which no message brings a valid configuration, the store of an
agent without push notifications stays empty.** -/
theorem pushConfigs_reach (hcard : card.supportsPushNotifications = false) {s : ServerConfig}
    (hempty : s.shared.pushConfigStore = .new) {c : OperationsConfig}
    (hr : (operations card).Reach BringsNoConfig (serving s) c) :
    c.shared.shared.pushConfigStore = .new := by
  have hinv : Unconfigured c := by
    refine hr.invariant ⟨hempty, ?_⟩ ?_
    · intro j call hj
      rcases j with _ | j <;> cases hj
    · intro c l c' hI hok hs
      rcases Machine.step_cases hs with ⟨o, rfl, hf, rfl⟩ |
        ⟨i, m, o, s', o', new, rfl, ho, ha, rfl⟩
      · refine ⟨hI.empty, fun j call hj => ?_⟩
        rcases Places.getElem?_concat_cases hj with hj | ⟨-, rfl⟩
        · exact hI.refused j call hj
        · cases hf
      · obtain ⟨⟨s₁, o₁⟩, hadv, he⟩ := Option.map_eq_some_iff.mp ha
        cases he
        obtain ⟨hempty', hnot⟩ := hI.advance hcard hok ho hadv
        refine ⟨hempty', fun j call hj => ?_⟩
        rcases Machine.getElem?_moved hj with ⟨-, rfl⟩ | ⟨-, hj⟩ | ⟨-, hj⟩
        · exact absurd rfl (hnot call)
        · exact hI.refused j call hj
        · cases hj
  exact hinv.empty

/-! ### Two runs -/

/-- The card of an agent that announces nothing. -/
def plainCard : AgentCard := .new "agent" "" []

/-- A send with this address to be told at. -/
def sendWithUrl (url : String) : Thread := .request
  { call := .messageSend
      { tenant := none
        message := Message.new "m1" .user [.text "hello"]
        configuration := some ⟨[], some ⟨none, none, none, url, none, none⟩, none, false⟩
        metadata := none }
    serviceParams := ∅
    pc := .received
    received := [] }

/-- A call that registers an address arrives and is refused, and then a send
arrives and works on its configuration. -/
def configuring (url : String) : List (Label Operation OperationMove) :=
  let tick : Tick := ⟨"12:00", "u1", "u2", "v1"⟩
  [.arrive (.push (.create ⟨none, none, some "t1", "https://example.com", none, none⟩) .received),
    .run 1 (.tick tick []), .run 0 (.serve (.arrive (sendWithUrl url))),
    .run 0 (.serve (.run 0 (.tick tick))), .run 0 (.serve (.run 0 (.tick tick)))]

def configuredBy (url : String) : OperationsConfig :=
  ((operations plainCard).exec (serving ⟨.new, []⟩) (configuring url)).getD (serving ⟨.new, []⟩)

theorem configuring_bringsNoConfig :
    (operations plainCard).Along BringsNoConfig (serving ⟨.new, []⟩) (configuring "ftp://x") := by
  refine ⟨trivial, trivial, trivial, ?_, ?_, trivial⟩
  · intro r params ctx config hr hconf
    cases hr
    cases hconf.1
  · intro r params ctx config hr hconf hin
    cases hr
    rcases hconf.2 with h | h <;> cases h
    cases hin
    simp [validatePushConfig]

theorem pushConfigs_reach_configuring :
    (configuredBy "ftp://x").shared.shared.pushConfigStore = .new :=
  pushConfigs_reach rfl rfl (.of_along configuring_bringsNoConfig rfl)

/-- An agent that does not support push notifications registers an address. -/
theorem configuredBy_not_empty :
    plainCard.supportsPushNotifications = false ∧
      (operations plainCard).Reach Machine.Always (serving ⟨.new, []⟩)
        (configuredBy "https://example.com") ∧
      (configuredBy "https://example.com").shared.shared.pushConfigStore ≠ .new := by
  refine ⟨rfl, .of_exec (show (operations plainCard).exec _ (configuring "https://example.com") =
    some (configuredBy "https://example.com") from rfl), ?_⟩
  intro hnew
  have hvalid := (saveInlinePushConfig_new_iff (h := .new) (k := "u1") rfl).mp hnew _ rfl
  simp [validatePushConfig] at hvalid

end Ra2a
