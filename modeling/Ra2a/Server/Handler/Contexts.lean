import Ra2a.Server.Handler.Identity

/-!
# What `build_request_context` makes of a request, and what it leaves

A message may name its task, its context, both or neither.  A task named alone
must be in the store, and gives the context.  Where both are named the store is
asked for the task, but nothing is made of the answer: a task that is not there
is taken for a new one, and the context is the one named, whatever context the
stored task has.  So the ids of a context are those of the task in it exactly
when a message that names both names a stored task with its own context
(`resolvesTask_iff`).

A request that is refused leaves nothing behind, but for the push configuration
it carries: that is saved before the interceptors are asked
(`refused_unchanged_iff`).
-/

namespace Ra2a

/-! ### Which task it is -/

/-- The message has an id and parts. -/
def Message.Valid (m : Message) : Prop := m.id.isEmpty = false ∧ m.parts.isEmpty = false

/-- Which task a context is about. -/
def RequestContext.subject (ctx : RequestContext) : TaskId × ContextId × Option Task :=
  (ctx.taskId, ctx.contextId, ctx.storedTask)

/-- An interceptor that leaves alone which task a context is about. -/
def RequestContextInterceptor.KeepsSubject (i : RequestContextInterceptor) : Prop :=
  ∀ store ctx ctx', i store ctx = .ok ctx' → ctx'.subject = ctx.subject

theorem keepsSubject_referencedTasksLoader : referencedTasksLoader.KeepsSubject := by
  intro store ctx ctx' h
  obtain ⟨_, rfl⟩ := referencedTasksLoader_eq h
  rfl

namespace DefaultRequestHandler

variable {h : DefaultRequestHandler} {params : SendMessageRequest}
  {serviceParams : Finmap fun _ : String => List String} {tick : Tick}

/-- **What it takes to resolve a context**: the message is valid, its ids are resolved,
and the task stored for them is not terminal. -/
theorem resolveContext_spec {ctx : RequestContext}
    (hctx : h.resolveContext params serviceParams tick = .ok ctx) :
    params.message.Valid ∧ h.resolveIds params.message tick = .ok ctx.subject ∧
      ctx.storedTask.filter Task.isTerminal = none := by
  unfold resolveContext at hctx
  split at hctx
  · cases hctx
  · rename_i hid
    split at hctx
    · cases hctx
    · rename_i hparts
      split at hctx
      · cases hctx
      · rename_i hids
        split at hctx <;> cases hctx
        exact ⟨⟨Bool.eq_false_of_not_eq_true hid, Bool.eq_false_of_not_eq_true hparts⟩, hids, ‹_›⟩

/-- **Where a stored task comes from**: the message names it, and the context is the one
the message names or, where it names none, the task's. -/
theorem resolveIds_stored {message : Message} {taskId contextId : String} {t : Task}
    (hids : h.resolveIds message tick = .ok (taskId, contextId, some t)) :
    message.taskId = some taskId ∧ h.getTaskInternal taskId = some t ∧
      (message.contextId = none ∧ contextId = t.contextId ∨
        message.contextId = some contextId) := by
  unfold resolveIds at hids
  split at hids
  · rename_i tid cid htid hcid
    obtain ⟨rfl, rfl, hget⟩ : tid = taskId ∧ cid = contextId ∧ h.getTaskInternal tid = some t := by
      simpa using hids
    exact ⟨htid, hget, Or.inr hcid⟩
  · rename_i tid htid hcid
    split at hids
    · rename_i stored hget
      cases hids
      exact ⟨htid, hget, Or.inl ⟨hcid, rfl⟩⟩
    · cases hids
  · cases hids
  · cases hids

/-- A valid message is resolved to the ids there are for it, if these are of no terminal
task. -/
theorem resolveContext_of_ids {taskId contextId : String} {storedTask : Option Task}
    (hvalid : params.message.Valid)
    (hids : h.resolveIds params.message tick = .ok (taskId, contextId, storedTask))
    (hopen : storedTask.filter Task.isTerminal = none) :
    h.resolveContext params serviceParams tick = .ok
      { RequestContext.new taskId contextId with
        message := some params.message
        storedTask := storedTask
        metadata := params.metadata.getD ∅
        tenant := params.tenant
        serviceParams := serviceParams } := by
  unfold resolveContext
  rw [hvalid.1, hvalid.2, hids]
  simp only [Bool.false_eq_true, if_false, hopen]

/-- A context that is ready was resolved and passed the interceptors. -/
theorem of_ready {h' : DefaultRequestHandler} {ctx : RequestContext} {q : ℕ}
    (hbuild : h.buildRequestContext params serviceParams tick = (h', .ready ctx q)) :
    ∃ resolved, h.resolveContext params serviceParams tick = .ok resolved ∧
      h.intercept resolved = .ok ctx := by
  have hexec : h.executed params serviceParams tick = some ctx := by
    rw [executed, hbuild]
  obtain ⟨resolved, hres, hint, -⟩ := executed_eq_some hexec
  exact ⟨resolved, hres, hint⟩

end DefaultRequestHandler

open DefaultRequestHandler

/-- What `build_request_context` owes a message, over the tasks of a store: a context
with a stored task has the ids of this task, and a message that names a task the store
does not have is refused, a valid one because of that. -/
structure ResolvesTask (store : InMemoryTaskStore) (message : Message) : Prop where
  ids : ∀ (h : DefaultRequestHandler) params serviceParams tick h' ctx q t,
    h.taskStore = store → params.message = message →
    (∀ i ∈ h.reqContextInterceptors, i.KeepsSubject) →
    h.buildRequestContext params serviceParams tick = (h', .ready ctx q) →
    ctx.storedTask = some t → ctx.taskId = t.id ∧ ctx.contextId = t.contextId
  missing : ∀ (h : DefaultRequestHandler) params serviceParams tick tid,
    h.taskStore = store → params.message = message →
    message.taskId = some tid → store.task? tid = none →
    ∃ e, (h.buildRequestContext params serviceParams tick).2 = .refused e ∧
      (message.Valid → e = .taskNotFound tid)

/-- A valid message that names a task and a context names a stored task, which is
terminal or has this context. -/
def NamesStored (store : InMemoryTaskStore) (message : Message) : Prop :=
  ∀ tid cid, message.Valid → message.taskId = some tid → message.contextId = some cid →
    ∃ t, store.task? tid = some t ∧ (t.isTerminal = true ∨ t.contextId = cid)

/-- A handler with this store, that has done nothing yet. -/
def handlerOf (store : InMemoryTaskStore) : DefaultRequestHandler := { new with taskStore := store }

/-- The request that is this message and nothing else. -/
def requestOf (message : Message) : SendMessageRequest := ⟨none, message, none, none⟩

/-- It accepts whatever it can resolve. -/
theorem ready_handlerOf {store : InMemoryTaskStore} {message : Message} {tick : Tick}
    {ctx : RequestContext}
    (hctx : (handlerOf store).resolveContext (requestOf message) ∅ tick = .ok ctx) :
    ∃ h', (handlerOf store).buildRequestContext (requestOf message) ∅ tick =
      (h', .ready ctx 0) := by
  unfold buildRequestContext
  rw [hctx]
  exact ⟨_, rfl⟩

/-- The ids a message with both resolves to. -/
theorem resolveIds_both (h : DefaultRequestHandler) {message : Message} (tick : Tick)
    {tid : TaskId} {cid : ContextId} (htid : message.taskId = some tid)
    (hcid : message.contextId = some cid) :
    h.resolveIds message tick = .ok (tid, cid, h.getTaskInternal tid) := by
  unfold resolveIds
  rw [htid, hcid]

theorem namesStored_of_resolvesTask {store : InMemoryTaskStore} {message : Message}
    (hr : ResolvesTask store message) : NamesStored store message := by
  intro tid cid hvalid htid hcid
  have hids := resolveIds_both (handlerOf store) ⟨"", "", "", ""⟩ htid hcid
  cases hstored : store.task? tid with
  | none =>
    -- it is taken for a new task
    have hget : (handlerOf store).getTaskInternal tid = none := hstored
    have hres : (handlerOf store).resolveContext (requestOf message) ∅ ⟨"", "", "", ""⟩ = .ok _ :=
      resolveContext_of_ids hvalid hids (by rw [hget]; rfl)
    obtain ⟨h', hready⟩ := ready_handlerOf hres
    obtain ⟨e, he, -⟩ := hr.missing (handlerOf store) (requestOf message) ∅ ⟨"", "", "", ""⟩ tid rfl
      rfl htid hstored
    rw [hready] at he
    cases he
  | some t =>
    refine ⟨t, rfl, ?_⟩
    by_cases hterm : t.isTerminal = true
    · exact Or.inl hterm
    · right
      have hget : (handlerOf store).getTaskInternal tid = some t := hstored
      have hres : (handlerOf store).resolveContext (requestOf message) ∅ ⟨"", "", "", ""⟩ = .ok _ :=
        resolveContext_of_ids hvalid hids (by rw [hget, Option.filter_some, if_neg hterm])
      obtain ⟨h', hready⟩ := ready_handlerOf hres
      exact (hr.ids (handlerOf store) (requestOf message) ∅ ⟨"", "", "", ""⟩ h' _ 0 t rfl rfl
        (fun i hi => absurd hi List.not_mem_nil) hready hget).2.symm

/-- A context resolved of a message whose ids are right has the ids of its task. -/
theorem subject_of_namesStored {h : DefaultRequestHandler} {params : SendMessageRequest}
    {serviceParams : Finmap fun _ : String => List String} {tick : Tick} {ctx : RequestContext}
    {t : Task} (hnames : NamesStored h.taskStore params.message)
    (hctx : h.resolveContext params serviceParams tick = .ok ctx) (ht : ctx.storedTask = some t) :
    ctx.taskId = t.id ∧ ctx.contextId = t.contextId := by
  obtain ⟨hvalid, hids, hopen⟩ := resolveContext_spec hctx
  rw [RequestContext.subject, ht] at hids
  rw [ht] at hopen
  obtain ⟨htid, hget, hcontext⟩ := resolveIds_stored hids
  refine ⟨(id_of_getTaskInternal hget).symm, ?_⟩
  rcases hcontext with ⟨-, hcontext⟩ | hcid
  · exact hcontext
  · obtain ⟨stored, hstored, hor⟩ := hnames _ _ hvalid htid hcid
    obtain rfl : t = stored := Option.some.inj (hget.symm.trans hstored)
    rcases hor with hterm | hsame
    · rw [Option.filter_some, if_pos hterm] at hopen
      cases hopen
    · exact hsame.symm

/-- A message for a task that is not stored is refused where it does not name a context. -/
theorem refused_of_missing {h : DefaultRequestHandler} {params : SendMessageRequest}
    {serviceParams : Finmap fun _ : String => List String} {tick : Tick} {tid : TaskId}
    (hnames : NamesStored h.taskStore params.message) (htid : params.message.taskId = some tid)
    (hnone : h.getTaskInternal tid = none) :
    ∃ e, (h.buildRequestContext params serviceParams tick).2 = .refused e ∧
      (params.message.Valid → e = .taskNotFound tid) := by
  have herror : ∀ e, h.resolveContext params serviceParams tick = .error e →
      (h.buildRequestContext params serviceParams tick).2 = .refused e := by
    intro e he
    rw [buildRequestContext, he]
  by_cases hvalid : params.message.Valid
  · refine ⟨.taskNotFound tid, herror _ ?_, fun _ => rfl⟩
    have hids : h.resolveIds params.message tick = .error (.taskNotFound tid) := by
      unfold resolveIds
      rw [htid]
      cases hcid : params.message.contextId with
      | none => simp only [hnone]
      | some cid =>
        obtain ⟨t, ht, -⟩ := hnames tid cid hvalid htid hcid
        rw [show h.taskStore.task? tid = none from hnone] at ht
        cases ht
    unfold resolveContext
    rw [hvalid.1, hvalid.2, hids]
    rfl
  · cases hres : h.resolveContext params serviceParams tick with
    | error e => exact ⟨e, herror e hres, fun hv => absurd hv hvalid⟩
    | ok ctx => exact absurd (resolveContext_spec hres).1 hvalid

/-- **The ids of a context are those of its task, and a missing task is refused, exactly
when a message that names a task and a context names a stored task**, which is terminal or
has this context. -/
theorem resolvesTask_iff (store : InMemoryTaskStore) (message : Message) :
    ResolvesTask store message ↔ NamesStored store message := by
  refine ⟨namesStored_of_resolvesTask, fun hnames => ⟨?_, ?_⟩⟩
  · rintro h params serviceParams tick h' ctx q t rfl rfl hkeep hbuild ht
    obtain ⟨resolved, hres, hint⟩ := of_ready hbuild
    have hsubject : ctx.subject = resolved.subject :=
      intercept_keeps RequestContext.subject hkeep hint
    obtain ⟨htask, hcontext, hstored⟩ : ctx.taskId = resolved.taskId ∧
        ctx.contextId = resolved.contextId ∧ ctx.storedTask = resolved.storedTask := by
      simpa [RequestContext.subject] using hsubject
    rw [htask, hcontext]
    exact subject_of_namesStored hnames hres (hstored ▸ ht)
  · rintro h params serviceParams tick tid rfl rfl htid hnone
    exact refused_of_missing hnames htid hnone

/-- A message of context `c2` for task `t1`. -/
def crossMessage : Message :=
  { Message.new "m1" .user [.text "hello"] with taskId := some "t1", contextId := some "c2" }

/-- With the task in context `c1` it is taken into context `c2`, and without the task it is
taken all the same. -/
theorem crossMessage_not_resolved :
    ¬ ResolvesTask (InMemoryTaskStore.new.save
        ⟨"t1", "c1", ⟨.working, none, none⟩, [], [], none⟩ .MISSING).2 crossMessage ∧
      ¬ ResolvesTask .new crossMessage := by
  constructor
  · intro h
    obtain ⟨t, ht, hor⟩ := namesStored_of_resolvesTask h "t1" "c2" ⟨rfl, rfl⟩ rfl rfl
    rw [InMemoryTaskStore.task?_save_missing, if_pos rfl] at ht
    cases ht
    rcases hor with hterm | hsame
    · cases hterm
    · exact absurd hsame (by decide)
  · intro h
    obtain ⟨t, ht, -⟩ := namesStored_of_resolvesTask h "t1" "c2" ⟨rfl, rfl⟩ rfl rfl
    cases ht

/-! ### What a refused request leaves -/

namespace DefaultRequestHandler

/-- The stores, the queues and the running tasks are what they were. -/
structure Unchanged (h h' : DefaultRequestHandler) : Prop where
  taskStore : h'.taskStore = h.taskStore
  pushConfigStore : h'.pushConfigStore = h.pushConfigStore
  queueManager : h'.queueManager = h.queueManager
  runningTasks : h'.runningTasks = h.runningTasks

/-- The request carries a push configuration that the store takes for this task and does
not have yet. -/
def Registers (h : DefaultRequestHandler) (params : SendMessageRequest) (taskId : TaskId)
    (tick : Tick) : Prop :=
  ∃ tpc, params.configuration.bind SendMessageConfiguration.taskPushNotificationConfig = some tpc ∧
    h.pushConfigStore.Takes taskId ⟨tpc.id, tpc.url, tpc.token, tpc.authentication⟩ tick.configUuid

variable {h : DefaultRequestHandler} {params : SendMessageRequest}
  {serviceParams : Finmap fun _ : String => List String} {tick : Tick}

theorem unchanged_saveInlinePushConfig_iff (k : TaskId) :
    Unchanged h (h.saveInlinePushConfig params k tick) ↔ ¬ h.Registers params k tick := by
  unfold saveInlinePushConfig Registers
  cases params.configuration.bind SendMessageConfiguration.taskPushNotificationConfig with
  | none => simpa using ⟨rfl, rfl, rfl, rfl⟩
  | some tpc =>
    simp only [Option.some.injEq, exists_eq_left']
    rw [← InMemoryPushNotificationConfigStore.save_eq_self_iff]
    exact ⟨fun hsame => hsame.pushConfigStore, fun hsame => ⟨rfl, hsame, rfl, rfl⟩⟩

/-- Where a refusal comes from: from the request itself, which leaves all as it was, or from an
interceptor, after the push configuration has been saved. -/
theorem refused_cases {h' : DefaultRequestHandler} {e : A2AError}
    (hbuild : h.buildRequestContext params serviceParams tick = (h', .refused e)) :
    (h.resolveContext params serviceParams tick = .error e ∧ h' = h) ∨
      ∃ ctx, h.resolveContext params serviceParams tick = .ok ctx ∧ h.intercept ctx = .error e ∧
        h' = h.saveInlinePushConfig params ctx.taskId tick := by
  unfold buildRequestContext at hbuild
  cases hres : h.resolveContext params serviceParams tick with
  | error e' =>
    rw [hres] at hbuild
    cases hbuild
    exact Or.inl ⟨rfl, rfl⟩
  | ok ctx =>
    rw [hres] at hbuild
    simp only [intercept_saveInlinePushConfig] at hbuild
    cases hint : h.intercept ctx with
    | error e' =>
      rw [hint] at hbuild
      cases hbuild
      exact Or.inr ⟨ctx, rfl, hint, rfl⟩
    | ok ctx' =>
      rw [hint] at hbuild
      dsimp only at hbuild
      split at hbuild <;> cases hbuild

/-- **A refused request leaves all as it was exactly when no interceptor rejects it, or it
has no push configuration to save.** -/
theorem refused_unchanged_iff (h : DefaultRequestHandler) (params : SendMessageRequest)
    (serviceParams : Finmap fun _ : String => List String) (tick : Tick) :
    (∀ h' e, h.buildRequestContext params serviceParams tick = (h', .refused e) →
        Unchanged h h') ↔
      ∀ ctx e, h.resolveContext params serviceParams tick = .ok ctx →
        h.intercept ctx = .error e → ¬ h.Registers params ctx.taskId tick := by
  constructor
  · intro hall ctx e hres hint
    rw [← unchanged_saveInlinePushConfig_iff]
    apply hall _ e
    unfold buildRequestContext
    rw [hres]
    simp only [intercept_saveInlinePushConfig, hint]
  · intro hall h' e hbuild
    rcases refused_cases hbuild with ⟨-, rfl⟩ | ⟨ctx, hres, hint, rfl⟩
    · exact ⟨rfl, rfl, rfl, rfl⟩
    · exact (unchanged_saveInlinePushConfig_iff ctx.taskId).mpr (hall ctx e hres hint)

/-- A handler whose only interceptor lets nobody in. -/
def closedHandler : DefaultRequestHandler :=
  { new with reqContextInterceptors := [fun _ _ => .error (.other "rejected")] }

/-- A send of a new task, with an address to be told at. -/
def hookedSend : SendMessageRequest where
  tenant := none
  message := Message.new "m1" .user [.text "hello"]
  configuration :=
    some ⟨[], some ⟨none, none, none, "https://example.com", none, none⟩, none, false⟩
  metadata := none

theorem hookedSend_registers :
    closedHandler.Registers hookedSend "u1" ⟨"12:00", "u1", "u2", "v1"⟩ := by
  refine ⟨_, rfl, ?_, fun h => ?_⟩
  · simp [validatePushConfig]
  · change (∅ : Finmap fun _ : String => PushNotificationConfig).lookup _ = some _ at h
    rw [Finmap.lookup_empty] at h
    cases h

/-- The send is refused, and the address is registered for a task that is not there. -/
theorem closedHandler_not_unchanged :
    ∃ h' e, closedHandler.buildRequestContext hookedSend ∅ ⟨"12:00", "u1", "u2", "v1"⟩ =
        (h', .refused e) ∧
      h'.getTaskInternal "u1" = none ∧ ¬ Unchanged closedHandler h' := by
  refine ⟨closedHandler.saveInlinePushConfig hookedSend "u1" ⟨"12:00", "u1", "u2", "v1"⟩, _, rfl,
    ?_, ?_⟩
  · rw [getTaskInternal_saveInlinePushConfig]
    rfl
  · rw [unchanged_saveInlinePushConfig_iff, not_not]
    exact hookedSend_registers

end DefaultRequestHandler

end Ra2a
