import Ra2a.Server.Handler.Answer
import Ra2a.Server.Handler.Contexts
import Ra2a.Server.Handler.Notices
import Ra2a.Server.Handler.Provenance

/-!
# Tasks are kept apart

The handler serves all its tasks from the same few maps, and its threads meet there.
As long as executors send events of their own task only (`OwnEvents`) and the
interceptors leave alone which task a context is about, a thread works for one task
and touches nothing of another: not its record, its queue, what was sent there, its
handle, its push configurations, nor the notifications about it (`Untouched`).  A
request that names a task is answered with that task (`Request.Asks`).
-/

namespace Ra2a

open Broadcast Interleave

variable {c₀ c c' : ServerConfig} {h' : DefaultRequestHandler} {new : List Thread} {i j : ℕ}
  {m : Move} {t t' : Thread} {r r' : Request} {k : TaskId}

/-- The event is about task `k`; messages are about none. -/
def Event.About (k : TaskId) : Event → Prop
  | .message _ => True
  | event => event.taskId = k

/-- Executors send events of the task they work for. -/
def OwnEvents (c : ServerConfig) : Label Thread Move → Prop
  | .run i (.emit event) => ∀ x, executionAt c i = some x → event.About x.key
  | _ => True

/-- The request may be about task `k`: if it names a task it is this one. -/
def Request.Asks (r : Request) (k : TaskId) : Prop :=
  match r.call with
  | .messageSend params | .messageStream params =>
    ∀ named, params.message.taskId = some named → named = k
  | .cancelTask params => params.id = k
  | .subscribeToTask params => params.id = k

/-- The task a thread works for, once it is known. -/
def Thread.task? : Thread → Option TaskId
  | .request r =>
    match r.pc with
    | .resolved ctx => some ctx.taskId
    | .intercepting key _ _ | .queueing key _ | .queued key _ _ => some key
    | .canceling task => some task.id
    | .collecting removes _ _ | .returning removes _ _ => some removes
    | _ => none
  | .execution x => some x.key
  | .registration g => some g.taskId

/-- What there is of task `k` in `c` is there in `c'`, and no more. -/
structure Untouched (k : TaskId) (c c' : ServerConfig) : Prop where
  record : c'.shared.getTaskInternal k = c.shared.getTaskInternal k
  queue : c'.shared.queueManager.getQueue k = c.shared.queueManager.getQueue k
  log : ∀ q, c.shared.queueManager.key q = some k →
    c'.shared.queueManager.log q = c.shared.queueManager.log q
  handle : c'.shared.runningTasks.lookup k = c.shared.runningTasks.lookup k
  configs : c'.shared.pushConfigStore.ofTask k = c.shared.pushConfigStore.ofTask k
  pushed : c'.shared.pushed.filter (·.task.id = k) = c.shared.pushed.filter (·.task.id = k)

/-! ### The invariant -/

/-- A request has one task in hand, the one it asks for. -/
def Request.Apart (c : ServerConfig) (r : Request) : Prop :=
  match r.pc with
  | .resolved ctx => r.Asks ctx.taskId
  | .intercepting key ctx _ | .queueing key ctx | .queued key ctx _ =>
    ctx.taskId = key ∧ r.Asks key
  | .canceling task => r.Asks task.id
  | .collecting removes col phase =>
    c.shared.queueManager.key col.queue = some removes ∧ r.Asks removes ∧
      (∀ event, phase.event? = some event → event.About removes) ∧
      ∀ task, phase.task? = some task → task.id = removes
  | .returning removes _ resp => r.Asks removes ∧ ∀ task, resp = .task task → task.id = removes
  | .done (.answered _ result) => ∀ task, result = .ok (.task task) → r.Asks task.id
  | _ => True

/-- So has an execution. -/
def Execution.Apart (x : Execution) : Prop :=
  x.job.taskId x.ctx = x.key ∧
    ∀ task, x.pc = .failing task ∨ x.pc = .echoing task → task.id = x.key

/-- What is in the queue of a task is about the task. -/
def LogsAbout (c : ServerConfig) : Prop :=
  ∀ q k s, c.shared.queueManager.key q = some k → s ∈ c.shared.queueManager.log q →
    s.event.About k

def ApartThread (c : ServerConfig) (_ : ℕ) : Thread → Prop
  | .request r => r.Apart c
  | .execution x => x.Apart
  | .registration _ => True

/-- The interceptors leave alone which task a context is about. -/
def KeepSubjects (h : DefaultRequestHandler) : Prop :=
  ∀ interceptor ∈ h.reqContextInterceptors, interceptor.KeepsSubject

/-! ### What is answered -/

/-- **The answer on an event of a task is the task**, or a message. -/
theorem id_of_answer {h : DefaultRequestHandler} {event : Event} (he : event.About k) {nb : Bool}
    {now : String} {task : Task} (ha : h.answer nb event now = .task task) : task.id = k := by
  have hfallback : ∀ k', (h.taskOrFallback k' now).id = k' := by
    intro k'
    rw [DefaultRequestHandler.taskOrFallback]
    cases hk : h.getTaskInternal k' with
    | none => rfl
    | some stored => exact DefaultRequestHandler.id_of_getTaskInternal hk
  unfold DefaultRequestHandler.answer at ha
  cases event with
  | message msg =>
    have hs : shouldInterruptNonStreaming nb (.message msg) = none := by
      cases nb <;> rfl
    rw [hs] at ha
    cases ha
  | task stored =>
    split at ha
    · cases ha
      exact (hfallback _).trans he
    · cases ha
      exact he
  | statusUpdate e =>
    split at ha <;> cases ha <;> exact (hfallback _).trans he
  | artifactUpdate e =>
    split at ha <;> cases ha <;> exact (hfallback _).trans he

/-- What the call makes of a response keeps the id. -/
theorem id_of_finish {call : Call} {resp : SendMessageResponse} {task : Task}
    (hf : call.finish resp = .ok (.task task)) :
    ∃ whole, resp = .task whole ∧ whole.id = task.id := by
  cases call with
  | messageSend params =>
    have htrim : params.trim resp = .task task := by simpa [Call.finish] using hf
    obtain ⟨whole, rfl⟩ := not_message_of_trim htrim
    have hwhole : Agrees (.new whole.id whole.contextId) whole.status.state whole := ⟨rfl, rfl, rfl⟩
    exact ⟨whole, rfl, ((agrees_of_trim htrim).mpr hwhole).1.symm⟩
  | cancelTask params =>
    cases resp with
    | task whole =>
      cases hf
      exact ⟨task, rfl, rfl⟩
    | message msg => cases hf
  | messageStream params | subscribeToTask params =>
    cases hf
    exact ⟨task, rfl, rfl⟩

/-! ### One step -/

theorem Request.Asks.of_call {r r' : Request} (h : r.Asks k) (hcall : r'.call = r.call) :
    r'.Asks k := by
  rw [Request.Asks, hcall]
  exact h

theorem asks_cancelTask {params : CancelTaskRequest} (hcall : r.call = .cancelTask params) :
    r.Asks k ↔ params.id = k := by
  rw [Request.Asks, hcall]

/-- A collector that waits has nothing in hand. -/
theorem Request.Apart.waiting {removes : TaskId} {col : Collector}
    (hpc : r.pc = .collecting removes col .receiving)
    (hkey : c.shared.queueManager.key col.queue = some removes) (hasks : r.Asks removes) :
    r.Apart c := by
  rw [Request.Apart, hpc]
  refine ⟨hkey, hasks, fun event he => ?_, fun task ht => ?_⟩
  · cases he
  · cases ht

/-- A resolved context is of the task the message names. -/
theorem asks_of_resolveContext {h : DefaultRequestHandler} {params : SendMessageRequest}
    {serviceParams : Finmap fun _ : String => List String} {tick : Tick} {ctx : RequestContext}
    (hcall : r.call = .messageSend params ∨ r.call = .messageStream params)
    (hctx : h.resolveContext params serviceParams tick = .ok ctx) : r.Asks ctx.taskId := by
  have hnamed : ∀ named, params.message.taskId = some named → named = ctx.taskId := by
    intro named hn
    have hids := (DefaultRequestHandler.resolveContext_spec hctx).2.1
    unfold DefaultRequestHandler.resolveIds at hids
    rw [hn] at hids
    cases hc : params.message.contextId with
    | some cid =>
      rw [hc] at hids
      exact congrArg Prod.fst (Except.ok.inj hids)
    | none =>
      rw [hc] at hids
      dsimp only at hids
      cases hs : h.getTaskInternal named with
      | none =>
        rw [hs] at hids
        cases hids
      | some stored =>
        rw [hs] at hids
        exact congrArg Prod.fst (Except.ok.inj hids)
  rw [Request.Asks]
  rcases hcall with hcall | hcall <;> rw [hcall] <;> exact hnamed

/-- The step of a request, in the state it leaves. -/
theorem Request.Step.apart (hs : r.Step c.shared c.threads i h' r' new) (hA : r.Apart c)
    (hi : c.threads[i]? = some (.request r)) (hlogs : LogsAbout c) (hheard : r.Heard)
    (hlinked : LinkedThread c i (.request r)) (hkeep : KeepSubjects c.shared) {ts : List Thread}
    (hext : Extends c ⟨h', ts⟩) : r'.Apart ⟨h', ts⟩ := by
  cases hs with
  | resolve params ctx tick hpc hcall hctx =>
    exact (asks_of_resolveContext hcall hctx).of_call rfl
  | configure params ctx tick hpc hcall =>
    rw [Request.Apart, hpc] at hA
    exact ⟨rfl, hA.of_call rfl⟩
  | intercept key ctx ctx' n interceptor hpc hn hctx =>
    rw [Request.Apart, hpc] at hA
    have hsubject := hkeep interceptor (List.mem_of_getElem? hn) _ _ _ hctx
    exact ⟨(congrArg Prod.fst hsubject).trans hA.1, hA.2.of_call rfl⟩
  | intercepted key ctx n hpc =>
    rw [Request.Apart, hpc] at hA
    exact ⟨hA.1, hA.2.of_call rfl⟩
  | accept params task hpc hcall htask =>
    have hid := DefaultRequestHandler.id_of_getTaskInternal htask
    exact Request.Asks.of_call ((asks_cancelTask hcall).mpr hid.symm) rfl
  | abort params task hpc hcall =>
    rw [Request.Apart, hpc] at hA
    exact ⟨((asks_cancelTask hcall).mp hA).symm,
      Request.Asks.of_call ((asks_cancelTask hcall).mpr rfl) rfl⟩
  | queue key ctx q m hpc =>
    rw [Request.Apart, hpc] at hA
    exact ⟨hA.1, hA.2.of_call rfl⟩
  | spawnSend params key ctx q pos hpc hcall =>
    rw [Request.Apart, hpc] at hA
    have hkey := hext.key q key (hlinked.1 key ctx q hpc)
    refine .waiting rfl (by rw [hA.1, hkey]) ?_
    rw [hA.1]
    exact hA.2.of_call rfl
  | spawnCancel params key ctx q pos hpc hcall =>
    rw [Request.Apart, hpc] at hA
    have hkey := hext.key q key (hlinked.1 key ctx q hpc)
    refine .waiting rfl (by rw [(asks_cancelTask hcall).mp hA.2, hkey]) ?_
    exact Request.Asks.of_call ((asks_cancelTask hcall).mpr rfl) rfl
  | receive removes col sent pos hpc hrecv =>
    rw [Request.Apart, hpc] at hA
    obtain ⟨hkey, hasks, -, -⟩ := hA
    obtain ⟨hmem, -⟩ := mem_drop_of_recv hrecv (Nat.zero_le _)
    rw [List.drop_zero] at hmem
    refine ⟨hext.key _ _ hkey, hasks.of_call rfl, fun event he => ?_, fun t ht => by cases ht⟩
    cases he
    exact hlogs _ _ sent hkey hmem
  | lag removes col n pos hpc | goOn removes col event hpc =>
    rw [Request.Apart, hpc] at hA
    exact .waiting rfl (hext.key _ _ hA.1) (hA.2.1.of_call rfl)
  | close removes col pos hpc hrecv => exact absurd hrecv (not_closed_while_collecting hi hpc pos)
  | persist removes col task hpc =>
    rw [Request.Apart, hpc] at hA
    obtain ⟨hkey, hasks, hevent, -⟩ := hA
    refine ⟨hext.key _ _ hkey, hasks.of_call rfl, hevent, fun t ht => ?_⟩
    cases ht
    exact hevent _ rfl
  | read removes col e task tick hpc htask =>
    rw [Request.Apart, hpc] at hA
    obtain ⟨hkey, hasks, hevent, -⟩ := hA
    refine ⟨hext.key _ _ hkey, hasks.of_call rfl, hevent, fun t ht => ?_⟩
    cases ht
    exact (DefaultRequestHandler.id_of_getTaskInternal htask).trans (hevent _ rfl)
  | skip removes col event hpc =>
    rw [Request.Apart, hpc] at hA
    exact ⟨hext.key _ _ hA.1, hA.2.1.of_call rfl, hA.2.2.1, fun t ht => by cases ht⟩
  | update removes col e task hpc | list removes col event task hpc
  | push removes col event task configs n hpc =>
    rw [Request.Apart, hpc] at hA
    exact ⟨hext.key _ _ hA.1, hA.2.1.of_call rfl, hA.2.2.1, hA.2.2.2⟩
  | nobody removes col event task hpc | pushLast removes col event task configs n hpc =>
    rw [Request.Apart, hpc] at hA
    exact ⟨hext.key _ _ hA.1, hA.2.1.of_call rfl, hA.2.2.1, fun t ht => by cases ht⟩
  | answer removes col event tick hpc hstop =>
    rw [Request.Apart, hpc] at hA
    exact ⟨hA.2.1.of_call rfl, fun task ht => id_of_answer (hA.2.2.1 event rfl) ht⟩
  | finalize removes col resp tick hpc | failClosed removes col e tick hpc =>
    exact absurd hpc hheard.not_closing
  | finish removes col resp hpc =>
    rw [Request.Apart, hpc] at hA
    intro task ht
    obtain ⟨whole, rfl, hid⟩ := id_of_finish ht
    rw [← hid, hA.2 whole rfl]
    exact hA.1.of_call rfl
  | _ => exact trivial

theorem Execution.Step.apart {x x' : Execution} (hs : x.Step c.shared i m h' x')
    (hA : x.Apart) : x'.Apart := by
  refine ⟨by rw [hs.same.job, hs.same.ctx, hs.same.key, hA.1], ?_⟩
  cases hs with
  | emit e hpc => exact hA.2
  | fail e tick hpc =>
    rintro task (ht | ht) <;> cases ht
    exact hA.1
  | save task tick hpc =>
    rintro task' (ht | ht) <;> cases ht
    exact hA.2 task (Or.inl hpc)
  | succeed | panic | echo | abort => rintro task (ht | ht) <;> cases ht

/-- What a request spawns is of its task. -/
theorem apart_spawned {x : Execution} (hs : r.Step c.shared c.threads i h' r' new)
    (hA : r.Apart c) (hx : Thread.execution x ∈ new) : x.Apart := by
  cases hs with
  | spawnSend params key ctx q pos hpc hcall | spawnStream params key ctx q hpc hcall =>
    rw [Request.Apart, hpc] at hA
    rcases List.mem_pair.mp hx with he | he
    · cases he
      exact ⟨hA.1, by rintro task (ht | ht) <;> cases ht⟩
    · cases he
  | spawnCancel params key ctx q pos hpc hcall =>
    rw [Request.Apart, hpc] at hA
    cases List.mem_singleton.mp hx
    exact ⟨(asks_cancelTask hcall).mp hA.2, by rintro task (ht | ht) <;> cases ht⟩
  | _ => cases hx

/-- The interceptors stay what they are. -/
theorem interceptors_step
    (ha : server.advance c.shared c.threads i m t = some (h', t', new)) :
    h'.reqContextInterceptors = c.shared.reqContextInterceptors := by
  rcases cases_of_step ha with ⟨r, r', rfl, rfl, hs, -⟩ | ⟨x, x', rfl, rfl, rfl, hs⟩ |
    ⟨g, rfl, -, rfl, rfl, rfl⟩
  · cases hs with
    | configure params ctx tick =>
      obtain ⟨_, he⟩ := c.shared.saveInlinePushConfig_eq params ctx.taskId tick
      rw [he]
    | abort params task =>
      obtain ⟨_, _, he⟩ := c.shared.abortRunning_eq params.id
      rw [he]
    | _ => rfl
  · cases hs <;> rfl
  · rfl

/-- A queue something was sent to has a key. -/
theorem key_of_mem_log {q : ℕ} {s : Sent} (hs : s ∈ c.shared.queueManager.log q) :
    ∃ k, c.shared.queueManager.key q = some k := by
  cases hch : c.shared.queueManager.channel q with
  | none =>
    rw [QueueManager.log, hch] at hs
    cases hs
  | some ch =>
    obtain ⟨queue, hq, -⟩ := Option.map_eq_some_iff.mp hch
    exact ⟨queue.key, by rw [QueueManager.key, hq]; rfl⟩

theorem logsAbout_step (hA : LogsAbout c) (hapart : Machine.Reach.Each ApartThread c)
    (hlinked : Machine.Reach.Each LinkedThread c) (hok : OwnEvents c (.run i m))
    (ht : c.threads[i]? = some t)
    (ha : server.advance c.shared c.threads i m t = some (h', t', new)) {ts : List Thread} :
    LogsAbout ⟨h', ts⟩ := by
  have hold : ∀ {q k s}, h'.queueManager.key q = some k → s ∈ c.shared.queueManager.log q →
      s.event.About k := by
    intro q k s hk hs
    obtain ⟨k₀, hk₀⟩ := key_of_mem_log hs
    have hk' := key_step ha hk₀
    rw [hk] at hk'
    rw [Option.some.inj hk']
    exact hA q k₀ s hk₀ hs
  intro q k s hk hs
  change s ∈ h'.queueManager.log q at hs
  rcases cases_of_step ha with ⟨r, r', rfl, rfl, hr, -⟩ | ⟨x, x', rfl, rfl, rfl, hx⟩ |
    ⟨g, rfl, -, rfl, rfl, rfl⟩
  · rw [hr.log q] at hs
    exact hold hk hs
  · rcases hx.log q with hlog | ⟨e, hsends, rfl, hlog⟩
    · rw [hlog] at hs
      exact hold hk hs
    · rw [hlog] at hs
      rcases List.mem_append.mp hs with hs | hs
      · exact hold hk hs
      · have hkey : h'.queueManager.key x.queue = some x.key := key_step ha (hlinked i _ ht)
        rw [hk] at hkey
        rw [List.mem_singleton.mp hs, Option.some.inj hkey]
        cases hx with
        | emit e' hpc =>
          cases hsends
          exact hok x (executionAt_of_getElem? ht)
        | echo task tick hpc =>
          have htask : e = .task task := by
            simpa [Execution.sends, hpc] using hsends.symm
          rw [htask]
          exact (hapart i _ ht).2 task (Or.inr hpc)
        | save task tick hpc => simp [Execution.sends, hpc] at hsends
        | _ => cases hsends
  · exact hold hk hs

/-! ### The invariant along a run -/

/-- The tasks have been kept apart so far. -/
structure Apart (c : ServerConfig) : Prop where
  threads : Machine.Reach.Each ApartThread c
  logs : LogsAbout c
  interceptors : KeepSubjects c.shared

theorem Request.Apart.extend (h : r.Apart c) (hext : Extends c c') : r.Apart c' := by
  rw [Request.Apart] at h ⊢
  generalize r.pc = pc at h ⊢
  cases pc with
  | collecting removes col phase => exact ⟨hext.key _ _ h.1, h.2⟩
  | done o => cases o <;> exact h
  | _ => exact h

theorem ApartThread.extend (h : ApartThread c i t) (hext : Extends c c') :
    ApartThread c' i t := by
  cases t with
  | request r => exact Request.Apart.extend h hext
  | execution x => exact h
  | registration g => exact trivial

theorem apart_run (hA : Apart c) (hlinked : Machine.Reach.Each LinkedThread c)
    (hheard : Machine.Reach.Each HeardThread c) (hok : OwnEvents c (.run i m))
    (ht : c.threads[i]? = some t)
    (ha : server.advance c.shared c.threads i m t = some (h', t', new)) :
    Apart ⟨h', c.threads.set i t' ++ new⟩ := by
  have hext := extends_advance ht ha
  refine ⟨fun j u hu => ?_, logsAbout_step hA.logs hA.threads hlinked hok ht ha, ?_⟩
  · rcases Machine.getElem?_moved hu with ⟨rfl, rfl⟩ | ⟨-, hj⟩ | ⟨-, hj⟩
    · rcases cases_of_step ha with ⟨r, r', rfl, rfl, hs, -⟩ | ⟨x, x', rfl, rfl, rfl, hs⟩ |
        ⟨g, rfl, -, rfl, rfl, rfl⟩
      · exact hs.apart (hA.threads j _ ht) ht hA.logs (hheard j _ ht) (hlinked j _ ht)
          hA.interceptors hext
      · exact hs.apart (hA.threads j _ ht)
      · exact trivial
    · exact (hA.threads j u hj).extend hext
    · rcases cases_of_step ha with ⟨r, r', rfl, rfl, hs, -⟩ | ⟨_, _, -, -, rfl, -⟩ |
        ⟨_, -, -, -, rfl, -⟩
      · rcases hs.spawned (List.mem_of_getElem? hj) with ⟨x, rfl, -, -⟩ | ⟨g, rfl⟩
        · exact apart_spawned hs (hA.threads i _ ht) (List.mem_of_getElem? hj)
        · exact trivial
      · cases hj
      · cases hj
  · rw [KeepSubjects, interceptors_step ha]
    exact hA.interceptors

theorem apart_reach (h₀ : Initial c₀) (hkeep : KeepSubjects c₀.shared)
    (h : server.Reach OwnEvents c₀ c) : Apart c := by
  refine (h.assuming fun _ hr => And.intro (linked_reach h₀ hr) (heard_reach h₀ hr)).invariant
    ⟨h₀.each, fun q k s hk => ?_, hkeep⟩ ?_
  · rw [QueueManager.key, h₀.heap] at hk
    cases hk
  · intro c l c' hA hok hs
    rcases Machine.step_cases hs with ⟨t, rfl, hf, rfl⟩ | ⟨i, m, t, h', t', new, rfl, ht, ha, rfl⟩
    · refine ⟨fun j u hu => ?_, hA.logs, hA.interceptors⟩
      rcases Places.getElem?_concat_cases hu with hu | ⟨-, rfl⟩
      · exact (hA.threads j u hu).extend (extends_arrive c t)
      · obtain ⟨r, rfl, hpc, -⟩ := Thread.of_isFresh hf
        rw [ApartThread, Request.Apart, hpc]
        trivial
    · exact apart_run hA hok.1.1 hok.1.2 hok.2 ht ha

/-! ### What a step touches -/

theorem Untouched.refl (k : TaskId) (h : DefaultRequestHandler) (ts ts' : List Thread) :
    Untouched k ⟨h, ts⟩ ⟨h, ts'⟩ := ⟨rfl, rfl, fun _ _ => rfl, rfl, rfl, rfl⟩

/-- A save of a task touches no other. -/
theorem untouched_storeTask {h : DefaultRequestHandler} {task : Task} (hne : task.id ≠ k)
    (ts ts' : List Thread) : Untouched k ⟨h, ts⟩ ⟨h.storeTask task, ts'⟩ where
  record := by
    change (h.storeTask task).getTaskInternal k = h.getTaskInternal k
    rw [h.getTaskInternal_storeTask, if_neg (Ne.symm hne)]
  queue := rfl
  log _ _ := rfl
  handle := rfl
  configs := rfl
  pushed := rfl

theorem untouched_saveInlinePushConfig {h : DefaultRequestHandler} {params : SendMessageRequest}
    {k' : TaskId} {tick : Tick} (hne : k' ≠ k) (ts ts' : List Thread) :
    Untouched k ⟨h, ts⟩ ⟨h.saveInlinePushConfig params k' tick, ts'⟩ := by
  obtain ⟨store, he⟩ := h.saveInlinePushConfig_eq params k' tick
  have hstore : store.ofTask k = h.pushConfigStore.ofTask k := by
    have hs : (h.saveInlinePushConfig params k' tick).pushConfigStore = store := by rw [he]
    rw [← hs]
    unfold DefaultRequestHandler.saveInlinePushConfig
    split
    · rfl
    · unfold InMemoryPushNotificationConfigStore.save
      split
      · rfl
      · simp [InMemoryPushNotificationConfigStore.ofTask, Finmap.lookup_insert_of_ne _ hne.symm]
  rw [he]
  exact ⟨rfl, rfl, fun _ _ => rfl, rfl, hstore, rfl⟩

theorem untouched_abortRunning {h : DefaultRequestHandler} {k' : TaskId} (hne : k' ≠ k)
    (ts ts' : List Thread) : Untouched k ⟨h, ts⟩ ⟨h.abortRunning k', ts'⟩ := by
  unfold DefaultRequestHandler.abortRunning
  split
  · exact .refl k h ts ts'
  · exact ⟨rfl, rfl, fun _ _ => rfl, Finmap.lookup_erase_ne hne.symm, rfl, rfl⟩

theorem untouched_sendPush {h : DefaultRequestHandler} {p : Push} (hne : p.task.id ≠ k)
    (ts ts' : List Thread) : Untouched k ⟨h, ts⟩ ⟨h.sendPush p, ts'⟩ := by
  refine ⟨rfl, rfl, fun _ _ => rfl, rfl, rfl, ?_⟩
  simp [DefaultRequestHandler.sendPush, List.filter_append, hne]

theorem untouched_getOrCreateQueue {h : DefaultRequestHandler} {k' : TaskId} {q : ℕ}
    {m : QueueManager} (hq : h.queueManager.getOrCreateQueue k' = some (q, m)) (hne : k' ≠ k)
    (ts ts' : List Thread) : Untouched k ⟨h, ts⟩ ⟨{ h with queueManager := m }, ts'⟩ := by
  refine ⟨rfl, ?_, fun p _ => QueueManager.log_of_getOrCreateQueue hq p, rfl, rfl, rfl⟩
  change m.getQueue k = h.queueManager.getQueue k
  rcases QueueManager.getOrCreateQueue_cases hq with ⟨-, rfl⟩ | ⟨-, -, queue, -, hkey, rfl⟩
  · rfl
  · rw [QueueManager.getQueue_add, hkey, if_neg hne.symm]

theorem untouched_removeQueue {h : DefaultRequestHandler} {k' : TaskId} (hne : k' ≠ k)
    (ts ts' : List Thread) :
    Untouched k ⟨h, ts⟩ ⟨{ h with queueManager := h.queueManager.removeQueue k' }, ts'⟩ := by
  refine ⟨rfl, ?_, fun q _ => QueueManager.log_removeQueue .., rfl, rfl, rfl⟩
  change (h.queueManager.removeQueue k').getQueue k = h.queueManager.getQueue k
  rw [QueueManager.getQueue_removeQueue, if_neg hne.symm]

theorem untouched_send {h : DefaultRequestHandler} {q : ℕ} {k' : TaskId} {s : Sent}
    (hk : h.queueManager.key q = some k') (hne : k' ≠ k) (ts ts' : List Thread) :
    Untouched k ⟨h, ts⟩ ⟨{ h with queueManager := h.queueManager.send q s }, ts'⟩ := by
  refine ⟨rfl, rfl, fun p hp => ?_, rfl, rfl, rfl⟩
  rcases QueueManager.log_send_cases q s p with hlog | ⟨rfl, -⟩
  · exact hlog
  · change h.queueManager.key q = some k at hp
    rw [hk] at hp
    exact absurd (Option.some.inj hp) hne

/-- **A request touches the task it works for.** -/
theorem Request.Step.untouched (hs : r.Step c.shared c.threads i h' r' new) (hA : r.Apart c)
    (hk : (Thread.request r).task? ≠ some k) {ts : List Thread} : Untouched k c ⟨h', ts⟩ := by
  obtain ⟨shared, threads⟩ := c
  have hne : ∀ {k'}, (Thread.request r).task? = some k' → k' ≠ k := by
    rintro k' hk' rfl
    exact hk hk'
  cases hs with
  | configure params ctx tick hpc =>
    exact untouched_saveInlinePushConfig (hne (by rw [Thread.task?, hpc])) _ _
  | abort params task hpc hcall =>
    rw [Request.Apart, hpc] at hA
    refine untouched_abortRunning ?_ _ _
    rw [(asks_cancelTask hcall).mp hA]
    exact hne (by rw [Thread.task?, hpc])
  | queue key ctx q m hpc hq =>
    exact untouched_getOrCreateQueue hq (hne (by rw [Thread.task?, hpc])) _ _
  | persist removes col task hpc =>
    rw [Request.Apart, hpc] at hA
    have hid : task.id = removes := hA.2.2.1 _ rfl
    refine untouched_storeTask ?_ _ _
    rw [hid]
    exact hne (by rw [Thread.task?, hpc])
  | update removes col e task hpc =>
    rw [Request.Apart, hpc] at hA
    refine untouched_storeTask ?_ _ _
    rw [hA.2.2.2 _ rfl]
    exact hne (by rw [Thread.task?, hpc])
  | push removes col event task configs n hpc | pushLast removes col event task configs n hpc =>
    rw [Request.Apart, hpc] at hA
    refine untouched_sendPush ?_ _ _
    change task.id ≠ k
    rw [hA.2.2.2 _ rfl]
    exact hne (by rw [Thread.task?, hpc])
  | finish removes col resp hpc =>
    exact untouched_removeQueue (hne (by rw [Thread.task?, hpc])) _ _
  | _ => exact .refl k _ _ _

theorem Execution.Step.untouched {x x' : Execution} (hs : x.Step c.shared i m h' x')
    (hA : x.Apart) (hkey : c.shared.queueManager.key x.queue = some x.key) (hne : x.key ≠ k)
    {ts : List Thread} : Untouched k c ⟨h', ts⟩ := by
  obtain ⟨shared, threads⟩ := c
  cases hs with
  | emit e hpc => exact untouched_send hkey hne _ _
  | echo task tick hpc => exact untouched_send hkey hne _ _
  | save task tick hpc =>
    refine untouched_storeTask ?_ _ _
    rw [hA.2 task (Or.inl hpc)]
    exact hne
  | _ => exact .refl k _ _ _

/-! ### Every run -/

/-- **Tasks are kept apart.**  Along a run whose executors send events of their own
task, a step of a thread that works for another task leaves all there is of task `k`,
the queue of a task holds what is about it, and a request is answered with the task
it asks for. -/
theorem tasks_apart (h₀ : Initial c₀) (hkeep : KeepSubjects c₀.shared)
    (h : server.Reach OwnEvents c₀ c) :
    (∀ i m t c' k, c.threads[i]? = some t → server.step c (.run i m) = some c' →
        t.task? ≠ some k → Untouched k c c') ∧
      LogsAbout c ∧
      ∀ (i : ℕ) (r : Request) (col : Collector) (task : Task),
        c.threads[i]? = some (.request r) → r.pc = .done (.answered col (.ok (.task task))) →
        r.Asks task.id := by
  have hA := apart_reach h₀ hkeep h
  refine ⟨fun i m t c' k ht hs hk => ?_, hA.logs, fun i r col task hi hpc => ?_⟩
  · rcases Machine.step_cases hs with ⟨_, he, -⟩ | ⟨j, m, u, h', t', new, he, hu, ha, rfl⟩
    · cases he
    · cases he
      rw [ht] at hu
      cases hu
      rcases cases_of_step ha with ⟨r, r', rfl, rfl, hr, -⟩ | ⟨x, x', rfl, rfl, rfl, hx⟩ |
        ⟨g, rfl, -, rfl, rfl, rfl⟩
      · exact hr.untouched (hA.threads i _ ht) hk
      · exact hx.untouched (hA.threads i _ ht) (linked_reach h₀ h i _ ht) fun he =>
          hk (congrArg some he)
      · have hne : g.taskId ≠ k := fun he => hk (congrArg some he)
        exact ⟨rfl, rfl, fun _ _ => rfl, Finmap.lookup_insert_of_ne _ hne.symm, rfl, rfl⟩
  · have hr : r.Apart c := hA.threads i _ hi
    rw [Request.Apart, hpc] at hr
    exact hr task rfl

/-! ### Two tasks -/

/-- A handler with an interceptor and two tasks at work. -/
def bothHandler : DefaultRequestHandler :=
  { tellingHandler.storeTask ⟨"t2", "c2", ⟨.working, none, none⟩, [], [], none⟩ with
    reqContextInterceptors := [referencedTasksLoader] }

/-- A send to the second that has just arrived. -/
def sendToSecond : Thread := .request
  { call := .messageSend
      { tenant := none
        message := { Message.new "m2" .user [.text "hello"] with
          taskId := some "t2", contextId := some "c2" }
        configuration := some ⟨[], none, none, false⟩
        metadata := none }
    serviceParams := ∅
    pc := .received
    received := [] }

/-- Both tasks are sent to, and the execution of the second completes it. -/
def sendBoth : List (Label Thread Move) :=
  .arrive (sendTo "m1" false) :: List.replicate 6 (.run 0 (.tick ⟨"12:00", "u1", "u2", "v1"⟩)) ++
    .arrive sendToSecond :: List.replicate 6 (.run 3 (.tick ⟨"12:01", "u3", "u4", "v2"⟩)) ++
    [.run 4 (.emit (.task ⟨"t2", "c2", ⟨.completed, none, none⟩, [], [], none⟩)),
      .run 3 (.tick ⟨"12:02", "u5", "u6", "v3"⟩)]

def bothConfig : ServerConfig :=
  (server.exec ⟨bothHandler, []⟩ sendBoth).getD ⟨bothHandler, []⟩

/-- The event is stored. -/
def bothStored : ServerConfig :=
  (server.step bothConfig (.run 3 (.tick ⟨"12:02", "u5", "u6", "v3"⟩))).getD bothConfig

theorem sendBoth_ownEvents : server.Along OwnEvents ⟨bothHandler, []⟩ sendBoth := by
  refine ⟨trivial, trivial, trivial, trivial, trivial, trivial, trivial, trivial, trivial, trivial,
    trivial, trivial, trivial, trivial, ?_, trivial, trivial⟩
  intro x hx
  cases hx
  rfl

theorem tasks_apart_both :
    Untouched "t1" bothConfig bothStored ∧
      (bothStored.shared.getTaskInternal "t2").map (·.status.state) = some .completed ∧
      (bothConfig.shared.getTaskInternal "t2").map (·.status.state) = some .working := by
  have hkeep : KeepSubjects bothHandler := by
    intro interceptor hmem
    rw [List.mem_singleton.mp hmem]
    exact keepsSubject_referencedTasksLoader
  have happart := tasks_apart ⟨rfl, rfl, rfl, rfl⟩ hkeep (.of_along sendBoth_ownEvents
    (show server.exec ⟨bothHandler, []⟩ sendBoth = some bothConfig from rfl))
  obtain ⟨t, ht, htask⟩ : ∃ t, bothConfig.threads[3]? = some t ∧ t.task? = some "t2" :=
    ⟨_, rfl, rfl⟩
  have hstep : server.step bothConfig (.run 3 (.tick ⟨"12:02", "u5", "u6", "v3"⟩)) =
      some bothStored := rfl
  have hother : t.task? ≠ some "t1" := by
    rw [htask]
    decide
  exact ⟨happart.1 3 _ t bothStored "t1" ht hstep hother, rfl, rfl⟩

end Ra2a
