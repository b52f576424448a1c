import Ra2a.Server.Handler.Threads
import Ra2a.Server.Handler.Collect

/-!
# What a step can be

`Thread.advance` computes; `Request.Step` and `Execution.Step` list what it can
come to, one constructor a transition, with what it read and what it changes.
Every invariant below is proved by cases on them (`cases_of_step`).

`collect_alone` ties the steps to the handler's own functions: a collector that
runs alone from the receipt of an event does what `process_event` does.
-/

namespace Ra2a

open Broadcast Interleave

/-- The transitions of request `r`, which is thread `i`. -/
inductive Request.Step (h : DefaultRequestHandler) (threads : List Thread) (i : ℕ) (r : Request) :
    DefaultRequestHandler → Request → List Thread → Prop
  | refuse (e : A2AError)
      (hpc : r.pc = .received ∨ (∃ key ctx n, r.pc = .intercepting key ctx n) ∨ r.pc = .locating) :
      Step h threads i r h (r.goto (.done (.refused e))) []
  | resolve (params : SendMessageRequest) (ctx : RequestContext) (tick : Tick)
      (hpc : r.pc = .received)
      (hcall : r.call = .messageSend params ∨ r.call = .messageStream params)
      (hctx : h.resolveContext params r.serviceParams tick = .ok ctx) :
      Step h threads i r h (r.goto (.resolved ctx)) []
  | configure (params : SendMessageRequest) (ctx : RequestContext) (tick : Tick)
      (hpc : r.pc = .resolved ctx)
      (hcall : r.call = .messageSend params ∨ r.call = .messageStream params) :
      Step h threads i r (h.saveInlinePushConfig params ctx.taskId tick)
        (r.goto (.intercepting ctx.taskId ctx 0)) []
  | intercept (key : TaskId) (ctx ctx' : RequestContext) (n : ℕ)
      (interceptor : RequestContextInterceptor) (hpc : r.pc = .intercepting key ctx n)
      (hn : h.reqContextInterceptors[n]? = some interceptor)
      (hctx : interceptor h.taskStore ctx = .ok ctx') :
      Step h threads i r h (r.goto (.intercepting key ctx' (n + 1))) []
  | intercepted (key : TaskId) (ctx : RequestContext) (n : ℕ)
      (hpc : r.pc = .intercepting key ctx n) (hn : h.reqContextInterceptors[n]? = none) :
      Step h threads i r h (r.goto (.queueing key ctx)) []
  | accept (params : CancelTaskRequest) (task : Task) (hpc : r.pc = .received)
      (hcall : r.call = .cancelTask params) (htask : h.getTaskInternal params.id = some task)
      (hopen : task.isTerminal = false) :
      Step h threads i r h (r.goto (.canceling task)) []
  | abort (params : CancelTaskRequest) (task : Task) (hpc : r.pc = .canceling task)
      (hcall : r.call = .cancelTask params) :
      Step h threads i r (h.abortRunning params.id)
        (r.goto (.queueing params.id (DefaultRequestHandler.cancelContext task))) []
  | queue (key : TaskId) (ctx : RequestContext) (q : ℕ) (m : QueueManager)
      (hpc : r.pc = .queueing key ctx) (hq : h.queueManager.getOrCreateQueue key = some (q, m)) :
      Step h threads i r { h with queueManager := m } (r.goto (.queued key ctx q)) []
  | panic (key : TaskId) (ctx : RequestContext) (hpc : r.pc = .queueing key ctx)
      (hq : h.queueManager.getOrCreateQueue key = none) :
      Step h threads i r h (r.goto (.done .panicked)) []
  | spawnSend (params : SendMessageRequest) (key : TaskId) (ctx : RequestContext) (q pos : ℕ)
      (hpc : r.pc = .queued key ctx q) (hcall : r.call = .messageSend params)
      (hpos : pos = (h.queueManager.log q).length) :
      Step h threads i r h
        (r.goto (.collecting ctx.taskId ⟨q, pos, none, pos, threads.length⟩ .receiving))
        [.execution ⟨.execute, ctx, key, q, i, .running⟩,
          .registration ⟨ctx.taskId, threads.length, false⟩]
  | spawnStream (params : SendMessageRequest) (key : TaskId) (ctx : RequestContext) (q : ℕ)
      (hpc : r.pc = .queued key ctx q) (hcall : r.call = .messageStream params) :
      Step h threads i r h (r.goto (.streaming q (h.queueManager.log q).length))
        [.execution ⟨.execute, ctx, key, q, i, .running⟩,
          .registration ⟨ctx.taskId, threads.length, false⟩]
  | spawnCancel (params : CancelTaskRequest) (key : TaskId) (ctx : RequestContext) (q pos : ℕ)
      (hpc : r.pc = .queued key ctx q) (hcall : r.call = .cancelTask params)
      (hpos : pos = (h.queueManager.log q).length) :
      Step h threads i r h
        (r.goto (.collecting params.id ⟨q, pos, none, pos, threads.length⟩ .receiving))
        [.execution ⟨.cancel params.id, ctx, key, q, i, .running⟩]
  | receive (removes : TaskId) (c : Collector) (sent : Sent) (pos : ℕ)
      (hpc : r.pc = .collecting removes c .receiving)
      (hrecv : h.recv threads c.queue c.pos = some (.ok sent, pos)) :
      Step h threads i r h { r with
        pc := .collecting removes { c with pos := pos } (.persisting sent.event)
        received := r.received ++ [sent] } []
  | lag (removes : TaskId) (c : Collector) (n pos : ℕ)
      (hpc : r.pc = .collecting removes c .receiving)
      (hrecv : h.recv threads c.queue c.pos = some (.lagged n, pos)) :
      Step h threads i r h (r.goto (.collecting removes { c with pos := pos } .receiving)) []
  | close (removes : TaskId) (c : Collector) (pos : ℕ)
      (hpc : r.pc = .collecting removes c .receiving)
      (hrecv : h.recv threads c.queue c.pos = some (.closed, pos)) :
      Step h threads i r h (r.goto (.collecting removes c .closing)) []
  | persist (removes : TaskId) (c : Collector) (t : Task)
      (hpc : r.pc = .collecting removes c (.persisting (.task t))) :
      Step h threads i r (h.storeTask t)
        (r.goto (.collecting removes c (.notifying (.task t) t))) []
  | read (removes : TaskId) (c : Collector) (e : TaskStatusUpdateEvent) (t : Task) (tick : Tick)
      (hpc : r.pc = .collecting removes c (.persisting (.statusUpdate e)))
      (htask : h.getTaskInternal e.taskId = some t) :
      Step h threads i r h (r.goto (.collecting removes c
        (.updating e (t.withStatus (.new e.status.state tick.now))))) []
  | skip (removes : TaskId) (c : Collector) (event : Event)
      (hpc : r.pc = .collecting removes c (.persisting event))
      (hskip : ∀ t, event ≠ .task t)
      (hnone : ∀ e, event = .statusUpdate e → h.getTaskInternal e.taskId = none) :
      Step h threads i r h (r.goto (.collecting removes c (.persisted event))) []
  | update (removes : TaskId) (c : Collector) (e : TaskStatusUpdateEvent) (t : Task)
      (hpc : r.pc = .collecting removes c (.updating e t)) :
      Step h threads i r (h.storeTask t)
        (r.goto (.collecting removes c (.notifying (.statusUpdate e) t))) []
  | list (removes : TaskId) (c : Collector) (event : Event) (t : Task)
      (hpc : r.pc = .collecting removes c (.notifying event t))
      (hsome : 0 < (h.pushConfigs t.id).card) :
      Step h threads i r h
        (r.goto (.collecting removes c (.pushing event t (h.pushConfigs t.id) 0))) []
  | nobody (removes : TaskId) (c : Collector) (event : Event) (t : Task)
      (hpc : r.pc = .collecting removes c (.notifying event t)) (hnone : h.pushConfigs t.id = 0) :
      Step h threads i r h (r.goto (.collecting removes c (.persisted event))) []
  | push (removes : TaskId) (c : Collector) (event : Event) (t : Task)
      (configs : Multiset PushNotificationConfig) (n : ℕ)
      (hpc : r.pc = .collecting removes c (.pushing event t configs n))
      (hmore : n + 1 < configs.card) :
      Step h threads i r (h.sendPush ⟨configs, n, t⟩)
        (r.goto (.collecting removes c (.pushing event t configs (n + 1)))) []
  | pushLast (removes : TaskId) (c : Collector) (event : Event) (t : Task)
      (configs : Multiset PushNotificationConfig) (n : ℕ)
      (hpc : r.pc = .collecting removes c (.pushing event t configs n))
      (hlast : configs.card ≤ n + 1) :
      Step h threads i r (h.sendPush ⟨configs, n, t⟩)
        (r.goto (.collecting removes c (.persisted event))) []
  | goOn (removes : TaskId) (c : Collector) (event : Event)
      (hpc : r.pc = .collecting removes c (.persisted event))
      (hstop : stopsAt r.call.isNonBlocking event = false) :
      Step h threads i r h
        (r.goto (.collecting removes { c with lastEvent := some event } .receiving)) []
  | answer (removes : TaskId) (c : Collector) (event : Event) (tick : Tick)
      (hpc : r.pc = .collecting removes c (.persisted event))
      (hstop : stopsAt r.call.isNonBlocking event = true) :
      Step h threads i r h
        (r.goto (.returning removes c (h.answer r.call.isNonBlocking event tick.now))) []
  | finalize (removes : TaskId) (c : Collector) (resp : SendMessageResponse) (tick : Tick)
      (hpc : r.pc = .collecting removes c .closing)
      (hresp : h.finalizeOnClose c.lastEvent tick.now = .ok resp) :
      Step h threads i r h (r.goto (.returning removes c resp)) []
  | failClosed (removes : TaskId) (c : Collector) (e : A2AError) (tick : Tick)
      (hpc : r.pc = .collecting removes c .closing)
      (herr : h.finalizeOnClose c.lastEvent tick.now = .error e) :
      Step h threads i r h (r.goto (.done (.answered c (.error e)))) []
  | finish (removes : TaskId) (c : Collector) (resp : SendMessageResponse)
      (hpc : r.pc = .returning removes c resp) :
      Step h threads i r { h with queueManager := h.queueManager.removeQueue removes }
        (r.goto (.done (.answered c (r.call.finish resp)))) []
  | locate (params : SubscribeToTaskRequest) (task : Task) (hpc : r.pc = .received)
      (hcall : r.call = .subscribeToTask params)
      (htask : h.getTaskInternal params.id = some task) (hopen : task.isTerminal = false) :
      Step h threads i r h (r.goto .locating) []
  | find (params : SubscribeToTaskRequest) (q : ℕ) (hpc : r.pc = .locating)
      (hcall : r.call = .subscribeToTask params)
      (hq : h.queueManager.getQueue params.id = some q) :
      Step h threads i r h (r.goto (.located q)) []
  | subscribe (q : ℕ) (hpc : r.pc = .located q) :
      Step h threads i r h (r.goto (.streaming q (h.queueManager.log q).length)) []
  | deliver (q pos pos' : ℕ) (sent : Sent) (hpc : r.pc = .streaming q pos)
      (hrecv : h.recv threads q pos = some (.ok sent, pos')) :
      Step h threads i r h
        { r with pc := .streaming q pos', received := r.received ++ [sent] } []
  | deliverLag (q pos pos' n : ℕ) (hpc : r.pc = .streaming q pos)
      (hrecv : h.recv threads q pos = some (.lagged n, pos')) :
      Step h threads i r h (r.goto (.streaming q pos')) []
  | endStream (q pos pos' : ℕ) (hpc : r.pc = .streaming q pos)
      (hrecv : h.recv threads q pos = some (.closed, pos')) :
      Step h threads i r h (r.goto (.done .streamed)) []
  | drop (hlive : ∀ o, r.pc ≠ .done o) : Step h threads i r h (r.goto .dropped) []

/-- The transitions of execution `x`, which is thread `i`. -/
inductive Execution.Step (h : DefaultRequestHandler) (i : ℕ) (x : Execution) :
    Move → DefaultRequestHandler → Execution → Prop
  | emit (e : Event) (hpc : x.pc = .running) :
      Step h i x (.emit e) { h with queueManager := h.queueManager.send x.queue ⟨i, e⟩ } x
  | succeed (hpc : x.pc = .running) : Step h i x .succeed h (x.goto (.finished .ok))
  | panic (hpc : x.pc = .running) : Step h i x .panic h (x.goto (.finished .panicked))
  | fail (e : A2AError) (tick : Tick) (hpc : x.pc = .running) :
      Step h i x (.fail e tick) h
        (x.goto (.failing (failedTask (x.job.taskId x.ctx) x.ctx.contextId e tick)))
  | save (task : Task) (tick : Tick) (hpc : x.pc = .failing task) :
      Step h i x (.tick tick) (h.storeTask task) (x.goto (.echoing task))
  | echo (task : Task) (tick : Tick) (hpc : x.pc = .echoing task) :
      Step h i x (.tick tick)
        { h with queueManager := h.queueManager.send x.queue ⟨i, .task task⟩ }
        (x.goto (.finished .err))
  | abort (hmem : i ∈ h.aborts) (hpc : x.pc = .running ∨ ∃ task, x.pc = .failing task) :
      Step h i x .abort h (x.goto (.finished .aborted))

variable {h h' : DefaultRequestHandler} {threads new : List Thread} {i : ℕ}

theorem Request.step_of_collect {r r' : Request} {removes : TaskId} {c : Collector} {phase : Phase}
    {tick : Tick} (hpc : r.pc = .collecting removes c phase)
    (hc : r.collect h threads tick removes c phase = some (h', r')) :
    r.Step h threads i h' r' [] := by
  cases phase with
  | receiving =>
    rw [Request.collect] at hc
    split at hc <;> cases hc
    · exact .receive _ _ _ _ hpc ‹_›
    · exact .lag _ _ _ _ hpc ‹_›
    · exact .close _ _ _ hpc ‹_›
  | persisting event =>
    cases event with
    | task t => cases hc; exact .persist _ _ _ hpc
    | message m => cases hc; exact .skip _ _ _ hpc (by simp) (by simp)
    | artifactUpdate e => cases hc; exact .skip _ _ _ hpc (by simp) (by simp)
    | statusUpdate e =>
      simp only [Request.collect] at hc
      split at hc <;> cases hc
      · exact .read _ _ _ _ tick hpc ‹_›
      · refine .skip _ _ _ hpc (by simp) ?_
        rintro e' he
        cases he
        assumption
  | updating e t => cases hc; exact .update _ _ _ _ hpc
  | notifying event t =>
    cases hc
    rw [Phase.pushingFrom]
    split
    · exact .list _ _ _ _ hpc ‹_›
    · exact .nobody _ _ _ _ hpc (Multiset.card_eq_zero.mp (by omega))
  | pushing event t configs n =>
    cases hc
    rw [Phase.pushingFrom]
    split
    · exact .push _ _ _ _ _ _ hpc ‹_›
    · exact .pushLast _ _ _ _ _ _ hpc (by omega)
  | persisted event =>
    rw [Request.collect, DefaultRequestHandler.conclude_eq] at hc
    by_cases hs : stopsAt r.call.isNonBlocking event = true
    · rw [if_pos hs] at hc
      cases hc
      exact .answer _ _ _ tick hpc hs
    · rw [if_neg hs] at hc
      cases hc
      exact .goOn _ _ _ hpc (by simpa using hs)
  | closing =>
    rw [Request.collect] at hc
    split at hc <;> cases hc
    · exact .failClosed _ _ _ tick hpc ‹_›
    · exact .finalize _ _ _ tick hpc ‹_›

theorem Request.step_of_begin {r : Request} {tick : Tick} (hpc : r.pc = .received) :
    r.Step h threads i h (r.begin h tick) [] := by
  rw [Request.begin]
  cases hcall : r.call with
  | messageSend params =>
    dsimp only
    split
    · exact .refuse _ (Or.inl hpc)
    · exact .resolve params _ tick hpc (Or.inl hcall) ‹_›
  | messageStream params =>
    dsimp only
    split
    · exact .refuse _ (Or.inl hpc)
    · exact .resolve params _ tick hpc (Or.inr hcall) ‹_›
  | cancelTask params =>
    dsimp only
    split
    · exact .refuse _ (Or.inl hpc)
    · split
      · exact .refuse _ (Or.inl hpc)
      · exact .accept params _ hpc hcall ‹_› (Bool.eq_false_of_not_eq_true ‹_›)
  | subscribeToTask params =>
    dsimp only
    split
    · exact .refuse _ (Or.inl hpc)
    · split
      · exact .refuse _ (Or.inl hpc)
      · exact .locate params _ hpc hcall ‹_› (Bool.eq_false_of_not_eq_true ‹_›)

theorem Request.step_of_advance {r r' : Request} {tick : Tick}
    (ha : r.advance h threads i tick = some (h', r', new)) : r.Step h threads i h' r' new := by
  rw [Request.advance] at ha
  cases hpc : r.pc with
  | received =>
    rw [hpc] at ha
    cases ha
    exact step_of_begin hpc
  | resolved ctx =>
    simp only [hpc] at ha
    split at ha
    · cases ha; exact .configure _ _ tick hpc (Or.inl ‹_›)
    · cases ha; exact .configure _ _ tick hpc (Or.inr ‹_›)
    · cases ha
  | intercepting key ctx n =>
    simp only [hpc] at ha
    split at ha
    · cases ha; exact .intercepted _ _ _ hpc ‹_›
    · split at ha <;> cases ha
      · exact .refuse _ (Or.inr (Or.inl ⟨_, _, _, hpc⟩))
      · exact .intercept _ _ _ _ _ hpc ‹_› ‹_›
  | canceling task =>
    simp only [hpc] at ha
    split at ha <;> cases ha
    exact .abort _ _ hpc ‹_›
  | queueing key ctx =>
    simp only [hpc] at ha
    split at ha <;> cases ha
    · exact .panic _ _ hpc ‹_›
    · exact .queue _ _ _ _ hpc ‹_›
  | queued key ctx q =>
    simp only [hpc, Request.spawn] at ha
    split at ha <;> cases ha
    · exact .spawnSend _ _ _ _ _ hpc ‹_› rfl
    · exact .spawnStream _ _ _ _ hpc ‹_›
    · exact .spawnCancel _ _ _ _ _ hpc ‹_› rfl
  | collecting removes c phase =>
    simp only [hpc] at ha
    obtain ⟨⟨h₁, r₁⟩, hc, he⟩ := Option.map_eq_some_iff.mp ha
    cases he
    exact step_of_collect hpc hc
  | returning removes c resp =>
    simp only [hpc] at ha
    cases ha
    exact .finish _ _ _ hpc
  | locating =>
    simp only [hpc] at ha
    split at ha
    · split at ha <;> cases ha
      · exact .refuse _ (Or.inr (Or.inr hpc))
      · exact .find _ _ hpc ‹_› ‹_›
    · cases ha
  | located q =>
    simp only [hpc] at ha
    cases ha
    exact .subscribe _ hpc
  | streaming q pos =>
    simp only [hpc] at ha
    split at ha <;> cases ha
    · exact .deliver _ _ _ _ hpc ‹_›
    · exact .deliverLag _ _ _ _ hpc ‹_›
    · exact .endStream _ _ _ hpc ‹_›
  | done o => simp [hpc] at ha
  | dropped => simp [hpc] at ha

theorem Execution.step_of_advance {x x' : Execution} {m : Move}
    (ha : x.advance h i m = some (h', x')) : x.Step h i m h' x' := by
  cases m with
  | drop => cases ha
  | abort =>
    simp only [Execution.advance] at ha
    split at ha
    · split at ha <;> cases ha
      · exact .abort ‹_› (Or.inl ‹_›)
      · exact .abort ‹_› (Or.inr ⟨_, ‹_›⟩)
    · cases ha
  | tick t =>
    simp only [Execution.advance] at ha
    split at ha <;> cases ha
    · exact .save _ t ‹_›
    · exact .echo _ t ‹_›
  | emit e => simp only [Execution.advance] at ha; split at ha <;> cases ha; exact .emit e ‹_›
  | succeed => simp only [Execution.advance] at ha; split at ha <;> cases ha; exact .succeed ‹_›
  | panic => simp only [Execution.advance] at ha; split at ha <;> cases ha; exact .panic ‹_›
  | fail e t => simp only [Execution.advance] at ha; split at ha <;> cases ha; exact .fail e t ‹_›

/-- **What one step of the server can be.** -/
theorem cases_of_step {m : Move} {t t' : Thread}
    (ha : server.advance h threads i m t = some (h', t', new)) :
    (∃ r r', t = .request r ∧ t' = .request r' ∧ r.Step h threads i h' r' new ∧
        ((∃ tick, m = .tick tick) ∨ h' = h ∧ r' = r.goto .dropped)) ∨
      (∃ x x', t = .execution x ∧ t' = .execution x' ∧ new = [] ∧ x.Step h i m h' x') ∨
      ∃ g, t = .registration g ∧ g.stored = false ∧
        t' = .registration { g with stored := true } ∧ new = [] ∧
        h' = { h with runningTasks := h.runningTasks.insert g.taskId g.execution } := by
  change Thread.advance h threads i m t = _ at ha
  cases t with
  | request r =>
    cases m with
    | tick tick =>
      obtain ⟨⟨h₁, r₁, n₁⟩, hr, he⟩ := Option.map_eq_some_iff.mp ha
      cases he
      exact Or.inl ⟨r, r₁, rfl, rfl, Request.step_of_advance hr, Or.inl ⟨tick, rfl⟩⟩
    | drop =>
      obtain ⟨r₁, hr, he⟩ := Option.map_eq_some_iff.mp ha
      cases he
      rw [Request.give] at hr
      split at hr <;> cases hr
      exact Or.inl ⟨r, _, rfl, rfl, .drop ‹_›, Or.inr ⟨rfl, rfl⟩⟩
    | _ => cases ha
  | execution x =>
    obtain ⟨⟨h₁, x₁⟩, hx, he⟩ := Option.map_eq_some_iff.mp ha
    cases he
    exact Or.inr (Or.inl ⟨x, x₁, rfl, rfl, rfl, Execution.step_of_advance hx⟩)
  | registration g =>
    cases m with
    | tick tick =>
      obtain ⟨⟨h₁, g₁⟩, hg, he⟩ := Option.map_eq_some_iff.mp ha
      cases he
      rw [Registration.advance] at hg
      split at hg <;> cases hg
      exact Or.inr (Or.inr ⟨g, rfl, Bool.eq_false_of_not_eq_true ‹_›, rfl, rfl, rfl⟩)
    | _ => cases ha

/-! ### Requests that are given up -/

theorem Request.begin_ne_dropped (r : Request) (tick : Tick) : (r.begin h tick).pc ≠ .dropped := by
  unfold begin
  split
  · split <;> simp
  · split <;> simp
  · split
    · simp
    · split <;> simp
  · split
    · simp
    · split <;> simp

theorem Request.collect_ne_dropped {r r' : Request} {removes : TaskId} {c : Collector}
    {phase : Phase} {tick : Tick} (hc : r.collect h threads tick removes c phase = some (h', r')) :
    r'.pc ≠ .dropped := by
  cases phase with
  | persisting event =>
    cases event with
    | statusUpdate e =>
      simp only [collect] at hc
      split at hc <;> cases hc <;> simp
    | _ => cases hc; simp
  | updating e t => cases hc; simp
  | notifying event t => cases hc; simp
  | pushing event t configs n => cases hc; simp
  | _ =>
    rw [collect] at hc
    split at hc <;> cases hc <;> simp

/-- Only the client drops a request. -/
theorem Request.advance_ne_dropped {r r' : Request} {tick : Tick}
    (ha : r.advance h threads i tick = some (h', r', new)) : r'.pc ≠ .dropped := by
  rw [advance] at ha
  cases hpc : r.pc with
  | received =>
    rw [hpc] at ha
    cases ha
    exact r.begin_ne_dropped tick
  | collecting removes c phase =>
    simp only [hpc] at ha
    obtain ⟨⟨h₁, r₁⟩, hc, he⟩ := Option.map_eq_some_iff.mp ha
    cases he
    exact collect_ne_dropped hc
  | intercepting key ctx n =>
    simp only [hpc] at ha
    split at ha
    · cases ha; simp
    · split at ha <;> cases ha <;> simp
  | queued key ctx q =>
    simp only [hpc, spawn] at ha
    split at ha <;> cases ha <;> simp
  | locating =>
    simp only [hpc] at ha
    split at ha
    · split at ha <;> cases ha <;> simp
    · cases ha
  | done o => simp [hpc] at ha
  | dropped => simp [hpc] at ha
  | returning removes c resp => simp only [hpc] at ha; cases ha; simp
  | located q => simp only [hpc] at ha; cases ha; simp
  | _ =>
    simp only [hpc] at ha
    split at ha <;> cases ha <;> simp

/-- A request is given up by the client's own move and by no other. -/
theorem dropped_iff {r r' : Request} {m : Move}
    (ha : server.advance h threads i m (.request r) = some (h', .request r', new)) :
    r'.pc = .dropped ↔ m = .drop := by
  cases m with
  | tick tick =>
    obtain ⟨⟨h₁, r₁, n₁⟩, hr, he⟩ := Option.map_eq_some_iff.mp ha
    cases he
    exact iff_of_false (Request.advance_ne_dropped hr) (by simp)
  | drop =>
    obtain ⟨r₁, hr, he⟩ := Option.map_eq_some_iff.mp ha
    cases he
    rw [Request.give] at hr
    split at hr <;> cases hr
    exact iff_of_true rfl rfl
  | _ => cases ha

theorem not_dropped_of_tick {r r' : Request} {tick : Tick}
    (ha : server.advance h threads i (.tick tick) (.request r) = some (h', .request r', new)) :
    r'.pc ≠ .dropped := by
  rw [ne_eq, dropped_iff ha]
  simp

/-! ### A collector that runs alone -/

/-- Thread `i` takes `n` steps in a row, all at one clock reading. -/
def Ticks (c : ServerConfig) (i : ℕ) (tick : Tick) (n : ℕ) (c' : ServerConfig) : Prop :=
  server.exec c (List.replicate n (.run i (.tick tick))) = some c'

theorem ticks_zero (c : ServerConfig) (i : ℕ) (tick : Tick) : Ticks c i tick 0 c := rfl

/-- One step of a request that looks at no other thread, and then the rest. -/
theorem ticks_succ {r r' : Request} {tick : Tick} {n : ℕ} {c' : ServerConfig}
    (hi : i < threads.length) (ha : ∀ ts, r.advance h ts i tick = some (h', r', []))
    (hn : Ticks ⟨h', threads.set i (.request r')⟩ i tick n c') :
    Ticks ⟨h, threads.set i (.request r)⟩ i tick (n + 1) c' := by
  have hs : server.step ⟨h, threads.set i (.request r)⟩ (.run i (.tick tick)) =
      some ⟨h', threads.set i (.request r')⟩ := by
    simp only [Machine.step, List.getElem?_set_self hi]
    change Option.map _ (Thread.advance h _ i (.tick tick) (.request r)) = _
    simp [Thread.advance, ha, List.set_set]
  rw [Ticks, List.replicate_succ, Machine.exec, hs]
  exact hn

/-- What `collect_result` does with what `process_event` gave it. -/
def Request.after (r : Request) (removes : TaskId) (c : Collector) :
    Except A2AError EventAction → Request
  | .error e => r.goto (.done (.answered c (.error e)))
  | .ok (.returnWith resp) => r.goto (.returning removes c resp)
  | .ok (.continueWith event) =>
    r.goto (.collecting removes { c with lastEvent := some event } .receiving)

/-- It does not matter where the request was. -/
theorem Request.after_goto (r : Request) (removes : TaskId) (c : Collector) (pc : Pc) :
    (r.goto pc).after removes c = r.after removes c := by
  funext res
  rcases res with e | resp | event <;> rfl

section

variable {r : Request} {removes : TaskId} {col : Collector} {event : Event} (tick : Tick)

/-- The last of the steps. -/
theorem ticks_persisted (hi : i < threads.length)
    (hpc : r.pc = .collecting removes col (.persisted event)) :
    Ticks ⟨h, threads.set i (.request r)⟩ i tick 1 ⟨h, threads.set i (.request (r.after removes col
      (h.conclude event r.call.isNonBlocking tick.now)))⟩ := by
  refine ticks_succ hi (fun ts => ?_) (ticks_zero _ _ _)
  simp only [Request.advance, hpc, Request.collect]
  cases h.conclude event r.call.isNonBlocking tick.now with
  | error e => rfl
  | ok action => cases action <;> rfl

/-- The loop over the configurations. -/
theorem ticks_pushingFrom {t : Task} {configs : Multiset PushNotificationConfig} {n : ℕ}
    (hi : i < threads.length)
    (hpc : r.pc = .collecting removes col (.pushingFrom event t configs n)) :
    ∃ k, Ticks ⟨h, threads.set i (.request r)⟩ i tick k
      ⟨(sends configs t n).foldl DefaultRequestHandler.sendPush h, threads.set i (.request
        (r.after removes col (((sends configs t n).foldl DefaultRequestHandler.sendPush h).conclude
          event r.call.isNonBlocking tick.now)))⟩ := by
  obtain ⟨d, hd⟩ : ∃ d, d = configs.card - n := ⟨_, rfl⟩
  induction d generalizing h r n with
  | zero =>
    rw [Phase.pushingFrom, if_neg (by omega)] at hpc
    rw [sends_of_card_le (by omega)]
    exact ⟨1, ticks_persisted tick hi hpc⟩
  | succ d ih =>
    have hlt : n < configs.card := by omega
    rw [Phase.pushingFrom, if_pos hlt] at hpc
    rw [sends_of_lt hlt, List.foldl_cons,
      ← r.after_goto removes col (.collecting removes col (.pushingFrom event t configs (n + 1)))]
    obtain ⟨k, hk⟩ := ih (h := h.sendPush ⟨configs, n, t⟩)
      (r := r.goto (.collecting removes col (.pushingFrom event t configs (n + 1)))) rfl (by omega)
    refine ⟨k + 1, ticks_succ hi (fun ts => ?_) hk⟩
    simp only [Request.advance, hpc, Request.collect]
    rfl

/-- The steps after the store has been written. -/
theorem ticks_notifying {t : Task} (hi : i < threads.length)
    (hpc : r.pc = .collecting removes col (.notifying event t)) :
    ∃ k, Ticks ⟨h, threads.set i (.request r)⟩ i tick k ⟨h.notifyPush t, threads.set i (.request
      (r.after removes col ((h.notifyPush t).conclude event r.call.isNonBlocking tick.now)))⟩ := by
  rw [← r.after_goto removes col
    (.collecting removes col (.pushingFrom event t (h.pushConfigs t.id) 0))]
  obtain ⟨k, hk⟩ := ticks_pushingFrom tick (h := h) hi (r := r.goto
    (.collecting removes col (.pushingFrom event t (h.pushConfigs t.id) 0))) rfl
  refine ⟨k + 1, ticks_succ hi (fun ts => ?_) hk⟩
  simp only [Request.advance, hpc, Request.collect]
  rfl

/-- **A collector that runs alone does what `process_event` does**: from the
receipt of an event on, its steps leave the handler `process_event` leaves, and
take the request to where its result says. -/
theorem collect_alone (hi : i < threads.length)
    (hpc : r.pc = .collecting removes col (.persisting event)) :
    ∃ n, Ticks ⟨h, threads.set i (.request r)⟩ i tick n
      ⟨(h.processEvent event r.call.isNonBlocking tick).1, threads.set i (.request
        (r.after removes col (h.processEvent event r.call.isNonBlocking tick).2))⟩ := by
  rw [DefaultRequestHandler.processEvent]
  cases event with
  | task t =>
    rw [← r.after_goto removes col (.collecting removes col (.notifying (.task t) t))]
    obtain ⟨k, hk⟩ := ticks_notifying tick (h := h.storeTask t) hi
      (r := r.goto (.collecting removes col (.notifying (.task t) t))) rfl
    refine ⟨k + 1, ticks_succ hi (fun ts => ?_) hk⟩
    simp only [Request.advance, hpc, Request.collect]
    rfl
  | message m =>
    rw [← r.after_goto removes col (.collecting removes col (.persisted (.message m)))]
    refine ⟨2, ticks_succ hi (fun ts => ?_) (ticks_persisted tick hi rfl)⟩
    simp only [Request.advance, hpc, Request.collect]
    rfl
  | artifactUpdate e =>
    rw [← r.after_goto removes col (.collecting removes col (.persisted (.artifactUpdate e)))]
    refine ⟨2, ticks_succ hi (fun ts => ?_) (ticks_persisted tick hi rfl)⟩
    simp only [Request.advance, hpc, Request.collect]
    rfl
  | statusUpdate e =>
    rw [DefaultRequestHandler.persistEventSnapshot]
    cases ht : h.getTaskInternal e.taskId with
    | none =>
      rw [← r.after_goto removes col (.collecting removes col (.persisted (.statusUpdate e)))]
      refine ⟨2, ticks_succ hi (fun ts => ?_) (ticks_persisted tick hi rfl)⟩
      simp only [Request.advance, hpc, Request.collect, ht]
      rfl
    | some t =>
      have hupdate : ∀ t', ∃ n, Ticks
          ⟨h, threads.set i (.request (r.goto (.collecting removes col (.updating e t'))))⟩ i tick n
          ⟨(h.storeTask t').notifyPush t', threads.set i (.request (r.after removes col
            (((h.storeTask t').notifyPush t').conclude (.statusUpdate e) r.call.isNonBlocking
              tick.now)))⟩ := by
        intro t'
        rw [← r.after_goto removes col (.collecting removes col (.notifying (.statusUpdate e) t'))]
        obtain ⟨k, hk⟩ := ticks_notifying tick (h := h.storeTask t') hi
          (r := r.goto (.collecting removes col (.notifying (.statusUpdate e) t'))) rfl
        exact ⟨k + 1, ticks_succ hi (fun ts => rfl) hk⟩
      obtain ⟨n, hn⟩ := hupdate (t.withStatus (.new e.status.state tick.now))
      refine ⟨n + 1, ticks_succ hi (fun ts => ?_) hn⟩
      simp only [Request.advance, hpc, Request.collect, ht]
      rfl

end

end Ra2a
