import Ra2a.Server.Handler.Collect

/-!
# The record after a failure

When `execute` or `cancel` returns an error the handler builds a new task,
saves it and sends it, and each collector that receives it saves it again.  The
echoes change nothing more.  The new task has the identifiers of the context,
the failed status, and nothing else, so the record keeps what it had only when
it had nothing (`failure_keeps_record_iff`).
-/

namespace Ra2a

/-- What a spawned execution runs: `execute`, or `cancel` for a task id. -/
inductive Job
  | execute
  | cancel (tid : TaskId)
  deriving DecidableEq

namespace Job

/-- The id under which a failure is recorded. -/
def taskId (ctx : RequestContext) : Job → TaskId
  | execute => ctx.taskId
  | cancel tid => tid

/-- The failure path of a job: the handler, and the event that is sent. -/
def failed (h : DefaultRequestHandler) (ctx : RequestContext) (error : A2AError) (tick : Tick) :
    Job → DefaultRequestHandler × Event
  | execute => h.executeFailed ctx error tick
  | cancel tid => h.cancelFailed ctx tid error tick

/-- Both paths save and send one and the same kind of task. -/
theorem failed_eq (h : DefaultRequestHandler) (ctx : RequestContext) (error : A2AError)
    (tick : Tick) (job : Job) :
    job.failed h ctx error tick =
      (h.storeTask (failedTask (job.taskId ctx) ctx.contextId error tick),
        .task (failedTask (job.taskId ctx) ctx.contextId error tick)) := by
  cases job <;> rfl

end Job

namespace DefaultRequestHandler

variable (h : DefaultRequestHandler)

/-- The handler after a failure path has run and each collector in `echoes` has
persisted the event it sent. -/
def afterFailure (job : Job) (ctx : RequestContext) (error : A2AError) (tick : Tick)
    (echoes : List Tick) : DefaultRequestHandler :=
  let (h, event) := job.failed h ctx error tick
  h.persistAll (echoes.map fun echo => (event, echo))

/-- A Task event that is already the record may be persisted any number of times. -/
theorem getTaskInternal_echoes {h : DefaultRequestHandler} {t : Task}
    (ht : h.getTaskInternal t.id = some t) (echoes : List Tick) :
    (h.persistAll (echoes.map fun echo => (.task t, echo))).getTaskInternal t.id = some t := by
  induction echoes using List.reverseRecOn with
  | nil => exact ht
  | append_singleton echoes echo ih =>
    rw [List.map_append, List.map_singleton, persistAll_append, persistEventSnapshot,
      getTaskInternal_notifyPush, getTaskInternal_storeTask, if_pos rfl]

/-- What both failure paths leave under the task's id. -/
theorem getTaskInternal_afterFailure (job : Job) (ctx : RequestContext) (error : A2AError)
    (tick : Tick) (echoes : List Tick) :
    (h.afterFailure job ctx error tick echoes).getTaskInternal (job.taskId ctx) =
      some (failedTask (job.taskId ctx) ctx.contextId error tick) := by
  rw [afterFailure, Job.failed_eq]
  have hid : (failedTask (job.taskId ctx) ctx.contextId error tick).id = job.taskId ctx := rfl
  rw [← hid]
  exact getTaskInternal_echoes (by rw [getTaskInternal_storeTask, if_pos rfl]) echoes

/-- The record of `h` under `k` is in `h'` with another status, a failure with
the error's text. -/
def FailsOnly (h h' : DefaultRequestHandler) (k : TaskId) (error : A2AError) : Prop :=
  ∃ t s, h.getTaskInternal k = some t ∧ h'.getTaskInternal k = some (t.withStatus s) ∧
    s.state = .failed ∧ s.message.map Message.parts = some [.text error.display]

/-- **A failure keeps the rest of the record exactly when there is nothing to
lose**: the record has no history, no artifacts and no metadata, and the context
id the request runs under. -/
theorem failure_keeps_record_iff {t : Task} {job : Job} {ctx : RequestContext}
    (hstored : h.getTaskInternal t.id = some t) (hid : job.taskId ctx = t.id) (error : A2AError)
    (tick : Tick) (echoes : List Tick) :
    FailsOnly h (h.afterFailure job ctx error tick echoes) t.id error ↔
      t.contextId = ctx.contextId ∧ t.history = [] ∧ t.artifacts = [] ∧ t.metadata = none := by
  have hafter := h.getTaskInternal_afterFailure job ctx error tick echoes
  rw [hid] at hafter
  constructor
  · rintro ⟨t', s, ht', hs, -, -⟩
    obtain rfl : t = t' := Option.some.inj (hstored.symm.trans ht')
    have he : failedTask t.id ctx.contextId error tick = t.withStatus s :=
      Option.some.inj (hafter.symm.trans hs)
    exact ⟨(congrArg Task.contextId he).symm, (congrArg Task.history he).symm,
      (congrArg Task.artifacts he).symm, (congrArg Task.metadata he).symm⟩
  · rintro ⟨hc, hh, ha, hm⟩
    refine ⟨t, .failed error.display tick.now tick.uuid, hstored, ?_, rfl, rfl⟩
    rw [hafter, ← hc]
    obtain ⟨id, contextId, status, artifacts, history, metadata⟩ := t
    dsimp only at hh ha hm
    subst hh ha hm
    rfl

/-! ### A task with a history -/

/-- A task in work, with the message that started it. -/
def taskWithHistory : Task where
  id := "t1"
  contextId := "c1"
  status := ⟨.working, none, none⟩
  artifacts := []
  history := [Message.new "m1" .user [.text "hello"]]
  metadata := none

/-- The context of a further request on it. -/
def historyContext : RequestContext :=
  { RequestContext.new "t1" "c1" with storedTask := some taskWithHistory }

theorem taskWithHistory_stored :
    (new.storeTask taskWithHistory).getTaskInternal taskWithHistory.id = some taskWithHistory := by
  decide

/-- The failure of an execution on it loses the message. -/
theorem failure_loses_history :
    (new.storeTask taskWithHistory).getTaskInternal taskWithHistory.id = some taskWithHistory ∧
      ¬ FailsOnly (new.storeTask taskWithHistory)
        ((new.storeTask taskWithHistory).afterFailure .execute historyContext (.other "boom")
          ⟨"12:01", "u1", "u2", "v1"⟩ []) taskWithHistory.id (.other "boom") := by
  refine ⟨taskWithHistory_stored, ?_⟩
  rintro ⟨t, s, ht, hs, -, -⟩
  obtain rfl : taskWithHistory = t := Option.some.inj (taskWithHistory_stored.symm.trans ht)
  have hafter := (new.storeTask taskWithHistory).getTaskInternal_afterFailure .execute
    historyContext (.other "boom") ⟨"12:01", "u1", "u2", "v1"⟩ []
  have hh := congrArg Task.history (Option.some.inj (hafter.symm.trans hs))
  exact List.cons_ne_nil _ _ hh.symm

theorem failure_keeps_record_iff_taskWithHistory :
    FailsOnly (new.storeTask taskWithHistory)
        ((new.storeTask taskWithHistory).afterFailure .execute historyContext (.other "boom")
          ⟨"12:01", "u1", "u2", "v1"⟩ []) taskWithHistory.id (.other "boom") ↔
      taskWithHistory.contextId = historyContext.contextId ∧ taskWithHistory.history = [] ∧
        taskWithHistory.artifacts = [] ∧ taskWithHistory.metadata = none :=
  failure_keeps_record_iff _ taskWithHistory_stored rfl _ _ _

end DefaultRequestHandler

end Ra2a
