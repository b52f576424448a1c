import Ra2a.Server.Handler.Aborting
import Ra2a.Server.Handler.Settled

/-!
# What a cancellation answers

`on_cancel_task` answers with whatever first stops its collector.  This may be the
record of a failed `executor.cancel`, or an event of the execution that was to be
aborted.  After a status update it answers with the record as it then is in the
store, which others write as well.

The answer is the requested task and canceled along every run in which each event
that stops a cancellation reports just that, a status update meets the context
the cancellation found, and nobody writes another record before it answers
(`canceled_reach`).
-/

namespace Ra2a

open Broadcast Interleave

/-- The task a cancellation that collects has found in the store. -/
def Asked (c : ServerConfig) (col : Collector) (task : Task) : Prop :=
  ∃ x, c.threads[col.own]? = some (.execution x) ∧ x.ctx.storedTask = some task

/-- `t` is the task asked for, and canceled. -/
structure Task.IsCanceled (task t : Task) : Prop where
  id : t.id = task.id
  contextId : t.contextId = task.contextId
  state : t.status.state = .canceled

/-- Every task a cancellation has answered with is the one it was asked to cancel,
and canceled. -/
def AnswersCanceled (c : ServerConfig) : Prop :=
  ∀ (i : ℕ) (r : Request) params col t, c.threads[i]? = some (.request r) →
    r.call = .cancelTask params → r.pc = .done (.answered col (.ok (.task t))) →
    ∃ task, Asked c col task ∧ task.id = params.id ∧ task.IsCanceled t

/-! ### The condition -/

/-- The event is no task, or it reports the task as canceled. -/
def Event.Cancels (task : Task) : Event → Prop
  | .task t => task.IsCanceled t
  | .statusUpdate e => e.taskId = task.id ∧ e.status.state = .canceled
  | .message _ => True
  | .artifactUpdate _ => True

/-- The phases in which a status update is in the store and not answered yet. -/
def Phase.updated? : Phase → Option TaskStatusUpdateEvent
  | .notifying (.statusUpdate e) _ => some e
  | .pushing (.statusUpdate e) _ _ _ => some e
  | .persisted (.statusUpdate e) => some e
  | _ => none

/-- Thread `i` collects for the cancellation of a task. -/
def Canceling (c : ServerConfig) (i : ℕ) (phase : Phase) (col : Collector) (task : Task) : Prop :=
  ∃ r removes params, c.threads[i]? = some (.request r) ∧ r.call = .cancelTask params ∧
    r.pc = .collecting removes col phase ∧ Asked c col task

/-- What a step leaves of cancellations. -/
structure CancelsCleanly (c : ServerConfig) (l : Label Thread Move) : Prop where
  stops : ∀ i tick col task sent pos, l = .run i (.tick tick) → Canceling c i .receiving col task →
    c.shared.recv c.threads col.queue col.pos = some (.ok sent, pos) →
    stopsAt false sent.event = true → sent.event.Cancels task
  context : ∀ i tick col task e t, l = .run i (.tick tick) →
    Canceling c i (.persisting (.statusUpdate e)) col task →
    stopsAt false (.statusUpdate e) = true →
    c.shared.getTaskInternal e.taskId = some t → t.contextId = task.contextId
  saves : ∀ i phase col task e saved, Saves c saved l → Canceling c i phase col task →
    phase.updated? = some e → stopsAt false (.statusUpdate e) = true →
    saved.id = task.id → task.IsCanceled saved

/-! ### The invariant -/

/-- The record of the task is the task, canceled. -/
def RecordCanceled (h : DefaultRequestHandler) (task : Task) : Prop :=
  ∃ t, h.getTaskInternal task.id = some t ∧ task.IsCanceled t

/-- What a cancellation knows while it works on an event that stops it. -/
structure Phase.Cancels (h : DefaultRequestHandler) (task : Task) (phase : Phase) : Prop where
  event : ∀ event, phase.event? = some event → stopsAt false event = true → event.Cancels task
  updating : ∀ e t, phase = .updating e t → stopsAt false (.statusUpdate e) = true →
    task.IsCanceled t
  updated : ∀ e, phase.updated? = some e → stopsAt false (.statusUpdate e) = true →
    RecordCanceled h task

/-- The task is the one asked for, and it has a record. -/
structure Found (h : DefaultRequestHandler) (params : CancelTaskRequest) (task : Task) : Prop where
  id : task.id = params.id
  stored : ∃ t, h.getTaskInternal task.id = some t

/-- What a cancellation knows, by where it is. -/
def Request.Knows (c : ServerConfig) (r : Request) (params : CancelTaskRequest) : Prop :=
  match r.pc with
  | .resolved _ => False
  | .intercepting _ _ _ => False
  | .canceling task => Found c.shared params task
  | .queueing _ ctx => ∃ task, ctx.storedTask = some task ∧ Found c.shared params task
  | .queued _ ctx _ => ∃ task, ctx.storedTask = some task ∧ Found c.shared params task
  | .collecting _ col phase =>
    ∃ task, Asked c col task ∧ Found c.shared params task ∧ phase.Cancels c.shared task
  | .returning _ col resp =>
    ∃ task, Asked c col task ∧ task.id = params.id ∧ ∀ t, resp = .task t → task.IsCanceled t
  | .done (.answered col result) =>
    ∃ task, Asked c col task ∧ task.id = params.id ∧
      ∀ t, result = .ok (.task t) → task.IsCanceled t
  | _ => True

variable {c c' : ServerConfig} {h h' : DefaultRequestHandler} {task : Task} {col : Collector}
  {params : CancelTaskRequest}

theorem Asked.extend (he : Extends c c') (h : Asked c col task) : Asked c' col task := by
  obtain ⟨x, hx, hask⟩ := h
  obtain ⟨x', hx', hsame⟩ := he.execution col.own x hx
  exact ⟨x', hx', by rw [hsame.ctx, hask]⟩

/-- No record is ever taken away. -/
theorem Found.step (hf : Found h params task) (hs : SameStore h h' ∨ ∃ saved, Stores h h' saved) :
    Found h' params task := by
  obtain ⟨t, ht⟩ := hf.stored
  refine ⟨hf.id, ?_⟩
  rcases hs with hsame | ⟨saved, hst⟩
  · exact ⟨t, (hsame task.id).trans ht⟩
  · rw [hst task.id]
    split
    · exact ⟨saved, rfl⟩
    · exact ⟨t, ht⟩

/-- A status update of a task puts the record of that task in the state. -/
theorem isCanceled_withStatus {e : TaskStatusUpdateEvent} {t : Task} {now : String}
    (he : (Event.statusUpdate e).Cancels task) (ht : h.getTaskInternal e.taskId = some t)
    (hctx : t.contextId = task.contextId) :
    task.IsCanceled (t.withStatus (.new e.status.state now)) := by
  refine ⟨?_, hctx, he.2⟩
  exact (DefaultRequestHandler.id_of_getTaskInternal ht).trans he.1

/-- What a cancellation answers on an event that stops it. -/
theorem isCanceled_answer {event : Event} {now : String} (hstop : stopsAt false event = true)
    (he : event.Cancels task)
    (hrec : ∀ e, event = .statusUpdate e → RecordCanceled h task) {t : Task}
    (ht : h.answer false event now = .task t) : task.IsCanceled t := by
  cases event with
  | task u =>
    have hgo : (shouldInterruptNonStreaming false (.task u)).isSome = false := by
      simp [shouldInterruptNonStreaming, he.state]
    rw [DefaultRequestHandler.answer, hgo] at ht
    cases ht
    exact he
  | statusUpdate e =>
    obtain ⟨u, hu, hcanceled⟩ := hrec e rfl
    have hanswer : h.answer false (.statusUpdate e) now =
        .task (h.taskOrFallback e.taskId now) := by
      unfold DefaultRequestHandler.answer
      split <;> rfl
    rw [hanswer, DefaultRequestHandler.taskOrFallback, he.1, hu] at ht
    cases ht
    exact hcanceled
  | message m => cases ht
  | artifactUpdate e => cases hstop

/-- A phase in which no status update is on its way. -/
theorem Phase.Cancels.of_event {phase : Phase} (hno : ∀ e t, phase ≠ .updating e t)
    (hnone : phase.updated? = none)
    (hevent : ∀ event, phase.event? = some event → stopsAt false event = true →
      event.Cancels task) : phase.Cancels h task where
  event := hevent
  updating e t he := absurd he (hno e t)
  updated e he := by
    rw [hnone] at he
    cases he

theorem cancels_receiving : (Phase.receiving).Cancels h task :=
  .of_event (by simp) rfl fun _ he => by cases he

/-- A cancellation after its own step. -/
theorem Request.Step.knows {r r' : Request} {new : List Thread} {i : ℕ} {tick : Tick}
    (hs : r.Step c.shared c.threads i h' r' new) (hi : c.threads[i]? = some (.request r))
    (hcall : r.call = .cancelTask params) (hheard : r.Heard)
    (hok : CancelsCleanly c (.run i (.tick tick))) (hr : r.Knows c params)
    (he : Extends c ⟨h', c.threads.set i (.request r') ++ new⟩) :
    r'.Knows ⟨h', c.threads.set i (.request r') ++ new⟩ params := by
  have hstore : SameStore c.shared h' ∨ ∃ saved, Stores c.shared h' saved :=
    hs.store.imp_right fun ⟨saved, _, hst⟩ => ⟨saved, hst⟩
  have hcollecting : ∀ {removes col phase}, r.pc = .collecting removes col phase →
      ∃ task, Canceling c i phase col task ∧ Asked c col task ∧ Found c.shared params task ∧
        phase.Cancels c.shared task := by
    intro removes col phase hpc
    rw [Request.Knows, hpc] at hr
    obtain ⟨task, hask, hrest⟩ := hr
    exact ⟨task, ⟨r, removes, params, hi, hcall, hpc, hask⟩, hask, hrest⟩
  cases hs with
  | accept params' task hpc hcall' htask hopen =>
    rw [hcall] at hcall'
    cases hcall'
    have hid := DefaultRequestHandler.id_of_getTaskInternal htask
    exact ⟨hid, task, by rw [hid]; exact htask⟩
  | abort params' task hpc hcall' =>
    rw [Request.Knows, hpc] at hr
    exact ⟨task, rfl, hr.step hstore⟩
  | queue key ctx q m hpc hq =>
    rw [Request.Knows, hpc] at hr
    obtain ⟨task, hctx, hfound⟩ := hr
    exact ⟨task, hctx, hfound.step hstore⟩
  | spawnCancel params' key ctx q pos hpc hcall' hpos =>
    rw [Request.Knows, hpc] at hr
    obtain ⟨task, hctx, hfound⟩ := hr
    refine ⟨task, ⟨⟨.cancel params'.id, ctx, key, q, i, .running⟩, ?_, hctx⟩, hfound,
      cancels_receiving⟩
    rw [List.getElem?_append_right (by simp), List.length_set, Nat.sub_self]
    rfl
  | receive removes col sent pos hpc hrecv =>
    obtain ⟨task, hcanceling, hask, hfound, -⟩ := hcollecting hpc
    refine ⟨task, hask.extend he, hfound.step hstore, .of_event (by simp) rfl ?_⟩
    intro event hevent hstop
    cases hevent
    exact hok.stops i tick col task sent pos rfl hcanceling hrecv hstop
  | lag removes col n pos hpc hrecv =>
    obtain ⟨task, -, hask, hfound, -⟩ := hcollecting hpc
    exact ⟨task, hask.extend he, hfound.step hstore, cancels_receiving⟩
  | close removes col pos hpc hrecv =>
    exact absurd hrecv (not_closed_while_collecting hi hpc pos)
  | persist removes col t hpc =>
    obtain ⟨task, -, hask, hfound, hcancels⟩ := hcollecting hpc
    exact ⟨task, hask.extend he, hfound.step hstore, .of_event (by simp) rfl hcancels.event⟩
  | read removes col e t now hpc htask =>
    obtain ⟨task, hcanceling, hask, hfound, hcancels⟩ := hcollecting hpc
    refine ⟨task, hask.extend he, hfound.step hstore, hcancels.event, ?_, by simp [Phase.updated?]⟩
    rintro e' t' hphase hstop
    cases hphase
    exact isCanceled_withStatus (hcancels.event _ rfl hstop) htask
      (hok.context i tick col task e t rfl hcanceling hstop htask)
  | skip removes col event hpc hskip hnone =>
    obtain ⟨task, -, hask, hfound, hcancels⟩ := hcollecting hpc
    refine ⟨task, hask.extend he, hfound.step hstore, hcancels.event, by simp, ?_⟩
    intro e hupdated hstop
    cases event with
    | statusUpdate e' =>
      cases hupdated
      obtain ⟨t, ht⟩ := hfound.stored
      rw [← (hcancels.event _ rfl hstop).1, hnone _ rfl] at ht
      cases ht
    | _ => cases hupdated
  | update removes col e t hpc =>
    obtain ⟨task, -, hask, hfound, hcancels⟩ := hcollecting hpc
    refine ⟨task, hask.extend he, hfound.step hstore, hcancels.event, by simp, ?_⟩
    intro e' hupdated hstop
    cases hupdated
    have hcanceled := hcancels.updating e t rfl hstop
    exact ⟨t, by simp [hcanceled.id], hcanceled⟩
  | list removes col event t hpc | nobody removes col event t hpc
  | push removes col event t configs n hpc | pushLast removes col event t configs n hpc =>
    obtain ⟨task, -, hask, hfound, hcancels⟩ := hcollecting hpc
    refine ⟨task, hask.extend he, hfound.step hstore, hcancels.event, by simp, ?_⟩
    intro e' hupdated hstop
    have hrec : RecordCanceled c.shared task := by
      cases event with
      | statusUpdate e => cases hupdated; exact hcancels.updated _ rfl hstop
      | _ => cases hupdated
    simpa [RecordCanceled] using hrec
  | goOn removes col event hpc hstop =>
    obtain ⟨task, -, hask, hfound, -⟩ := hcollecting hpc
    exact ⟨task, hask.extend he, hfound.step hstore, cancels_receiving⟩
  | answer removes col event now hpc hstop =>
    obtain ⟨task, -, hask, hfound, hcancels⟩ := hcollecting hpc
    refine ⟨task, hask.extend he, hfound.id, fun t ht => ?_⟩
    have hblocks : r.call.isNonBlocking = false := by rw [hcall]; rfl
    rw [hblocks] at hstop ht
    refine isCanceled_answer hstop (hcancels.event event rfl hstop) ?_ ht
    rintro e rfl
    exact hcancels.updated e rfl hstop
  | finalize removes col resp now hpc hresp =>
    exact absurd hpc hheard.not_closing
  | failClosed removes col e now hpc herr =>
    exact absurd hpc hheard.not_closing
  | finish removes col resp hpc =>
    rw [Request.Knows, hpc] at hr
    obtain ⟨task, hask, hid, hresp⟩ := hr
    refine ⟨task, hask.extend he, hid, fun t ht => hresp t ?_⟩
    rw [hcall] at ht
    cases resp with
    | task u => cases ht; rfl
    | message m => cases ht
  | configure params' ctx now hpc hcall' => rw [Request.Knows, hpc] at hr; exact hr.elim
  | intercept key ctx ctx' n interceptor hpc => rw [Request.Knows, hpc] at hr; exact hr.elim
  | intercepted key ctx n hpc => rw [Request.Knows, hpc] at hr; exact hr.elim
  | resolve params' ctx now hpc hcall' => rcases hcall' with h | h <;> rw [hcall] at h <;> cases h
  | spawnSend params' key ctx q pos hpc hcall' => rw [hcall] at hcall'; cases hcall'
  | refuse | panic | spawnStream | locate | find | subscribe | deliver | deliverLag | endStream
  | drop => exact trivial

/-- A record that stays, or is written over with the task canceled. -/
theorem RecordCanceled.step (hrec : RecordCanceled h task)
    (hs : SameStore h h' ∨
      ∃ saved, Stores h h' saved ∧ (saved.id = task.id → task.IsCanceled saved)) :
    RecordCanceled h' task := by
  obtain ⟨t, ht, hcanceled⟩ := hrec
  rcases hs with hsame | ⟨saved, hst, hsaved⟩
  · exact ⟨t, (hsame task.id).trans ht, hcanceled⟩
  · by_cases hid : task.id = saved.id
    · exact ⟨saved, by rw [hst, if_pos hid], hsaved hid.symm⟩
    · exact ⟨t, by rw [hst, if_neg hid, ht], hcanceled⟩

/-- A cancellation that stays where it is, while the record it relies on stays
canceled. -/
theorem Request.Knows.extend {r : Request} (hr : r.Knows c params) (he : Extends c c')
    (hs : SameStore c.shared c'.shared ∨ ∃ saved, Stores c.shared c'.shared saved)
    (hrec : ∀ removes col phase task e, r.pc = .collecting removes col phase → Asked c col task →
      phase.updated? = some e → stopsAt false (.statusUpdate e) = true →
      RecordCanceled c.shared task → RecordCanceled c'.shared task) : r.Knows c' params := by
  unfold Knows at hr ⊢
  split at hr
  · exact hr
  · exact hr
  · exact hr.step hs
  · obtain ⟨task, hctx, hfound⟩ := hr
    exact ⟨task, hctx, hfound.step hs⟩
  · obtain ⟨task, hctx, hfound⟩ := hr
    exact ⟨task, hctx, hfound.step hs⟩
  · rename_i removes col phase hpc
    obtain ⟨task, hask, hfound, hcancels⟩ := hr
    refine ⟨task, hask.extend he, hfound.step hs, hcancels.event, hcancels.updating, ?_⟩
    intro e hupdated hstop
    exact hrec removes col phase task e hpc hask hupdated hstop (hcancels.updated e hupdated hstop)
  · obtain ⟨task, hask, hresp⟩ := hr
    exact ⟨task, hask.extend he, hresp⟩
  · obtain ⟨task, hask, hresult⟩ := hr
    exact ⟨task, hask.extend he, hresult⟩
  · exact trivial

/-- A cancellation after the step of another thread. -/
theorem Request.Knows.other {r : Request} {i j : ℕ} {m : Move} {t t' : Thread} {new : List Thread}
    (hr : r.Knows c params) (hj : c.threads[j]? = some (.request r))
    (hcall : r.call = .cancelTask params) (hok : CancelsCleanly c (.run i m))
    (ht : c.threads[i]? = some t)
    (ha : server.advance c.shared c.threads i m t = some (h', t', new)) :
    r.Knows ⟨h', c.threads.set i t' ++ new⟩ params := by
  have hstep := store_step ha
  refine hr.extend (extends_advance ht ha)
    (hstep.imp_right fun ⟨saved, _, _, _, hst⟩ => ⟨saved, hst⟩) ?_
  intro removes col phase task e hpc hask hupdated hstop hrec
  refine hrec.step (hstep.imp_right ?_)
  rintro ⟨saved, tick, hsave, rfl, hst⟩
  exact ⟨saved, hst, hok.saves j phase col task e saved ⟨i, tick, t, rfl, ht, hsave⟩
    ⟨r, removes, params, hj, hcall, hpc, hask⟩ hupdated hstop⟩

/-- **What cancellations know, they know along the whole run.** -/
theorem knowing_reach {c₀ : ServerConfig} (h₀ : Initial c₀)
    (hr : server.Reach CancelsCleanly c₀ c) :
    EachRequest (fun c _ r => ∀ params, r.call = .cancelTask params → r.Knows c params) c := by
  refine requests_reach h₀ ?_ ?_ ?_ ?_ (hr.assuming fun _ => heard_reach h₀)
  · intro c j r hpc hrec params hcall
    rw [Request.Knows, hpc]
    exact trivial
  · intro c t j r hok hf hj hA params hcall
    exact (hA params hcall).extend (extends_arrive c t) (Or.inl fun _ => rfl)
      fun _ _ _ _ _ _ _ _ _ hrec => hrec
  · intro c i m r h' r' new hok hi ha hs hm hA params hcall
    rw [hs.call] at hcall
    rcases hm with ⟨tick, rfl⟩ | ⟨-, rfl⟩
    · exact hs.knows hi hcall (hok.1 i _ hi) hok.2 (hA params hcall) (extends_advance hi ha)
    · exact trivial
  · intro c i m t h' t' new j r hok ht ha hj hA params hcall
    exact (hA params hcall).other hj hcall hok.2 ht ha

/-- **A cancellation answers with the task it was asked to cancel, canceled.** -/
theorem canceled_reach {c₀ : ServerConfig} (h₀ : Initial c₀)
    (hr : server.Reach CancelsCleanly c₀ c) : AnswersCanceled c := by
  intro i r params col t hi hcall hpc
  have hknows := knowing_reach h₀ hr i r hi params hcall
  rw [Request.Knows, hpc] at hknows
  obtain ⟨task, hask, hid, hresult⟩ := hknows
  exact ⟨task, hask, hid, hresult t rfl⟩

/-! ### Two cancellations -/

/-- A handler that knows of one task, which is at work. -/
def busyHandler : DefaultRequestHandler :=
  DefaultRequestHandler.new.storeTask ⟨"t1", "c1", ⟨.working, none, none⟩, [], [], none⟩

theorem initial_busyHandler : Initial ⟨busyHandler, []⟩ := ⟨rfl, rfl, rfl, rfl⟩

/-- A cancellation arrives and spawns `executor.cancel`. -/
def cancelSpawn : List (Label Thread Move) :=
  .arrive (.request ⟨.cancelTask ⟨none, "t1", none⟩, ∅, .received, []⟩) ::
    List.replicate 4 (.run 0 (.tick ⟨"12:01", "u3", "u4", "v1"⟩))

/-- The executor cancels the task. -/
def canceledRun : List (Label Thread Move) :=
  cancelSpawn ++ .run 1 (.emit (.statusUpdate ⟨"t1", "c1", ⟨.canceled, none, none⟩, none⟩)) ::
    List.replicate 6 (.run 0 (.tick ⟨"12:02", "u5", "u6", "v1"⟩))

def canceledConfig : ServerConfig := (server.exec ⟨busyHandler, []⟩ canceledRun).getD ⟨.new, []⟩

theorem canceledRun_cancelsCleanly :
    server.Along CancelsCleanly ⟨busyHandler, []⟩ canceledRun := by
  refine ⟨?_, ?_, ?_, ?_, ?_, ?_, ?_, ?_, ?_, ?_, ?_, ?_, trivial⟩
  all_goals
    refine ⟨?_, ?_, ?_⟩
    · rintro i tick col task sent pos hl ⟨r, removes, params, hr, hcall, hpc, x, hx, hask⟩ hrecv -
      cases hl
      all_goals cases hr
      all_goals cases hpc
      all_goals cases hx
      all_goals cases hask
      all_goals cases hrecv
      all_goals exact ⟨rfl, rfl⟩
    · rintro i tick col task e t hl ⟨r, removes, params, hr, hcall, hpc, x, hx, hask⟩ - ht
      cases hl
      all_goals cases hr
      all_goals cases hpc
      all_goals cases hx
      all_goals cases hask
      all_goals cases ht
      all_goals rfl
    · rintro i phase col task e saved ⟨j, tick, t, hl, ht, hsave⟩
        ⟨r, removes, params, hr, hcall, hpc, -⟩ hupdated - -
      cases hl
      all_goals cases ht
      all_goals cases hsave
      all_goals rcases i with _ | _ | i <;> cases hr
      all_goals cases hpc
      all_goals cases hupdated

/-- The executor fails to cancel it. -/
def uncanceledRun : List (Label Thread Move) :=
  cancelSpawn ++ .run 1 (.fail (.other "busy") ⟨"12:01", "u3", "u4", "v1"⟩) ::
    List.replicate 2 (.run 1 (.tick ⟨"12:01", "u3", "u4", "v1"⟩)) ++
    List.replicate 5 (.run 0 (.tick ⟨"12:02", "u5", "u6", "v1"⟩))

def uncanceledConfig : ServerConfig := (server.exec ⟨busyHandler, []⟩ uncanceledRun).getD ⟨.new, []⟩

/-- The cancellation answers with a failed task. -/
theorem uncanceledConfig_not_answersCanceled :
    Initial ⟨busyHandler, []⟩ ∧ server.Reach Machine.Always ⟨busyHandler, []⟩ uncanceledConfig ∧
      ¬ AnswersCanceled uncanceledConfig := by
  have hreach : server.Reach Machine.Always ⟨busyHandler, []⟩ uncanceledConfig :=
    .of_exec (show server.exec ⟨busyHandler, []⟩ uncanceledRun = some uncanceledConfig from rfl)
  refine ⟨initial_busyHandler, hreach, fun hall => ?_⟩
  obtain ⟨task, -, -, hcanceled⟩ := hall 0 _ _ _ _ rfl rfl rfl
  exact absurd hcanceled.state (by decide)

theorem canceled_reach_canceledRun : AnswersCanceled canceledConfig :=
  canceled_reach initial_busyHandler (.of_along canceledRun_cancelsCleanly rfl)

end Ra2a
