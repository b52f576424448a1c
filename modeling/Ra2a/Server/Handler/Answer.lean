import Ra2a.Server.Handler.Collect

/-!
# The task a send answers with

The task comes from the event that made the collector return, from the store, or
from the fallback `Task::new(id, "")`.  From the event it is right by itself,
and so it is from the store once a Task event of the executor has been persisted
there.  A status update alone is answered with the record found at first, under
whatever context id that has, or with the fallback, which has no context id and
is always submitted (`answer_agrees_iff`).
-/

namespace Ra2a

/-- The task state an event carries. -/
def Event.state? : Event → Option TaskState
  | .task t => some t.status.state
  | .statusUpdate e => some e.status.state
  | _ => none

/-- The event is about the task and the context of the request. -/
def Event.Own (ctx : RequestContext) (event : Event) : Prop :=
  event.taskId = ctx.taskId ∧ event.contextId = ctx.contextId

/-- The task has the identity of the request, and the state `s`. -/
def Agrees (ctx : RequestContext) (s : TaskState) (t : Task) : Prop :=
  t.id = ctx.taskId ∧ t.contextId = ctx.contextId ∧ t.status.state = s

/-- Trimming the history leaves the rest. -/
theorem agrees_of_trim {p : SendMessageRequest} {t' t : Task} {ctx : RequestContext}
    {s : TaskState} (h : p.trim (.task t') = .task t) : Agrees ctx s t ↔ Agrees ctx s t' := by
  rw [SendMessageRequest.trim] at h
  cases hc : p.configuration with
  | none =>
    rw [hc] at h
    cases h
    exact Iff.rfl
  | some config =>
    rw [hc] at h
    have ht := SendMessageResponse.task.inj h
    rw [← ht]
    unfold applyHistoryLength
    cases config.historyLength with
    | none => exact Iff.rfl
    | some len => dsimp only; split_ifs <;> exact Iff.rfl

theorem not_message_of_trim {p : SendMessageRequest} {r : SendMessageResponse} {t : Task}
    (h : p.trim r = .task t) : ∃ t', r = .task t' := by
  cases r with
  | task t' => exact ⟨t', rfl⟩
  | message m => simp [SendMessageRequest.trim] at h

namespace DefaultRequestHandler

variable {h : DefaultRequestHandler}

/-- What a status update finds is right: a Task event came before it, or the
store held the task at first and under the context id of the request.  Where it
held none, the fallback is right by chance. -/
def Known (h : DefaultRequestHandler) (ctx : RequestContext) (pre : List (Event × Tick))
    (s : TaskState) : Prop :=
  (∃ u tick, (.task u, tick) ∈ pre) ∨
    match h.getTaskInternal ctx.taskId with
    | some r => r.contextId = ctx.contextId
    | none => ctx.contextId = "" ∧ s = .submitted

/-- The record, or the fallback, after a last status update. -/
theorem agrees_taskOrFallback_iff {ctx : RequestContext} {pre : List (Event × Tick)}
    {e : TaskStatusUpdateEvent} {tick : Tick} (hid : e.taskId = ctx.taskId)
    (hpre : ∀ p ∈ pre, p.1.Own ctx) (now : String) :
    Agrees ctx e.status.state
        ((h.persistAll (pre ++ [(.statusUpdate e, tick)])).taskOrFallback ctx.taskId now) ↔
      h.Known ctx pre e.status.state := by
  have hrec : (h.persistAll (pre ++ [(.statusUpdate e, tick)])).getTaskInternal ctx.taskId =
      (((Cell.since (writesTo ctx.taskId pre)).foldl persisted
        ((Cell.snapshot (writesTo ctx.taskId pre)).or (h.getTaskInternal ctx.taskId))).map
          fun t => t.withStatus (.new e.status.state tick.now)) := by
    rw [persistAll_append, getTaskInternal_persistEventSnapshot, writeTo, if_pos hid,
      getTaskInternal_persistAll, ← Cell.run_eq]
    rfl
  rw [taskOrFallback, hrec, Known]
  cases hs : Cell.snapshot (writesTo ctx.taskId pre) with
  | some u =>
    obtain ⟨hu, tk, hm⟩ := put_mem_writesTo.mp (Cell.mem_of_snapshot hs)
    rw [Option.some_or, foldl_persisted_some]
    exact ⟨fun _ => Or.inl ⟨u, tk, hm⟩, fun _ => ⟨hu, (hpre _ hm).2, rfl⟩⟩
  | none =>
    have hno : ¬ ∃ u tk, ((.task u, tk) : Event × Tick) ∈ pre := by
      rintro ⟨u, tk, hm⟩
      exact Cell.snapshot_ne_none (put_mem_writesTo.mpr ⟨(hpre _ hm).1, tk, hm⟩) hs
    rw [or_iff_right hno, Option.none_or]
    cases hr : h.getTaskInternal ctx.taskId with
    | some r =>
      rw [foldl_persisted_some]
      exact ⟨fun ha => ha.2.1, fun hc =>
        ⟨(id_of_getTaskInternal hr : r.id = ctx.taskId), hc, rfl⟩⟩
    | none =>
      rw [foldl_persisted_none]
      exact ⟨fun ha => ⟨ha.2.1.symm, ha.2.2.symm⟩, fun hc => ⟨rfl, hc.1.symm, hc.2.symm⟩⟩

/-- The record after a last Task event. -/
theorem taskOrFallback_task {pre : List (Event × Tick)} {u : Task} {tick : Tick} (now : String) :
    (h.persistAll (pre ++ [(.task u, tick)])).taskOrFallback u.id now = u := by
  rw [taskOrFallback, persistAll_append, getTaskInternal_persistEventSnapshot, writeTo, if_pos rfl]
  rfl

/-- **Where the answered task comes from**: a Task event answers for itself; a
status update leaves it to the store. -/
theorem source_of_answer {nb : Bool} {receipts : List Receipt} {pre : List (Event × Tick)}
    {event : Event} {tick : Tick} {t : Task}
    (hlast : processed nb receipts = pre ++ [(event, tick)])
    (hret : (h.collectResult nb none receipts).2 = some (.ok (.task t))) :
    (∃ u, event = .task u ∧ t = u) ∨ (∃ m, event = .message m) ∨ (∃ a, event = .artifactUpdate a) ∨
      ∃ e now, event = .statusUpdate e ∧
        t = (h.persistAll (pre ++ [(event, tick)])).taskOrFallback e.taskId now := by
  have hans := collectResult_cases hret
  rw [hlast] at hans
  cases event with
  | message m => exact Or.inr (Or.inl ⟨m, rfl⟩)
  | artifactUpdate a => exact Or.inr (Or.inr (Or.inl ⟨a, rfl⟩))
  | task u =>
    refine Or.inl ⟨u, rfl, ?_⟩
    rcases hans with ⟨pre', e', tick', hp, -, hr⟩ | ⟨now, hr⟩
    · obtain ⟨rfl, he⟩ := List.append_inj' hp rfl
      cases he
      unfold answer at hr
      split at hr
      · have ht := SendMessageResponse.task.inj (Except.ok.inj hr)
        rw [ht]
        exact taskOrFallback_task _
      · exact SendMessageResponse.task.inj (Except.ok.inj hr)
    · rw [List.getLast?_concat] at hr
      exact SendMessageResponse.task.inj (Except.ok.inj hr)
  | statusUpdate e =>
    refine Or.inr (Or.inr (Or.inr ?_))
    rcases hans with ⟨pre', e', tick', hp, -, hr⟩ | ⟨now, hr⟩
    · obtain ⟨rfl, he⟩ := List.append_inj' hp rfl
      cases he
      refine ⟨e, tick.now, rfl, ?_⟩
      unfold answer at hr
      split at hr <;> exact SendMessageResponse.task.inj (Except.ok.inj hr)
    · refine ⟨e, now, rfl, ?_⟩
      rw [List.getLast?_concat] at hr
      change _ = resolveTaskFromEvent _ (.statusUpdate e) now at hr
      rw [resolveTaskFromEvent] at hr
      split at hr
      · cases hr
      · exact SendMessageResponse.task.inj (Except.ok.inj hr)

/-- **The task answered has the identity of the request and the state of the
event that made the send return exactly when** that event is a Task event, or
the executor sent one before it, or the store held the task at first under the
context id of the request.  Where it held none, the fallback agrees only with a
request whose context id is empty and an event that says submitted. -/
theorem answer_agrees_iff {params : SendMessageRequest} {ctx : RequestContext}
    {receipts : List Receipt} {pre : List (Event × Tick)} {event : Event} {tick : Tick}
    {s : TaskState} {t : Task}
    (hown : ∀ p ∈ processed params.isNonBlocking receipts, p.1.Own ctx)
    (hlast : processed params.isNonBlocking receipts = pre ++ [(event, tick)])
    (hstate : event.state? = some s)
    (hret : (h.messageSend params ctx receipts).2 = some (.ok (.task t))) :
    Agrees ctx s t ↔ (∃ u, event = .task u) ∨ h.Known ctx pre s := by
  obtain ⟨t', hcol, htrim⟩ : ∃ t', (h.collectResult params.isNonBlocking none receipts).2 =
      some (.ok (.task t')) ∧ params.trim (.task t') = .task t := by
    rw [messageSend] at hret
    split at hret
    · rename_i h' result hc
      have hr := Except.ok.inj (Option.some.inj hret)
      obtain ⟨t', rfl⟩ := not_message_of_trim hr
      exact ⟨t', by rw [hc], hr⟩
    · rename_i h' r hn hc
      subst hret
      exact absurd hc (by simp at hn)
  rw [agrees_of_trim htrim]
  rw [hlast] at hown
  have hevent := hown _ (List.mem_append_right _ (List.mem_singleton_self _))
  rcases source_of_answer hlast hcol with ⟨u, rfl, rfl⟩ | ⟨m, rfl⟩ | ⟨a, rfl⟩ | ⟨e, now, rfl, rfl⟩
  · exact ⟨fun _ => Or.inl ⟨_, rfl⟩, fun _ => ⟨hevent.1, hevent.2, Option.some.inj hstate⟩⟩
  · cases hstate
  · cases hstate
  · cases hstate
    rw [or_iff_right (by simp), show e.taskId = ctx.taskId from hevent.1]
    exact agrees_taskOrFallback_iff hevent.1 (fun p hp => hown p (List.mem_append_left _ hp)) now

/-! ### A send answered with the fallback -/

/-- A non-blocking send of one message in context `c1`. -/
def nonBlockingSend : SendMessageRequest where
  tenant := none
  message := { Message.new "m1" .user [.text "hello"] with contextId := some "c1" }
  configuration := none
  metadata := none

/-- The executor says that it works on the task. -/
def workingUpdate : Event := .statusUpdate ⟨"t1", "c1", ⟨.working, none, none⟩, none⟩

def workingReceipts : List Receipt := [.ok workingUpdate ⟨"12:01", "u1", "u2", "v1"⟩]

theorem workingReceipts_own :
    ∀ p ∈ processed nonBlockingSend.isNonBlocking workingReceipts, p.1.Own (.new "t1" "c1") := by
  intro p hp
  have hp' : p = (workingUpdate, ⟨"12:01", "u1", "u2", "v1"⟩) := List.mem_singleton.mp hp
  subst hp'
  exact ⟨rfl, rfl⟩

theorem messageSend_workingReceipts :
    (new.messageSend nonBlockingSend (.new "t1" "c1") workingReceipts).2 =
      some (.ok (.task (.new "t1" "" "12:01"))) := by
  decide

/-- The answer has no context id, and says submitted. -/
theorem fallback_disagrees :
    (∀ p ∈ processed nonBlockingSend.isNonBlocking workingReceipts, p.1.Own (.new "t1" "c1")) ∧
      (new.messageSend nonBlockingSend (.new "t1" "c1") workingReceipts).2 =
        some (.ok (.task (.new "t1" "" "12:01"))) ∧
      ¬ Agrees (.new "t1" "c1") .working (.new "t1" "" "12:01") :=
  ⟨workingReceipts_own, messageSend_workingReceipts,
    by simp [Agrees, Task.new, RequestContext.new]⟩

theorem answer_agrees_iff_fallback :
    Agrees (.new "t1" "c1") .working (.new "t1" "" "12:01") ↔
      (∃ u, workingUpdate = .task u) ∨ new.Known (.new "t1" "c1") [] .working :=
  answer_agrees_iff workingReceipts_own rfl rfl messageSend_workingReceipts

end DefaultRequestHandler

end Ra2a
