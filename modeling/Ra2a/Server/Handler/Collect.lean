import Ra2a.Lib.Cell
import Ra2a.Server.Handler.Default

/-!
# The collector, as a fold

`collect_result` processes events up to the first it stops at, and each of them
only through `persist_event_snapshot`.  `stopsAt` says which events stop it: it
asks nothing of the handler.  So the handler a collector leaves is the one it
found, after the events of `processed` have been persisted in turn
(`collectResult_fst`), and what it answers is read off there
(`collectResult_cases`).

On the record of one task the persisting is a `Cell`: a Task event puts a
snapshot, an update acts on the record that is there.
-/

namespace Ra2a

/-- Whether `process_event` returns on this event. -/
def stopsAt (isNonBlocking : Bool) (event : Event) : Bool :=
  (shouldInterruptNonStreaming isNonBlocking event).isSome || event.isTerminal

/-- The events a collector processes: those it receives, up to the first it
stops at or the close of the channel. -/
def processed (isNonBlocking : Bool) : List Receipt → List (Event × Tick)
  | [] => []
  | .closed _ :: _ => []
  | .lagged _ :: rest => processed isNonBlocking rest
  | .ok event tick :: rest =>
    (event, tick) :: if stopsAt isNonBlocking event then [] else processed isNonBlocking rest

/-- An interruption names the event's own task. -/
theorem eq_of_shouldInterrupt {nb : Bool} {event : Event} {p : String × Bool}
    (h : shouldInterruptNonStreaming nb event = some p) : p = (event.taskId, true) := by
  unfold shouldInterruptNonStreaming at h
  cases nb with
  | true => cases event <;> simp [Event.taskId] at h ⊢ <;> exact h.2.symm
  | false => cases event <;> simp [Event.taskId] at h ⊢ <;> exact h.2.symm

/-! ### The calls of a round -/

section

variable {configs : Multiset PushNotificationConfig} {task : Task} {n : ℕ}

theorem sends_of_lt (hlt : n < configs.card) :
    sends configs task n = ⟨configs, n, task⟩ :: sends configs task (n + 1) := by
  obtain ⟨k, hk⟩ : ∃ k, configs.card - n = k + 1 := ⟨configs.card - n - 1, by omega⟩
  have hk' : configs.card - (n + 1) = k := by omega
  rw [sends, sends, hk, hk', List.range'_succ, List.map_cons]

theorem sends_of_card_le (hle : configs.card ≤ n) : sends configs task n = [] := by
  rw [sends, Nat.sub_eq_zero_of_le hle]
  rfl

theorem length_sends : (sends configs task n).length = configs.card - n := by
  rw [sends, List.length_map, List.length_range']

theorem sends_eq_nil_iff : sends configs task 0 = [] ↔ configs = 0 := by
  constructor
  · intro hnil
    by_contra hne
    rw [sends_of_lt (Multiset.card_pos.mpr hne)] at hnil
    cases hnil
  · rintro rfl
    exact sends_of_card_le (Nat.le_refl 0)

end

namespace DefaultRequestHandler

variable (h : DefaultRequestHandler)

/-- The answer on an event that stops the collector. -/
def answer (isNonBlocking : Bool) (event : Event) (now : String) : SendMessageResponse :=
  if (shouldInterruptNonStreaming isNonBlocking event).isSome then
    .task (h.taskOrFallback event.taskId now)
  else
    match event with
    | .task t => .task t
    | .message m => .message m
    | e => .task (h.taskOrFallback e.taskId now)

/-- No event is a terminal artifact update, so `process_event` never fails. -/
theorem conclude_eq (event : Event) (nb : Bool) (now : String) :
    h.conclude event nb now =
      if stopsAt nb event then .ok (.returnWith (h.answer nb event now))
      else .ok (.continueWith event) := by
  unfold conclude stopsAt answer
  cases hs : shouldInterruptNonStreaming nb event with
  | some p =>
    rw [eq_of_shouldInterrupt hs]
    rfl
  | none =>
    by_cases ht : event.isTerminal = true
    · cases event with
      | artifactUpdate e => exact absurd ht (by simp [Event.isTerminal])
      | _ => simp [ht, Event.taskId]
    · simp [ht]

/-- The handler after some events have been persisted in turn. -/
def persistAll (events : List (Event × Tick)) : DefaultRequestHandler :=
  events.foldl (fun h p => h.persistEventSnapshot p.1 p.2.now) h

theorem persistAll_cons (event : Event) (tick : Tick) (events : List (Event × Tick)) :
    h.persistAll ((event, tick) :: events) =
      (h.persistEventSnapshot event tick.now).persistAll events := rfl

theorem persistAll_append (event : Event) (tick : Tick) (events : List (Event × Tick)) :
    h.persistAll (events ++ [(event, tick)]) =
      (h.persistAll events).persistEventSnapshot event tick.now := by
  simp [persistAll]

variable {h}

/-- One receive of `collect_result`. -/
theorem collectResult_ok (nb : Bool) (last : Option Event) (event : Event) (tick : Tick)
    (rest : List Receipt) :
    collectResult nb h last (.ok event tick :: rest) =
      if stopsAt nb event then
        (h.persistEventSnapshot event tick.now,
          some (.ok ((h.persistEventSnapshot event tick.now).answer nb event tick.now)))
      else collectResult nb (h.persistEventSnapshot event tick.now) (some event) rest := by
  rw [collectResult, processEvent, conclude_eq]
  by_cases hs : stopsAt nb event = true
  · simp only [hs, if_true]
  · simp only [hs]
    rfl

/-- **The handler a collector leaves.** -/
theorem collectResult_fst (nb : Bool) (last : Option Event) (receipts : List Receipt) :
    (collectResult nb h last receipts).1 = h.persistAll (processed nb receipts) := by
  induction receipts generalizing h last with
  | nil => rfl
  | cons r rest ih =>
    cases r with
    | closed tick => rfl
    | lagged n => exact ih last
    | ok event tick =>
      rw [collectResult_ok, processed, persistAll_cons]
      by_cases hs : stopsAt nb event = true
      · rw [if_pos hs, if_pos hs]
        rfl
      · rw [if_neg hs, if_neg hs]
        exact ih (some event)

/-- **What a collector answers**: it stopped at the last event it processed, or
the channel closed after it. -/
theorem collectResult_cases {nb : Bool} {last : Option Event} {receipts : List Receipt}
    {r : Except A2AError SendMessageResponse}
    (hr : (collectResult nb h last receipts).2 = some r) :
    (∃ pre event tick, processed nb receipts = pre ++ [(event, tick)] ∧ stopsAt nb event = true ∧
        r = .ok ((h.persistAll (processed nb receipts)).answer nb event tick.now)) ∨
      ∃ now, r = (h.persistAll (processed nb receipts)).finalizeOnClose
        (((processed nb receipts).getLast?.map Prod.fst).or last) now := by
  induction receipts generalizing h last with
  | nil => simp [collectResult] at hr
  | cons first rest ih =>
    cases first with
    | closed tick =>
      rw [collectResult] at hr
      exact Or.inr ⟨tick.now, (Option.some.inj hr).symm⟩
    | lagged n => exact ih hr
    | ok event tick =>
      rw [collectResult_ok] at hr
      by_cases hs : stopsAt nb event = true
      · rw [if_pos hs] at hr
        have hp : processed nb (.ok event tick :: rest) = [(event, tick)] := by
          rw [processed, if_pos hs]
        rw [hp]
        exact Or.inl ⟨[], event, tick, rfl, hs, (Option.some.inj hr).symm⟩
      · rw [if_neg hs] at hr
        have hp : processed nb (.ok event tick :: rest) = (event, tick) :: processed nb rest := by
          rw [processed, if_neg hs]
        rw [hp, persistAll_cons]
        rcases ih hr with ⟨pre, e, t, hpre, hstop, hans⟩ | ⟨now, hans⟩
        · exact Or.inl ⟨(event, tick) :: pre, e, t, by rw [hpre]; rfl, hstop, hans⟩
        · refine Or.inr ⟨now, ?_⟩
          rw [hans, List.getLast?_cons]
          cases (processed nb rest).getLast? <;> rfl

/-! ### The record of one task -/

@[simp] theorem getTaskInternal_storeTask (t : Task) (k : String) :
    (h.storeTask t).getTaskInternal k = if k = t.id then some t else h.getTaskInternal k :=
  h.taskStore.task?_save_missing t k

@[simp] theorem getTaskInternal_sendPush (p : Push) (k : String) :
    (h.sendPush p).getTaskInternal k = h.getTaskInternal k := rfl

theorem foldl_sendPush (ps : List Push) :
    ps.foldl sendPush h = { h with pushed := h.pushed ++ ps } := by
  induction ps generalizing h with
  | nil => rw [List.foldl_nil, List.append_nil]
  | cons p ps ih => rw [List.foldl_cons, ih, sendPush, List.append_assoc, List.singleton_append]

/-- **`notify_push` calls the sender once for each configuration listed**, and touches
nothing else. -/
theorem notifyPush_eq (t : Task) :
    h.notifyPush t = { h with pushed := h.pushed ++ sends (h.pushConfigs t.id) t 0 } :=
  foldl_sendPush _

@[simp] theorem getTaskInternal_notifyPush (t : Task) (k : String) :
    (h.notifyPush t).getTaskInternal k = h.getTaskInternal k := by
  rw [notifyPush_eq]
  rfl

theorem id_of_getTaskInternal {k : String} {t : Task} (hk : h.getTaskInternal k = some t) :
    t.id = k :=
  InMemoryTaskStore.id_of_task? hk

end DefaultRequestHandler

/-- What an event may do to a record that is there, with the clock at which it
is processed. -/
inductive Update
  | status (e : TaskStatusUpdateEvent) (now : String)
  | artifact (e : TaskArtifactUpdateEvent)

/-- An event as a write to the record of task `k`. -/
def writeTo (k : String) : Event × Tick → Option (Cell.Write Task Update)
  | (.task t, _) => if t.id = k then some (.put t) else none
  | (.statusUpdate e, tick) => if e.taskId = k then some (.update (.status e tick.now)) else none
  | (.artifactUpdate e, _) => if e.taskId = k then some (.update (.artifact e)) else none
  | (.message _, _) => none

def writesTo (k : String) (events : List (Event × Tick)) : List (Cell.Write Task Update) :=
  events.filterMap (writeTo k)

/-- A Task event of task `k` among some events. -/
theorem put_mem_writesTo {k : String} {t : Task} {events : List (Event × Tick)} :
    Cell.Write.put t ∈ writesTo k events ↔ t.id = k ∧ ∃ tick, (.task t, tick) ∈ events := by
  rw [writesTo, List.mem_filterMap]
  constructor
  · rintro ⟨⟨event, tick⟩, hm, hw⟩
    cases event with
    | task u =>
      rw [writeTo] at hw
      split at hw
      · cases hw
        exact ⟨‹_›, tick, hm⟩
      · cases hw
    | message m => cases hw
    | statusUpdate e => rw [writeTo] at hw; split at hw <;> cases hw
    | artifactUpdate e => rw [writeTo] at hw; split at hw <;> cases hw
  · rintro ⟨hk, tick, hm⟩
    exact ⟨_, hm, by rw [writeTo, if_pos hk]⟩

/-- The update of `persist_event_snapshot`. -/
def persisted : Option Task → Update → Option Task
  | r, .status e now => r.map fun t => t.withStatus (.new e.status.state now)
  | r, .artifact _ => r

namespace DefaultRequestHandler

variable {h : DefaultRequestHandler}

/-- One event, seen from one record. -/
theorem getTaskInternal_persistEventSnapshot (event : Event) (tick : Tick) (k : String) :
    (h.persistEventSnapshot event tick.now).getTaskInternal k =
      ((writeTo k (event, tick)).map (Cell.apply persisted (h.getTaskInternal k))).getD
        (h.getTaskInternal k) := by
  cases event with
  | task t =>
    rw [persistEventSnapshot, getTaskInternal_notifyPush, getTaskInternal_storeTask, writeTo]
    by_cases hk : t.id = k
    · rw [if_pos hk.symm, if_pos hk]
      rfl
    · rw [if_neg (Ne.symm hk), if_neg hk]
      rfl
  | message m => rfl
  | artifactUpdate e =>
    rw [persistEventSnapshot, writeTo]
    · by_cases hk : e.taskId = k <;> simp [hk, Cell.apply, persisted]
    all_goals simp
  | statusUpdate e =>
    rw [persistEventSnapshot, writeTo]
    by_cases hk : e.taskId = k
    · subst hk
      cases ht : h.getTaskInternal e.taskId with
      | none => simp [ht, Cell.apply, persisted]
      | some t => simp [Cell.apply, persisted, id_of_getTaskInternal ht]
    · cases ht : h.getTaskInternal e.taskId with
      | none => simp [hk]
      | some t =>
        have hne : k ≠ t.id := fun h' => hk (by rw [h', id_of_getTaskInternal ht])
        simp [hk, hne]

/-- **Persisting events writes the cell of each task.** -/
theorem getTaskInternal_persistAll (events : List (Event × Tick)) (k : String) :
    (h.persistAll events).getTaskInternal k =
      Cell.run persisted (h.getTaskInternal k) (writesTo k events) := by
  induction events using List.reverseRecOn with
  | nil => rfl
  | append_singleton events p ih =>
    obtain ⟨event, tick⟩ := p
    rw [persistAll_append, getTaskInternal_persistEventSnapshot, ih, writesTo, writesTo,
      List.filterMap_append]
    cases hw : writeTo k (event, tick) with
    | none => simp [hw]
    | some w => simp [hw, Cell.run_append]

end DefaultRequestHandler

/-! ### Updates after a snapshot -/

/-- The status an update carries, and the clock at which it is processed. -/
def Update.status? : Update → Option (TaskStatus × String)
  | .status e now => some (e.status, now)
  | .artifact _ => none

def Update.artifact? : Update → Option TaskArtifactUpdateEvent
  | .status _ _ => none
  | .artifact e => some e

/-- The last status among some updates. -/
def lastStatus (us : List Update) : Option (TaskStatus × String) :=
  (us.filterMap Update.status?).getLast?

/-- The status `persist_event_snapshot` leaves where it found `s`. -/
def restamped (us : List Update) (s : TaskStatus) : TaskStatus :=
  match lastStatus us with
  | some (status, now) => .new status.state now
  | none => s

@[simp] theorem lastStatus_nil : lastStatus [] = none := rfl

@[simp] theorem lastStatus_status (us : List Update) (e : TaskStatusUpdateEvent) (now : String) :
    lastStatus (us ++ [.status e now]) = some (e.status, now) := by
  simp [lastStatus, List.filterMap_append, Update.status?]

@[simp] theorem lastStatus_artifact (us : List Update) (e : TaskArtifactUpdateEvent) :
    lastStatus (us ++ [.artifact e]) = lastStatus us := by
  simp [lastStatus, List.filterMap_append, Update.status?]

theorem restamped_status (us : List Update) (e : TaskStatusUpdateEvent) (now : String)
    (s : TaskStatus) : restamped (us ++ [.status e now]) s = .new e.status.state now := by
  rw [restamped, lastStatus_status]

theorem restamped_artifact (us : List Update) (e : TaskArtifactUpdateEvent) (s : TaskStatus) :
    restamped (us ++ [.artifact e]) s = restamped us s := by
  rw [restamped, lastStatus_artifact, restamped]

theorem foldl_persisted_none (us : List Update) : us.foldl persisted none = none := by
  induction us with
  | nil => rfl
  | cons u us ih => cases u <;> exact ih

/-- **Updates leave all of a snapshot but its status.** -/
theorem foldl_persisted_some (us : List Update) (t : Task) :
    us.foldl persisted (some t) = some (t.withStatus (restamped us t.status)) := by
  induction us using List.reverseRecOn with
  | nil => rfl
  | append_singleton us u ih =>
    rw [List.foldl_append, ih]
    cases u with
    | status e now => simp [persisted, restamped_status]
    | artifact e => simp [persisted, restamped_artifact]

end Ra2a
