import Ra2a.Server.Handler.Spawning

/-!
# Where tasks come from

The handler makes up no task.  What an executor sends and what the failure paths
record are whole tasks, and status updates of them; whatever is stored, pushed or
answered is such a task, or one that was stored before the first request, up to the
status of a status update that was sent for it (`Genuine`).  One answer is the
exception, the empty task that stands in for a record that is not there, and it
carries the id of an event that was sent.  `GenuineThread` follows tasks on their way
from the queue to the store, `madeUp_never` is the statement about every run.
-/

namespace Ra2a

open Broadcast Interleave

variable {c₀ c c' : ServerConfig} {h' : DefaultRequestHandler} {new : List Thread} {i j : ℕ}
  {m : Move} {t t' : Thread} {r r' : Request} {event : Event} {task root : Task}

/-- The event has been sent to some queue. -/
def Said (c : ServerConfig) (event : Event) : Prop :=
  ∃ q s, s ∈ c.shared.queueManager.log q ∧ s.event = event

/-- A whole task: it was stored at the beginning, was sent, or is the record of a
failure that has been stored and is about to be sent. -/
def Root (c₀ c : ServerConfig) (root : Task) : Prop :=
  c₀.shared.getTaskInternal root.id = some root ∨ Said c (.task root) ∨
    ∃ j x, executionAt c j = some x ∧ x.pc = .echoing root

/-- A whole task, or one with the status of an update that was sent for it. -/
def Genuine (c₀ c : ServerConfig) (task : Task) : Prop :=
  ∃ root, Root c₀ c root ∧ (task = root ∨ ∃ e now, Said c (.statusUpdate e) ∧ e.taskId = root.id ∧
    task = root.withStatus (.new e.status.state now))

/-- An answer that nobody made up, or the task that stands in for the one of an
event. -/
def GenuineAnswer (c₀ c : ServerConfig) : SendMessageResponse → Prop
  | .message m => Said c (.message m)
  | .task task => Genuine c₀ c task ∨ ∃ event now, Said c event ∧ task = .new event.taskId "" now

/-- The task a collector has in hand beside the event. -/
def Phase.task? : Phase → Option Task
  | .updating _ t => some t
  | .notifying _ t => some t
  | .pushing _ t _ _ => some t
  | _ => none

/-- What a request has in hand comes from somewhere. -/
def GenuineRequest (c₀ c : ServerConfig) (r : Request) : Prop :=
  match r.pc with
  | .collecting _ _ phase =>
    (∀ event, phase.event? = some event → Said c event) ∧
      ∀ task, phase.task? = some task → Genuine c₀ c task
  | .returning _ _ resp => GenuineAnswer c₀ c resp
  | .done (.answered _ result) => ∃ resp, GenuineAnswer c₀ c resp ∧ result = r.call.finish resp
  | _ => True

/-! ### What is said stays said -/

theorem Said.extend (h : Said c event) (hext : Extends c c') : Said c' event := by
  obtain ⟨q, s, hs, he⟩ := h
  obtain ⟨later, hl⟩ := hext.log q
  exact ⟨q, s, by rw [hl]; exact List.mem_append_left _ hs, he⟩

/-- What is sent to a queue that exists is in its log. -/
theorem said_send {h : DefaultRequestHandler} {q : ℕ} {k : String} (s : Sent)
    (hk : h.queueManager.key q = some k) (ts : List Thread) :
    Said ⟨{ h with queueManager := h.queueManager.send q s }, ts⟩ s.event := by
  have hlt : q < h.queueManager.heap.length := by
    obtain ⟨queue, hq, -⟩ := Option.map_eq_some_iff.mp hk
    exact (List.getElem?_eq_some_iff.mp hq).1
  refine ⟨q, s, ?_, rfl⟩
  change s ∈ (h.queueManager.send q s).log q
  rw [QueueManager.log_send q s hlt, if_pos rfl]
  exact List.mem_append_right _ (List.mem_singleton_self s)

/-- An execution that is about to send the record of a failure sends it, or still
has it. -/
theorem Root.advance (h : Root c₀ c root) (hlinked : Machine.Reach.Each LinkedThread c)
    (ht : c.threads[i]? = some t)
    (ha : server.advance c.shared c.threads i m t = some (h', t', new)) :
    Root c₀ ⟨h', c.threads.set i t' ++ new⟩ root := by
  rcases h with h | h | ⟨j, x, hx, hpc⟩
  · exact Or.inl h
  · exact Or.inr (Or.inl (h.extend (extends_advance ht ha)))
  · right
    have hj := executionAt_eq_some hx
    by_cases hji : j = i
    · subst hji
      rw [ht] at hj
      cases hj
      rcases cases_of_step ha with ⟨_, _, he, -⟩ | ⟨y, y', he, rfl, rfl, hs⟩ | ⟨_, he, -⟩
      · cases he
      · cases he
        cases hs with
        | echo task tick hpc' =>
          rw [hpc] at hpc'
          cases hpc'
          exact Or.inl (said_send _ (hlinked j _ ht) _)
        | abort hmem hpc' => rcases hpc' with hpc' | ⟨_, hpc'⟩ <;> rw [hpc] at hpc' <;> cases hpc'
        | emit _ hpc' | succeed hpc' | panic hpc' | fail _ _ hpc' | save _ _ hpc' =>
          rw [hpc] at hpc'
          cases hpc'
      · cases he
    · exact Or.inr ⟨j, x, executionAt_of_getElem? (Machine.getElem?_of_ne hj hji), hpc⟩

/-- What is genuine stays so where what was said and the whole tasks stay. -/
theorem Genuine.mono (h : Genuine c₀ c task) (hsaid : ∀ event, Said c event → Said c' event)
    (hroot : ∀ root, Root c₀ c root → Root c₀ c' root) : Genuine c₀ c' task := by
  obtain ⟨root, hr, heq | ⟨e, now, he, hid, heq⟩⟩ := h
  · exact ⟨root, hroot root hr, Or.inl heq⟩
  · exact ⟨root, hroot root hr, Or.inr ⟨e, now, hsaid _ he, hid, heq⟩⟩

theorem GenuineAnswer.mono {resp : SendMessageResponse} (h : GenuineAnswer c₀ c resp)
    (hsaid : ∀ event, Said c event → Said c' event)
    (hroot : ∀ root, Root c₀ c root → Root c₀ c' root) : GenuineAnswer c₀ c' resp := by
  cases resp with
  | message msg => exact hsaid _ h
  | task t =>
    rcases h with h | ⟨event, now, he, heq⟩
    · exact Or.inl (h.mono hsaid hroot)
    · exact Or.inr ⟨event, now, hsaid _ he, heq⟩

theorem GenuineRequest.mono (h : GenuineRequest c₀ c r)
    (hsaid : ∀ event, Said c event → Said c' event)
    (hroot : ∀ root, Root c₀ c root → Root c₀ c' root) : GenuineRequest c₀ c' r := by
  rw [GenuineRequest] at h ⊢
  generalize r.pc = pc at h ⊢
  cases pc with
  | collecting removes col phase =>
    exact ⟨fun e he => hsaid e (h.1 e he), fun t ht => (h.2 t ht).mono hsaid hroot⟩
  | returning removes col resp => exact GenuineAnswer.mono h hsaid hroot
  | done o =>
    cases o with
    | answered col result =>
      obtain ⟨resp, hresp, he⟩ := h
      exact ⟨resp, hresp.mono hsaid hroot, he⟩
    | _ => exact trivial
  | _ => exact trivial

/-! ### Whole tasks and their updates -/

theorem Genuine.of_said (h : Said c (.task task)) : Genuine c₀ c task :=
  ⟨task, Or.inr (Or.inl h), Or.inl rfl⟩

/-- A status update of a genuine task. -/
theorem Genuine.withStatus (h : Genuine c₀ c task) {e : TaskStatusUpdateEvent}
    (he : Said c (.statusUpdate e)) (hid : e.taskId = task.id) (now : String) :
    Genuine c₀ c (task.withStatus (.new e.status.state now)) := by
  obtain ⟨root, hroot, rfl | ⟨e', now', -, -, rfl⟩⟩ := h
  · exact ⟨task, hroot, Or.inr ⟨e, now, he, hid, rfl⟩⟩
  · exact ⟨root, hroot, Or.inr ⟨e, now, he, hid, rfl⟩⟩

/-- The stored task is genuine, and the one that stands in for it is allowed for. -/
theorem genuineAnswer_taskOrFallback
    (hstored : ∀ k task, c.shared.getTaskInternal k = some task → Genuine c₀ c task)
    (he : Said c event) (now : String) :
    GenuineAnswer c₀ c (.task (c.shared.taskOrFallback event.taskId now)) := by
  rw [DefaultRequestHandler.taskOrFallback]
  cases hk : c.shared.getTaskInternal event.taskId with
  | none => exact Or.inr ⟨event, now, he, rfl⟩
  | some task => exact Or.inl (hstored _ task hk)

/-- **What `process_event` answers is genuine.** -/
theorem genuineAnswer_answer
    (hstored : ∀ k task, c.shared.getTaskInternal k = some task → Genuine c₀ c task)
    (he : Said c event) (nb : Bool) (now : String) :
    GenuineAnswer c₀ c (c.shared.answer nb event now) := by
  unfold DefaultRequestHandler.answer
  by_cases hs : (shouldInterruptNonStreaming nb event).isSome = true
  · rw [if_pos hs]
    exact genuineAnswer_taskOrFallback hstored he now
  · rw [if_neg hs]
    cases event with
    | task t => exact Or.inl (.of_said he)
    | message msg => exact he
    | statusUpdate e => exact genuineAnswer_taskOrFallback hstored he now
    | artifactUpdate e => exact genuineAnswer_taskOrFallback hstored he now

/-! ### One step -/

/-- Everything stored and everything pushed is genuine, and so is what the requests
have in hand. -/
structure Provenance (c₀ c : ServerConfig) : Prop where
  stored : ∀ k task, c.shared.getTaskInternal k = some task → Genuine c₀ c task
  pushed : ∀ p ∈ c.shared.pushed, p ∈ c₀.shared.pushed ∨ Genuine c₀ c p.task
  requests : ∀ (i : ℕ) (r : Request), c.threads[i]? = some (.request r) → GenuineRequest c₀ c r

/-- What a save leaves is genuine when the task saved is. -/
theorem genuine_of_stores {h : DefaultRequestHandler} (hst : Stores h h' task)
    (hstored : ∀ k t, h.getTaskInternal k = some t → Genuine c₀ c t) (hg : Genuine c₀ c task)
    {k : TaskId} {t : Task} (hk : h'.getTaskInternal k = some t) : Genuine c₀ c t := by
  rw [hst k] at hk
  split at hk
  · cases hk
    exact hg
  · exact hstored k t hk

/-- A collector that waits has nothing in hand. -/
theorem GenuineRequest.receiving {removes : TaskId} {col : Collector}
    (hpc : r.pc = .collecting removes col .receiving) : GenuineRequest c₀ c r := by
  rw [GenuineRequest, hpc]
  constructor
  · intro event he
    cases he
  · intro task ht
    cases ht

/-- One step of a request: what it writes is genuine, and what it has in hand. -/
theorem Request.Step.genuine (hs : r.Step c.shared c.threads i h' r' new)
    (hP : Provenance c₀ c) (hi : c.threads[i]? = some (.request r)) (hheard : r.Heard)
    {ts : List Thread} (hsaid : ∀ event, Said c event → Said ⟨h', ts⟩ event)
    (hroot : ∀ root, Root c₀ c root → Root c₀ ⟨h', ts⟩ root) :
    (∀ k task, h'.getTaskInternal k = some task → Genuine c₀ c task) ∧
      (∀ p ∈ h'.pushed, p ∈ c.shared.pushed ∨ Genuine c₀ c p.task) ∧
      GenuineRequest c₀ ⟨h', ts⟩ r' := by
  have hr := hP.requests i r hi
  have hold := hr.mono hsaid hroot
  cases hs with
  | receive removes col sent pos hpc hrecv =>
    refine ⟨hP.stored, fun p hp => Or.inl hp, ?_⟩
    obtain ⟨hmem, -⟩ := mem_drop_of_recv hrecv (Nat.zero_le _)
    rw [List.drop_zero] at hmem
    refine ⟨fun event he => ?_, fun task ht => by cases ht⟩
    cases he
    exact hsaid _ ⟨_, sent, hmem, rfl⟩
  | persist removes col task hpc =>
    rw [GenuineRequest, hpc] at hr
    have htask : Genuine c₀ c task := .of_said (hr.1 _ rfl)
    refine ⟨fun k t hk => genuine_of_stores (c.shared.getTaskInternal_storeTask task) hP.stored
      htask hk, fun p hp => Or.inl hp, fun event he => ?_, fun t ht => ?_⟩
    · cases he
      exact hsaid _ (hr.1 _ rfl)
    · cases ht
      exact htask.mono hsaid hroot
  | read removes col e task tick hpc htask =>
    rw [GenuineRequest, hpc] at hr
    refine ⟨hP.stored, fun p hp => Or.inl hp, fun event he => ?_, fun t ht => ?_⟩
    · cases he
      exact hsaid _ (hr.1 _ rfl)
    · cases ht
      exact ((hP.stored _ task htask).withStatus (hr.1 _ rfl)
        (DefaultRequestHandler.id_of_getTaskInternal htask).symm tick.now).mono hsaid hroot
  | update removes col e task hpc =>
    rw [GenuineRequest, hpc] at hr
    have htask : Genuine c₀ c task := hr.2 _ rfl
    refine ⟨fun k t hk => genuine_of_stores (c.shared.getTaskInternal_storeTask task) hP.stored
      htask hk, fun p hp => Or.inl hp, fun event he => ?_, fun t ht => ?_⟩
    · cases he
      exact hsaid _ (hr.1 _ rfl)
    · cases ht
      exact htask.mono hsaid hroot
  | list removes col event task hpc | nobody removes col event task hpc =>
    rw [GenuineRequest, hpc] at hr
    refine ⟨hP.stored, fun p hp => Or.inl hp, fun event he => ?_, fun t ht => ?_⟩
    · cases he
      exact hsaid _ (hr.1 _ rfl)
    · cases ht
      try exact (hr.2 _ rfl).mono hsaid hroot
  | push removes col event task configs n hpc | pushLast removes col event task configs n hpc =>
    rw [GenuineRequest, hpc] at hr
    have htask : Genuine c₀ c task := hr.2 _ rfl
    refine ⟨hP.stored, fun p hp => ?_, fun event he => ?_, fun t ht => ?_⟩
    · rcases List.mem_append.mp hp with hp | hp
      · exact Or.inl hp
      · rw [List.mem_singleton.mp hp]
        exact Or.inr htask
    · cases he
      exact hsaid _ (hr.1 _ rfl)
    · cases ht
      try exact htask.mono hsaid hroot
  | skip removes col event hpc =>
    rw [GenuineRequest, hpc] at hr
    refine ⟨hP.stored, fun p hp => Or.inl hp, fun event he => ?_, fun t ht => by cases ht⟩
    cases he
    exact hsaid _ (hr.1 _ rfl)
  | answer removes col event tick hpc hstop =>
    rw [GenuineRequest, hpc] at hr
    refine ⟨hP.stored, fun p hp => Or.inl hp, ?_⟩
    exact (genuineAnswer_answer hP.stored (hr.1 event rfl) _ tick.now).mono hsaid hroot
  | finish removes col resp hpc =>
    rw [GenuineRequest, hpc] at hold
    exact ⟨hP.stored, fun p hp => Or.inl hp, resp, hold, rfl⟩
  | finalize removes col resp tick hpc | failClosed removes col e tick hpc =>
    exact absurd hpc hheard.not_closing
  | close removes col pos hpc hrecv => exact absurd hrecv (not_closed_while_collecting hi hpc pos)
  | configure params ctx tick hpc hcall =>
    obtain ⟨_, he⟩ := c.shared.saveInlinePushConfig_eq params ctx.taskId tick
    exact ⟨fun k t hk => hP.stored k t (by rwa [he] at hk),
      fun p hp => Or.inl (by rwa [he] at hp), trivial⟩
  | abort params task hpc hcall =>
    obtain ⟨_, _, he⟩ := c.shared.abortRunning_eq params.id
    exact ⟨fun k t hk => hP.stored k t (by rwa [he] at hk),
      fun p hp => Or.inl (by rwa [he] at hp), trivial⟩
  | spawnSend | spawnCancel | lag | goOn =>
    exact ⟨hP.stored, fun p hp => Or.inl hp, .receiving rfl⟩
  | _ => exact ⟨hP.stored, fun p hp => Or.inl hp, trivial⟩

/-- One step of an execution: what a failure path stores it is about to send. -/
theorem Execution.Step.genuine {x x' : Execution} (hs : x.Step c.shared i m h' x')
    (hP : Provenance c₀ c) {ts : List Thread} (hx' : ts[i]? = some (.execution x'))
    (hgen : ∀ {task}, Genuine c₀ c task → Genuine c₀ ⟨h', ts⟩ task) :
    (∀ k task, h'.getTaskInternal k = some task → Genuine c₀ ⟨h', ts⟩ task) ∧
      h'.pushed = c.shared.pushed := by
  cases hs with
  | save task tick hpc =>
    have htask : Genuine c₀ ⟨c.shared.storeTask task, ts⟩ task :=
      ⟨task, Or.inr (Or.inr ⟨i, _, executionAt_of_getElem? hx', rfl⟩), Or.inl rfl⟩
    exact ⟨fun k t hk => genuine_of_stores (c.shared.getTaskInternal_storeTask task)
      (fun k t hk => hgen (hP.stored k t hk)) htask hk, rfl⟩
  | _ => exact ⟨fun k t hk => hgen (hP.stored k t hk), rfl⟩

theorem provenance_run (hP : Provenance c₀ c) (hlinked : Machine.Reach.Each LinkedThread c)
    (hheard : Machine.Reach.Each HeardThread c) (ht : c.threads[i]? = some t)
    (ha : server.advance c.shared c.threads i m t = some (h', t', new)) :
    Provenance c₀ ⟨h', c.threads.set i t' ++ new⟩ := by
  have hext := extends_advance ht ha
  have hsaid : ∀ event, Said c event → Said ⟨h', c.threads.set i t' ++ new⟩ event :=
    fun event h => h.extend hext
  have hroot : ∀ root, Root c₀ c root → Root c₀ ⟨h', c.threads.set i t' ++ new⟩ root :=
    fun root h => h.advance hlinked ht ha
  have hgen : ∀ {task}, Genuine c₀ c task → Genuine c₀ ⟨h', c.threads.set i t' ++ new⟩ task :=
    fun h => h.mono hsaid hroot
  have hpushed : ∀ p ∈ c.shared.pushed, p ∈ c₀.shared.pushed ∨
      Genuine c₀ ⟨h', c.threads.set i t' ++ new⟩ p.task :=
    fun p hp => (hP.pushed p hp).imp_right hgen
  have hothers : ∀ (j : ℕ) (r : Request), c.threads[j]? = some (.request r) →
      GenuineRequest c₀ ⟨h', c.threads.set i t' ++ new⟩ r :=
    fun j r hj => (hP.requests j r hj).mono hsaid hroot
  rcases cases_of_step ha with ⟨r, r', rfl, rfl, hs, -⟩ | ⟨x, x', rfl, rfl, rfl, hs⟩ |
    ⟨g, rfl, -, rfl, rfl, rfl⟩
  · obtain ⟨hstored, hpush, hr'⟩ := hs.genuine hP ht (hheard i _ ht) hsaid hroot
    refine ⟨fun k t hk => hgen (hstored k t hk), fun p hp => ?_, fun j r₁ hj => ?_⟩
    · rcases hpush p hp with hp | hp
      · exact hpushed p hp
      · exact Or.inr (hgen hp)
    · rcases Machine.getElem?_moved hj with ⟨rfl, he⟩ | ⟨-, hj⟩ | ⟨-, hj⟩
      · cases he
        exact hr'
      · exact hothers j r₁ hj
      · exact absurd (List.mem_of_getElem? hj) (not_request_new ha)
  · obtain ⟨hstored, hpush⟩ := hs.genuine hP (Machine.getElem?_self ht) hgen
    refine ⟨hstored, fun p hp => hpushed p (by rwa [← hpush]), fun j r₁ hj => ?_⟩
    rcases Machine.getElem?_moved hj with ⟨-, he⟩ | ⟨-, hj⟩ | ⟨-, hj⟩
    · cases he
    · exact hothers j r₁ hj
    · cases hj
  · refine ⟨fun k t hk => hgen (hP.stored k t hk), hpushed, fun j r₁ hj => ?_⟩
    rcases Machine.getElem?_moved hj with ⟨-, he⟩ | ⟨-, hj⟩ | ⟨-, hj⟩
    · cases he
    · exact hothers j r₁ hj
    · cases hj

theorem provenance_arrive (hP : Provenance c₀ c) (hf : t.isFresh = true) :
    Provenance c₀ ⟨c.shared, c.threads ++ [t]⟩ := by
  have hroot : ∀ root, Root c₀ c root → Root c₀ ⟨c.shared, c.threads ++ [t]⟩ root := by
    rintro root (h | h | ⟨j, x, hx, hpc⟩)
    · exact Or.inl h
    · exact Or.inr (Or.inl h)
    · exact Or.inr (Or.inr ⟨j, x, executionAt_of_getElem?
        (Places.getElem?_append_of_some (executionAt_eq_some hx)), hpc⟩)
  have hgen : ∀ {task}, Genuine c₀ c task → Genuine c₀ ⟨c.shared, c.threads ++ [t]⟩ task :=
    fun h => h.mono (fun _ h => h) hroot
  refine ⟨fun k t hk => hgen (hP.stored k t hk), fun p hp => (hP.pushed p hp).imp_right hgen,
    fun j r hj => ?_⟩
  rcases Places.getElem?_concat_cases hj with hj | ⟨-, rfl⟩
  · exact (hP.requests j r hj).mono (fun _ h => h) hroot
  · obtain ⟨r', he, hpc, -⟩ := Thread.of_isFresh hf
    cases he
    rw [GenuineRequest, hpc]
    trivial

/-- **Along every run** what is stored, pushed or in hand comes from somewhere. -/
theorem provenance_reach (h₀ : Initial c₀) (h : server.Reach Machine.Always c₀ c) :
    Provenance c₀ c := by
  refine (h.assuming fun _ hr => And.intro (linked_reach h₀ hr) (heard_reach h₀ hr)).invariant
    ⟨fun k task hk => ⟨task, Or.inl ?_, Or.inl rfl⟩, fun p hp => Or.inl hp, fun i r hr => ?_⟩ ?_
  · rwa [DefaultRequestHandler.id_of_getTaskInternal hk]
  · rw [h₀.threads] at hr
    cases hr
  · intro c l c' hP hok hs
    rcases Machine.step_cases hs with ⟨t, rfl, hf, rfl⟩ | ⟨i, m, t, h', t', new, rfl, ht, ha, rfl⟩
    · exact provenance_arrive hP hf
    · exact provenance_run hP hok.1.1 hok.1.2 ht ha

/-! ### Every run -/

/-- **Nothing is made up.**  Whatever the interleaving, every task that is stored,
pushed or answered is one that was stored at the beginning, sent by an executor or
recorded by a failure path, up to a status it was sent and the trimming of an answer;
a message answered was sent. -/
theorem madeUp_never (h₀ : Initial c₀) (h : server.Reach Machine.Always c₀ c) :
    (∀ k task, c.shared.getTaskInternal k = some task → Genuine c₀ c task) ∧
      (∀ p ∈ c.shared.pushed, p ∈ c₀.shared.pushed ∨ Genuine c₀ c p.task) ∧
      ∀ (i : ℕ) (r : Request) (col : Collector) (result : Except A2AError SendMessageResponse),
        c.threads[i]? = some (.request r) → r.pc = .done (.answered col result) →
        ∃ resp, GenuineAnswer c₀ c resp ∧ result = r.call.finish resp := by
  have hP := provenance_reach h₀ h
  refine ⟨hP.stored, hP.pushed, fun i r col result hi hpc => ?_⟩
  have hr := hP.requests i r hi
  rw [GenuineRequest, hpc] at hr
  exact hr

theorem madeUp_never_aborted : ∃ task, abortedConfig.shared.getTaskInternal "t1" = some task ∧
    Genuine ⟨.new, []⟩ abortedConfig task :=
  ⟨_, rfl, (madeUp_never initial_new (.of_exec (show server.exec ⟨.new, []⟩
    (registering ++ [.run 1 .abort]) = some abortedConfig from rfl))).1 "t1" _ rfl⟩

end Ra2a
