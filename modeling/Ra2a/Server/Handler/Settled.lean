import Ra2a.Server.Handler.Listening

/-!
# Terminal states

A terminal state is meant to be the last.  The handler looks at the state before
it spawns an execution and never again: a snapshot and a status are stored over
whatever is there, by each collector of the queue in its own time, and so is the
record of a failure.  What was on its way when a task became terminal is stored
after it.

`InFlight` says what is on its way, `Adds` what a step puts there.  A terminal
state stays along every run in which nothing of another state is on its way when
a task becomes terminal or is put there later (`settled_reach`).
-/

namespace Ra2a

open Broadcast Interleave

/-! ### What is on its way -/

/-- The record of task `k` is in the terminal state `s`. -/
def StoredTerminal (h : DefaultRequestHandler) (k : TaskId) (s : TaskState) : Prop :=
  ∃ t, h.getTaskInternal k = some t ∧ t.status.state = s ∧ s.isTerminal = true

/-- The state an event stores for task `k`. -/
def Event.stateOf (k : TaskId) : Event → Option TaskState
  | .task t => if t.id = k then some t.status.state else none
  | .statusUpdate e => if e.taskId = k then some e.status.state else none
  | _ => none

/-- The state a collector in this phase is about to store for task `k`. -/
def Phase.stateOf (k : TaskId) : Phase → Option TaskState
  | .persisting event => event.stateOf k
  | .updating _ t => if t.id = k then some t.status.state else none
  | _ => none

/-- Whether a collector in this phase receives again. -/
def Phase.goesOn (nb : Bool) (phase : Phase) : Bool :=
  phase.event?.all fun event => !stopsAt nb event

/-- Of the events a collector has not read, those up to the first that stops it. -/
def upcoming (nb : Bool) : List Sent → List Sent
  | [] => []
  | s :: rest => s :: if stopsAt nb s.event then [] else upcoming nb rest

/-- What a thread has received or will receive that stores state `s` for task
`k`, or the failure of task `k` it has in hand. -/
def Thread.InFlight (h : DefaultRequestHandler) (k : TaskId) (s : TaskState) : Thread → Prop
  | .request r => ∃ removes col phase, r.pc = .collecting removes col phase ∧
      (phase.stateOf k = some s ∨ (phase.goesOn r.call.isNonBlocking = true ∧
        ∃ sent ∈ upcoming r.call.isNonBlocking ((h.queueManager.log col.queue).drop col.pos),
          sent.event.stateOf k = some s))
  | .execution x => ∃ task, (x.pc = .failing task ∨ x.pc = .echoing task) ∧
      task.id = k ∧ task.status.state = s
  | .registration _ => False

/-- State `s` is on its way to the record of task `k`. -/
def InFlight (c : ServerConfig) (k : TaskId) (s : TaskState) : Prop :=
  ∃ (j : ℕ) (t : Thread), c.threads[j]? = some t ∧ t.InFlight c.shared k s

/-! ### The condition -/

/-- A collector of queue `q` will read what is sent there next. -/
def Listened (c : ServerConfig) (q : ℕ) : Prop :=
  ∃ (j : ℕ) (r : Request) (removes : TaskId) (col : Collector) (phase : Phase),
    c.threads[j]? = some (.request r) ∧ r.pc = .collecting removes col phase ∧ col.queue = q ∧
      phase.goesOn r.call.isNonBlocking = true ∧
      ∀ s ∈ (c.shared.queueManager.log q).drop col.pos, stopsAt r.call.isNonBlocking s.event = false

/-- A step puts state `s` on its way to task `k`: an execution sends it to a
collector that listens, or fails, or a collector is told that it lost events and
goes on at one with that state. -/
def Adds (c : ServerConfig) (k : TaskId) (s : TaskState) : Label Thread Move → Prop
  | .run i (.emit e) => ∃ x, c.threads[i]? = some (.execution x) ∧ Listened c x.queue ∧
      e.stateOf k = some s
  | .run i (.fail _ _) => ∃ x, c.threads[i]? = some (.execution x) ∧
      x.job.taskId x.ctx = k ∧ s = .failed
  | .run i (.tick _) => ∃ r removes col n pos, c.threads[i]? = some (.request r) ∧
      r.pc = .collecting removes col .receiving ∧
      c.shared.recv c.threads col.queue col.pos = some (.lagged n, pos) ∧
      ∃ sent ∈ upcoming r.call.isNonBlocking ((c.shared.queueManager.log col.queue).drop pos),
        sent.event.stateOf k = some s
  | _ => False

/-- A step that saves the task. -/
def Saves (c : ServerConfig) (task : Task) (l : Label Thread Move) : Prop :=
  ∃ i tick t, l = .run i (.tick tick) ∧ c.threads[i]? = some t ∧ t.pendingSave = some task

/-- A step that leaves terminal states alone: it puts no other state on its way
to a terminal task, and it makes a task terminal only when no other state is on
its way there. -/
structure KeepsSettled (c : ServerConfig) (l : Label Thread Move) : Prop where
  adds : ∀ k s s', StoredTerminal c.shared k s → Adds c k s' l → s' = s
  saves : ∀ task, Saves c task l → task.isTerminal = true →
    (¬ ∃ s, StoredTerminal c.shared task.id s) →
    ∀ s, InFlight c task.id s → s = task.status.state

/-! ### Of what is on its way, what a step leaves there -/

theorem Event.stateOf_task {k : TaskId} {t : Task} {s : TaskState} :
    (Event.task t).stateOf k = some s ↔ t.id = k ∧ t.status.state = s := by
  simp [Event.stateOf]

theorem mem_upcoming_append {nb : Bool} {l : List Sent} {a s : Sent}
    (h : s ∈ upcoming nb (l ++ [a])) :
    s ∈ upcoming nb l ∨ (s = a ∧ ∀ s' ∈ l, stopsAt nb s'.event = false) := by
  induction l with
  | nil =>
    simp only [List.nil_append, upcoming, ite_self, List.mem_singleton] at h
    exact Or.inr ⟨h, by simp⟩
  | cons b l ih =>
    rw [List.cons_append, upcoming] at h
    rw [upcoming]
    rcases List.mem_cons.mp h with rfl | h
    · exact Or.inl (List.mem_cons_self ..)
    · by_cases hb : stopsAt nb b.event = true
      · rw [if_pos hb] at h
        cases h
      · rw [if_neg hb] at h ⊢
        rcases ih h with h | ⟨rfl, hl⟩
        · exact Or.inl (List.mem_cons_of_mem _ h)
        · exact Or.inr ⟨rfl, List.forall_mem_cons.mpr ⟨by simpa using hb, hl⟩⟩

theorem mem_upcoming_drop {nb : Bool} {l : List Sent} {a s : Sent} {pos : ℕ}
    (h : s ∈ upcoming nb ((l ++ [a]).drop pos)) :
    s ∈ upcoming nb (l.drop pos) ∨ (s = a ∧ ∀ s' ∈ l.drop pos, stopsAt nb s'.event = false) := by
  by_cases hpos : pos ≤ l.length
  · rw [List.drop_append_of_le_length hpos] at h
    exact mem_upcoming_append h
  · rw [List.drop_eq_nil_of_le (by rw [List.length_append, List.length_singleton]; omega)] at h
    cases h

section

variable {c c' : ServerConfig} {h' : DefaultRequestHandler} {new : List Thread} {i : ℕ} {m : Move}
  {k : TaskId} {s : TaskState}

/-- A collector that stays where it is in its queue has nothing new on its way. -/
theorem Request.inFlight_stay {h : DefaultRequestHandler} {r : Request} {removes : TaskId}
    {col col' : Collector} {phase phase' : Phase} (hpc : r.pc = .collecting removes col phase)
    (hq : col'.queue = col.queue) (hpos : col'.pos = col.pos)
    (hin : phase'.stateOf k = some s ∨ (phase'.goesOn r.call.isNonBlocking = true ∧
      ∃ sent ∈ upcoming r.call.isNonBlocking ((h.queueManager.log col'.queue).drop col'.pos),
        sent.event.stateOf k = some s))
    (hstate : phase'.stateOf k = some s → phase.stateOf k = some s)
    (hgo : phase'.goesOn r.call.isNonBlocking = true → phase.goesOn r.call.isNonBlocking = true) :
    (Thread.request r).InFlight h k s := by
  rw [hq, hpos] at hin
  refine ⟨removes, col, phase, hpc, ?_⟩
  rcases hin with hin | ⟨hgoes, hin⟩
  · exact Or.inl (hstate hin)
  · exact Or.inr ⟨hgo hgoes, hin⟩

/-- What a request has on its way after its own step. -/
theorem Request.Step.inFlight {r r' : Request} {tick : Tick}
    (hi : c.threads[i]? = some (.request r))
    (hs : r.Step c.shared c.threads i h' r' new) (hin : (Thread.request r').InFlight h' k s) :
    (Thread.request r).InFlight c.shared k s ∨ Adds c k s (.run i (.tick tick)) := by
  obtain ⟨removes', col', phase', hpc', hin⟩ := hin
  rw [hs.log, hs.call] at hin
  cases hs with
  | spawnSend params key ctx q pos hpc hcall hpos
  | spawnCancel params key ctx q pos hpc hcall hpos =>
    -- a new collector starts at the end of the log
    cases hpc'
    rw [hpos, List.drop_length] at hin
    rcases hin with hin | ⟨-, sent, hmem, -⟩
    · cases hin
    · cases hmem
  | receive removes col sent pos hpc hrecv =>
    cases hpc'
    obtain ⟨ch, hch, hlog, hr⟩ := DefaultRequestHandler.of_recv hrecv
    have hunread := Channel.unread_of_recv_ok hr
    refine Or.inl ⟨_, col, .receiving, hpc, Or.inr ⟨rfl, ?_⟩⟩
    rw [hlog, ← Channel.unread, hunread, upcoming]
    rcases hin with hin | ⟨hgoes, sent', hmem, hstate⟩
    · exact ⟨sent, List.mem_cons_self .., hin⟩
    · refine ⟨sent', List.mem_cons_of_mem _ ?_, hstate⟩
      rw [if_neg (by simpa [Phase.goesOn, Phase.event?] using hgoes), Channel.unread, ← hlog]
      exact hmem
  | lag removes col n pos hpc hrecv =>
    cases hpc'
    rcases hin with hin | ⟨-, hin⟩
    · cases hin
    · exact Or.inr ⟨r, _, col, n, pos, hi, hpc, hrecv, hin⟩
  | close removes col pos hpc hrecv =>
    cases hpc'
    exact Or.inl (inFlight_stay hpc rfl rfl hin (fun h => h) fun h => h)
  | persist removes col t hpc =>
    cases hpc'
    exact Or.inl (inFlight_stay hpc rfl rfl hin (fun h => by cases h) fun h => h)
  | read removes col e t tick hpc hget =>
    cases hpc'
    have hid := DefaultRequestHandler.id_of_getTaskInternal hget
    refine Or.inl (inFlight_stay hpc rfl rfl hin (fun h => ?_) fun h => h)
    simpa [Phase.stateOf, Event.stateOf, hid, TaskStatus.new] using h
  | skip removes col event hpc | update removes col e t hpc | list removes col event t hpc
  | nobody removes col event t hpc | push removes col event t configs n hpc
  | pushLast removes col event t configs n hpc =>
    cases hpc'
    exact Or.inl (inFlight_stay hpc rfl rfl hin (fun h => by cases h) fun h => h)
  | goOn removes col event hpc hstop =>
    cases hpc'
    refine Or.inl (inFlight_stay hpc rfl rfl hin (fun h => by cases h) fun _ => ?_)
    simp [Phase.goesOn, Phase.event?, hstop]
  | _ => cases hpc'

/-- What an execution has on its way after its own step. -/
theorem Execution.Step.inFlight {x x' : Execution} (hi : c.threads[i]? = some (.execution x))
    (hs : x.Step c.shared i m h' x') (hin : (Thread.execution x').InFlight h' k s) :
    (Thread.execution x).InFlight c.shared k s ∨ Adds c k s (.run i m) := by
  obtain ⟨task', hpc', hid, hstate⟩ := hin
  cases hs with
  | emit e hpc => rcases hpc' with hpc' | hpc' <;> rw [hpc] at hpc' <;> cases hpc'
  | fail e tick hpc =>
    rcases hpc' with hpc' | hpc' <;> cases hpc'
    exact Or.inr ⟨x, hi, hid, hstate.symm⟩
  | save task tick hpc =>
    rcases hpc' with hpc' | hpc' <;> cases hpc'
    exact Or.inl ⟨_, Or.inl hpc, hid, hstate⟩
  | succeed | panic | echo | abort => rcases hpc' with hpc' | hpc' <;> cases hpc'

/-- What is started has nothing on its way. -/
theorem not_inFlight_new {t t' : Thread}
    (ha : server.advance c.shared c.threads i m t = some (h', t', new)) {u : Thread}
    (hu : u ∈ new) : ¬ u.InFlight h' k s := by
  rcases spawned_step ha hu with ⟨r, x, -, rfl, hrun, -⟩ | ⟨g, rfl⟩
  · rintro ⟨task, hx, -⟩
    rw [hrun] at hx
    rcases hx with hx | hx <;> cases hx
  · exact fun h => h

/-- What a thread has on its way depends on the logs alone. -/
theorem Thread.InFlight.of_log {h h' : DefaultRequestHandler} {u : Thread}
    (hlog : ∀ q, h'.queueManager.log q = h.queueManager.log q) (hin : u.InFlight h' k s) :
    u.InFlight h k s := by
  cases u with
  | request r =>
    obtain ⟨removes, col, phase, hpc, hin⟩ := hin
    rw [hlog] at hin
    exact ⟨removes, col, phase, hpc, hin⟩
  | execution x => exact hin
  | registration g => exact hin

/-- What a request has on its way after the step of an execution. -/
theorem inFlight_sent {x x' : Execution} {j : ℕ} {r : Request}
    (hi : c.threads[i]? = some (.execution x)) (hs : x.Step c.shared i m h' x')
    (hj : c.threads[j]? = some (.request r)) (hin : (Thread.request r).InFlight h' k s) :
    InFlight c k s ∨ Adds c k s (.run i m) := by
  obtain ⟨removes, col, phase, hpc, hin⟩ := hin
  rcases hin with hin | ⟨hgo, sent, hmem, hstate⟩
  · exact Or.inl ⟨j, _, hj, removes, col, phase, hpc, Or.inl hin⟩
  have hold : sent ∈ upcoming r.call.isNonBlocking
      ((c.shared.queueManager.log col.queue).drop col.pos) → InFlight c k s := fun hmem =>
    ⟨j, _, hj, removes, col, phase, hpc, Or.inr ⟨hgo, sent, hmem, hstate⟩⟩
  rcases hs.log col.queue with hlog | ⟨e, hsends, hq, hlog⟩
  · rw [hlog] at hmem
    exact Or.inl (hold hmem)
  · rw [hlog] at hmem
    rcases mem_upcoming_drop hmem with hmem | ⟨rfl, hnone⟩
    · exact Or.inl (hold hmem)
    · cases hs with
      | emit e' hpcx =>
        cases hsends
        have hlistened : Listened c x.queue :=
          ⟨j, r, removes, col, phase, hj, hpc, hq.symm, hgo, by rwa [hq]⟩
        exact Or.inr ⟨x, hi, hlistened, hstate⟩
      | echo task tick hpcx =>
        -- the failure was on its way before
        simp only [Execution.sends, hpcx, Option.some.injEq] at hsends
        subst hsends
        exact Or.inl ⟨i, _, hi, task, Or.inr hpcx, Event.stateOf_task.mp hstate⟩
      | save task tick hpcx => simp [Execution.sends, hpcx] at hsends
      | succeed | panic | fail | abort => cases hsends

/-- What a thread that does not move has on its way. -/
theorem inFlight_other {t t' : Thread} {j : ℕ} {u : Thread} (hi : c.threads[i]? = some t)
    (ha : server.advance c.shared c.threads i m t = some (h', t', new))
    (hj : c.threads[j]? = some u) (hin : u.InFlight h' k s) :
    InFlight c k s ∨ Adds c k s (.run i m) := by
  rcases cases_of_step ha with ⟨r, r', rfl, rfl, hs, -⟩ | ⟨x, x', rfl, rfl, rfl, hs⟩ |
    ⟨g, rfl, -, rfl, rfl, rfl⟩
  · exact Or.inl ⟨j, u, hj, hin.of_log hs.log⟩
  · cases u with
    | request r => exact inFlight_sent hi hs hj hin
    | execution y => exact Or.inl ⟨j, _, hj, hin⟩
    | registration g => exact Or.inl ⟨j, _, hj, hin⟩
  · exact Or.inl ⟨j, u, hj, hin.of_log fun _ => rfl⟩

/-- What the thread that moves has on its way. -/
theorem inFlight_moved {t t' : Thread} (hi : c.threads[i]? = some t)
    (ha : server.advance c.shared c.threads i m t = some (h', t', new))
    (hin : t'.InFlight h' k s) : InFlight c k s ∨ Adds c k s (.run i m) := by
  have hown : t.InFlight c.shared k s ∨ Adds c k s (.run i m) := by
    rcases cases_of_step ha with ⟨r, r', rfl, rfl, hs, hm⟩ | ⟨x, x', rfl, rfl, rfl, hs⟩ |
      ⟨g, rfl, -, rfl, rfl, rfl⟩
    · rcases hm with ⟨tick, rfl⟩ | ⟨-, rfl⟩
      · exact hs.inFlight hi hin
      · obtain ⟨removes, col, phase, hpc, -⟩ := hin
        cases hpc
    · exact hs.inFlight hi hin
    · exact hin.elim
  exact hown.imp_left fun h => ⟨i, t, hi, h⟩

/-- **What is on its way after a step was before, or the step adds it.** -/
theorem inFlight_step {l : Label Thread Move} (hs : server.step c l = some c')
    (hin : InFlight c' k s) : InFlight c k s ∨ Adds c k s l := by
  obtain ⟨j, u, hu, hin⟩ := hin
  rcases Machine.step_cases hs with ⟨t, rfl, hf, rfl⟩ | ⟨i, m, t, s', t', new, rfl, ht, ha, rfl⟩
  · rcases Places.getElem?_concat_cases hu with hu | ⟨-, rfl⟩
    · exact Or.inl ⟨j, u, hu, hin⟩
    · obtain ⟨r, rfl, hpc, -⟩ := Thread.of_isFresh hf
      obtain ⟨removes, col, phase, hpc', -⟩ := hin
      rw [hpc] at hpc'
      cases hpc'
  · rcases Machine.getElem?_moved hu with ⟨rfl, rfl⟩ | ⟨-, hj⟩ | ⟨-, hj⟩
    · exact inFlight_moved ht ha hin
    · exact inFlight_other ht ha hj hin
    · exact absurd hin (not_inFlight_new ha (List.mem_of_getElem? hj))

/-! ### What is stored -/

/-- What a thread is about to save is on its way. -/
theorem Thread.inFlight_of_pendingSave {h : DefaultRequestHandler} {t : Thread} {task : Task}
    (hsave : t.pendingSave = some task) : t.InFlight h task.id task.status.state := by
  rcases Thread.pendingSave_cases hsave with hsave | hsave
  · cases t with
    | request r =>
      simp only [Thread.pendingSnapshot] at hsave
      split at hsave <;> cases hsave
      exact ⟨_, _, _, ‹_›, Or.inl (by simp [Phase.stateOf, Event.stateOf])⟩
    | execution x =>
      simp only [Thread.pendingSnapshot] at hsave
      split at hsave <;> cases hsave
      exact ⟨_, Or.inl ‹_›, rfl, rfl⟩
    | registration g => cases hsave
  · cases t with
    | request r =>
      simp only [Thread.pendingUpdate] at hsave
      split at hsave <;> cases hsave
      exact ⟨_, _, _, ‹_›, Or.inl (by simp [Phase.stateOf])⟩
    | execution x => cases hsave
    | registration g => cases hsave

theorem inFlight_of_saves {l : Label Thread Move} {task : Task} (h : Saves c task l) :
    InFlight c task.id task.status.state := by
  obtain ⟨i, tick, t, rfl, ht, hsave⟩ := h
  exact ⟨i, t, ht, Thread.inFlight_of_pendingSave hsave⟩

/-- A save adds nothing. -/
theorem not_adds_of_saves {l : Label Thread Move} {task : Task} (h : Saves c task l) :
    ¬ Adds c k s l := by
  obtain ⟨i, tick, t, rfl, ht, hsave⟩ := h
  rintro ⟨r, removes, col, n, pos, hr, hpc, -⟩
  rw [hr] at ht
  cases ht
  simp [Thread.pendingSave, Thread.pendingSnapshot, Thread.pendingUpdate, hpc] at hsave

/-- A step leaves the store as it is or saves one task. -/
theorem store_cases {l : Label Thread Move} (hs : server.step c l = some c') :
    SameStore c.shared c'.shared ∨ ∃ task, Saves c task l ∧ Stores c.shared c'.shared task := by
  rcases Machine.step_cases hs with ⟨t, rfl, -, rfl⟩ | ⟨i, m, t, s', t', new, rfl, ht, ha, rfl⟩
  · exact Or.inl fun _ => rfl
  · rcases store_step ha with hsame | ⟨task, tick, hsave, rfl, hstores⟩
    · exact Or.inl hsame
    · exact Or.inr ⟨task, ⟨i, tick, t, rfl, ht, hsave⟩, hstores⟩

/-- A terminal state after a step was stored before, or is that of the task the
step saves. -/
theorem storedTerminal_step {l : Label Thread Move} (hs : server.step c l = some c')
    (h : StoredTerminal c'.shared k s) :
    StoredTerminal c.shared k s ∨
      ∃ task, Saves c task l ∧ task.id = k ∧ task.status.state = s ∧ task.isTerminal = true := by
  obtain ⟨t, ht, rfl, hterm⟩ := h
  rcases store_cases hs with hsame | ⟨task, hsave, hstores⟩
  · rw [hsame] at ht
    exact Or.inl ⟨t, ht, rfl, hterm⟩
  · rw [hstores] at ht
    split at ht
    · cases ht
      exact Or.inr ⟨t, hsave, by simp [*], rfl, hterm⟩
    · exact Or.inl ⟨t, ht, rfl, hterm⟩

/-- What is on its way to a terminal task has its state. -/
def Settled (c : ServerConfig) : Prop :=
  ∀ k s s', StoredTerminal c.shared k s → InFlight c k s' → s' = s

theorem settled_step {l : Label Thread Move} (hI : Settled c) (hok : KeepsSettled c l)
    (hs : server.step c l = some c') : Settled c' := by
  intro k s s' hterm hin
  rcases storedTerminal_step hs hterm with hbefore | ⟨task, hsave, rfl, rfl, htask⟩
  · rcases inFlight_step hs hin with hin | hadds
    · exact hI k s s' hbefore hin
    · exact hok.adds k s s' hbefore hadds
  · rcases inFlight_step hs hin with hin | hadds
    · by_cases hold : ∃ s, StoredTerminal c.shared task.id s
      · obtain ⟨s₀, hs₀⟩ := hold
        rw [hI _ s₀ s' hs₀ hin, hI _ s₀ _ hs₀ (inFlight_of_saves hsave)]
      · exact hok.saves task hsave htask hold s' hin
    · exact absurd hadds (not_adds_of_saves hsave)

/-- A terminal state stays when what is on its way has that state. -/
theorem storedTerminal_kept {l : Label Thread Move} (hI : Settled c)
    (hs : server.step c l = some c') (h : StoredTerminal c.shared k s) :
    StoredTerminal c'.shared k s := by
  obtain ⟨t, ht, hstate, hterm⟩ := h
  rcases store_cases hs with hsame | ⟨task, hsave, hstores⟩
  · exact ⟨t, by rw [hsame, ht], hstate, hterm⟩
  · by_cases hk : k = task.id
    · have hin := inFlight_of_saves hsave
      rw [← hk] at hin
      exact ⟨task, by rw [hstores, if_pos hk], hI k s _ ⟨t, ht, hstate, hterm⟩ hin, hterm⟩
    · exact ⟨t, by rw [hstores, if_neg hk, ht], hstate, hterm⟩

end

/-- **A terminal state is the last**, along every run whose steps leave terminal
states alone. -/
theorem settled_reach {c₀ c c' : ServerConfig} (h₀ : Initial c₀)
    (h : server.Reach KeepsSettled c₀ c) (h' : server.Reach KeepsSettled c c') {k : TaskId}
    {s : TaskState} (hs : StoredTerminal c.shared k s) : StoredTerminal c'.shared k s := by
  have hsettled : ∀ c, server.Reach KeepsSettled c₀ c → Settled c := by
    intro c hc
    refine hc.invariant ?_ fun c l c' hI hok hstep => settled_step hI hok hstep
    rintro k s s' - ⟨j, t, hj, -⟩
    rw [h₀.threads] at hj
    cases hj
  induction h' with
  | refl => exact hs
  | tail prior hok hstep ih => exact storedTerminal_kept (hsettled _ (h.trans prior)) hstep ih

/-! ### An execution that fails after it has completed its task -/

/-- The execution of a blocking send completes the task, and the collector
stores that. -/
def completes : List (Label Thread Move) :=
  .arrive (sendTo "m1" false) :: List.replicate 5 (.run 0 (.tick ⟨"12:00", "u1", "u2", "v1"⟩)) ++
    .run 1 (.emit (.task ⟨"t1", "c1", ⟨.completed, none, none⟩, [], [], none⟩)) ::
    List.replicate 2 (.run 0 (.tick ⟨"12:01", "u1", "u2", "v1"⟩))

/-- The state in which the task is completed. -/
def storedConfig : ServerConfig := (server.exec ⟨.new, []⟩ completes).getD ⟨.new, []⟩

theorem storedConfig_stored : StoredTerminal storedConfig.shared "t1" .completed :=
  ⟨_, rfl, rfl, rfl⟩

/-- The execution then returns an error, and the failure is stored. -/
def failsLate : List (Label Thread Move) :=
  [.run 1 (.fail (.other "boom") ⟨"12:02", "u3", "u4", "v1"⟩),
    .run 1 (.tick ⟨"12:02", "u3", "u4", "v1"⟩)]

def failedConfig : ServerConfig := (server.exec storedConfig failsLate).getD ⟨.new, []⟩

/-- The task was completed and is now failed. -/
theorem failsLate_not_kept :
    Initial ⟨.new, []⟩ ∧ server.Reach Machine.Always ⟨.new, []⟩ storedConfig ∧
      server.Reach Machine.Always storedConfig failedConfig ∧
      StoredTerminal storedConfig.shared "t1" .completed ∧
      ¬ StoredTerminal failedConfig.shared "t1" .completed := by
  refine ⟨initial_new,
    .of_exec (show server.exec ⟨.new, []⟩ completes = some storedConfig from rfl),
    .of_exec (show server.exec storedConfig failsLate = some failedConfig from rfl),
    storedConfig_stored, ?_⟩
  rintro ⟨t, ht, hstate, -⟩
  cases ht
  cases hstate

/-- The send answers, and the execution returns. -/
def returns : List (Label Thread Move) :=
  List.replicate 3 (.run 0 (.tick ⟨"12:02", "u1", "u2", "v1"⟩)) ++ [.run 1 .succeed]

def returnedConfig : ServerConfig := (server.exec storedConfig returns).getD ⟨.new, []⟩

/-- A step that saves nothing while no task is terminal, or adds nothing. -/
theorem keepsSettled_of_not_saves {c : ServerConfig} {l : Label Thread Move}
    (hadds : (∀ k s, ¬ StoredTerminal c.shared k s) ∨ ∀ k s, ¬ Adds c k s l)
    (hsaves : ∀ task, ¬ Saves c task l) : KeepsSettled c l where
  adds k s s' hterm h := by
    rcases hadds with hno | hno
    · exact absurd hterm (hno k s)
    · exact absurd h (hno k s')
  saves task h := absurd h (hsaves task)

theorem completes_keepsSettled : server.Along KeepsSettled ⟨.new, []⟩ completes := by
  refine ⟨?_, ?_, ?_, ?_, ?_, ?_, ?_, ?_, ?_, trivial⟩
  case refine_9 =>
    -- the save: the collector stops here, and the execution has nothing in hand
    refine ⟨fun k s s' hterm => ?_, ?_⟩
    · obtain ⟨t, ht, -⟩ := hterm
      cases ht
    rintro task ⟨i, tick, t, hl, ht, hsave⟩ - - s ⟨j, u, hu, hin⟩
    cases hl
    cases ht
    cases hsave
    rcases j with _ | _ | _ | j <;> cases hu
    · obtain ⟨removes, col, phase, hpc, hin⟩ := hin
      cases hpc
      rcases hin with hin | ⟨hgo, -⟩
      · cases hin
        rfl
      · cases hgo
    · obtain ⟨task, hpc | hpc, -⟩ := hin <;> cases hpc
    · exact hin.elim
  all_goals
    refine keepsSettled_of_not_saves (Or.inl ?_) ?_
    · rintro k s ⟨t, ht, -⟩
      cases ht
    · rintro task ⟨i, tick, t, hl, ht, hsave⟩
      cases hl <;> cases ht <;> cases hsave

theorem returns_keepsSettled : server.Along KeepsSettled storedConfig returns := by
  refine ⟨?_, ?_, ?_, ?_, trivial⟩
  all_goals
    refine keepsSettled_of_not_saves (Or.inr ?_) ?_
    · intro k s h
      first
      | exact h.elim
      | obtain ⟨r, removes, col, n, pos, hr, hpc, -⟩ := h
        cases hr
        cases hpc
    · rintro task ⟨i, tick, t, hl, ht, hsave⟩
      cases hl <;> cases ht <;> cases hsave

theorem settled_reach_returns : StoredTerminal returnedConfig.shared "t1" .completed :=
  settled_reach initial_new (.of_along completes_keepsSettled rfl)
    (.of_along returns_keepsSettled rfl) storedConfig_stored

end Ra2a
