import Ra2a.Server.Handler.Frames

/-!
# What a collector has heard

Three facts about every run.  A collector is never told that its channel is
closed, since its own request keeps a sender until it returns
(`not_closed_while_collecting`).  It goes on exactly while nothing it has
received stops it, and it answers on what it received last (`heard_reach`).  And
what it has received was sent to its queue after it subscribed, by executions
that write there (`linked_reach`).
-/

namespace Ra2a

open Broadcast Interleave

/-- **A collector is never told that its channel is closed.** -/
theorem not_closed_while_collecting {h : DefaultRequestHandler} {threads : List Thread} {i : ℕ}
    {r : Request} {removes : TaskId} {col : Collector} {phase : Phase}
    (hi : threads[i]? = some (.request r)) (hpc : r.pc = .collecting removes col phase) (pos : ℕ) :
    h.recv threads col.queue col.pos ≠ some (.closed, pos) := by
  intro hrecv
  obtain ⟨ch, -, -, hch⟩ := DefaultRequestHandler.of_recv hrecv
  have hno : h.hasSender threads col.queue = false := by simpa using (Channel.recv_closed hch).1
  have hyes : threads.any (·.holdsSender col.queue) = true :=
    List.any_eq_true.mpr ⟨_, List.mem_of_getElem? hi, by simp [Thread.holdsSender, hpc]⟩
  rw [DefaultRequestHandler.hasSender, hyes, Bool.or_true] at hno
  cases hno

/-! ### When it stops -/

/-- The event a collector has in hand. -/
def Phase.event? : Phase → Option Event
  | .persisting event => some event
  | .updating e _ => some (.statusUpdate e)
  | .notifying event _ => some event
  | .pushing event _ _ _ => some event
  | .persisted event => some event
  | .receiving => none
  | .closing => none

/-- Nothing received so far stops the collector. -/
def Request.Unstopped (r : Request) (received : List Sent) : Prop :=
  ∀ s ∈ received, stopsAt r.call.isNonBlocking s.event = false

/-- The last event received stops the collector, and none before it. -/
def Request.StoppedBy (r : Request) (s : Sent) : Prop :=
  ∃ pre, r.received = pre ++ [s] ∧ r.Unstopped pre ∧ stopsAt r.call.isNonBlocking s.event = true

/-- What `process_event` answers on this event, in some state of the handler. -/
def Request.AnswersOn (r : Request) (s : Sent) (resp : SendMessageResponse) : Prop :=
  ∃ (h : DefaultRequestHandler) (now : String), resp = h.answer r.call.isNonBlocking s.event now

/-- What a request has received, by where it is. -/
def Request.Heard (r : Request) : Prop :=
  match r.pc with
  | .collecting _ _ .receiving => r.Unstopped r.received
  | .collecting _ _ .closing => False
  | .collecting _ _ phase =>
    ∃ pre s, r.received = pre ++ [s] ∧ phase.event? = some s.event ∧ r.Unstopped pre
  | .returning _ _ resp => ∃ s, r.StoppedBy s ∧ r.AnswersOn s resp
  | .done (.answered _ result) =>
    ∃ s resp, r.StoppedBy s ∧ r.AnswersOn s resp ∧ result = r.call.finish resp
  | .streaming _ _ => True
  | .done _ => True
  | .dropped => True
  | _ => r.received = []

theorem Request.Heard.not_closing {r : Request} (h : r.Heard) {removes : TaskId}
    {col : Collector} : r.pc ≠ .collecting removes col .closing := by
  intro hpc
  rw [Request.Heard, hpc] at h
  exact h

/-- The record an execution has in hand is that of a failure of its task. -/
def Execution.Records (x : Execution) : Prop :=
  ∀ task, x.pc = .failing task ∨ x.pc = .echoing task →
    ∃ error tick, task = failedTask (x.job.taskId x.ctx) x.ctx.contextId error tick

def HeardThread (_ : ServerConfig) (_ : ℕ) : Thread → Prop
  | .request r => r.Heard
  | .execution x => x.Records
  | .registration _ => True

/-- One step of a request, which is never told that its channel is closed. -/
theorem Request.Step.heard {h h' : DefaultRequestHandler} {threads new : List Thread} {i : ℕ}
    {r r' : Request} (hi : threads[i]? = some (.request r)) (hr : r.Heard)
    (hs : r.Step h threads i h' r' new) : r'.Heard := by
  cases hs with
  | refuse | panic | endStream | drop => exact trivial
  | spawnStream | subscribe | deliver | deliverLag => exact trivial
  | resolve _ _ _ hpc | configure _ _ _ hpc | intercept _ _ _ _ _ hpc | intercepted _ _ _ hpc
  | accept _ _ hpc | abort _ _ hpc | queue _ _ _ _ hpc | locate _ _ hpc | find _ _ hpc =>
    rw [Request.Heard, hpc] at hr
    exact hr
  | spawnSend params key ctx q pos hpc =>
    rw [Request.Heard, hpc] at hr
    intro s hs
    rw [Request.goto_received, hr] at hs
    cases hs
  | spawnCancel params key ctx q pos hpc =>
    rw [Request.Heard, hpc] at hr
    intro s hs
    rw [Request.goto_received, hr] at hs
    cases hs
  | receive removes col sent pos hpc hrecv =>
    rw [Request.Heard, hpc] at hr
    exact ⟨r.received, sent, rfl, rfl, hr⟩
  | lag removes col n pos hpc hrecv =>
    rw [Request.Heard, hpc] at hr
    exact hr
  | close removes col pos hpc hrecv =>
    exact absurd hrecv (not_closed_while_collecting hi hpc pos)
  | persist removes col t hpc => rw [Request.Heard, hpc] at hr; exact hr
  | read removes col e t tick hpc => rw [Request.Heard, hpc] at hr; exact hr
  | skip removes col event hpc => rw [Request.Heard, hpc] at hr; exact hr
  | update removes col e t hpc => rw [Request.Heard, hpc] at hr; exact hr
  | list removes col event t hpc | nobody removes col event t hpc
  | push removes col event t configs n hpc | pushLast removes col event t configs n hpc =>
    rw [Request.Heard, hpc] at hr
    exact hr
  | goOn removes col event hpc hstop =>
    rw [Request.Heard, hpc] at hr
    obtain ⟨pre, s, hrec, he, hpre⟩ := hr
    cases he
    intro s' hs'
    rw [Request.goto_received, hrec] at hs'
    rcases List.mem_append.mp hs' with hs' | hs'
    · exact hpre s' hs'
    · rw [List.mem_singleton.mp hs']
      exact hstop
  | answer removes col event tick hpc hstop =>
    rw [Request.Heard, hpc] at hr
    obtain ⟨pre, s, hrec, he, hpre⟩ := hr
    cases he
    exact ⟨s, ⟨pre, hrec, hpre, hstop⟩, h, tick.now, rfl⟩
  | finalize removes col resp tick hpc hresp => rw [Request.Heard, hpc] at hr; exact hr.elim
  | failClosed removes col e tick hpc herr => rw [Request.Heard, hpc] at hr; exact hr.elim
  | finish removes col resp hpc =>
    rw [Request.Heard, hpc] at hr
    obtain ⟨s, hstop, hans⟩ := hr
    exact ⟨s, resp, hstop, hans, rfl⟩

theorem Execution.Step.records {h h' : DefaultRequestHandler} {i : ℕ} {m : Move}
    {x x' : Execution} (hs : x.Step h i m h' x') (hx : x.Records) : x'.Records := by
  cases hs with
  | emit e hpc => exact hx
  | fail e tick hpc =>
    rintro task (ht | ht)
    · cases ht
      exact ⟨e, tick, rfl⟩
    · cases ht
  | save task tick hpc =>
    rintro task' (ht | ht)
    · cases ht
    · cases ht
      exact hx task (Or.inl hpc)
  | succeed | panic | echo | abort => rintro task (ht | ht) <;> cases ht

/-- **What each collector has received stops it at the last event or not at
all**, and what each execution is about to record is a failure. -/
theorem heard_reach {ok : ServerConfig → Label Thread Move → Prop} {c₀ c : ServerConfig}
    (h₀ : Initial c₀) (h : server.Reach ok c₀ c) : Machine.Reach.Each HeardThread c := by
  refine h.threads ?_ ?_ ?_ ?_ ?_
  · exact h₀.each
  · intro c t hA hok hf j u hu
    rcases Places.getElem?_concat_cases hu with hu | ⟨-, rfl⟩
    · exact hA j u hu
    · obtain ⟨r, rfl, hpc, hrec⟩ := Thread.of_isFresh hf
      simp only [HeardThread, Request.Heard, hpc]
      exact hrec
  · intro c i m t s' t' new hA hok ht ha
    rcases cases_of_step ha with ⟨r, r', rfl, rfl, hs, -⟩ | ⟨x, x', rfl, rfl, rfl, hs⟩ |
      ⟨g, rfl, -, rfl, rfl, rfl⟩
    · exact hs.heard ht (hA i _ ht)
    · exact hs.records (hA i _ ht)
    · exact trivial
  · intro c i m t s' t' new j u hA hok ht ha hlen hu
    rcases spawned_step ha (List.mem_of_getElem? hu) with ⟨r, x, -, rfl, hrun, -⟩ | ⟨g, rfl⟩
    · rintro task (ht | ht) <;> rw [hrun] at ht <;> cases ht
    · exact trivial
  · intro c i m t s' t' new j u hA hok ht ha hij hu
    exact hA j u hu

/-! ### Where it comes from -/

/-- The collector of a request, also after it has answered. -/
def Pc.collector? : Pc → Option Collector
  | .collecting _ col _ => some col
  | .returning _ col _ => some col
  | .done (.answered col _) => some col
  | _ => none

/-- Request `i` follows, with its collector, the queue its own execution writes
to, and has received what came there after it subscribed. -/
structure Follows (c : ServerConfig) (i : ℕ) (r : Request) (col : Collector) : Prop where
  own : ∃ x, c.threads[col.own]? = some (.execution x) ∧ x.owner = i ∧ x.queue = col.queue
  since_le : col.since ≤ col.pos
  received : ∀ s ∈ r.received, s ∈ (c.shared.queueManager.log col.queue).drop col.since

/-- Queues are those of the task they were got for. -/
def LinkedThread (c : ServerConfig) (i : ℕ) : Thread → Prop
  | .request r =>
    (∀ key ctx q, r.pc = .queued key ctx q → c.shared.queueManager.key q = some key) ∧
      ∀ col, r.pc.collector? = some col → Follows c i r col
  | .execution x => c.shared.queueManager.key x.queue = some x.key
  | .registration _ => True

theorem Follows.extend {c c' : ServerConfig} {i : ℕ} {r : Request} {col : Collector}
    (he : Extends c c') (hf : Follows c i r col) : Follows c' i r col where
  own := by
    obtain ⟨x, hx, ho, hq⟩ := hf.own
    obtain ⟨x', hx', hs⟩ := he.execution col.own x hx
    exact ⟨x', hx', hs.owner.trans ho, hs.queue.trans hq⟩
  since_le := hf.since_le
  received s hs := he.mem_drop (hf.received s hs)

theorem LinkedThread.extend {c c' : ServerConfig} {i : ℕ} {t : Thread} (he : Extends c c')
    (ht : LinkedThread c i t) : LinkedThread c' i t := by
  cases t with
  | request r => exact ⟨fun key ctx q hpc => he.key q key (ht.1 key ctx q hpc),
      fun col hcol => (ht.2 col hcol).extend he⟩
  | execution x => exact he.key _ _ ht
  | registration g => exact trivial

/-- The collector goes on, and nothing has been received. -/
theorem Follows.goOn {c : ServerConfig} {i : ℕ} {r r' : Request} {col col' : Collector}
    (hf : Follows c i r col) (hrec : r'.received = r.received) (hq : col'.queue = col.queue)
    (hs : col'.since = col.since) (ho : col'.own = col.own) (hpos : col.pos ≤ col'.pos) :
    Follows c i r' col' where
  own := by rw [ho, hq]; exact hf.own
  since_le := by rw [hs]; exact hf.since_le.trans hpos
  received := by rw [hrec, hq, hs]; exact hf.received

/-- What is received at a position is in the log there. -/
theorem mem_drop_of_recv {h : DefaultRequestHandler} {threads : List Thread} {q pos pos' since : ℕ}
    {s : Sent} (hrecv : h.recv threads q pos = some (.ok s, pos')) (hle : since ≤ pos) :
    s ∈ (h.queueManager.log q).drop since ∧ pos' = pos + 1 := by
  obtain ⟨ch, -, hlog, hr⟩ := DefaultRequestHandler.of_recv hrecv
  obtain ⟨hget, hpos⟩ := Channel.recv_ok hr
  refine ⟨?_, hpos⟩
  rw [hlog, List.mem_iff_getElem?]
  exact ⟨pos - since, by rw [List.getElem?_drop, show since + (pos - since) = pos by omega, hget]⟩

theorem lt_of_recv_lagged {h : DefaultRequestHandler} {threads : List Thread} {q pos pos' n : ℕ}
    (hrecv : h.recv threads q pos = some (.lagged n, pos')) : pos < pos' := by
  obtain ⟨ch, -, -, hr⟩ := DefaultRequestHandler.of_recv hrecv
  exact (Channel.recv_lagged hr).1

/-- A request after its own step, in the state the step leaves. -/
theorem Request.Step.linked {c : ServerConfig} {h' : DefaultRequestHandler} {new : List Thread}
    {i : ℕ} {r r' : Request} (hs : r.Step c.shared c.threads i h' r' new) (hr : r.Heard)
    (hl : LinkedThread ⟨h', c.threads.set i (.request r') ++ new⟩ i (.request r)) :
    LinkedThread ⟨h', c.threads.set i (.request r') ++ new⟩ i (.request r') := by
  have hspawned : ∀ x rest, new = .execution x :: rest →
      (c.threads.set i (.request r') ++ new)[c.threads.length]? = some (.execution x) := by
    intro x rest hnew
    rw [hnew, List.getElem?_append_right (by simp)]
    simp
  have hempty : ∀ key ctx q, r.pc = .queued key ctx q → r.received = [] := by
    intro key ctx q hpc
    rw [Request.Heard, hpc] at hr
    exact hr
  have hfollows : ∀ {removes col phase}, r.pc = .collecting removes col phase →
      Follows ⟨h', c.threads.set i (.request r') ++ new⟩ i r col := by
    intro removes col phase hpc
    exact hl.2 col (by rw [hpc]; rfl)
  cases hs with
  | queue key ctx q m hpc hq =>
    refine ⟨?_, by simp [Pc.collector?]⟩
    rintro key' ctx' q' hq'
    cases hq'
    exact QueueManager.key_of_getQueue (QueueManager.getQueue_of_getOrCreateQueue hq).1
  | spawnSend params key ctx q pos hpc hcall hpos =>
    refine ⟨by simp, ?_⟩
    rintro col hcol
    cases hcol
    refine ⟨⟨_, hspawned _ _ rfl, rfl, rfl⟩, le_rfl, ?_⟩
    rw [Request.goto_received, hempty key ctx q hpc]
    simp
  | spawnCancel params key ctx q pos hpc hcall hpos =>
    refine ⟨by simp, ?_⟩
    rintro col hcol
    cases hcol
    refine ⟨⟨_, hspawned _ _ rfl, rfl, rfl⟩, le_rfl, ?_⟩
    rw [Request.goto_received, hempty key ctx q hpc]
    simp
  | receive removes col sent pos hpc hrecv =>
    have hf := hfollows hpc
    obtain ⟨hmem, hpos⟩ := mem_drop_of_recv hrecv hf.since_le
    refine ⟨by simp, ?_⟩
    rintro col' hcol
    cases hcol
    refine ⟨hf.own, hf.since_le.trans (by simp [hpos]), ?_⟩
    intro s hs
    rcases List.mem_append.mp hs with hs | hs
    · exact hf.received s hs
    · rw [List.mem_singleton.mp hs]
      exact hmem
  | lag removes col n pos hpc hrecv =>
    refine ⟨by simp, ?_⟩
    rintro col' hcol
    cases hcol
    exact (hfollows hpc).goOn rfl rfl rfl rfl (lt_of_recv_lagged hrecv).le
  | close removes col pos hpc | persist removes col t hpc | read removes col e t tick hpc
  | skip removes col event hpc | update removes col e t hpc | list removes col event t hpc
  | nobody removes col event t hpc | push removes col event t configs n hpc
  | pushLast removes col event t configs n hpc | goOn removes col event hpc
  | answer removes col event tick hpc | finalize removes col resp tick hpc
  | failClosed removes col e tick hpc =>
    refine ⟨by simp, ?_⟩
    rintro col' hcol
    cases hcol
    exact (hfollows hpc).goOn rfl rfl rfl rfl le_rfl
  | finish removes col resp hpc =>
    refine ⟨by simp, ?_⟩
    rintro col' hcol
    cases hcol
    exact (hl.2 col (by rw [hpc]; rfl)).goOn rfl rfl rfl rfl le_rfl
  | _ => exact ⟨by simp, by simp [Pc.collector?]⟩

/-- **Collectors and executions are on the queues of their tasks**, and what a
collector has received was sent there after it subscribed. -/
theorem linked_reach {ok : ServerConfig → Label Thread Move → Prop} {c₀ c : ServerConfig}
    (h₀ : Initial c₀) (h : server.Reach ok c₀ c) : Machine.Reach.Each LinkedThread c := by
  refine (h.assuming fun _ => heard_reach h₀).threads ?_ ?_ ?_ ?_ ?_
  · exact h₀.each
  · intro c t hA hok hf j u hu
    rcases Places.getElem?_concat_cases hu with hu | ⟨-, rfl⟩
    · exact (hA j u hu).extend (extends_arrive c t)
    · obtain ⟨r, rfl, hpc, -⟩ := Thread.of_isFresh hf
      exact ⟨by simp [hpc], by simp [hpc, Pc.collector?]⟩
  · intro c i m t s' t' new hA hok ht ha
    have hl := (hA i t ht).extend (extends_advance ht ha)
    rcases cases_of_step ha with ⟨r, r', rfl, rfl, hs, -⟩ | ⟨x, x', rfl, rfl, rfl, hs⟩ |
      ⟨g, rfl, -, rfl, rfl, rfl⟩
    · exact hs.linked (hok.1 i _ ht) hl
    · rw [LinkedThread, hs.same.queue, hs.same.key]
      exact hl
    · exact trivial
  · intro c i m t s' t' new j u hA hok ht ha hlen hu
    rcases spawned_step ha (List.mem_of_getElem? hu) with ⟨r, x, rfl, rfl, -, hpc⟩ | ⟨g, rfl⟩
    · have hkey := (hA i _ ht).1 x.key x.ctx x.queue hpc
      exact key_step ha hkey
    · exact trivial
  · intro c i m t s' t' new j u hA hok ht ha hij hu
    exact (hA j u hu).extend (extends_advance ht ha)

/-- A request that collects did so before its step, with the same execution of
its own, or has just spawned it. -/
theorem Request.Step.collecting {h h' : DefaultRequestHandler} {threads new : List Thread} {i : ℕ}
    {r r' : Request} (hs : r.Step h threads i h' r' new) {removes : TaskId} {col' : Collector}
    {phase : Phase} (hpc' : r'.pc = .collecting removes col' phase) :
    (∃ removes col phase, r.pc = .collecting removes col phase ∧ col'.own = col.own ∧
        col'.queue = col.queue ∧ r.received ⊆ r'.received) ∨
      ∃ x rest, new = .execution x :: rest ∧ col'.own = threads.length ∧ x.pc = .running := by
  cases hs with
  | spawnSend => cases hpc'; exact Or.inr ⟨_, _, rfl, rfl, rfl⟩
  | spawnCancel => cases hpc'; exact Or.inr ⟨_, _, rfl, rfl, rfl⟩
  | receive removes col sent pos hpc =>
    cases hpc'
    exact Or.inl ⟨_, _, _, hpc, rfl, rfl, List.subset_append_left _ _⟩
  | lag removes col n pos hpc | close removes col pos hpc | persist removes col t hpc
  | read removes col e t tick hpc | skip removes col event hpc | update removes col e t hpc
  | list removes col event t hpc | nobody removes col event t hpc
  | push removes col event t configs n hpc | pushLast removes col event t configs n hpc
  | goOn removes col event hpc =>
    cases hpc'
    exact Or.inl ⟨_, _, _, hpc, rfl, rfl, List.Subset.refl _⟩
  | _ => cases hpc'

/-! ### Who sent it -/

/-- What is in a log was sent by an execution that writes there. -/
def LogsSent (c : ServerConfig) : Prop :=
  ∀ q s, s ∈ c.shared.queueManager.log q →
    ∃ x, c.threads[s.sender]? = some (.execution x) ∧ x.queue = q

/-- **Whatever is sent is sent by an execution of the queue.** -/
theorem logsSent_reach {ok : ServerConfig → Label Thread Move → Prop} {c₀ c : ServerConfig}
    (h₀ : Initial c₀) (h : server.Reach ok c₀ c) : LogsSent c := by
  refine h.invariant ?_ ?_
  · intro q s hs
    have hnil : c₀.shared.queueManager.log q = [] := by
      rw [QueueManager.log, QueueManager.channel, h₀.heap]
      rfl
    rw [hnil] at hs
    cases hs
  · intro c l c' hI hok hstep q s hs
    have hkeep : ∀ {c'}, Extends c c' → s ∈ c.shared.queueManager.log q →
        ∃ x, c'.threads[s.sender]? = some (.execution x) ∧ x.queue = q := by
      intro c' he hs
      obtain ⟨x, hx, hq⟩ := hI q s hs
      obtain ⟨x', hx', hsame⟩ := he.execution _ x hx
      exact ⟨x', hx', hsame.queue.trans hq⟩
    rcases Machine.step_cases hstep with ⟨t, rfl, -, rfl⟩ | ⟨i, m, t, s', t', new, rfl, ht, ha, rfl⟩
    · exact hkeep (extends_arrive c t) hs
    · have he := extends_advance ht ha
      rcases cases_of_step ha with ⟨r, r', rfl, rfl, hr, -⟩ | ⟨x, x', rfl, rfl, rfl, hx⟩ |
        ⟨g, rfl, -, rfl, rfl, rfl⟩
      · exact hkeep he (by rwa [← hr.log q])
      · rcases hx.log q with hlog | ⟨e, -, hq, hlog⟩
        · exact hkeep he (by rwa [← hlog])
        · change s ∈ s'.queueManager.log q at hs
          rw [hlog] at hs
          rcases List.mem_append.mp hs with hs | hs
          · exact hkeep he hs
          · rw [List.mem_singleton.mp hs]
            exact ⟨x', Machine.getElem?_self ht, hx.same.queue.trans hq⟩
      · exact hkeep he hs

end Ra2a
