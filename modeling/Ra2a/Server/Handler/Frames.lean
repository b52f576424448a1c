import Ra2a.Server.Handler.Steps

/-!
# What a step leaves alone

A step touches one thing.  The store is written only by a thread that has a save
in hand, and only at the id of that task (`store_step`).  The queue map changes
only when a request gets its queue or removes it (`Request.Step.queueManager`).
A log only grows (`log_step`), and an execution keeps what it was made with
(`execution_step`).  `Extends` is what is left of all this along a run.
-/

namespace Ra2a

open Broadcast Interleave

variable {h h' : DefaultRequestHandler} {threads new : List Thread} {i : ℕ}

/-! ### Operations of the handler -/

namespace DefaultRequestHandler

/-- Saving a push configuration touches nothing but their store. -/
theorem saveInlinePushConfig_eq (p : SendMessageRequest) (k : TaskId) (tick : Tick) :
    ∃ store, h.saveInlinePushConfig p k tick = { h with pushConfigStore := store } := by
  unfold saveInlinePushConfig
  split
  · exact ⟨_, rfl⟩
  · exact ⟨_, rfl⟩

/-- Aborting touches nothing but the handles. -/
theorem abortRunning_eq (k : TaskId) :
    ∃ running aborts, h.abortRunning k = { h with runningTasks := running, aborts := aborts } := by
  unfold abortRunning
  split
  · exact ⟨_, _, rfl⟩
  · exact ⟨_, _, rfl⟩

@[simp] theorem queueManager_storeTask (t : Task) :
    (h.storeTask t).queueManager = h.queueManager := rfl

@[simp] theorem queueManager_saveInlinePushConfig (p : SendMessageRequest) (k : TaskId)
    (tick : Tick) : (h.saveInlinePushConfig p k tick).queueManager = h.queueManager := by
  obtain ⟨_, he⟩ := h.saveInlinePushConfig_eq p k tick
  rw [he]

@[simp] theorem queueManager_abortRunning (k : TaskId) :
    (h.abortRunning k).queueManager = h.queueManager := by
  obtain ⟨_, _, he⟩ := h.abortRunning_eq k
  rw [he]

@[simp] theorem getTaskInternal_saveInlinePushConfig (p : SendMessageRequest) (k k' : TaskId)
    (tick : Tick) :
    (h.saveInlinePushConfig p k tick).getTaskInternal k' = h.getTaskInternal k' := by
  obtain ⟨_, he⟩ := h.saveInlinePushConfig_eq p k tick
  rw [he]
  rfl

@[simp] theorem getTaskInternal_abortRunning (k k' : TaskId) :
    (h.abortRunning k).getTaskInternal k' = h.getTaskInternal k' := by
  obtain ⟨_, _, he⟩ := h.abortRunning_eq k
  rw [he]
  rfl

/-- What a receiver is handed comes from the channel of its queue. -/
theorem of_recv {q pos : ℕ} {res : Received Sent × ℕ} (hrecv : h.recv threads q pos = some res) :
    ∃ ch, h.queueManager.channel q = some ch ∧ h.queueManager.log q = ch.log ∧
      ch.recv (!h.hasSender threads q) pos = some res := by
  obtain ⟨ch, hch, hr⟩ := Option.bind_eq_some_iff.mp hrecv
  exact ⟨ch, hch, QueueManager.log_of_channel hch, hr⟩

end DefaultRequestHandler

/-! ### The store -/

/-- The whole task a thread is about to save: a snapshot it received, or the
record of a failure. -/
def Thread.pendingSnapshot : Thread → Option Task
  | .request r =>
    match r.pc with
    | .collecting _ _ (.persisting (.task t)) => some t
    | _ => none
  | .execution x =>
    match x.pc with
    | .failing t => some t
    | _ => none
  | .registration _ => none

/-- The record with a new status a thread is about to save. -/
def Thread.pendingUpdate : Thread → Option Task
  | .request r =>
    match r.pc with
    | .collecting _ _ (.updating _ t) => some t
    | _ => none
  | _ => none

/-- The task a thread is about to save. -/
def Thread.pendingSave (t : Thread) : Option Task := t.pendingSnapshot.or t.pendingUpdate

theorem Thread.pendingSave_cases {t : Thread} {task : Task} (h : t.pendingSave = some task) :
    t.pendingSnapshot = some task ∨ t.pendingUpdate = some task := by
  rcases Option.or_eq_some_iff.mp h with h | ⟨-, h⟩
  · exact Or.inl h
  · exact Or.inr h

/-- The record of every task is what it was. -/
def SameStore (h h' : DefaultRequestHandler) : Prop :=
  ∀ k, h'.getTaskInternal k = h.getTaskInternal k

/-- The record of `t` is `t`, and the others are what they were. -/
def Stores (h h' : DefaultRequestHandler) (t : Task) : Prop :=
  ∀ k, h'.getTaskInternal k = if k = t.id then some t else h.getTaskInternal k

theorem Request.Step.store {r r' : Request} (hs : r.Step h threads i h' r' new) :
    SameStore h h' ∨ ∃ t, (Thread.request r).pendingSave = some t ∧ Stores h h' t := by
  cases hs with
  | persist removes c t hpc =>
    exact Or.inr ⟨t, by simp [Thread.pendingSave, Thread.pendingSnapshot, hpc],
      h.getTaskInternal_storeTask t⟩
  | update removes c e t hpc =>
    have hsave : (Thread.request r).pendingSave = some t := by
      simp [Thread.pendingSave, Thread.pendingSnapshot, Thread.pendingUpdate, hpc]
    exact Or.inr ⟨t, hsave, h.getTaskInternal_storeTask t⟩
  | configure => exact Or.inl fun k => by simp
  | abort => exact Or.inl fun k => by simp
  | _ => exact Or.inl fun k => rfl

theorem Execution.Step.store {x x' : Execution} {m : Move} (hs : x.Step h i m h' x') :
    SameStore h h' ∨ ∃ t tick, (Thread.execution x).pendingSave = some t ∧ m = .tick tick ∧
      Stores h h' t := by
  cases hs with
  | save task tick hpc =>
    exact Or.inr ⟨task, tick, by simp [Thread.pendingSave, Thread.pendingSnapshot, hpc], rfl,
      h.getTaskInternal_storeTask task⟩
  | _ => exact Or.inl fun k => rfl

/-- **Only a thread with a save in hand writes the store.** -/
theorem store_step {m : Move} {t t' : Thread}
    (ha : server.advance h threads i m t = some (h', t', new)) :
    SameStore h h' ∨ ∃ task tick, t.pendingSave = some task ∧ m = .tick tick ∧
      Stores h h' task := by
  rcases cases_of_step ha with ⟨r, r', rfl, rfl, hs, hm⟩ | ⟨x, x', rfl, rfl, rfl, hs⟩ |
    ⟨g, rfl, -, rfl, rfl, rfl⟩
  · rcases hm with ⟨tick, rfl⟩ | ⟨rfl, -⟩
    · rcases hs.store with hsame | ⟨task, hsave, hst⟩
      · exact Or.inl hsame
      · exact Or.inr ⟨task, tick, hsave, rfl, hst⟩
    · exact Or.inl fun k => rfl
  · exact hs.store
  · exact Or.inl fun k => rfl

/-! ### The queues -/

/-- The two ways a request changes the queue map. -/
theorem Request.Step.queueManager {r r' : Request} (hs : r.Step h threads i h' r' new) :
    h'.queueManager = h.queueManager ∨
      (∃ key ctx q, r.pc = .queueing key ctx ∧ r' = r.goto (.queued key ctx q) ∧
        h.queueManager.getOrCreateQueue key = some (q, h'.queueManager)) ∨
      ∃ removes c resp, r.pc = .returning removes c resp ∧
        h'.queueManager = h.queueManager.removeQueue removes := by
  cases hs with
  | queue key ctx q m hpc hq => exact Or.inr (Or.inl ⟨key, ctx, q, hpc, rfl, hq⟩)
  | finish removes c resp hpc => exact Or.inr (Or.inr ⟨removes, c, resp, hpc, rfl⟩)
  | configure => exact Or.inl (by simp)
  | abort => exact Or.inl (by simp)
  | _ => exact Or.inl rfl

/-- A request sends nothing. -/
theorem Request.Step.log {r r' : Request} (hs : r.Step h threads i h' r' new) (q : ℕ) :
    h'.queueManager.log q = h.queueManager.log q := by
  rcases hs.queueManager with he | ⟨key, ctx, p, -, -, hq⟩ | ⟨removes, c, resp, -, he⟩
  · rw [he]
  · exact QueueManager.log_of_getOrCreateQueue hq q
  · rw [he, QueueManager.log_removeQueue]

/-- The event an execution sends when it makes the move `m`. -/
def Execution.sends (x : Execution) : Move → Option Event
  | .emit e => some e
  | .tick _ =>
    match x.pc with
    | .echoing task => some (.task task)
    | _ => none
  | _ => none

/-- An execution sends to its own queue, if it sends. -/
theorem Execution.Step.queueManager {x x' : Execution} {m : Move} (hs : x.Step h i m h' x') :
    h'.queueManager =
      match x.sends m with
      | some e => h.queueManager.send x.queue ⟨i, e⟩
      | none => h.queueManager := by
  cases hs with
  | echo task tick hpc => simp [Execution.sends, hpc]
  | save task tick hpc => simp [Execution.sends, hpc]
  | _ => rfl

/-- A log after a step of an execution. -/
theorem Execution.Step.log {x x' : Execution} {m : Move} (hs : x.Step h i m h' x') (q : ℕ) :
    h'.queueManager.log q = h.queueManager.log q ∨
      ∃ e, x.sends m = some e ∧ x.queue = q ∧
        h'.queueManager.log q = h.queueManager.log q ++ [⟨i, e⟩] := by
  have he := hs.queueManager
  cases hx : x.sends m with
  | none =>
    rw [hx] at he
    exact Or.inl (by rw [he])
  | some e =>
    rw [hx] at he
    rw [he]
    rcases QueueManager.log_send_cases x.queue ⟨i, e⟩ q with hlog | ⟨hq, hlog⟩
    · exact Or.inl hlog
    · exact Or.inr ⟨e, rfl, hq, hlog⟩

/-- **A log only grows.** -/
theorem log_step {m : Move} {t t' : Thread}
    (ha : server.advance h threads i m t = some (h', t', new)) (q : ℕ) :
    ∃ later, h'.queueManager.log q = h.queueManager.log q ++ later := by
  rcases cases_of_step ha with ⟨r, r', rfl, rfl, hs, -⟩ | ⟨x, x', rfl, rfl, rfl, hs⟩ |
    ⟨g, rfl, -, rfl, rfl, rfl⟩
  · exact ⟨[], by rw [hs.log, List.append_nil]⟩
  · rcases hs.log q with hlog | ⟨e, -, -, hlog⟩
    · exact ⟨[], by rw [hlog, List.append_nil]⟩
    · exact ⟨_, hlog⟩
  · exact ⟨[], (List.append_nil _).symm⟩

/-! ### Threads -/

/-- An execution keeps all it was made with. -/
structure Execution.Same (x x' : Execution) : Prop where
  job : x'.job = x.job
  ctx : x'.ctx = x.ctx
  key : x'.key = x.key
  queue : x'.queue = x.queue
  owner : x'.owner = x.owner

theorem Execution.Same.trans {x y z : Execution} (h₁ : x.Same y) (h₂ : y.Same z) : x.Same z :=
  ⟨h₂.job.trans h₁.job, h₂.ctx.trans h₁.ctx, h₂.key.trans h₁.key, h₂.queue.trans h₁.queue,
    h₂.owner.trans h₁.owner⟩

theorem Execution.Step.same {x x' : Execution} {m : Move} (hs : x.Step h i m h' x') :
    x.Same x' := by
  cases hs <;> exact ⟨rfl, rfl, rfl, rfl, rfl⟩

/-- An execution that has not finished had not finished before. -/
theorem Execution.Step.unfinished {x x' : Execution} {m : Move} (hs : x.Step h i m h' x') :
    x.pc.isFinished = false := by
  cases hs
  case abort hmem hpc => rcases hpc with hpc | ⟨task, hpc⟩ <;> rw [hpc] <;> rfl
  all_goals
    rename_i hpc
    rw [hpc]
    rfl

theorem Request.Step.call {r r' : Request} (hs : r.Step h threads i h' r' new) :
    r'.call = r.call := by
  cases hs <;> rfl

/-- **What a request spawns** is an execution that runs on the queue it has got,
and a registration. -/
theorem Request.Step.spawned {r r' : Request} (hs : r.Step h threads i h' r' new) {u : Thread}
    (hu : u ∈ new) :
    (∃ x, u = .execution x ∧ x.pc = .running ∧ r.pc = .queued x.key x.ctx x.queue) ∨
      ∃ g, u = .registration g := by
  cases hs with
  | spawnSend params key ctx q pos hpc | spawnStream params key ctx q hpc =>
    rcases List.mem_pair.mp hu with rfl | rfl
    · exact Or.inl ⟨_, rfl, rfl, hpc⟩
    · exact Or.inr ⟨_, rfl⟩
  | spawnCancel params key ctx q pos hpc =>
    obtain rfl := List.mem_singleton.mp hu
    exact Or.inl ⟨_, rfl, rfl, hpc⟩
  | _ => cases hu

/-- Only a request spawns. -/
theorem spawned_step {m : Move} {t t' u : Thread}
    (ha : server.advance h threads i m t = some (h', t', new)) (hu : u ∈ new) :
    (∃ r x, t = .request r ∧ u = .execution x ∧ x.pc = .running ∧
        r.pc = .queued x.key x.ctx x.queue) ∨ ∃ g, u = .registration g := by
  rcases cases_of_step ha with ⟨r, r', rfl, rfl, hs, -⟩ | ⟨x, x', rfl, rfl, rfl, hs⟩ |
    ⟨g, rfl, -, rfl, rfl, rfl⟩
  · rcases hs.spawned hu with ⟨x, rfl, hrun, hpc⟩ | hg
    · exact Or.inl ⟨r, x, rfl, rfl, hrun, hpc⟩
    · exact Or.inr hg
  · cases hu
  · cases hu

/-- An execution stays where it is when some thread moves. -/
theorem execution_step {m : Move} {t t' : Thread} {j : ℕ} {x : Execution}
    (ht : threads[i]? = some t) (ha : server.advance h threads i m t = some (h', t', new))
    (hx : threads[j]? = some (.execution x)) :
    ∃ x', (threads.set i t' ++ new)[j]? = some (.execution x') ∧ x.Same x' := by
  by_cases hji : j = i
  · subst hji
    rw [ht] at hx
    cases hx
    rcases cases_of_step ha with ⟨r, r', he, -, -⟩ | ⟨y, y', he, rfl, rfl, hs⟩ | ⟨g, he, -⟩
    · cases he
    · cases he
      exact ⟨y', Machine.getElem?_self ht, hs.same⟩
    · cases he
  · exact ⟨x, Machine.getElem?_of_ne hx hji, ⟨rfl, rfl, rfl, rfl, rfl⟩⟩

/-- The key of a queue stays. -/
theorem key_step {m : Move} {t t' : Thread}
    (ha : server.advance h threads i m t = some (h', t', new)) {q : ℕ} {k : String}
    (hk : h.queueManager.key q = some k) : h'.queueManager.key q = some k := by
  rcases cases_of_step ha with ⟨r, r', rfl, rfl, hs, -⟩ | ⟨x, x', rfl, rfl, rfl, hs⟩ |
    ⟨g, rfl, -, rfl, rfl, rfl⟩
  · rcases hs.queueManager with he | ⟨key, ctx, p, -, -, hq⟩ | ⟨removes, c, resp, -, he⟩
    · rw [he, hk]
    · exact QueueManager.key_of_getOrCreateQueue hq hk
    · rw [he, QueueManager.key_removeQueue, hk]
  · rw [hs.queueManager]
    split
    · rw [QueueManager.key_send, hk]
    · exact hk
  · exact hk

/-! ### Runs -/

/-- What of one state is still there in a later one: the logs and the keys of
the queues, and the executions. -/
structure Extends (c c' : ServerConfig) : Prop where
  log : ∀ q, ∃ later, c'.shared.queueManager.log q = c.shared.queueManager.log q ++ later
  key : ∀ q k, c.shared.queueManager.key q = some k → c'.shared.queueManager.key q = some k
  execution : ∀ (j : ℕ) (x : Execution), c.threads[j]? = some (.execution x) →
    ∃ x', c'.threads[j]? = some (.execution x') ∧ x.Same x'

theorem Extends.refl (c : ServerConfig) : Extends c c :=
  ⟨fun _ => ⟨[], (List.append_nil _).symm⟩, fun _ _ h => h,
    fun _ x h => ⟨x, h, ⟨rfl, rfl, rfl, rfl, rfl⟩⟩⟩

theorem Extends.trans {c c' c'' : ServerConfig} (h₁ : Extends c c') (h₂ : Extends c' c'') :
    Extends c c'' where
  log q := by
    obtain ⟨l₁, hl₁⟩ := h₁.log q
    obtain ⟨l₂, hl₂⟩ := h₂.log q
    exact ⟨l₁ ++ l₂, by rw [hl₂, hl₁, List.append_assoc]⟩
  key q k hk := h₂.key q k (h₁.key q k hk)
  execution j x hx := by
    obtain ⟨x', hx', hs⟩ := h₁.execution j x hx
    obtain ⟨x'', hx'', hs'⟩ := h₂.execution j x' hx'
    exact ⟨x'', hx'', hs.trans hs'⟩

theorem Extends.length_le {c c' : ServerConfig} (h : Extends c c') (q : ℕ) :
    (c.shared.queueManager.log q).length ≤ (c'.shared.queueManager.log q).length := by
  obtain ⟨later, hl⟩ := h.log q
  rw [hl, List.length_append]
  omega

/-- What is in a log stays where it is. -/
theorem Extends.getElem?_log {c c' : ServerConfig} (h : Extends c c') {q p : ℕ} {s : Sent}
    (hs : (c.shared.queueManager.log q)[p]? = some s) :
    (c'.shared.queueManager.log q)[p]? = some s := by
  obtain ⟨later, hl⟩ := h.log q
  rw [hl]
  exact Places.getElem?_append_of_some hs

/-- What came after position `pos` of a log still does. -/
theorem Extends.mem_drop {c c' : ServerConfig} (h : Extends c c') {q pos : ℕ} {s : Sent}
    (hs : s ∈ (c.shared.queueManager.log q).drop pos) :
    s ∈ (c'.shared.queueManager.log q).drop pos := by
  obtain ⟨later, hl⟩ := h.log q
  rw [hl, List.drop_append]
  exact List.mem_append_left _ hs

theorem extends_advance {c : ServerConfig} {m : Move} {t t' : Thread} (ht : c.threads[i]? = some t)
    (ha : server.advance c.shared c.threads i m t = some (h', t', new)) :
    Extends c ⟨h', c.threads.set i t' ++ new⟩ where
  log := log_step ha
  key _ _ hk := key_step ha hk
  execution _ _ hx := execution_step ht ha hx

theorem extends_arrive (c : ServerConfig) (t : Thread) :
    Extends c ⟨c.shared, c.threads ++ [t]⟩ where
  log _ := ⟨[], (List.append_nil _).symm⟩
  key _ _ hk := hk
  execution _ x hx :=
    ⟨x, by rw [List.getElem?_append_left (List.getElem?_eq_some_iff.mp hx).1, hx],
      ⟨rfl, rfl, rfl, rfl, rfl⟩⟩

/-- **A run only adds.** -/
theorem extends_reach {ok : ServerConfig → Label Thread Move → Prop} {c c' : ServerConfig}
    (h : server.Reach ok c c') : Extends c c' := by
  induction h with
  | refl => exact Extends.refl c
  | tail _ _ hs ih =>
    rcases Machine.step_cases hs with ⟨t, rfl, -, rfl⟩ | ⟨i, m, t, s', t', new, rfl, ht, ha, rfl⟩
    · exact ih.trans (extends_arrive _ t)
    · exact ih.trans (extends_advance ht ha)

/-! ### Requests -/

/-- What a thread starts is no request. -/
theorem not_request_new {m : Move} {t t' : Thread}
    (ha : server.advance h threads i m t = some (h', t', new)) {r : Request} :
    Thread.request r ∉ new := by
  intro hmem
  rcases spawned_step ha hmem with ⟨r', x, -, he, -⟩ | ⟨g, he⟩
  · cases he
  · cases he

/-- The assertion `A` holds of every request. -/
def EachRequest (A : ServerConfig → ℕ → Request → Prop) (c : ServerConfig) : Prop :=
  ∀ (j : ℕ) (r : Request), c.threads[j]? = some (.request r) → A c j r

/-- **An assertion about each request holds along a run** if a call that arrives
has it, a request that takes a step has it again, and the others keep theirs. -/
theorem requests_reach {A : ServerConfig → ℕ → Request → Prop}
    {ok : ServerConfig → Label Thread Move → Prop} {c₀ c : ServerConfig} (h₀ : Initial c₀)
    (hfresh : ∀ c j r, r.pc = .received → r.received = [] → A c j r)
    (harrive : ∀ c t j r, ok c (.arrive t) → t.isFresh = true →
      c.threads[j]? = some (.request r) → A c j r → A ⟨c.shared, c.threads ++ [t]⟩ j r)
    (hown : ∀ c i m r h' r' new, ok c (.run i m) → c.threads[i]? = some (.request r) →
      server.advance c.shared c.threads i m (.request r) = some (h', .request r', new) →
      r.Step c.shared c.threads i h' r' new →
      ((∃ tick, m = .tick tick) ∨ h' = c.shared ∧ r' = r.goto .dropped) → A c i r →
      A ⟨h', c.threads.set i (.request r') ++ new⟩ i r')
    (hother : ∀ c i m t h' t' new j r, ok c (.run i m) → c.threads[i]? = some t →
      server.advance c.shared c.threads i m t = some (h', t', new) →
      c.threads[j]? = some (.request r) → A c j r → A ⟨h', c.threads.set i t' ++ new⟩ j r)
    (h : server.Reach ok c₀ c) : EachRequest A c := by
  refine h.invariant (fun j r hj => absurd hj (by simp [h₀.threads])) fun c l c' hA hok hs => ?_
  rcases Machine.step_cases hs with ⟨t, rfl, hf, rfl⟩ | ⟨i, m, t, h', t', new, rfl, ht, ha, rfl⟩
  · intro j r hj
    rcases Places.getElem?_concat_cases hj with hj | ⟨-, rfl⟩
    · exact harrive c t j r hok hf hj (hA j r hj)
    · obtain ⟨r', he, hpc, hrec⟩ := Thread.of_isFresh hf
      cases he
      exact hfresh _ j r hpc hrec
  · intro j r' hj
    rcases Machine.getElem?_moved hj with ⟨rfl, rfl⟩ | ⟨-, hj⟩ | ⟨-, hj⟩
    · rcases cases_of_step ha with ⟨r, r₁, rfl, he, hs, hm⟩ | ⟨x, x', -, he, -⟩ | ⟨g, -, -, he, -⟩
      · cases he
        exact hown c j m r h' r' new hok ht ha hs hm (hA j r ht)
      · cases he
      · cases he
    · exact hother c i m t h' t' new j r' hok ht ha hj (hA j r' hj)
    · exact absurd (List.mem_of_getElem? hj) (not_request_new ha)

end Ra2a
