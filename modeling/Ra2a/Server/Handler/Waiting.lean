import Ra2a.Server.Handler.Listening

/-!
# A collector whose execution has ended

`collect_result` has a case for a channel that closes, and a channel closes once
its last sender is gone.  But the request that collects keeps the queue, so this
case is never reached.  A blocking request goes on only because of an event that
stops it, and an execution that ends without one leaves it waiting for ever.

Along a run in which no execution of a blocking request ends without such an
event, nobody is left waiting (`not_stuck_reach`).  An execution that returns an
error meets this by itself: the handler sends the failed task for it.
-/

namespace Ra2a

open Broadcast Interleave

/-- The calls that wait for the end of their execution. -/
def Call.blocks : Call → Bool
  | .messageSend params => !params.isNonBlocking
  | .cancelTask _ => true
  | _ => false

theorem Call.isNonBlocking_of_blocks {call : Call} (h : call.blocks = true) :
    call.isNonBlocking = false := by
  cases call <;> simp_all [Call.blocks, Call.isNonBlocking]

/-- Blocking request `i` waits for another event, though its execution has
finished and it has received every event that execution sent. -/
def Stuck (c : ServerConfig) (i : ℕ) : Prop :=
  ∃ (r : Request) (removes : TaskId) (col : Collector) (x : Execution),
    c.threads[i]? = some (.request r) ∧ r.call.blocks = true ∧
      r.pc = .collecting removes col .receiving ∧
      c.threads[col.own]? = some (.execution x) ∧ x.pc.isFinished = true ∧
      ∀ s ∈ c.shared.queueManager.log col.queue, s.sender = col.own → s ∈ r.received

/-! ### The condition -/

/-- The moves that end an execution and send nothing. -/
def Move.ends : Move → Bool
  | .succeed => true
  | .panic => true
  | .abort => true
  | _ => false

/-- Request `r`, which collects with `col`, has received an event that stops it,
or its own execution has sent one. -/
def Answered (c : ServerConfig) (r : Request) (col : Collector) : Prop :=
  (∃ s ∈ c.shared.queueManager.log col.queue, s.sender = col.own ∧
      stopsAt false s.event = true) ∨
    ∃ s ∈ r.received, stopsAt false s.event = true

/-- An execution of a blocking request that collects returns, panics or is
aborted only after it has sent an event that stops its request, or its request
has received one. -/
def EndsAnswered (c : ServerConfig) : Label Thread Move → Prop
  | .run j m =>
    m.ends = true → ∀ (i : ℕ) (r : Request) (removes : TaskId) (col : Collector) (phase : Phase),
      c.threads[i]? = some (.request r) → r.call.blocks = true →
      r.pc = .collecting removes col phase → col.own = j → Answered c r col
  | _ => True

/-! ### The invariant -/

/-- A blocking request whose execution has finished is answered, or will be. -/
def AnsweredThread (c : ServerConfig) (_ : ℕ) : Thread → Prop
  | .request r =>
    ∀ removes col phase x, r.call.blocks = true → r.pc = .collecting removes col phase →
      c.threads[col.own]? = some (.execution x) → x.pc.isFinished = true → Answered c r col
  | _ => True

theorem Answered.extend {c c' : ServerConfig} {r r' : Request} {col col' : Collector}
    (he : Extends c c') (hq : col'.queue = col.queue) (ho : col'.own = col.own)
    (hr : r.received ⊆ r'.received) (ha : Answered c r col) : Answered c' r' col' := by
  rcases ha with ⟨s, hs, hsender, hstop⟩ | ⟨s, hs, hstop⟩
  · left
    obtain ⟨later, hl⟩ := he.log col.queue
    exact ⟨s, by rw [hq, hl]; exact List.mem_append_left _ hs, by rw [ho, hsender], hstop⟩
  · exact Or.inr ⟨s, hr hs, hstop⟩

/-- The record of a failure stops every collector. -/
theorem stopsAt_failedTask (nb : Bool) (id contextId : String) (error : A2AError) (tick : Tick) :
    stopsAt nb (.task (failedTask id contextId error tick)) = true := by
  simp [stopsAt, Event.isTerminal, Task.isTerminal, failedTask, TaskStatus.failed,
    TaskStatus.withMessage, TaskState.isTerminal]

section

variable {c : ServerConfig} {h' : DefaultRequestHandler} {new : List Thread} {i : ℕ} {m : Move}

/-- A request after the step that finishes its own execution. -/
theorem answered_finish {j : ℕ} {r : Request} {removes : TaskId} {col : Collector} {phase : Phase}
    {x x' : Execution} (hlinked : Machine.Reach.Each LinkedThread c)
    (hheard : Machine.Reach.Each HeardThread c) (hok : EndsAnswered c (.run i m))
    (hx : c.threads[i]? = some (.execution x)) (hs : x.Step c.shared i m h' x')
    (he : Extends c ⟨h', c.threads.set i (.execution x') ++ []⟩)
    (hr : c.threads[j]? = some (.request r)) (hblocks : r.call.blocks = true)
    (hpc : r.pc = .collecting removes col phase) (hown : col.own = i)
    (hfin : x'.pc.isFinished = true) :
    Answered ⟨h', c.threads.set i (.execution x') ++ []⟩ r col := by
  have hends : m.ends = true → Answered ⟨h', c.threads.set i (.execution x') ++ []⟩ r col :=
    fun hm => (hok hm j r removes col phase hr hblocks hpc hown).extend he rfl rfl
      (List.Subset.refl _)
  cases hs with
  | succeed | panic | abort => exact hends rfl
  | emit e hpcx => rw [hpcx] at hfin; cases hfin
  | fail e tick | save task tick => cases hfin
  | echo task tick hpcx =>
    -- the failed task goes to the queue the request follows
    have hfollows : Follows c j r col := (hlinked j _ hr).2 col (by rw [hpc]; rfl)
    obtain ⟨own, hget, -, hq⟩ := hfollows.own
    rw [hown, hx] at hget
    cases hget
    have hkey : c.shared.queueManager.key x.queue = some x.key := hlinked i _ hx
    obtain ⟨error, tick', rfl⟩ := (hheard i _ hx : x.Records) task (Or.inr hpcx)
    refine Or.inl ⟨⟨i, .task (failedTask (x.job.taskId x.ctx) x.ctx.contextId error tick')⟩, ?_,
      hown.symm, stopsAt_failedTask _ _ _ _ _⟩
    change _ ∈ (c.shared.queueManager.send x.queue _).log col.queue
    rw [← hq, QueueManager.log_send _ _ (QueueManager.lt_of_key hkey), if_pos rfl]
    exact List.mem_append_right _ (List.mem_singleton_self _)

/-- A request after its own step. -/
theorem answered_request {r r' : Request} (hlinked : Machine.Reach.Each LinkedThread c)
    (hA : AnsweredThread c i (.request r)) (hi : c.threads[i]? = some (.request r))
    (hs : r.Step c.shared c.threads i h' r' new)
    (he : Extends c ⟨h', c.threads.set i (.request r') ++ new⟩) :
    AnsweredThread ⟨h', c.threads.set i (.request r') ++ new⟩ i (.request r') := by
  intro removes col' phase x hblocks hpc hx hfin
  rw [hs.call] at hblocks
  rcases hs.collecting hpc with ⟨removes₀, col, phase₀, hpc₀, hown, hqueue, hsub⟩ |
    ⟨x₀, rest, rfl, hown, hrunning⟩
  · have hfollows : Follows c i r col := (hlinked i _ hi).2 col (by rw [hpc₀]; rfl)
    obtain ⟨x₀, hx₀, -, -⟩ := hfollows.own
    have hne : col.own ≠ i := by
      intro h
      rw [h, hi] at hx₀
      cases hx₀
    -- its execution has not moved
    have hsame : (c.threads.set i (.request r') ++ new)[col.own]? = some (.execution x₀) :=
      Machine.getElem?_of_ne hx₀ hne
    rw [hown, hsame] at hx
    cases hx
    exact (hA removes₀ col phase₀ x hblocks hpc₀ hx₀ hfin).extend he hqueue hown hsub
  · -- its execution has just been spawned
    rw [hown, List.getElem?_append_right (by simp)] at hx
    simp only [List.length_set, Nat.sub_self, List.getElem?_cons_zero, Option.some.injEq,
      Thread.execution.injEq] at hx
    rw [← hx, hrunning] at hfin
    cases hfin

/-- A request after the step of another thread. -/
theorem answered_other {j : ℕ} {t t' : Thread} {r : Request}
    (hlinked : Machine.Reach.Each LinkedThread c) (hheard : Machine.Reach.Each HeardThread c)
    (hA : AnsweredThread c j (.request r)) (hok : EndsAnswered c (.run i m))
    (ht : c.threads[i]? = some t)
    (ha : server.advance c.shared c.threads i m t = some (h', t', new))
    (hj : c.threads[j]? = some (.request r)) :
    AnsweredThread ⟨h', c.threads.set i t' ++ new⟩ j (.request r) := by
  intro removes col phase x hblocks hpc hx hfin
  have he := extends_advance ht ha
  have hfollows : Follows c j r col := (hlinked j _ hj).2 col (by rw [hpc]; rfl)
  obtain ⟨x₀, hx₀, -, -⟩ := hfollows.own
  by_cases hown : col.own = i
  · -- its own execution moves
    rw [hown, ht] at hx₀
    cases hx₀
    rcases cases_of_step ha with ⟨r₁, r₁', h₁, -, -⟩ | ⟨y, y', h₁, rfl, rfl, hs⟩ | ⟨g, h₁, -⟩
    · cases h₁
    · cases h₁
      have hself : (c.threads.set i (Thread.execution y') ++ [])[i]? = some (.execution y') :=
        Machine.getElem?_self ht
      rw [hown, hself] at hx
      cases hx
      exact answered_finish hlinked hheard hok ht hs he hj hblocks hpc hown hfin
    · cases h₁
  · rw [Machine.getElem?_of_ne hx₀ hown] at hx
    cases hx
    exact (hA removes col phase x hblocks hpc hx₀ hfin).extend he rfl rfl (List.Subset.refl _)

/-- A request when a new one arrives. -/
theorem answered_arrive {j : ℕ} {t : Thread} {r : Request}
    (hlinked : Machine.Reach.Each LinkedThread c) (hA : AnsweredThread c j (.request r))
    (hj : c.threads[j]? = some (.request r)) :
    AnsweredThread ⟨c.shared, c.threads ++ [t]⟩ j (.request r) := by
  intro removes col phase x hblocks hpc hx hfin
  have hfollows : Follows c j r col := (hlinked j _ hj).2 col (by rw [hpc]; rfl)
  obtain ⟨x₀, hx₀, -, -⟩ := hfollows.own
  rw [List.getElem?_append_left (List.getElem?_eq_some_iff.mp hx₀).1, hx₀] at hx
  cases hx
  exact (hA removes col phase x hblocks hpc hx₀ hfin).extend (extends_arrive c t) rfl rfl
    (List.Subset.refl _)

end

/-- **Whoever's execution has finished is answered, or will be.** -/
theorem answered_reach {c₀ c : ServerConfig} (h₀ : Initial c₀)
    (h : server.Reach EndsAnswered c₀ c) : Machine.Reach.Each AnsweredThread c := by
  have hrequests : EachRequest (fun c j r => AnsweredThread c j (.request r)) c := by
    refine requests_reach h₀ ?_ ?_ ?_ ?_
      (h.assuming fun _ hr => And.intro (linked_reach h₀ hr) (heard_reach h₀ hr))
    · intro c j r hpc hrec removes col phase x hblocks hpc'
      rw [hpc] at hpc'
      cases hpc'
    · intro c t j r hok hf hj hA
      exact answered_arrive hok.1.1 hA hj
    · intro c i m r h' r' new hok hi ha hs hm hA
      exact answered_request hok.1.1 hA hi hs (extends_advance hi ha)
    · intro c i m t h' t' new j r hok ht ha hj hA
      exact answered_other hok.1.1 hok.1.2 hA hok.2 ht ha hj
  intro j t hj
  cases t with
  | request r => exact hrequests j r hj
  | execution x => exact trivial
  | registration g => exact trivial

/-- **Nobody is left waiting.** -/
theorem not_stuck_reach {c₀ c : ServerConfig} (h₀ : Initial c₀)
    (h : server.Reach EndsAnswered c₀ c) (i : ℕ) : ¬ Stuck c i := by
  rintro ⟨r, removes, col, x, hi, hblocks, hpc, hx, hfin, hreceived⟩
  have hheard : r.Heard := heard_reach h₀ h i _ hi
  rw [Request.Heard, hpc] at hheard
  have hno : ∀ s ∈ r.received, stopsAt false s.event = false := by
    intro s hs
    have hstop := hheard s hs
    rwa [Call.isNonBlocking_of_blocks hblocks] at hstop
  rcases answered_reach h₀ h i _ hi removes col .receiving x hblocks hpc hx hfin with
    ⟨s, hs, hsender, hstop⟩ | ⟨s, hs, hstop⟩
  · rw [hno s (hreceived s hs hsender)] at hstop
    cases hstop
  · rw [hno s hs] at hstop
    cases hstop

/-! ### An execution that ends without a word -/

/-- A blocking send arrives and spawns its execution. -/
def blockingSpawn : List (Label Thread Move) :=
  .arrive (sendTo "m1" false) :: List.replicate 5 (.run 0 (.tick ⟨"12:00", "u1", "u2", "v1"⟩))

/-- The state in which the execution has then returned and sent nothing. -/
def silentConfig : ServerConfig :=
  (server.exec ⟨.new, []⟩ (blockingSpawn ++ [.run 1 .succeed])).getD ⟨.new, []⟩

/-- The send is left waiting, and at no time can it take another step. -/
theorem silentConfig_stuck :
    Initial ⟨.new, []⟩ ∧ server.Reach Machine.Always ⟨.new, []⟩ silentConfig ∧
      Stuck silentConfig 0 ∧ ∀ tick, server.step silentConfig (.run 0 (.tick tick)) = none := by
  have hreach : server.Reach Machine.Always ⟨.new, []⟩ silentConfig :=
    .of_exec (show server.exec ⟨.new, []⟩ (blockingSpawn ++ [.run 1 .succeed]) = some silentConfig
      from rfl)
  have hlog : silentConfig.shared.queueManager.log 0 = [] := by decide
  refine ⟨initial_new, hreach, ⟨_, _, _, _, rfl, rfl, rfl, rfl, rfl, ?_⟩, fun tick => rfl⟩
  intro s hs
  change s ∈ silentConfig.shared.queueManager.log 0 at hs
  rw [hlog] at hs
  cases hs

/-- The event that completes the task. -/
def completedEvent : Event := .task ⟨"t1", "c1", ⟨.completed, none, none⟩, [], [], none⟩

/-- The execution completes the task and then returns. -/
def completing : List (Label Thread Move) :=
  blockingSpawn ++
    [.run 1 (.emit completedEvent), .run 1 .succeed]

def completedConfig : ServerConfig := (server.exec ⟨.new, []⟩ completing).getD ⟨.new, []⟩

theorem completing_endsAnswered : server.Along EndsAnswered ⟨.new, []⟩ completing := by
  refine ⟨trivial, nofun, nofun, nofun, nofun, nofun, nofun, ?_, trivial⟩
  intro _ i r removes col phase hi hblocks hpc hown
  rcases i with _ | _ | _ | i <;> cases hi
  cases hpc
  exact Or.inl ⟨⟨1, completedEvent⟩, List.mem_singleton_self _, rfl, rfl⟩

theorem not_stuck_reach_completing : ¬ Stuck completedConfig 0 :=
  not_stuck_reach initial_new (.of_along completing_endsAnswered rfl) 0

end Ra2a
