import Ra2a.Server.Handler.Listening

/-!
# Whose event answers a request

A task has one queue, and every request on the task listens to it.  A collector
looks at an event and not at who sent it, so the request that answers on an event
need not be the one whose execution sent it.  What is certain is where the event
comes from: from the queue the request subscribed to, after it did, and from an
execution spawned for the same task.  It is the request's own execution when no
other has sent anything there since (`answer_origin`).
-/

namespace Ra2a

open Broadcast Interleave

/-- Every answer was made on an event of the request's own execution. -/
def OwnAnswers (c : ServerConfig) : Prop :=
  ∀ (i : ℕ) (r : Request) col result s, c.threads[i]? = some (.request r) →
    r.pc = .done (.answered col result) → r.received.getLast? = some s → s.sender = col.own

/-- What is certain about the answer `result` of request `i`: it is what
`process_event` makes of one event, sent to the request's queue after it
subscribed by an execution that was spawned for the same task as the request's
own, and by that one if no other has sent anything since. -/
structure Originates (c : ServerConfig) (i : ℕ) (r : Request) (col : Collector)
    (result : Except A2AError SendMessageResponse) (s : Sent) (x own : Execution) : Prop where
  stopped : r.StoppedBy s
  answer : ∃ resp, r.AnswersOn s resp ∧ result = r.call.finish resp
  since : s ∈ (c.shared.queueManager.log col.queue).drop col.since
  sender : c.threads[s.sender]? = some (.execution x)
  spawned : c.threads[col.own]? = some (.execution own) ∧ own.owner = i
  queue : x.queue = col.queue ∧ own.queue = col.queue
  key : x.key = own.key
  alone : (∀ s' ∈ (c.shared.queueManager.log col.queue).drop col.since, s'.sender = col.own) →
    s.sender = col.own

/-- **Where the event behind an answer comes from.** -/
theorem answer_origin {c₀ c : ServerConfig} (h₀ : Initial c₀)
    (h : server.Reach Machine.Always c₀ c) {i : ℕ} {r : Request} {col : Collector}
    {result : Except A2AError SendMessageResponse} (hi : c.threads[i]? = some (.request r))
    (hpc : r.pc = .done (.answered col result)) :
    ∃ s x own, Originates c i r col result s x own := by
  have hheard : r.Heard := heard_reach h₀ h i _ hi
  rw [Request.Heard, hpc] at hheard
  obtain ⟨s, resp, hstop, hans, hres⟩ := hheard
  have hfollows : Follows c i r col := (linked_reach h₀ h i _ hi).2 col (by rw [hpc]; rfl)
  have hmem : s ∈ r.received := by
    obtain ⟨pre, hrec, -, -⟩ := hstop
    rw [hrec]
    exact List.mem_append_right _ (List.mem_singleton_self _)
  have hsince := hfollows.received s hmem
  obtain ⟨x, hx, hxq⟩ := logsSent_reach h₀ h col.queue s (List.mem_of_mem_drop hsince)
  obtain ⟨own, hown, howner, hoq⟩ := hfollows.own
  -- one queue, one key
  have hkey : x.key = own.key := by
    have hkx : c.shared.queueManager.key x.queue = some x.key := linked_reach h₀ h _ _ hx
    have hko : c.shared.queueManager.key own.queue = some own.key := linked_reach h₀ h _ _ hown
    rw [hxq] at hkx
    rw [hoq, hkx] at hko
    exact Option.some.inj hko
  exact ⟨s, x, own, hstop, ⟨resp, hans, hres⟩, hsince, hx, ⟨hown, howner⟩, ⟨hxq, hoq⟩, hkey,
    fun hall => hall s hsince⟩

/-! ### Two sends on one task -/

/-- Both arrive and spawn their executions; the first one's completes the task,
and the second request collects. -/
def crossed : List (Label Thread Move) :=
  .arrive (sendTo "m1" false) :: List.replicate 5 (.run 0 (.tick ⟨"12:00", "u1", "u2", "v1"⟩)) ++
    .arrive (sendTo "m2" false) :: List.replicate 5 (.run 3 (.tick ⟨"12:01", "u3", "u4", "v1"⟩)) ++
    .run 1 (.emit (.task ⟨"t1", "c1", ⟨.completed, none, none⟩, [], [], none⟩)) ::
    List.replicate 5 (.run 3 (.tick ⟨"12:02", "u5", "u6", "v1"⟩))

def crossedConfig : ServerConfig := (server.exec ⟨.new, []⟩ crossed).getD ⟨.new, []⟩

theorem crossedConfig_reach : server.Reach Machine.Always ⟨.new, []⟩ crossedConfig :=
  .of_exec (show server.exec ⟨.new, []⟩ crossed = some crossedConfig from rfl)

/-- The second request has spawned execution `4` and is answered on an event of
execution `1`. -/
theorem crossed_not_ownAnswers :
    Initial ⟨.new, []⟩ ∧ server.Reach Machine.Always ⟨.new, []⟩ crossedConfig ∧
      ¬ OwnAnswers crossedConfig := by
  refine ⟨initial_new, crossedConfig_reach, fun hown => ?_⟩
  have h := hown 3 _ _ _ _ rfl rfl rfl
  exact absurd h (by decide)

theorem answer_origin_crossed :
    ∃ r col result s x own, crossedConfig.threads[3]? = some (.request r) ∧
      Originates crossedConfig 3 r col result s x own := by
  obtain ⟨s, x, own, horigin⟩ := answer_origin initial_new crossedConfig_reach
    (show crossedConfig.threads[3]? = some (.request _) from rfl) rfl
  exact ⟨_, _, _, s, x, own, rfl, horigin⟩

end Ra2a
