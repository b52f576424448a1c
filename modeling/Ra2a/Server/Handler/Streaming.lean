import Ra2a.Server.Handler.Keeping

/-!
# The end of a stream

A stream that `on_message_stream` or `on_subscribe_to_task` hands out passes on
what its receiver gets.  It looks at no event: what comes after a terminal one is
passed on too, and the stream ends only when its channel is closed, which takes
that the queue manager, every call and every execution has let go of the queue.
`on_message_stream` itself never removes the queue.

A lag is an item of the stream, but no event of the task.

Streams end as they should along every run in which nothing is sent after a
terminal event that a stream has received or has before it, and in which the
queue is let go of by the time the task is at rest and the stream has its
terminal event (`streamsEnd_reach`).
-/

namespace Ra2a

open Broadcast Interleave

/-- The calls that hand out a stream. -/
def Call.streams : Call → Bool
  | .messageStream _ => true
  | .subscribeToTask _ => true
  | _ => false

def HasTerminal (sents : List Sent) : Prop := ∃ s ∈ sents, s.event.isTerminal = true

/-- Nothing comes after a terminal event. -/
def TerminalLast (sents : List Sent) : Prop :=
  sents.Pairwise fun s _ => s.event.isTerminal = false

/-- Stream `i` has delivered a terminal event and waits for more, though every
execution for its task has finished. -/
def Hangs (c : ServerConfig) (i : ℕ) : Prop :=
  ∃ (r : Request) (q pos : ℕ), c.threads[i]? = some (.request r) ∧ r.pc = .streaming q pos ∧
    HasTerminal r.received ∧ AtRest c q ∧ c.shared.recv c.threads q pos = none

/-- A terminal event is the last a stream delivers, and then the stream ends. -/
structure StreamsEnd (c : ServerConfig) : Prop where
  last : ∀ (i : ℕ) (r : Request), c.threads[i]? = some (.request r) → r.call.streams = true →
    TerminalLast r.received
  ended : ∀ i, ¬ Hangs c i

/-! ### The condition -/

/-- Thread `i` sends nothing to a queue while a stream has received, or has
before it, a terminal event from there. -/
def SendsBefore (c : ServerConfig) (i : ℕ) (m : Move) : Prop :=
  ∀ (x : Execution) (e : Event), c.threads[i]? = some (.execution x) → x.sends m = some e →
    ∀ (j : ℕ) (r : Request) (pos : ℕ), c.threads[j]? = some (.request r) →
      r.pc = .streaming x.queue pos →
      ¬ HasTerminal (r.received ++ (c.shared.queueManager.log x.queue).drop pos)

/-- The last execution of a task finishes only when nobody keeps the queue of a
stream that has received a terminal event. -/
def FinishesAfter (c : ServerConfig) (i : ℕ) (m : Move) : Prop :=
  ∀ (x : Execution), c.threads[i]? = some (.execution x) → x.finishes m = true →
    (∀ (j : ℕ) (y : Execution), j ≠ i → c.threads[j]? = some (.execution y) → y.key = x.key →
      y.pc.isFinished = true) →
    ∀ (j : ℕ) (r : Request) (q pos : ℕ), c.threads[j]? = some (.request r) →
      r.pc = .streaming q pos → c.shared.queueManager.key q = some x.key →
      HasTerminal r.received → ¬ Kept c q

/-- A stream receives a terminal event of a task at rest only when nobody keeps
its queue. -/
def ReceivesAfter (c : ServerConfig) (i : ℕ) (m : Move) : Prop :=
  ∀ (r : Request) (q pos pos' : ℕ) (s : Sent) (tick : Tick), m = .tick tick →
    c.threads[i]? = some (.request r) → r.pc = .streaming q pos →
    c.shared.recv c.threads q pos = some (.ok s, pos') → s.event.isTerminal = true →
    AtRest c q → ¬ Kept c q

def EndsStreams (c : ServerConfig) : Label Thread Move → Prop
  | .run i m => SendsBefore c i m ∧ FinishesAfter c i m ∧ ReceivesAfter c i m
  | _ => True

/-! ### The invariant -/

/-- What a request has still to read of its stream. -/
def Pc.ahead (h : DefaultRequestHandler) : Pc → List Sent
  | .streaming q pos => (h.queueManager.log q).drop pos
  | _ => []

/-- The queue of a subscription. -/
def Pc.subscribed? : Pc → Option ℕ
  | .located q => some q
  | .streaming q _ => some q
  | _ => none

structure Streams (c : ServerConfig) (r : Request) : Prop where
  called : r.pc.subscribed?.isSome = true → r.call.streams = true
  keyed : ∀ q, r.pc.subscribed? = some q → ∃ k, c.shared.queueManager.key q = some k
  collects : r.pc.collector?.isSome = true → r.call.streams = false
  last : r.call.streams = true → TerminalLast (r.received ++ r.pc.ahead c.shared)
  letGo : ∀ q pos, r.pc = .streaming q pos → HasTerminal r.received → AtRest c q → ¬ Kept c q

def StreamThread (c : ServerConfig) (_ : ℕ) : Thread → Prop
  | .request r => Streams c r
  | _ => True

theorem TerminalLast.sublist {xs ys : List Sent} (h : TerminalLast ys) (hs : xs.Sublist ys) :
    TerminalLast xs := List.Pairwise.sublist hs h

/-- Another event after none that is terminal. -/
theorem TerminalLast.concat {xs : List Sent} (h : ¬ HasTerminal xs) (a : Sent) :
    TerminalLast (xs ++ [a]) := by
  have hno : ∀ s ∈ xs, s.event.isTerminal = false :=
    fun s hs => Bool.eq_false_of_not_eq_true fun ht => h ⟨s, hs, ht⟩
  refine List.pairwise_append.mpr ⟨?_, List.pairwise_singleton _ _, fun s hs _ _ => hno s hs⟩
  exact List.pairwise_of_forall_mem_list fun s hs _ _ => hno s hs

section

variable {c : ServerConfig} {h' : DefaultRequestHandler} {new : List Thread} {i : ℕ} {m : Move}
  {t t' : Thread} {q : ℕ}

/-- A request that is no stream after its step. -/
theorem Streams.leave {r : Request} (hA : Streams c r) {c' : ServerConfig} {pc : Pc}
    (hsub : pc.subscribed? = none)
    (hcol : pc.collector?.isSome = true → r.call.streams = false) : Streams c' (r.goto pc) where
  called h := by
    rw [Request.goto_pc, hsub] at h
    cases h
  keyed q hq := by
    rw [Request.goto_pc, hsub] at hq
    cases hq
  collects := hcol
  last hcall := by
    have hahead : pc.ahead c'.shared = [] := by
      cases pc with
      | streaming q pos => cases hsub
      | _ => rfl
    rw [Request.goto_received, Request.goto_pc, hahead, List.append_nil]
    exact (hA.last hcall).sublist (List.sublist_append_left _ _)
  letGo q pos hpc := by
    rw [Request.goto_pc] at hpc
    rw [hpc] at hsub
    cases hsub

/-- A request that is a stream after its step. -/
theorem Streams.of_streaming {r : Request} {k : String} {pos : ℕ} (hpc : r.pc = .streaming q pos)
    (hcall : r.call.streams = true) (hk : c.shared.queueManager.key q = some k)
    (hlast : TerminalLast (r.received ++ (c.shared.queueManager.log q).drop pos))
    (hletGo : HasTerminal r.received → AtRest c q → ¬ Kept c q) : Streams c r where
  called _ := hcall
  keyed p hp := by
    rw [hpc] at hp
    cases hp
    exact ⟨k, hk⟩
  collects h := by
    rw [hpc] at h
    cases h
  last _ := by
    rw [hpc]
    exact hlast
  letGo p pos' hpc' := by
    rw [hpc] at hpc'
    cases hpc'
    exact hletGo

/-- A stream that starts at the end of the log. -/
theorem Streams.start {r : Request} {c' : ServerConfig} {k : String} {pos : ℕ}
    (hcall : r.call.streams = true) (hk : c'.shared.queueManager.key q = some k)
    (hpos : pos = (c'.shared.queueManager.log q).length) (hrec : r.received = []) :
    Streams c' (r.goto (.streaming q pos)) := by
  refine Streams.of_streaming rfl hcall hk ?_ fun hterm => ?_
  · rw [Request.goto_received, hrec, List.nil_append, hpos, List.drop_length]
    exact List.Pairwise.nil
  · obtain ⟨s, hs, -⟩ := hterm
    rw [Request.goto_received, hrec] at hs
    cases hs

/-- A step of a request changes nothing about who keeps the queue of a task at
rest. -/
theorem letGo_request {r : Request} (ht : c.threads[i]? = some (.request r))
    (ha : server.advance c.shared c.threads i m (.request r) = some (h', t', new)) {k : String}
    (hk : c.shared.queueManager.key q = some k) (h : AtRest c q → ¬ Kept c q)
    (hrest : AtRest ⟨h', c.threads.set i t' ++ new⟩ q) :
    ¬ Kept ⟨h', c.threads.set i t' ++ new⟩ q := by
  intro hkept
  rcases atRest_step ht ha hk hrest with hrest | ⟨x, he, -⟩
  · exact h hrest (kept_step ht ha hk hkept)
  · cases he

/-- Nor does a step of another thread, if executions finish when they may. -/
theorem letGo_other (hok : FinishesAfter c i m) (ht : c.threads[i]? = some t)
    (ha : server.advance c.shared c.threads i m t = some (h', t', new)) {k : String}
    (hk : c.shared.queueManager.key q = some k) {j pos : ℕ} {r : Request}
    (hj : c.threads[j]? = some (.request r)) (hpc : r.pc = .streaming q pos)
    (hterm : HasTerminal r.received) (h : AtRest c q → ¬ Kept c q)
    (hrest : AtRest ⟨h', c.threads.set i t' ++ new⟩ q) :
    ¬ Kept ⟨h', c.threads.set i t' ++ new⟩ q := by
  intro hkept
  have hkept' := kept_step ht ha hk hkept
  rcases atRest_step ht ha hk hrest with hrest | ⟨x, rfl, hkey, hfin, hothers⟩
  · exact h hrest hkept'
  · refine hok x ht hfin hothers j r q pos hj hpc ?_ hterm hkept'
    rw [hk, hkey]

/-- What a stream is handed is the next it had before it. -/
theorem drop_of_recv_ok {h : DefaultRequestHandler} {threads : List Thread} {pos pos' : ℕ}
    {s : Sent} (hrecv : h.recv threads q pos = some (.ok s, pos')) :
    (h.queueManager.log q).drop pos = s :: (h.queueManager.log q).drop pos' := by
  obtain ⟨ch, -, hlog, hr⟩ := DefaultRequestHandler.of_recv hrecv
  rw [hlog]
  exact Channel.unread_of_recv_ok hr

/-- A request after its own step. -/
theorem streams_request {r r' : Request} (ht : c.threads[i]? = some (.request r))
    (ha : server.advance c.shared c.threads i m (.request r) = some (h', .request r', new))
    (hs : r.Step c.shared c.threads i h' r' new)
    (hm : (∃ tick, m = .tick tick) ∨ h' = c.shared ∧ r' = r.goto .dropped)
    (hheard : r.Heard) (hlinked : LinkedThread c i (.request r)) (hA : Streams c r)
    (hok : ReceivesAfter c i m) :
    Streams ⟨h', c.threads.set i (.request r') ++ new⟩ r' := by
  cases hs with
  | find params q hpc hcall hq =>
    refine ⟨fun _ => by rw [Request.goto_call, hcall]; rfl, ?_, ?_, ?_, ?_⟩
    · intro p hp
      cases hp
      exact ⟨_, QueueManager.key_of_getQueue hq⟩
    · intro h
      cases h
    · intro hstreams
      have hlast := hA.last hstreams
      rw [hpc] at hlast
      exact hlast
    · intro p pos h
      cases h
  | spawnStream params key ctx q hpc hcall =>
    rw [Request.Heard, hpc] at hheard
    exact Streams.start (by rw [hcall]; rfl) (hlinked.1 key ctx q hpc) rfl hheard
  | subscribe q hpc =>
    rw [Request.Heard, hpc] at hheard
    obtain ⟨k, hk⟩ := hA.keyed q (by rw [hpc]; rfl)
    exact Streams.start (hA.called (by rw [hpc]; rfl)) hk rfl hheard
  | deliver q pos pos' sent hpc hrecv =>
    obtain ⟨k, hk⟩ := hA.keyed q (by rw [hpc]; rfl)
    have hstreams := hA.called (by rw [hpc]; rfl)
    have hdrop := drop_of_recv_ok hrecv
    refine Streams.of_streaming rfl hstreams hk ?_ fun hterm => ?_
    · have hlast := hA.last hstreams
      rw [hpc, Pc.ahead, hdrop] at hlast
      rwa [List.append_assoc, List.singleton_append]
    · refine letGo_request ht ha hk fun hrest => ?_
      obtain ⟨s, hs, hs'⟩ := hterm
      rcases List.mem_append.mp hs with hs | hs
      · exact hA.letGo q pos hpc ⟨s, hs, hs'⟩ hrest
      · obtain rfl := List.mem_singleton.mp hs
        rcases hm with ⟨tick, rfl⟩ | ⟨-, hd⟩
        · exact hok r q pos pos' s tick rfl ht hpc hrecv hs' hrest
        · cases congrArg Request.pc hd
  | deliverLag q pos pos' n hpc hrecv =>
    obtain ⟨k, hk⟩ := hA.keyed q (by rw [hpc]; rfl)
    have hstreams := hA.called (by rw [hpc]; rfl)
    have hlt := lt_of_recv_lagged hrecv
    refine Streams.of_streaming rfl hstreams hk ?_ fun hterm => ?_
    · have hlast := hA.last hstreams
      rw [hpc] at hlast
      exact hlast.sublist ((List.drop_sublist_drop_left _ hlt.le).append_left _)
    · exact letGo_request ht ha hk (hA.letGo q pos hpc hterm)
  | receive removes col sent pos hpc hrecv =>
    have hno := hA.collects (by rw [hpc]; rfl)
    refine ⟨?_, ?_, fun _ => hno, ?_, ?_⟩
    · intro h
      cases h
    · intro p hp
      cases hp
    · intro hstreams
      rw [show r.call.streams = true from hstreams] at hno
      cases hno
    · intro p pos h
      cases h
  | spawnSend params key ctx q pos hpc hcall => exact hA.leave rfl fun _ => by rw [hcall]; rfl
  | spawnCancel params key ctx q pos hpc hcall => exact hA.leave rfl fun _ => by rw [hcall]; rfl
  | lag _ _ _ _ hpc | close _ _ _ hpc | persist _ _ _ hpc | read _ _ _ _ _ hpc | skip _ _ _ hpc
  | update _ _ _ _ hpc | list _ _ _ _ hpc | nobody _ _ _ _ hpc | push _ _ _ _ _ _ hpc
  | pushLast _ _ _ _ _ _ hpc | goOn _ _ _ hpc | answer _ _ _ _ hpc | finalize _ _ _ _ hpc
  | failClosed _ _ _ _ hpc | finish _ _ _ hpc =>
    exact hA.leave rfl fun _ => hA.collects (by rw [hpc]; rfl)
  | _ => exact hA.leave rfl fun h => by cases h

/-- What is before a stream after the step of another thread. -/
theorem last_other (hok : SendsBefore c i m) (ht : c.threads[i]? = some t)
    (ha : server.advance c.shared c.threads i m t = some (h', t', new)) {j : ℕ} {r : Request}
    (hj : c.threads[j]? = some (.request r))
    (h : TerminalLast (r.received ++ r.pc.ahead c.shared)) :
    TerminalLast (r.received ++ r.pc.ahead h') := by
  cases hpc : r.pc with
  | streaming q pos =>
    rw [hpc] at h
    have hsame : h'.queueManager.log q = c.shared.queueManager.log q ∨ ∃ x e,
        t = .execution x ∧ x.sends m = some e ∧ x.queue = q ∧
        h'.queueManager.log q = c.shared.queueManager.log q ++ [⟨i, e⟩] := by
      rcases cases_of_step ha with ⟨r, r', -, -, hs, -⟩ | ⟨x, x', rfl, -, -, hs⟩ |
        ⟨g, -, -, -, -, rfl⟩
      · exact Or.inl (hs.log q)
      · rcases hs.log q with hlog | ⟨e, he, hq, hlog⟩
        · exact Or.inl hlog
        · exact Or.inr ⟨x, e, rfl, he, hq, hlog⟩
      · exact Or.inl rfl
    rcases hsame with hlog | ⟨x, e, rfl, he, rfl, hlog⟩
    · rw [Pc.ahead, hlog]
      exact h
    · have hno := hok x e ht he j r pos hj hpc
      rw [Pc.ahead, hlog, List.drop_append, ← List.append_assoc]
      exact (TerminalLast.concat hno ⟨i, e⟩).sublist ((List.drop_sublist _ _).append_left _)
  | _ => rw [hpc] at h; exact h

/-- A request after the step of another thread. -/
theorem streams_other (hok : EndsStreams c (.run i m)) (ht : c.threads[i]? = some t)
    (ha : server.advance c.shared c.threads i m t = some (h', t', new)) {j : ℕ} {r : Request}
    (hj : c.threads[j]? = some (.request r)) (hA : Streams c r) :
    Streams ⟨h', c.threads.set i t' ++ new⟩ r where
  called := hA.called
  keyed q hq := by
    obtain ⟨k, hk⟩ := hA.keyed q hq
    exact ⟨k, key_step ha hk⟩
  collects := hA.collects
  last hstreams := last_other hok.1 ht ha hj (hA.last hstreams)
  letGo q pos hpc hterm := by
    obtain ⟨k, hk⟩ := hA.keyed q (by rw [hpc]; rfl)
    exact letGo_other hok.2.1 ht ha hk hj hpc hterm (hA.letGo q pos hpc hterm)

/-- A request when a new one arrives. -/
theorem streams_arrive {r : Request} (hf : t.isFresh = true) (hA : Streams c r) :
    Streams ⟨c.shared, c.threads ++ [t]⟩ r where
  called := hA.called
  keyed := hA.keyed
  collects := hA.collects
  last := hA.last
  letGo q pos hpc hterm hrest := by
    have hbefore : AtRest c q := by
      intro j x hx
      have hlt : j < c.threads.length := (List.getElem?_eq_some_iff.mp hx).1
      exact hrest j x (by rw [List.getElem?_append_left hlt, hx])
    rintro (hmap | ⟨j, r', hj, hholds⟩)
    · exact hA.letGo q pos hpc hterm hbefore (Or.inl hmap)
    · rcases Places.getElem?_concat_cases hj with hj | ⟨-, rfl⟩
      · exact hA.letGo q pos hpc hterm hbefore (Or.inr ⟨j, r', hj, hholds⟩)
      · obtain ⟨r₀, he, hpc₀, -⟩ := Thread.of_isFresh hf
        cases he
        simp [Thread.holdsSender, hpc₀] at hholds

end

/-- **The invariant holds along every run that ends streams in time.** -/
theorem streamThread_reach {c₀ c : ServerConfig} (h₀ : Initial c₀)
    (h : server.Reach EndsStreams c₀ c) : Machine.Reach.Each StreamThread c := by
  have hrequests : EachRequest (fun c j r => StreamThread c j (.request r)) c := by
    refine requests_reach h₀ ?_ ?_ ?_ ?_
      (h.assuming fun _ hr => And.intro (linked_reach h₀ hr) (heard_reach h₀ hr))
    · intro c j r hpc hrec
      refine ⟨?_, ?_, ?_, ?_, ?_⟩
      · intro hsub
        rw [hpc] at hsub
        cases hsub
      · intro q hq
        rw [hpc] at hq
        cases hq
      · intro hcol
        rw [hpc] at hcol
        cases hcol
      · intro _
        rw [hpc, hrec]
        exact List.Pairwise.nil
      · intro q pos hpc'
        rw [hpc] at hpc'
        cases hpc'
    · intro c t j r hok hf hj hA
      exact streams_arrive hf hA
    · intro c i m r h' r' new hok hi ha hs hm hA
      exact streams_request hi ha hs hm (hok.1.2 i _ hi) (hok.1.1 i _ hi) hA hok.2.2.2
    · intro c i m t h' t' new j r hok ht ha hj hA
      exact streams_other hok.2 ht ha hj hA
  intro j t hj
  cases t with
  | request r => exact hrequests j r hj
  | execution x => exact trivial
  | registration g => exact trivial

/-- Nothing is before a stream that has received its terminal event. -/
theorem Streams.ahead_eq_nil {c : ServerConfig} {r : Request} (hA : Streams c r)
    (hstreams : r.call.streams = true) (hterm : HasTerminal r.received) :
    r.pc.ahead c.shared = [] := by
  obtain ⟨s, hs, ht⟩ := hterm
  have hno := (List.pairwise_append.mp (hA.last hstreams)).2.2 s hs
  refine List.eq_nil_iff_forall_not_mem.mpr fun a ha => ?_
  rw [hno a ha] at ht
  cases ht

/-- **A stream that has its terminal event, of a task at rest, hangs exactly as
long as somebody keeps the queue.** -/
theorem hangs_iff_kept {c : ServerConfig} (hlinked : Machine.Reach.Each LinkedThread c) {i : ℕ}
    {r : Request} {q pos : ℕ} (hA : Streams c r) (hi : c.threads[i]? = some (.request r))
    (hpc : r.pc = .streaming q pos) (hterm : HasTerminal r.received) (hrest : AtRest c q) :
    Hangs c i ↔ Kept c q := by
  obtain ⟨k, hk⟩ := hA.keyed q (by rw [hpc]; rfl)
  obtain ⟨queue, hqueue, -⟩ := Option.map_eq_some_iff.mp hk
  have hch : c.shared.queueManager.channel q = some queue.channel := by
    rw [QueueManager.channel, hqueue]
    rfl
  have hrecv : c.shared.recv c.threads q pos =
      queue.channel.recv (!c.shared.hasSender c.threads q) pos := by
    rw [DefaultRequestHandler.recv, hch, Option.bind_some]
  constructor
  · rintro ⟨r', q', pos', hi', hpc', -, -, hwait⟩
    rw [hi] at hi'
    cases hi'
    rw [hpc] at hpc'
    cases hpc'
    by_contra hkept
    rw [hrecv, hasSender_eq_false hlinked hrest hkept] at hwait
    exact Channel.recv_ne_none _ _ hwait
  · intro hkept
    have hnil : queue.channel.unread pos = [] := by
      have hahead := hA.ahead_eq_nil (hA.called (by rw [hpc]; rfl)) hterm
      rw [hpc, Pc.ahead, QueueManager.log, hch] at hahead
      exact hahead
    refine ⟨r, q, pos, hi, hpc, hterm, hrest, ?_⟩
    rw [hrecv, hasSender_of_kept hkept]
    exact Channel.recv_of_unread_nil hnil

/-- **Streams end with their terminal event, along every run that ends them in
time.** -/
theorem streamsEnd_reach {c₀ c : ServerConfig} (h₀ : Initial c₀)
    (h : server.Reach EndsStreams c₀ c) : StreamsEnd c where
  last i r hi hstreams := by
    have hA : Streams c r := streamThread_reach h₀ h i _ hi
    exact (hA.last hstreams).sublist (List.sublist_append_left _ _)
  ended i := by
    intro hhangs
    have hstream := hhangs
    obtain ⟨r, q, pos, hi, hpc, hterm, hrest, -⟩ := hstream
    have hA : Streams c r := streamThread_reach h₀ h i _ hi
    have hkept := (hangs_iff_kept (linked_reach h₀ h) hA hi hpc hterm hrest).mp hhangs
    exact hA.letGo q pos hpc hterm hrest hkept

/-! ### A stream that goes on and one that hangs -/

/-- A call of `message/stream` for task `t1` that has just arrived. -/
def streamTo (id : String) : Thread := .request
  { call := .messageStream
      { tenant := none
        message := { Message.new id .user [.text "hello"] with
          taskId := some "t1", contextId := some "c1" }
        configuration := none
        metadata := none }
    serviceParams := ∅
    pc := .received
    received := [] }

def noon : Tick := ⟨"12:00", "u1", "u2", "v1"⟩

/-- The call arrives and spawns its execution, which completes the task. -/
def streamed : List (Label Thread Move) :=
  .arrive (streamTo "m1") :: List.replicate 5 (.run 0 (.tick noon)) ++
    [.run 1 (.emit completedEvent), .run 0 (.tick noon)]

/-- A send on the same task joins the stream, and its return has the queue removed
before the stream receives the completed task and the executions finish. -/
def ended : List (Label Thread Move) :=
  .arrive (streamTo "m1") :: List.replicate 5 (.run 0 (.tick noon)) ++
    .arrive (sendTo "m2" false) :: List.replicate 5 (.run 3 (.tick noon)) ++
    .run 1 (.emit completedEvent) :: List.replicate 5 (.run 3 (.tick noon)) ++
    [.run 0 (.tick noon), .run 1 .succeed, .run 4 .succeed, .run 0 (.tick noon)]

def endedConfig : ServerConfig := (server.exec ⟨.new, []⟩ ended).getD ⟨.new, []⟩

/-- A step of a request that is no stream. -/
theorem endsStreams_of_request {c : ServerConfig} {i : ℕ} {m : Move} {r : Request}
    (hi : c.threads[i]? = some (.request r)) (hpc : r.pc.subscribed? = none) :
    EndsStreams c (.run i m) := by
  refine ⟨fun x e hx => ?_, fun x hx => ?_, fun r' q pos pos' s tick _ hr' hpc' => ?_⟩
  · rw [hi] at hx
    cases hx
  · rw [hi] at hx
    cases hx
  · rw [hi] at hr'
    cases hr'
    rw [hpc'] at hpc
    cases hpc

/-- A step that sends nothing, when nobody keeps a queue. -/
theorem endsStreams_of_unkept {c : ServerConfig} {i : ℕ} {m : Move}
    (hmap : ∀ k, c.shared.queueManager.getQueue k = none)
    (hrequests : ∀ (j : ℕ) (r : Request) (q : ℕ), c.threads[j]? = some (.request r) →
      (Thread.request r).holdsSender q = false)
    (hsends : ∀ x, c.threads[i]? = some (.execution x) → x.sends m = none) :
    EndsStreams c (.run i m) := by
  have hunkept : ∀ q, ¬ Kept c q := by
    rintro q (⟨k, hk⟩ | ⟨j, r, hj, hholds⟩)
    · rw [hmap] at hk
      cases hk
    · rw [hrequests j r q hj] at hholds
      cases hholds
  refine ⟨fun x e hx he => ?_, fun x _ _ _ j r q pos _ _ _ _ => hunkept q,
    fun r q pos pos' s tick _ _ _ _ _ _ => hunkept q⟩
  rw [hsends x hx] at he
  cases he

theorem ended_endsStreams : server.Along EndsStreams ⟨.new, []⟩ ended := by
  have hreq := @endsStreams_of_request
  refine ⟨trivial, hreq rfl rfl, hreq rfl rfl, hreq rfl rfl, hreq rfl rfl, hreq rfl rfl,
    trivial, hreq rfl rfl, hreq rfl rfl, hreq rfl rfl, hreq rfl rfl, hreq rfl rfl,
    ⟨?_, ?_, ?_⟩,
    hreq rfl rfl, hreq rfl rfl, hreq rfl rfl, hreq rfl rfl, hreq rfl rfl,
    ?_, ?_, ?_, ?_, trivial⟩
  -- the completed task, which no stream has before it
  · rintro x e hx he j r pos hj hpc ⟨s, hs, -⟩
    cases hx
    rcases j with _ | _ | _ | _ | _ | _ | j <;> cases hj
    · cases hpc
      cases hs
    · cases hpc
  · intro x hx hfin
    cases hfin
  · intro r q pos pos' s tick hm
    cases hm
  all_goals
    refine endsStreams_of_unkept (fun k => rfl) (fun j r q hj => ?_) (fun x hx => ?_)
    · rcases j with _ | _ | _ | _ | _ | _ | j <;> cases hj <;> rfl
    · cases hx <;> rfl

theorem streamsEnd_reach_ended :
    (∃ r, endedConfig.threads[0]? = some (.request r) ∧ r.pc = .done .streamed ∧
        r.received = [⟨1, completedEvent⟩]) ∧ StreamsEnd endedConfig :=
  ⟨⟨_, rfl, rfl, rfl⟩, streamsEnd_reach initial_new (.of_along ended_endsStreams rfl)⟩

/-- The execution then sends more, and the stream delivers it. -/
def wentOnConfig : ServerConfig :=
  (server.exec ⟨.new, []⟩
    (streamed ++ [.run 1 (.emit completedEvent), .run 0 (.tick noon)])).getD ⟨.new, []⟩

/-- Or the execution returns, and the stream waits. -/
def hungConfig : ServerConfig :=
  (server.exec ⟨.new, []⟩ (streamed ++ [.run 1 .succeed])).getD ⟨.new, []⟩

theorem streams_goOn_or_hang :
    Initial ⟨.new, []⟩ ∧
      (server.Reach Machine.Always ⟨.new, []⟩ wentOnConfig ∧ ¬ StreamsEnd wentOnConfig) ∧
      server.Reach Machine.Always ⟨.new, []⟩ hungConfig ∧ Hangs hungConfig 0 := by
  have hwent : server.Reach Machine.Always ⟨.new, []⟩ wentOnConfig := .of_exec (show
    server.exec ⟨.new, []⟩ (streamed ++ [.run 1 (.emit completedEvent), .run 0 (.tick noon)]) =
      some wentOnConfig from rfl)
  have hhung : server.Reach Machine.Always ⟨.new, []⟩ hungConfig := .of_exec (show
    server.exec ⟨.new, []⟩ (streamed ++ [.run 1 .succeed]) = some hungConfig from rfl)
  refine ⟨initial_new, ⟨hwent, fun h => ?_⟩, hhung, ?_⟩
  · have hlast : TerminalLast [⟨1, completedEvent⟩, ⟨1, completedEvent⟩] := h.last 0 _ rfl rfl
    have hfalse := List.rel_of_pairwise_cons hlast (List.mem_singleton_self _)
    cases hfalse
  · refine ⟨_, 0, 1, rfl, rfl, ⟨⟨1, completedEvent⟩, List.mem_singleton_self _, rfl⟩, ?_, rfl⟩
    intro j x hx _
    rcases j with _ | _ | _ | j <;> cases hx
    rfl

end Ra2a
