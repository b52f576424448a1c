import Ra2a.Lib.Interleave
import Ra2a.Server.Event

/-!
# Concurrent calls of the queue manager

Any number of calls run over one manager, one lock section at a time.  All have
one section but `get_or_create_queue`: it looks under the read lock, lets go of
it, and looks again under the write lock before it adds a queue (`missed` is the
gap between the two).  A call that panics ends there, and one whose future is
dropped does too; the lock is not poisoned.

Between two removals of a task the map holds one queue for it from the first
registration on, and this is what every call hands out
(`QueueManager.one_queue`).  A call panics exactly if it opens a queue at
capacity `0`, which is what the derived `Default` gives a manager
(`QueueManager.no_panic_iff`).
-/

namespace Ra2a

open Interleave

namespace QueueManager

/-- `QueueManager::default`, which is derived. -/
def default : QueueManager := withCapacity 0

variable (m : QueueManager)

/-- `create_queue`; nothing when `EventQueue::new` panics. -/
def createQueue (taskId : String) : Option (Option ℕ × QueueManager) :=
  match m.queues.lookup taskId with
  | some _ => some (none, m)
  | none =>
    (EventQueue.new m.capacity taskId).map fun queue => (some m.heap.length, m.add queue)

/-- `send_event`, when the queue of the task has so many subscribers. -/
def sendEvent (taskId : String) (event : Sent) (subscribers : ℕ) :
    Except A2AError Unit × QueueManager :=
  match m.getQueue taskId with
  | none => (.error (.other s!"No queue for task {taskId}"), m)
  | some q =>
    if subscribers = 0 then (.error (.other "Failed to send event: channel closed"), m)
    else (.ok (), m.send q event)

end QueueManager

inductive QueueCall
  | create (taskId : String)
  | get (taskId : String)
  | getOrCreate (taskId : String)
  | remove (taskId : String)
  | send (taskId : String) (event : Sent) (subscribers : ℕ)
  deriving DecidableEq

def QueueCall.taskId : QueueCall → String
  | create k | get k | getOrCreate k | remove k | send k _ _ => k

inductive QueuePc
  | called
  | missed
  | returned (queue : Option ℕ)
  | sent (result : Except A2AError Unit)
  | panicked
  | dropped

structure QueueThread where
  call : QueueCall
  pc : QueuePc

inductive QueueMove
  | go
  | drop

namespace QueueThread

variable (m : QueueManager)

/-- A section that may open a queue. -/
def opened (t : QueueThread) : Option (Option ℕ × QueueManager) → QueueManager × QueueThread
  | none => (m, ⟨t.call, .panicked⟩)
  | some (q, m') => (m', ⟨t.call, .returned q⟩)

/-- One lock section of a call. -/
def advance (t : QueueThread) : QueueMove → Option (QueueManager × QueueThread)
  | .drop =>
    match t.pc with
    | .called | .missed => some (m, ⟨t.call, .dropped⟩)
    | _ => none
  | .go =>
    match t.pc, t.call with
    | .called, .create k => some (t.opened m (m.createQueue k))
    | .called, .get k => some (m, ⟨t.call, .returned (m.getQueue k)⟩)
    | .called, .getOrCreate k =>
      match m.getQueue k with
      | some q => some (m, ⟨t.call, .returned (some q)⟩)
      | none => some (m, ⟨t.call, .missed⟩)
    | .called, .remove k => some (m.removeQueue k, ⟨t.call, .returned (m.getQueue k)⟩)
    | .called, .send k e n =>
      let r := m.sendEvent k e n
      some (r.2, ⟨t.call, .sent r.1⟩)
    | .missed, .getOrCreate k =>
      some (t.opened m ((m.getOrCreateQueue k).map fun r => (some r.1, r.2)))
    | _, _ => none

/-- The next section of the call is one that may open a queue for this task. -/
def Opens (t : QueueThread) (k : String) : Prop :=
  (t.call = .create k ∧ t.pc = .called) ∨ (t.call = .getOrCreate k ∧ t.pc = .missed)

end QueueThread

/-- **The manager with all its calls.** -/
def queueCalls : Machine QueueManager QueueThread QueueMove where
  fresh t := match t.pc with
    | .called => true
    | _ => false
  advance m _ _ mv t := (t.advance m mv).map fun r => (r.1, r.2, [])

abbrev QueueConfig := Config QueueManager QueueThread

/-! ### What a section does -/

namespace QueueManager

variable {m m' : QueueManager} {k : String} {q : ℕ} {r : Option ℕ}

theorem createQueue_of_some (hq : m.getQueue k = some q) : m.createQueue k = some (none, m) := by
  rw [createQueue, show m.queues.lookup k = some q from hq]

theorem createQueue_of_none (hq : m.getQueue k = none) : m.createQueue k =
    (EventQueue.new m.capacity k).map fun queue => (some m.heap.length, m.add queue) := by
  rw [createQueue, show m.queues.lookup k = none from hq]

theorem getOrCreateQueue_of_some (hq : m.getQueue k = some q) :
    m.getOrCreateQueue k = some (q, m) := by
  rw [getOrCreateQueue, show m.queues.lookup k = some q from hq]

theorem getOrCreateQueue_of_none (hq : m.getQueue k = none) : m.getOrCreateQueue k =
    (EventQueue.new m.capacity k).map fun queue => (m.heap.length, m.add queue) := by
  rw [getOrCreateQueue, show m.queues.lookup k = none from hq]

/-- A sent event leaves the map alone. -/
theorem sendEvent_frame (m : QueueManager) (k : String) (e : Sent) (n : ℕ) :
    (m.sendEvent k e n).2.capacity = m.capacity ∧
      ∀ j, (m.sendEvent k e n).2.getQueue j = m.getQueue j := by
  rw [sendEvent]
  cases m.getQueue k with
  | none => exact ⟨rfl, fun _ => rfl⟩
  | some q =>
    dsimp only
    split <;> exact ⟨rfl, fun _ => rfl⟩

/-- A queue can be opened for a task that has none exactly if the capacity allows it. -/
theorem new_eq_none_iff {capacity : ℕ} (h : capacity ≤ usizeMax / 2) :
    EventQueue.new capacity k = none ↔ capacity = 0 := by
  rw [EventQueue.new]
  split
  · rename_i hbad
    exact iff_of_true rfl (hbad.resolve_right (by omega))
  · rename_i hgood
    exact iff_of_false (by simp) fun h0 => hgood (Or.inl h0)

end QueueManager

namespace QueueThread

variable {m m' : QueueManager} {t t' : QueueThread} {k : String} {q : ℕ}

/-- **What a section can be**: it leaves the map alone, removes the queue of a task, or
opens a queue for a task that has none. -/
inductive Step (m : QueueManager) (t : QueueThread) : QueueManager → QueueThread → Prop
  | found (k : String) (q : ℕ) (hcall : t.call = .get k ∨ t.call = .getOrCreate k)
      (hq : m.getQueue k = some q) : Step m t m ⟨t.call, .returned (some q)⟩
  | absent (k : String) (hcall : t.call = .get k) (hq : m.getQueue k = none) :
      Step m t m ⟨t.call, .returned none⟩
  | miss (k : String) (hcall : t.call = .getOrCreate k) (hpc : t.pc = .called)
      (hq : m.getQueue k = none) : Step m t m ⟨t.call, .missed⟩
  | refuse (k : String) (q : ℕ) (hcall : t.call = .create k) (hpc : t.pc = .called)
      (hq : m.getQueue k = some q) : Step m t m ⟨t.call, .returned none⟩
  | opens (k : String) (queue : EventQueue) (ht : t.Opens k) (hcap : m.capacity ≠ 0)
      (hkey : queue.key = k) (hq : m.getQueue k = none) :
      Step m t (m.add queue) ⟨t.call, .returned (some m.heap.length)⟩
  | panics (k : String) (ht : t.Opens k) (hq : m.getQueue k = none)
      (hnew : EventQueue.new m.capacity k = none) : Step m t m ⟨t.call, .panicked⟩
  | remove (k : String) (hcall : t.call = .remove k) :
      Step m t (m.removeQueue k) ⟨t.call, .returned (m.getQueue k)⟩
  | send (m' : QueueManager) (result : Except A2AError Unit) (hcall : ∃ k e n, t.call = .send k e n)
      (hcap : m'.capacity = m.capacity) (hmap : ∀ j, m'.getQueue j = m.getQueue j) :
      Step m t m' ⟨t.call, .sent result⟩

/-- A section that opens a queue, if it finds none. -/
theorem step_of_opened (ht : t.Opens k) (hq : m.getQueue k = none)
    (h : t.opened m ((EventQueue.new m.capacity k).map fun queue =>
      (some m.heap.length, m.add queue)) = (m', t')) : Step m t m' t' := by
  cases hn : EventQueue.new m.capacity k with
  | none =>
    rw [hn] at h
    cases h
    exact .panics k ht hq hn
  | some queue =>
    rw [hn] at h
    cases h
    rw [EventQueue.new] at hn
    split at hn
    · cases hn
    · rename_i hgood
      cases hn
      exact .opens k _ ht (fun h0 => hgood (Or.inl h0)) rfl hq

theorem advance_drop (h : t.advance m .drop = some (m', t')) :
    m' = m ∧ t' = ⟨t.call, .dropped⟩ := by
  obtain ⟨call, pc⟩ := t
  cases pc <;> cases h <;> exact ⟨rfl, rfl⟩

theorem step_of_advance (h : t.advance m .go = some (m', t')) : Step m t m' t' := by
  obtain ⟨call, pc⟩ := t
  cases pc with
  | called =>
    cases call with
    | create k =>
      rw [advance] at h
      dsimp only at h
      cases hq : m.getQueue k with
      | none =>
        rw [QueueManager.createQueue_of_none hq] at h
        exact step_of_opened (Or.inl ⟨rfl, rfl⟩) hq (Option.some.inj h)
      | some q =>
        rw [QueueManager.createQueue_of_some hq] at h
        cases h
        exact .refuse k q rfl rfl hq
    | get k =>
      cases h
      cases hq : m.getQueue k with
      | none => exact .absent k rfl hq
      | some q => exact .found k q (Or.inl rfl) hq
    | getOrCreate k =>
      rw [advance] at h
      dsimp only at h
      cases hq : m.getQueue k with
      | none =>
        rw [hq] at h
        cases h
        exact .miss k rfl rfl hq
      | some q =>
        rw [hq] at h
        cases h
        exact .found k q (Or.inr rfl) hq
    | remove k =>
      cases h
      exact .remove k rfl
    | send k e n =>
      cases h
      obtain ⟨hcap, hmap⟩ := m.sendEvent_frame k e n
      exact .send _ _ ⟨k, e, n, rfl⟩ hcap hmap
  | missed =>
    cases call with
    | getOrCreate k =>
      rw [advance] at h
      dsimp only at h
      cases hq : m.getQueue k with
      | none =>
        rw [QueueManager.getOrCreateQueue_of_none hq, Option.map_map] at h
        exact step_of_opened (Or.inr ⟨rfl, rfl⟩) hq (Option.some.inj h)
      | some q =>
        rw [QueueManager.getOrCreateQueue_of_some hq] at h
        cases h
        exact .found k q (Or.inr rfl) hq
    | _ => cases h
  | _ => cases h

/-- A section leaves the queue of a task mapped, but for a removal. -/
theorem Step.getQueue (hs : Step m t m' t') (hne : t.call ≠ .remove k)
    (hq : m.getQueue k = some q) : m'.getQueue k = some q := by
  cases hs with
  | opens j queue ht hcap hkey hnone =>
    rw [QueueManager.getQueue_add, if_neg, hq]
    rintro rfl
    rw [← hkey, hq] at hnone
    cases hnone
  | remove j hcall =>
    rw [QueueManager.getQueue_removeQueue, if_neg, hq]
    rintro rfl
    exact hne hcall
  | send m' result hcall hcap hmap => rw [hmap, hq]
  | _ => exact hq

/-- A queue handed out is the one that is mapped; `create_queue` found none before. -/
theorem Step.handed (hs : Step m t m' t') (hk : t.call.taskId = k) (hne : t.call ≠ .remove k)
    (hq : t'.pc = .returned (some q)) :
    m'.getQueue k = some q ∧ (t.call = .create k → m.getQueue k = none) := by
  cases hs with
  | found j p hcall hp =>
    cases hq
    rcases hcall with hcall | hcall
    · rw [hcall] at hk
      obtain rfl : j = k := hk
      exact ⟨hp, fun h => by rw [hcall] at h; cases h⟩
    · rw [hcall] at hk
      obtain rfl : j = k := hk
      exact ⟨hp, fun h => by rw [hcall] at h; cases h⟩
  | opens j queue ht hcap hkey hnone =>
    cases hq
    have hjk : j = k := by
      rcases ht with ⟨hcall, -⟩ | ⟨hcall, -⟩
      · rw [hcall] at hk
        exact hk
      · rw [hcall] at hk
        exact hk
    subst hjk
    exact ⟨by rw [QueueManager.getQueue_add, if_pos hkey.symm], fun _ => hnone⟩
  | remove j hcall =>
    rw [hcall] at hk
    obtain rfl : j = k := hk
    exact absurd hcall hne
  | _ => cases hq

end QueueThread

namespace QueueManager

/-! ### One queue between two removals -/

/-- What a step hands out for a task, with the call it goes to. -/
def handedOut (k : String) (c : QueueConfig) : Label QueueThread QueueMove → List (QueueCall × ℕ)
  | .arrive _ => []
  | .run i mv =>
    match (c.threads[i]?).bind fun t => t.advance c.shared mv with
    | some (_, ⟨call, .returned (some q)⟩) => if call.taskId = k then [(call, q)] else []
    | _ => []

/-- No removal of the task runs. -/
def NoRemoval (k : String) (c : QueueConfig) : Label QueueThread QueueMove → Prop
  | .run i .go => ∀ t, c.threads[i]? = some t → t.call ≠ .remove k
  | _ => True

variable {m : QueueManager} {c c₁ c' : QueueConfig} {k : String} {q : ℕ}
  {l : Label QueueThread QueueMove} {ls : List (Label QueueThread QueueMove)}

/-- What a step hands out is what the section of its thread returns. -/
theorem handedOut_run {i : ℕ} {mv : QueueMove} {t t' : QueueThread} {m' : QueueManager}
    (ht : c.threads[i]? = some t) (ha : t.advance c.shared mv = some (m', t')) :
    handedOut k c (.run i mv) = [] ∨
      ∃ q, t'.pc = .returned (some q) ∧ t'.call.taskId = k ∧
        handedOut k c (.run i mv) = [(t'.call, q)] := by
  obtain ⟨call, pc⟩ := t'
  rw [handedOut, ht, Option.bind_some, ha]
  cases pc with
  | returned r =>
    cases r with
    | none => exact Or.inl rfl
    | some q =>
      dsimp only
      split
      · exact Or.inr ⟨q, rfl, ‹_›, rfl⟩
      · exact Or.inl rfl
  | _ => exact Or.inl rfl

theorem call_of_step {t t' : QueueThread} {m' : QueueManager} (hs : t.Step m m' t') :
    t'.call = t.call := by
  cases hs <;> rfl

/-- One step that is no removal. -/
theorem handedOut_step (hs : queueCalls.step c l = some c₁) (hno : NoRemoval k c l) :
    (c.shared.getQueue k = some q → c₁.shared.getQueue k = some q) ∧
      (∀ p ∈ handedOut k c l, c₁.shared.getQueue k = some p.2 ∧
        (p.1 = .create k → c.shared.getQueue k = none)) ∧
      (handedOut k c l).length ≤ 1 := by
  rcases Machine.step_cases hs with ⟨t, rfl, -, rfl⟩ | ⟨i, mv, t, m', t', new, rfl, ht, ha, rfl⟩
  · exact ⟨fun h => h, by simp [handedOut], by simp [handedOut]⟩
  · obtain ⟨⟨m₁, t₁⟩, hadv, he⟩ := Option.map_eq_some_iff.mp ha
    cases he
    cases mv with
    | drop =>
      obtain ⟨rfl, rfl⟩ := QueueThread.advance_drop hadv
      refine ⟨fun h => h, ?_⟩
      rcases handedOut_run (k := k) ht hadv with hnil | ⟨q, hq, -⟩
      · simp [hnil]
      · cases hq
    | go =>
      have hstep := QueueThread.step_of_advance hadv
      have hne := hno t ht
      refine ⟨hstep.getQueue hne, ?_⟩
      rcases handedOut_run (k := k) ht hadv with hnil | ⟨q, hq, hk, hone⟩
      · simp [hnil]
      · rw [hone]
        rw [call_of_step hstep] at hk ⊢
        refine ⟨fun p hp => ?_, by simp⟩
        obtain rfl := List.mem_singleton.mp hp
        exact hstep.handed hk hne hq

/-- What a schedule without a removal keeps, and what it hands out. -/
theorem handedOut_schedule (hrun : queueCalls.exec c ls = some c')
    (hno : queueCalls.Along (NoRemoval k) c ls) :
    (∀ q, c.shared.getQueue k = some q → c'.shared.getQueue k = some q ∧
      ∀ p ∈ queueCalls.yields (handedOut k) c ls, p.1 ≠ .create k) ∧
      (∀ p ∈ queueCalls.yields (handedOut k) c ls, c'.shared.getQueue k = some p.2) ∧
      (queueCalls.yields (handedOut k) c ls).countP (·.1 = .create k) ≤ 1 := by
  induction ls generalizing c with
  | nil =>
    cases hrun
    exact ⟨fun q hq => ⟨hq, by simp [Machine.yields]⟩, by simp [Machine.yields],
      by simp [Machine.yields]⟩
  | cons l ls ih =>
    obtain ⟨c₁, hs, hr⟩ := Option.bind_eq_some_iff.mp hrun
    obtain ⟨hl, hls⟩ := hno
    rw [hs] at hls
    obtain ⟨hkeep, hgives, hone⟩ := ih hr hls
    have hy : queueCalls.yields (handedOut k) c (l :: ls) =
        handedOut k c l ++ queueCalls.yields (handedOut k) c₁ ls := by
      rw [Machine.yields, hs]
    rw [hy]
    have hfirst := fun q => handedOut_step (q := q) hs hl
    refine ⟨fun q hq => ⟨(hkeep q ((hfirst q).1 hq)).1, fun p hp hcreate => ?_⟩, fun p hp => ?_, ?_⟩
    · rcases List.mem_append.mp hp with hp | hp
      · rw [((hfirst q).2.1 p hp).2 hcreate] at hq
        cases hq
      · exact (hkeep q ((hfirst q).1 hq)).2 p hp hcreate
    · rcases List.mem_append.mp hp with hp | hp
      · exact (hkeep p.2 ((hfirst p.2).2.1 p hp).1).1
      · exact hgives p hp
    · rw [List.countP_append]
      -- either nothing is handed out here, or a queue is there from now on
      cases hout : handedOut k c l with
      | nil => simpa using hone
      | cons p rest =>
        have hlen := (hfirst 0).2.2
        have hp : p ∈ handedOut k c l := by
          rw [hout]
          exact List.mem_cons_self
        have hnone := (hkeep p.2 ((hfirst p.2).2.1 p hp).1).2
        have hzero : (queueCalls.yields (handedOut k) c₁ ls).countP (·.1 = .create k) = 0 := by
          rw [List.countP_eq_zero]
          intro p' hp'
          simpa using hnone p' hp'
        rw [hzero, ← hout]
        exact (List.countP_le_length).trans hlen

/-- **One queue between two removals.**  From any state on, as long as no removal of the
task runs: all queues handed out for it are the one that is mapped at the end, one
`create_queue` at most makes one, and a queue that is mapped stays mapped and is the one
that is handed out. -/
theorem one_queue (hrun : queueCalls.exec c ls = some c')
    (hno : queueCalls.Along (NoRemoval k) c ls) :
    (∀ p ∈ queueCalls.yields (handedOut k) c ls, ∀ p' ∈ queueCalls.yields (handedOut k) c ls,
      p.2 = p'.2) ∧
      (∀ p ∈ queueCalls.yields (handedOut k) c ls, c'.shared.getQueue k = some p.2) ∧
      (queueCalls.yields (handedOut k) c ls).countP (·.1 = .create k) ≤ 1 ∧
      ∀ q, c.shared.getQueue k = some q → c'.shared.getQueue k = some q ∧
        ∀ p ∈ queueCalls.yields (handedOut k) c ls, p.2 = q ∧ p.1 ≠ .create k := by
  obtain ⟨hkeep, hgives, hone⟩ := handedOut_schedule hrun hno
  refine ⟨fun p hp p' hp' => ?_, hgives, hone, fun q hq => ⟨(hkeep q hq).1, fun p hp => ⟨?_, ?_⟩⟩⟩
  · have hsame := (hgives p hp).symm.trans (hgives p' hp')
    exact Option.some.inj hsame
  · have hsame := (hgives p hp).symm.trans (hkeep q hq).1
    exact Option.some.inj hsame
  · exact (hkeep q hq).2 p hp

/-- Two callers look and find no queue, a third makes one, and both find it there. -/
def racing : List (Label QueueThread QueueMove) :=
  [.arrive ⟨.getOrCreate "t", .called⟩, .arrive ⟨.getOrCreate "t", .called⟩,
    .arrive ⟨.create "t", .called⟩, .run 0 .go, .run 1 .go, .run 2 .go, .run 1 .go, .run 0 .go]

theorem one_queue_racing : (queueCalls.yields (handedOut "t") ⟨.new, []⟩ racing).countP
    (·.1 = .create "t") ≤ 1 := by
  have hno : queueCalls.Along (NoRemoval "t") ⟨.new, []⟩ racing := by
    refine ⟨trivial, trivial, trivial, ?_, ?_, ?_, ?_, ?_, trivial⟩ <;>
      · intro t ht
        cases ht
        decide
  exact (one_queue rfl hno).2.2.1

/-! ### Who panics -/

/-- What the public constructors give, a capacity above half of `usize::MAX` aside. -/
inductive Constructed : QueueManager → Prop
  | new : Constructed .new
  | withCapacity (n : ℕ) (h : n ≤ usizeMax / 2) : Constructed (.withCapacity n)
  | default : Constructed .default

/-- The step is a section that opens a queue if it finds none. -/
def OpensQueue (c : QueueConfig) : Label QueueThread QueueMove → Prop
  | .run i .go => ∃ t k, c.threads[i]? = some t ∧ t.Opens k
  | _ => False

/-- The capacity is one a channel can have or `0`, and with `0` nothing is mapped. -/
structure Capacious (m : QueueManager) : Prop where
  bound : m.capacity ≤ usizeMax / 2
  empty : m.capacity = 0 → ∀ k, m.getQueue k = none

theorem Constructed.capacious (h : Constructed m) : m.Capacious := by
  cases h with
  | new => exact ⟨by decide, fun _ _ => rfl⟩
  | withCapacity n h => exact ⟨h, fun _ _ => rfl⟩
  | default => exact ⟨by decide, fun _ _ => rfl⟩

theorem capacity_step {t t' : QueueThread} {m' : QueueManager} (hs : t.Step m m' t') :
    m'.capacity = m.capacity := by
  cases hs with
  | send m' result hcall hcap hmap => exact hcap
  | _ => rfl

theorem Capacious.step {t t' : QueueThread} {m' : QueueManager} (hm : m.Capacious)
    (hs : t.Step m m' t') : m'.Capacious := by
  have hcap := capacity_step hs
  refine ⟨hcap ▸ hm.bound, fun h0 j => ?_⟩
  have hempty := hm.empty (hcap ▸ h0)
  cases hs with
  | opens k queue ht hne hkey hq => exact absurd (hcap ▸ h0) hne
  | remove k hcall =>
    rw [getQueue_removeQueue, hempty]
    split <;> rfl
  | send m' result hcall hcap hmap => rw [hmap, hempty]
  | _ => exact hempty j

/-- **A section panics exactly if it opens a queue at capacity `0`.** -/
theorem panics_iff {t t' : QueueThread} {m' : QueueManager} (hm : m.Capacious)
    (hs : t.Step m m' t') :
    t'.pc = .panicked ↔ m.capacity = 0 ∧ ∃ k, t.Opens k := by
  constructor
  · intro h
    cases hs with
    | panics k ht hq hnew => exact ⟨(new_eq_none_iff hm.bound).mp hnew, k, ht⟩
    | _ => cases h
  · rintro ⟨h0, k, ht⟩
    have hempty := hm.empty h0
    cases hs with
    | panics => rfl
    | opens j queue ht' hne hkey hq => exact absurd h0 hne
    | found j q hcall hq =>
      rw [hempty] at hq
      cases hq
    | refuse j q hcall hpc hq =>
      rw [hempty] at hq
      cases hq
    | absent j hcall hq => rcases ht with ⟨h, -⟩ | ⟨h, -⟩ <;> rw [hcall] at h <;> cases h
    | miss j hcall hpc hq =>
      rcases ht with ⟨h, -⟩ | ⟨-, h⟩
      · rw [hcall] at h
        cases h
      · rw [hpc] at h
        cases h
    | remove j hcall => rcases ht with ⟨h, -⟩ | ⟨h, -⟩ <;> rw [hcall] at h <;> cases h
    | send m' result hcall hcap hmap =>
      obtain ⟨j, e, n, hcall⟩ := hcall
      rcases ht with ⟨h, -⟩ | ⟨h, -⟩ <;> rw [hcall] at h <;> cases h

/-- No call has panicked. -/
def Calm (c : QueueConfig) : Prop := ∀ t ∈ c.threads, t.pc ≠ .panicked

theorem calm_step (hm : c.shared.Capacious) (hs : queueCalls.step c l = some c₁) :
    c₁.shared.Capacious ∧ c₁.shared.capacity = c.shared.capacity ∧
      (Calm c₁ ↔ Calm c ∧ (c.shared.capacity ≠ 0 ∨ ¬ OpensQueue c l)) := by
  rcases Machine.step_cases hs with ⟨t, rfl, hf, rfl⟩ | ⟨i, mv, t, m', t', new, rfl, ht, ha, rfl⟩
  · refine ⟨hm, rfl, ?_⟩
    have hcalm : t.pc ≠ .panicked := by
      intro h
      simp [queueCalls, h] at hf
    change (∀ u ∈ c.threads ++ [t], u.pc ≠ .panicked) ↔ _
    simp only [List.forall_mem_append, List.forall_mem_singleton, hcalm, OpensQueue, Calm,
      not_false_eq_true, or_true, and_true, ne_eq]
  · obtain ⟨⟨m₁, t₁⟩, hadv, he⟩ := Option.map_eq_some_iff.mp ha
    cases he
    have hcalm : t.pc ≠ .panicked := by
      intro h
      cases mv <;> simp [QueueThread.advance, h] at hadv
    have hset : Calm ⟨m₁, c.threads.set i t₁ ++ []⟩ ↔ Calm c ∧ t₁.pc ≠ .panicked := by
      change (∀ u ∈ c.threads.set i t₁ ++ [], u.pc ≠ .panicked) ↔ _
      rw [List.append_nil]
      exact Places.forall_mem_set_iff (P := fun u => u.pc ≠ .panicked) ht hcalm
    rw [hset]
    cases mv with
    | drop =>
      obtain ⟨rfl, rfl⟩ := QueueThread.advance_drop hadv
      exact ⟨hm, rfl, by simp [OpensQueue]⟩
    | go =>
      have hstep := QueueThread.step_of_advance hadv
      refine ⟨hm.step hstep, capacity_step hstep, and_congr_right fun _ => ?_⟩
      have hopens : OpensQueue c (.run i .go) ↔ ∃ k, t.Opens k := by
        constructor
        · rintro ⟨u, k, hu, hk⟩
          rw [ht] at hu
          cases hu
          exact ⟨k, hk⟩
        · rintro ⟨k, hk⟩
          exact ⟨t, k, ht, hk⟩
      rw [ne_eq, panics_iff hm hstep, hopens, not_and_or]

/-- A run from any such state. -/
theorem calm_run (hm : c.shared.Capacious) (hrun : queueCalls.exec c ls = some c') :
    Calm c' ↔ Calm c ∧
      (c.shared.capacity ≠ 0 ∨ queueCalls.Along (fun c l => ¬ OpensQueue c l) c ls) := by
  induction ls generalizing c with
  | nil =>
    cases hrun
    simp [Machine.Along]
  | cons l ls ih =>
    obtain ⟨c₁, hs, hr⟩ := Option.bind_eq_some_iff.mp hrun
    obtain ⟨hm₁, hcap, hcalm⟩ := calm_step hm hs
    rw [ih hm₁ hr, hcalm, hcap, Machine.Along, hs]
    by_cases h0 : c.shared.capacity = 0 <;> simp [h0, and_assoc]

/-- **When nothing panics.**  In a run of calls of a manager as it was constructed, no call
panics exactly if the capacity is not `0` or no section that may open a queue runs. -/
theorem no_panic_iff {m : QueueManager} (hm : m.Constructed)
    (hrun : queueCalls.exec ⟨m, []⟩ ls = some c) :
    (∀ t ∈ c.threads, t.pc ≠ .panicked) ↔
      m.capacity ≠ 0 ∨ queueCalls.Along (fun c l => ¬ OpensQueue c l) ⟨m, []⟩ ls := by
  have hcalm := calm_run (c := ⟨m, []⟩) hm.capacious hrun
  have hnone : Calm ⟨m, []⟩ := fun t ht => by cases ht
  exact hcalm.trans (and_iff_right hnone)

/-- A single `create_queue`. -/
def creating : List (Label QueueThread QueueMove) := [.arrive ⟨.create "t", .called⟩, .run 0 .go]

theorem no_panic_iff_creating :
    (∀ t ∈ ([⟨.create "t", .panicked⟩] : List QueueThread), t.pc ≠ .panicked) ↔
      (QueueManager.default).capacity ≠ 0 ∨
        queueCalls.Along (fun c l => ¬ OpensQueue c l) ⟨.default, []⟩ creating :=
  no_panic_iff (c := ⟨.default, [⟨.create "t", .panicked⟩]⟩) .default rfl

/-- A manager by default panics at its first queue. -/
theorem default_panics : Constructed .default ∧
    ∃ c, queueCalls.exec ⟨.default, []⟩ creating = some c ∧ ∃ t ∈ c.threads, t.pc = .panicked :=
  ⟨.default, ⟨.default, [⟨.create "t", .panicked⟩]⟩, rfl, _, List.mem_cons_self, rfl⟩

end QueueManager

end Ra2a
