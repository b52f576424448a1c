import Ra2a.Lib.Broadcast
import Ra2a.Error
import Ra2a.Types.Event

/-!
# Event queues and their manager

`server/event.rs`.  An `EventQueue` is the sender of a broadcast channel, held
through an `Arc` by the manager's map, by requests and by executions; it lives
as long as one of them holds it.  The manager's `heap` is where those `Arc`s
point: a queue is named by its place there, stays there after it is removed
from the map, and two requests share a queue when they hold the same name.

Two fields are there for the proofs only: `key`, the task a queue was opened
for, and the sender noted with each entry of the log.
-/

namespace Ra2a

open Broadcast

/-- `usize::MAX` of a 64-bit target. -/
def usizeMax : ℕ := 2 ^ 64 - 1

/-- An event as it was sent, with the thread that sent it. -/
structure Sent where
  sender : ℕ
  event : Event
  deriving DecidableEq

structure EventQueue where
  channel : Channel Sent
  key : String

/-- `usize::next_power_of_two`. -/
def nextPowerOfTwo (n : ℕ) : ℕ := if n ≤ 1 then 1 else 2 ^ ((n - 1).log2 + 1)

namespace EventQueue

/-- `EventQueue::new`.  `broadcast::channel` panics on a capacity of `0` and on
one above half of `usize::MAX`, and rounds any other up. -/
def new (capacity : ℕ) (key : String) : Option EventQueue :=
  if capacity = 0 ∨ usizeMax / 2 < capacity then none
  else some ⟨⟨nextPowerOfTwo capacity, []⟩, key⟩

/-- The queue after a send. -/
def push (q : EventQueue) (e : Sent) : EventQueue := { q with channel := q.channel.send e }

end EventQueue

/-- The map, the capacity of new queues, the heap, and that a task is mapped to
a queue opened for it. -/
structure QueueManager where
  queues : Finmap fun _ : String => ℕ
  capacity : ℕ
  heap : List EventQueue
  keyed : ∀ k q, queues.lookup k = some q → (heap[q]?).map EventQueue.key = some k

namespace QueueManager

/-- `QueueManager::with_capacity`. -/
def withCapacity (capacity : ℕ) : QueueManager := ⟨∅, capacity, [], fun k q h => by simp at h⟩

/-- `QueueManager::new`. -/
def new : QueueManager := withCapacity 100

variable (m : QueueManager)

/-- `get_queue`. -/
def getQueue (taskId : String) : Option ℕ := m.queues.lookup taskId

theorem keyed_add (queue : EventQueue) (k : String) (q : ℕ)
    (h : (m.queues.insert queue.key m.heap.length).lookup k = some q) :
    ((m.heap ++ [queue])[q]?).map EventQueue.key = some k := by
  by_cases hk : k = queue.key
  · subst hk
    rw [Finmap.lookup_insert] at h
    cases h
    rw [List.getElem?_concat_length]
    rfl
  · rw [Finmap.lookup_insert_of_ne _ hk] at h
    have hq := m.keyed k q h
    cases hm : m.heap[q]? with
    | none => rw [hm] at hq; cases hq
    | some p =>
      rw [List.getElem?_append_left (List.getElem?_eq_some_iff.mp hm).1]
      exact hq

/-- The manager with one more queue, mapped under its key. -/
def add (queue : EventQueue) : QueueManager where
  queues := m.queues.insert queue.key m.heap.length
  capacity := m.capacity
  heap := m.heap ++ [queue]
  keyed := m.keyed_add queue

/-- `get_or_create_queue`; nothing when `EventQueue::new` panics.  The source
looks under the read lock first and again under the write lock.  A look that
finds no queue changes nothing, so the operation is the one lock section that
answers. -/
def getOrCreateQueue (taskId : String) : Option (ℕ × QueueManager) :=
  match m.queues.lookup taskId with
  | some q => some (q, m)
  | none => (EventQueue.new m.capacity taskId).map fun queue => (m.heap.length, m.add queue)

/-- `remove_queue`. -/
def removeQueue (taskId : String) : QueueManager where
  queues := m.queues.erase taskId
  capacity := m.capacity
  heap := m.heap
  keyed k q h := by
    by_cases hk : k = taskId
    · subst hk
      rw [Finmap.lookup_erase] at h
      cases h
    · rw [Finmap.lookup_erase_ne hk] at h
      exact m.keyed k q h

/-- Whether the map still holds queue `q`. -/
def maps (q : ℕ) : Bool := decide (∃ k ∈ m.queues.keys, m.queues.lookup k = some q)

/-- The channel of a queue. -/
def channel (q : ℕ) : Option (Channel Sent) := (m.heap[q]?).map EventQueue.channel

/-- All that was ever sent to a queue. -/
def log (q : ℕ) : List Sent := ((m.channel q).map Channel.log).getD []

/-- `EventQueue::send` on the queue named `q`. -/
def send (q : ℕ) (e : Sent) : QueueManager where
  queues := m.queues
  capacity := m.capacity
  heap := m.heap.modify q (·.push e)
  keyed k p h := by
    rw [List.getElem?_modify, ← m.keyed k p h]
    cases m.heap[p]? with
    | none => rfl
    | some queue => by_cases hq : q = p <;> simp [hq, EventQueue.push]

/-- The task a queue was opened for. -/
def key (q : ℕ) : Option String := (m.heap[q]?).map EventQueue.key

/-! ### What each operation changes -/

variable {m} {taskId : String} {q : ℕ}

@[simp] theorem getQueue_send (p : ℕ) (e : Sent) :
    (m.send p e).getQueue taskId = m.getQueue taskId := rfl

theorem channel_send (p : ℕ) (e : Sent) :
    (m.send p e).channel q =
      if p = q then (m.channel q).map (·.send e) else m.channel q := by
  simp only [channel, send, List.getElem?_modify]
  split <;> cases m.heap[q]? <;> simp [EventQueue.push, *]

@[simp] theorem key_send (p : ℕ) (e : Sent) : (m.send p e).key q = m.key q := by
  simp only [key, send, List.getElem?_modify]
  cases m.heap[q]? with
  | none => rfl
  | some queue => by_cases h : p = q <;> simp [h, EventQueue.push]

theorem log_of_channel {ch : Channel Sent} (h : m.channel q = some ch) : m.log q = ch.log := by
  rw [log, h]
  rfl

theorem log_send (p : ℕ) (e : Sent) (h : p < m.heap.length) :
    (m.send p e).log q = if p = q then m.log q ++ [e] else m.log q := by
  rw [log, log, channel_send]
  split
  · subst p
    rw [channel, List.getElem?_eq_getElem h]
    rfl
  · rfl

theorem getQueue_removeQueue (k : String) :
    (m.removeQueue k).getQueue taskId = if taskId = k then none else m.getQueue taskId := by
  by_cases h : taskId = k
  · subst h
    simp [getQueue, removeQueue]
  · simp [getQueue, removeQueue, h]

theorem getQueue_add (queue : EventQueue) :
    (m.add queue).getQueue taskId =
      if taskId = queue.key then some m.heap.length else m.getQueue taskId := by
  split
  · subst taskId
    exact Finmap.lookup_insert _
  · exact Finmap.lookup_insert_of_ne _ ‹_›

@[simp] theorem log_removeQueue (k : String) : (m.removeQueue k).log q = m.log q := rfl

@[simp] theorem key_removeQueue (k : String) : (m.removeQueue k).key q = m.key q := rfl

theorem maps_iff : m.maps q = true ↔ ∃ k, m.getQueue k = some q := by
  rw [maps, decide_eq_true_eq]
  constructor
  · rintro ⟨k, -, hk⟩
    exact ⟨k, hk⟩
  · rintro ⟨k, hk⟩
    refine ⟨k, ?_, hk⟩
    rw [Finmap.mem_keys, ← Finmap.lookup_isSome, show m.queues.lookup k = some q from hk]
    rfl

theorem key_of_getQueue (h : m.getQueue taskId = some q) : m.key q = some taskId :=
  m.keyed taskId q h

theorem lt_of_key {k : String} (h : m.key q = some k) : q < m.heap.length := by
  obtain ⟨queue, hq, -⟩ := Option.map_eq_some_iff.mp h
  exact (List.getElem?_eq_some_iff.mp hq).1

/-- **What `get_or_create_queue` does**: it finds the queue of the task and
changes nothing, or it adds a queue for the task at the end of the heap. -/
theorem getOrCreateQueue_cases {m' : QueueManager}
    (h : m.getOrCreateQueue taskId = some (q, m')) :
    (m.getQueue taskId = some q ∧ m' = m) ∨
      (m.getQueue taskId = none ∧ q = m.heap.length ∧
        ∃ queue, queue.channel.log = [] ∧ queue.key = taskId ∧ m' = m.add queue) := by
  rw [getOrCreateQueue] at h
  cases hq : m.queues.lookup taskId with
  | some p =>
    rw [hq] at h
    cases h
    exact Or.inl ⟨hq, rfl⟩
  | none =>
    rw [hq] at h
    obtain ⟨queue, hn, he⟩ := Option.map_eq_some_iff.mp h
    rw [EventQueue.new] at hn
    split at hn
    · cases hn
    · cases hn
      cases he
      exact Or.inr ⟨hq, rfl, _, rfl, rfl, rfl⟩

variable {m' : QueueManager}

/-- A queue got is mapped, and no other mapping is lost. -/
theorem getQueue_of_getOrCreateQueue (h : m.getOrCreateQueue taskId = some (q, m')) :
    m'.getQueue taskId = some q ∧ ∀ k p, m.getQueue k = some p → m'.getQueue k = some p := by
  rcases getOrCreateQueue_cases h with ⟨hk, rfl⟩ | ⟨hk, rfl, queue, -, rfl, rfl⟩
  · exact ⟨hk, fun _ _ h => h⟩
  · refine ⟨by rw [getQueue_add, if_pos rfl], fun k p hp => ?_⟩
    have hne : k ≠ queue.key := by
      rintro rfl
      rw [hk] at hp
      cases hp
    rw [getQueue_add, if_neg hne, hp]

/-- What is mapped to a queue there was had been mapped to it. -/
theorem getQueue_before_getOrCreateQueue (h : m.getOrCreateQueue taskId = some (q, m')) {p : ℕ}
    {k k' : String} (hp : m.key p = some k) (hk : m'.getQueue k' = some p) :
    m.getQueue k' = some p := by
  rcases getOrCreateQueue_cases h with ⟨-, rfl⟩ | ⟨-, rfl, queue, -, rfl, rfl⟩
  · exact hk
  · have hlt := lt_of_key hp
    rw [getQueue_add] at hk
    split at hk
    · cases hk
      omega
    · exact hk

/-- Getting a queue keeps the keys of those there are. -/
theorem key_of_getOrCreateQueue (h : m.getOrCreateQueue taskId = some (q, m')) {p : ℕ}
    {k : String} (hk : m.key p = some k) : m'.key p = some k := by
  rcases getOrCreateQueue_cases h with ⟨-, rfl⟩ | ⟨-, rfl, queue, -, -, rfl⟩
  · exact hk
  · rw [key, add, List.getElem?_append_left (lt_of_key hk)]
    exact hk

/-- Getting a queue sends nothing. -/
theorem log_of_getOrCreateQueue (h : m.getOrCreateQueue taskId = some (q, m')) (p : ℕ) :
    m'.log p = m.log p := by
  rcases getOrCreateQueue_cases h with ⟨-, rfl⟩ | ⟨-, rfl, queue, hlog, -, rfl⟩
  · rfl
  · by_cases hp : p < m.heap.length
    · simp only [log, channel, add]
      rw [List.getElem?_append_left hp]
    · by_cases hpe : p = m.heap.length
      · subst hpe
        simp [log, channel, add, hlog]
      · have h₁ : m.heap[p]? = none := List.getElem?_eq_none (by omega)
        have h₂ : (m.heap ++ [queue])[p]? = none := List.getElem?_eq_none (by simp; omega)
        simp [log, channel, add, h₁, h₂]

/-- A log after a send to `p`. -/
theorem log_send_cases (p : ℕ) (e : Sent) (q : ℕ) :
    (m.send p e).log q = m.log q ∨ (p = q ∧ (m.send p e).log q = m.log q ++ [e]) := by
  by_cases hp : p < m.heap.length
  · rw [log_send p e hp]
    split
    · exact Or.inr ⟨‹_›, rfl⟩
    · exact Or.inl rfl
  · left
    rw [log, log, channel_send]
    split
    · subst p
      rw [channel, List.getElem?_eq_none (by omega)]
      rfl
    · rfl

end QueueManager

end Ra2a
