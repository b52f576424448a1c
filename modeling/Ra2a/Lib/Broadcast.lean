import Mathlib.Data.List.Basic
import Mathlib.Data.List.Forall2

/-!
# Broadcast channels

A broadcast channel keeps what was sent in one log and lets any number of
receivers read it, each at its own position.  It holds the last `capacity`
values: a receiver further behind than that is told how many it lost and goes
on at the oldest value held.  A receiver that has read everything waits while
the channel is open, and learns that it is closed once it is.

`unread` is what a receiver has still to read, and receiving takes its head
(`unread_of_recv_ok`).  `Read` is what it has read: the values at some of the
positions it has passed, in their order.  `Told` is what it was told, lags
included: put end to end it accounts for all the receiver has passed.
-/

namespace Broadcast

universe u v

variable {α : Type u}

/-- A channel: how many values it holds, and all it was sent, oldest first. -/
structure Channel (α : Type u) where
  capacity : ℕ
  log : List α

/-- What a receive returns. -/
inductive Received (α : Type u)
  | ok (value : α)
  | lagged (skipped : ℕ)
  | closed

namespace Channel

variable (c : Channel α)

def send (a : α) : Channel α := { c with log := c.log ++ [a] }

/-- The position of the oldest value held. -/
def oldest : ℕ := c.log.length - c.capacity

/-- A receive at position `pos`: what it returns and the position after it, or
nothing when the receiver has to wait. -/
def recv (closed : Bool) (pos : ℕ) : Option (Received α × ℕ) :=
  if pos < c.oldest then some (.lagged (c.oldest - pos), c.oldest)
  else
    match c.log[pos]? with
    | some a => some (.ok a, pos + 1)
    | none => if closed then some (.closed, pos) else none

/-- What a receiver at `pos` has still to read. -/
def unread (pos : ℕ) : List α := c.log.drop pos

@[simp] theorem log_send (a : α) : (c.send a).log = c.log ++ [a] := rfl

variable {c} {closed : Bool} {pos pos' : ℕ}

/-- A value received is the next one in the log. -/
theorem recv_ok {a : α} (h : c.recv closed pos = some (.ok a, pos')) :
    c.log[pos]? = some a ∧ pos' = pos + 1 := by
  rw [recv] at h
  split at h
  · simp at h
  · cases ha : c.log[pos]? with
    | none => rw [ha] at h; cases closed <;> simp at h
    | some b =>
      rw [ha] at h
      simp only [Option.some.injEq, Prod.mk.injEq, Received.ok.injEq] at h
      exact ⟨congrArg some h.1, h.2.symm⟩

/-- A receiver that lags goes on further up the log. -/
theorem recv_lagged {n : ℕ} (h : c.recv closed pos = some (.lagged n, pos')) :
    pos < pos' ∧ pos' ≤ c.log.length := by
  rw [recv] at h
  split at h
  · rename_i hlt
    simp only [Option.some.injEq, Prod.mk.injEq, Received.lagged.injEq] at h
    rw [← h.2]
    exact ⟨hlt, Nat.sub_le _ _⟩
  · cases ha : c.log[pos]? with
    | none => rw [ha] at h; cases closed <;> simp at h
    | some b => rw [ha] at h; simp at h

/-- It goes on at the oldest value held. -/
theorem recv_lagged_oldest {n : ℕ} (h : c.recv closed pos = some (.lagged n, pos')) :
    pos' = c.oldest := by
  rw [recv] at h
  split at h
  · simp only [Option.some.injEq, Prod.mk.injEq] at h
    exact h.2.symm
  · cases ha : c.log[pos]? with
    | none => rw [ha] at h; cases closed <;> simp at h
    | some b => rw [ha] at h; simp at h

/-- It says how many it has lost. -/
theorem recv_lagged_skipped {n : ℕ} (h : c.recv closed pos = some (.lagged n, pos')) :
    n = pos' - pos := by
  rw [recv] at h
  split at h
  · simp only [Option.some.injEq, Prod.mk.injEq, Received.lagged.injEq] at h
    rw [← h.1, ← h.2]
  · cases ha : c.log[pos]? with
    | none => rw [ha] at h; cases closed <;> simp at h
    | some b => rw [ha] at h; simp at h

/-- Only a closed channel says it is closed. -/
theorem recv_closed (h : c.recv closed pos = some (.closed, pos')) :
    closed = true ∧ pos' = pos := by
  rw [recv] at h
  split at h
  · simp at h
  · cases ha : c.log[pos]? with
    | some b => rw [ha] at h; simp at h
    | none =>
      rw [ha] at h
      cases closed with
      | false => simp at h
      | true =>
        simp only [if_true, Option.some.injEq, Prod.mk.injEq] at h
        exact ⟨rfl, h.2.symm⟩

/-- It says so to a receiver that has read everything. -/
theorem length_le_of_recv_closed (h : c.recv closed pos = some (.closed, pos')) :
    c.log.length ≤ pos := by
  rw [recv] at h
  split at h
  · simp at h
  · cases ha : c.log[pos]? with
    | some b => rw [ha] at h; simp at h
    | none => exact List.getElem?_eq_none_iff.mp ha

/-- Nobody waits at a closed channel. -/
theorem recv_ne_none (c : Channel α) (pos : ℕ) : c.recv true pos ≠ none := by
  rw [recv]
  split
  · exact Option.some_ne_none _
  · cases c.log[pos]? <;> exact Option.some_ne_none _

/-- Nor does one who has not read everything. -/
theorem recv_ne_none_of_lt (h : pos < c.log.length) : c.recv closed pos ≠ none := by
  rw [recv]
  split
  · exact Option.some_ne_none _
  · rw [List.getElem?_eq_getElem h]
    exact Option.some_ne_none _

/-- At an open channel a receiver that has read everything waits. -/
theorem recv_of_unread_nil (h : c.unread pos = []) : c.recv false pos = none := by
  have hlen : c.log.length ≤ pos := List.drop_eq_nil_iff.mp h
  have hheld : ¬ pos < c.oldest := by
    rw [oldest]
    omega
  rw [recv, if_neg hheld, List.getElem?_eq_none hlen]
  rfl

/-- Receiving takes the head of what is unread. -/
theorem unread_of_recv_ok {a : α} (h : c.recv closed pos = some (.ok a, pos')) :
    c.unread pos = a :: c.unread pos' := by
  obtain ⟨ha, rfl⟩ := recv_ok h
  obtain ⟨hlt, rfl⟩ := List.getElem?_eq_some_iff.mp ha
  exact List.drop_eq_getElem_cons hlt

end Channel

/-! ### What a receiver has read -/

/-- A receiver that subscribed at `since` and has come to `pos` has read the
`values` at the positions `ps` of the log. -/
structure Read (log : List α) (since pos : ℕ) (ps : List ℕ) (values : List α) : Prop where
  ordered : ps.Pairwise (· < ·)
  bounds : ∀ p ∈ ps, since ≤ p ∧ p < pos
  values_eq : values.map some = ps.map (log[·]?)
  since_le : since ≤ pos
  pos_le : pos ≤ log.length

namespace Read

variable {log values : List α} {since pos pos' : ℕ} {ps : List ℕ} {c : Channel α} {closed : Bool}

theorem subscribe (log : List α) : Read log log.length log.length [] [] :=
  ⟨List.Pairwise.nil, by simp, rfl, Nat.le_refl _, Nat.le_refl _⟩

/-- The log may grow. -/
theorem append (h : Read log since pos ps values) (later : List α) :
    Read (log ++ later) since pos ps values := by
  refine ⟨h.ordered, h.bounds, ?_, h.since_le, ?_⟩
  · rw [h.values_eq]
    refine List.map_congr_left fun p hp => ?_
    have hlt : p < log.length := Nat.lt_of_lt_of_le (h.bounds p hp).2 h.pos_le
    rw [List.getElem?_append_left hlt]
  · rw [List.length_append]
    exact Nat.le_add_right_of_le h.pos_le

/-- A value received is read. -/
theorem recv_ok (h : Read c.log since pos ps values) {a : α}
    (hr : c.recv closed pos = some (.ok a, pos')) :
    Read c.log since pos' (ps ++ [pos]) (values ++ [a]) := by
  obtain ⟨ha, rfl⟩ := Channel.recv_ok hr
  refine ⟨?_, ?_, ?_, Nat.le_succ_of_le h.since_le, (List.getElem?_eq_some_iff.mp ha).1⟩
  · refine List.pairwise_append.mpr ⟨h.ordered, List.pairwise_singleton _ _, ?_⟩
    intro p hp p' hp'
    rw [List.mem_singleton.mp hp']
    exact (h.bounds p hp).2
  · intro p hp
    rcases List.mem_append.mp hp with hp | hp
    · obtain ⟨h₁, h₂⟩ := h.bounds p hp
      exact ⟨h₁, by omega⟩
    · rw [List.mem_singleton.mp hp]
      exact ⟨h.since_le, by omega⟩
  · rw [List.map_append, List.map_append, h.values_eq, List.map_singleton, List.map_singleton, ha]

/-- A lag reads nothing. -/
theorem recv_lagged (h : Read c.log since pos ps values) {n : ℕ}
    (hr : c.recv closed pos = some (.lagged n, pos')) : Read c.log since pos' ps values := by
  obtain ⟨hlt, hle⟩ := Channel.recv_lagged hr
  refine ⟨h.ordered, ?_, h.values_eq, Nat.le_trans h.since_le (Nat.le_of_lt hlt), hle⟩
  intro p hp
  obtain ⟨h₁, h₂⟩ := h.bounds p hp
  exact ⟨h₁, Nat.lt_trans h₂ hlt⟩

end Read

/-! ### What a receiver was told -/

/-- What a receive stands for: a value for itself, a lag for as many entries as it
says. -/
inductive Covers : Received α → List α → Prop
  | ok (a : α) : Covers (.ok a) [a]
  | lagged (xs : List α) (h : xs ≠ []) : Covers (.lagged xs.length) xs

/-- A receiver that subscribed at `since` and has come to `pos` was told `items`:
what they stand for, put end to end, is the log between the two. -/
structure Told {ι : Type v} (Stands : ι → List α → Prop) (log : List α) (since pos : ℕ)
    (items : List ι) : Prop where
  parts : ∃ parts, List.Forall₂ Stands items parts ∧ parts.flatten = (log.take pos).drop since
  since_le : since ≤ pos
  pos_le : pos ≤ log.length

/-- The entries between two positions, cut at a third. -/
theorem drop_take_append {log : List α} {a b d : ℕ} (hab : a ≤ b) (hbd : b ≤ d) :
    (log.take b).drop a ++ (log.take d).drop b = (log.take d).drop a := by
  have htake : log.take b = (log.take d).take b := by rw [List.take_take, Nat.min_eq_left hbd]
  have hdrop : (log.take d).drop b = ((log.take d).drop a).drop (b - a) := by
    rw [List.drop_drop, Nat.add_sub_cancel' hab]
  rw [htake, hdrop, List.drop_take, List.take_append_drop]

/-- **A receive stands for what the receiver passes.** -/
theorem covers_of_recv {c : Channel α} {closed : Bool} {pos pos' : ℕ} {res : Received α}
    (h : c.recv closed pos = some (res, pos')) (hopen : res ≠ .closed) :
    pos ≤ pos' ∧ pos' ≤ c.log.length ∧ Covers res ((c.log.take pos').drop pos) := by
  cases res with
  | closed => exact absurd rfl hopen
  | ok a =>
    obtain ⟨ha, rfl⟩ := Channel.recv_ok h
    obtain ⟨hlt, rfl⟩ := List.getElem?_eq_some_iff.mp ha
    have hone : (c.log.take (pos + 1)).drop pos = [c.log[pos]] := by
      rw [List.drop_take, Nat.add_sub_cancel_left, List.drop_eq_getElem_cons hlt]
      rfl
    rw [hone]
    exact ⟨Nat.le_succ pos, hlt, .ok _⟩
  | lagged n =>
    obtain ⟨hlt, hle⟩ := Channel.recv_lagged h
    have hlen : ((c.log.take pos').drop pos).length = n := by
      rw [List.length_drop, List.length_take, Nat.min_eq_left hle, Channel.recv_lagged_skipped h]
    refine ⟨Nat.le_of_lt hlt, hle, ?_⟩
    rw [← hlen]
    refine .lagged _ fun hnil => ?_
    rw [hnil, Channel.recv_lagged_skipped h, List.length_nil] at hlen
    omega

namespace Told

variable {ι : Type v} {Stands : ι → List α → Prop} {log : List α} {since pos pos' : ℕ}
  {items : List ι}

theorem subscribe (log : List α) : Told Stands log log.length log.length [] :=
  ⟨⟨[], .nil, by simp⟩, Nat.le_refl _, Nat.le_refl _⟩

/-- The log may grow. -/
theorem append (h : Told Stands log since pos items) (later : List α) :
    Told Stands (log ++ later) since pos items where
  parts := by
    rw [List.take_append_of_le_length h.pos_le]
    exact h.parts
  since_le := h.since_le
  pos_le := by
    rw [List.length_append]
    exact Nat.le_add_right_of_le h.pos_le

/-- One item more, which stands for what lies between the two positions. -/
theorem concat (h : Told Stands log since pos items) {item : ι} (hle : pos ≤ pos')
    (hlen : pos' ≤ log.length) (hitem : Stands item ((log.take pos').drop pos)) :
    Told Stands log since pos' (items ++ [item]) where
  parts := by
    obtain ⟨parts, hparts, hflat⟩ := h.parts
    refine ⟨parts ++ [(log.take pos').drop pos], List.rel_append hparts (.cons hitem .nil), ?_⟩
    rw [List.flatten_concat, hflat, drop_take_append h.since_le hle]
  since_le := Nat.le_trans h.since_le hle
  pos_le := hlen

end Told

end Broadcast
