import Mathlib.Data.List.Induction

/-!
# A cell with snapshots and updates

A cell holds a value or nothing.  A write either puts a value there, whatever
was there before, or updates what it finds.

A sequence of writes forgets everything before its last `put`: what it leaves is
that value with the later updates acting on it in turn, and where nothing was
put they act on what the cell held at first (`run_eq`).  So two ways of updating
leave the same value exactly when they do from the last snapshot on
(`run_eq_run_iff`).
-/

namespace Cell

universe u v

inductive Write (α : Type u) (υ : Type v)
  | put (a : α)
  | update (x : υ)

variable {α : Type u} {υ : Type v}

/-- What a write leaves, for updates that act as `act`. -/
def apply (act : Option α → υ → Option α) (r : Option α) : Write α υ → Option α
  | .put a => some a
  | .update x => act r x

def run (act : Option α → υ → Option α) (r : Option α) (ws : List (Write α υ)) : Option α :=
  ws.foldl (apply act) r

/-- The last value put. -/
def snapshot (ws : List (Write α υ)) : Option α :=
  ws.foldl (fun b w => match w with | .put a => some a | .update _ => b) none

/-- The updates after the last value put. -/
def since (ws : List (Write α υ)) : List υ :=
  ws.foldl (fun us w => match w with | .put _ => [] | .update x => us ++ [x]) []

variable {act act' : Option α → υ → Option α} {r : Option α} {ws : List (Write α υ)}

@[simp] theorem snapshot_nil : snapshot ([] : List (Write α υ)) = none := rfl

@[simp] theorem since_nil : since ([] : List (Write α υ)) = [] := rfl

@[simp] theorem snapshot_put (a : α) : snapshot (ws ++ [.put a]) = some a := by
  simp [snapshot]

@[simp] theorem snapshot_update (x : υ) : snapshot (ws ++ [.update x]) = snapshot ws := by
  simp [snapshot]

@[simp] theorem since_put (a : α) : since (ws ++ [.put a]) = [] := by
  simp [since]

@[simp] theorem since_update (x : υ) : since (ws ++ [.update x]) = since ws ++ [x] := by
  simp [since]

@[simp] theorem run_nil : run act r [] = r := rfl

theorem run_append (w : Write α υ) : run act r (ws ++ [w]) = apply act (run act r ws) w := by
  simp [run]

/-- **What a sequence of writes leaves.** -/
theorem run_eq : run act r ws = (since ws).foldl act ((snapshot ws).or r) := by
  induction ws using List.reverseRecOn with
  | nil => simp
  | append_singleton ws w ih =>
    rw [run_append, ih]
    cases w with
    | put a => simp [apply]
    | update x => simp [apply, List.foldl_append]

theorem run_eq_run_iff :
    run act r ws = run act' r ws ↔
      (since ws).foldl act ((snapshot ws).or r) = (since ws).foldl act' ((snapshot ws).or r) := by
  rw [run_eq, run_eq]

/-- The last snapshot was put by one of the writes. -/
theorem mem_of_snapshot {a : α} (h : snapshot ws = some a) : Write.put a ∈ ws := by
  induction ws using List.reverseRecOn with
  | nil => simp at h
  | append_singleton ws w ih =>
    cases w with
    | put b =>
      rw [snapshot_put] at h
      cases h
      exact List.mem_append_right _ (List.mem_singleton_self _)
    | update x =>
      rw [snapshot_update] at h
      exact List.mem_append_left _ (ih h)

/-- Where a value is put, there is a last one. -/
theorem snapshot_ne_none {a : α} (h : Write.put a ∈ ws) : snapshot ws ≠ none := by
  induction ws using List.reverseRecOn with
  | nil => simp at h
  | append_singleton ws w ih =>
    cases w with
    | put b => simp
    | update x =>
      rw [snapshot_update]
      rcases List.mem_append.mp h with h | h
      · exact ih h
      · simp at h

end Cell
