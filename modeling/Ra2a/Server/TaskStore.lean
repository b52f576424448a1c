import Ra2a.Error
import Ra2a.Lib.Keyed
import Ra2a.Types.Task

/-!
# The in-memory task store

`InMemoryTaskStore` of `server/task_store.rs`: a map from task ids to versioned
tasks and a counter the versions are drawn from.

`save` is two operations in the source: the counter is advanced before the map
is locked, the check and the insertion happen under the lock.  They are
`drawVersion` and `commit` here, and `save` runs them in turn.

Every entry stands under its own task's id, since `save` takes the key from the
task.  The store carries that as a field.
-/

namespace Ra2a

structure TaskVersion where
  val : Int64
  deriving DecidableEq

/-- Version tracking is not active. -/
def TaskVersion.MISSING : TaskVersion := ⟨0⟩

instance : LE TaskVersion := ⟨fun a b => a.val ≤ b.val⟩

structure VersionedTask where
  task : Task
  version : TaskVersion
  deriving DecidableEq

/-- The store: its entries, the next version, and that entries stand under
their own ids. -/
structure InMemoryTaskStore where
  tasks : Finmap fun _ : String => VersionedTask
  nextVersion : Int64
  keyed : ∀ k v, tasks.lookup k = some v → v.task.id = k

namespace InMemoryTaskStore

/-- `InMemoryTaskStore::new`. -/
def new : InMemoryTaskStore := ⟨∅, 1, fun k v h => by simp at h⟩

/-- `InMemoryTaskStore::default`, as derived: the default counter stands at zero. -/
def default : InMemoryTaskStore := ⟨∅, 0, fun k v h => by simp at h⟩

/-- `TaskStore::get`. -/
def get (s : InMemoryTaskStore) (taskId : String) : Option (Task × TaskVersion) :=
  (s.tasks.lookup taskId).map fun vt => (vt.task, vt.version)

/-- The `fetch_add` of a save: the version drawn, and the store after it. -/
def drawVersion (s : InMemoryTaskStore) : TaskVersion × InMemoryTaskStore :=
  (⟨s.nextVersion⟩, { s with nextVersion := s.nextVersion + 1 })

theorem keyed_insert (s : InMemoryTaskStore) (entry : VersionedTask) (k : String)
    (v : VersionedTask) (h : (s.tasks.insert entry.task.id entry).lookup k = some v) :
    v.task.id = k :=
  Keyed.OwnKeys.insert s.keyed entry k v h

/-- The check and insertion of a save, under the write lock. -/
def commit (s : InMemoryTaskStore) (entry : VersionedTask) (prev : TaskVersion) :
    Except A2AError TaskVersion × InMemoryTaskStore :=
  match s.tasks.lookup entry.task.id with
  | some existing =>
    if prev ≠ .MISSING ∧ prev ≠ existing.version then (.error .concurrentTaskModification, s)
    else (.ok entry.version, { s with
      tasks := s.tasks.insert entry.task.id entry, keyed := s.keyed_insert entry })
  | none => (.ok entry.version, { s with
      tasks := s.tasks.insert entry.task.id entry, keyed := s.keyed_insert entry })

/-- `TaskStore::save`. -/
def save (s : InMemoryTaskStore) (task : Task) (prev : TaskVersion) :
    Except A2AError TaskVersion × InMemoryTaskStore :=
  let (ver, s) := s.drawVersion
  s.commit ⟨task, ver⟩ prev

theorem keyed_erase (s : InMemoryTaskStore) (taskId k : String) (v : VersionedTask)
    (h : (s.tasks.erase taskId).lookup k = some v) : v.task.id = k :=
  Keyed.OwnKeys.erase s.keyed taskId k v h

/-- `TaskStore::delete`. -/
def delete (s : InMemoryTaskStore) (taskId : String) : InMemoryTaskStore :=
  { s with tasks := s.tasks.erase taskId, keyed := s.keyed_erase taskId }

/-! ### What the operations leave -/

/-- What a save refuses: the id has a record, and the caller passes a version
that is not the record's. -/
def Conflicts (s : InMemoryTaskStore) (taskId : String) (prev : TaskVersion) : Prop :=
  ∃ existing, s.tasks.lookup taskId = some existing ∧ prev ≠ .MISSING ∧ prev ≠ existing.version

/-- The store with one more record. -/
def put (s : InMemoryTaskStore) (entry : VersionedTask) : InMemoryTaskStore :=
  { s with tasks := s.tasks.insert entry.task.id entry, keyed := s.keyed_insert entry }

section Operations

variable {s : InMemoryTaskStore} {entry : VersionedTask} {prev : TaskVersion} {taskId k : String}

theorem not_conflicts_missing : ¬ s.Conflicts taskId .MISSING := by
  rintro ⟨_, -, hm, -⟩
  exact hm rfl

theorem commit_of_conflicts (h : s.Conflicts entry.task.id prev) :
    s.commit entry prev = (.error .concurrentTaskModification, s) := by
  obtain ⟨existing, hl, hm, hv⟩ := h
  rw [commit, hl]
  exact if_pos ⟨hm, hv⟩

theorem commit_of_not_conflicts (h : ¬ s.Conflicts entry.task.id prev) :
    s.commit entry prev = (.ok entry.version, s.put entry) := by
  rw [commit]
  split
  · rename_i existing hl
    exact if_neg fun hc => h ⟨existing, hl, hc⟩
  · rfl

theorem save_of_conflicts {task : Task} (h : s.Conflicts task.id prev) :
    s.save task prev = (.error .concurrentTaskModification, s.drawVersion.2) :=
  @commit_of_conflicts s.drawVersion.2 ⟨task, ⟨s.nextVersion⟩⟩ prev h

theorem save_of_not_conflicts {task : Task} (h : ¬ s.Conflicts task.id prev) :
    s.save task prev =
      (.ok ⟨s.nextVersion⟩, s.drawVersion.2.put ⟨task, ⟨s.nextVersion⟩⟩) :=
  @commit_of_not_conflicts s.drawVersion.2 ⟨task, ⟨s.nextVersion⟩⟩ prev h

@[simp] theorem nextVersion_put : (s.put entry).nextVersion = s.nextVersion := rfl

@[simp] theorem nextVersion_delete : (s.delete taskId).nextVersion = s.nextVersion := rfl

theorem lookup_put :
    (s.put entry).tasks.lookup k = if entry.task.id = k then some entry else s.tasks.lookup k :=
  Keyed.lookup_insert _ _ _

theorem lookup_delete :
    (s.delete taskId).tasks.lookup k = if taskId = k then none else s.tasks.lookup k :=
  Keyed.lookup_erase _ _

theorem get_eq_some_iff {t : Task} {v : TaskVersion} :
    s.get taskId = some (t, v) ↔ s.tasks.lookup taskId = some ⟨t, v⟩ := by
  rw [get, Option.map_eq_some_iff]
  constructor
  · rintro ⟨⟨t', v'⟩, hl, h⟩
    cases h
    exact hl
  · intro h
    exact ⟨⟨t, v⟩, h, rfl⟩

end Operations

/-- The task stored under an id, without its version. -/
def task? (s : InMemoryTaskStore) (taskId : String) : Option Task := (s.get taskId).map Prod.fst

theorem task?_eq (s : InMemoryTaskStore) (k : String) :
    s.task? k = (s.tasks.lookup k).map VersionedTask.task := by
  simp [task?, get, Function.comp_def]

theorem task?_put {s : InMemoryTaskStore} {entry : VersionedTask} {k : String} :
    (s.put entry).task? k = if entry.task.id = k then some entry.task else s.task? k := by
  rw [task?_eq, lookup_put, task?_eq]
  split
  · rfl
  · rfl

theorem task?_delete {s : InMemoryTaskStore} {taskId k : String} :
    (s.delete taskId).task? k = if taskId = k then none else s.task? k := by
  rw [task?_eq, lookup_delete, task?_eq]
  split
  · rfl
  · rfl

theorem id_of_task? {s : InMemoryTaskStore} {k : String} {t : Task} (h : s.task? k = some t) :
    t.id = k := by
  rw [task?_eq] at h
  obtain ⟨v, hv, rfl⟩ := Option.map_eq_some_iff.mp h
  exact s.keyed k v hv

/-- **An unconditional save always commits**, and changes the one record. -/
theorem task?_save_missing (s : InMemoryTaskStore) (task : Task) (k : String) :
    (s.save task .MISSING).2.task? k = if k = task.id then some task else s.task? k := by
  rw [save_of_not_conflicts not_conflicts_missing, task?_put]
  exact if_congr eq_comm rfl rfl

end InMemoryTaskStore

/-- A task to store. -/
def someTask : Task := .new "t1" "c1" "12:00"

end Ra2a
