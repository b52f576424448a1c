import Ra2a.Lib.Session
import Ra2a.Server.TaskStore.List
import Ra2a.Server.TaskStore.Row

/-!
# The SQL task stores

The stores that `impl_sql_task_store!` of `server/task_store.rs` makes.  A store
is a table of task rows with the id for a key, and a counter.  `save` upserts and
takes no notice of the version it is given, `get` returns every task with the
version that means versions are not tracked, and `list` returns the whole table.

A client issues its calls to one store after another.  The version it passes to a
save may be one that an earlier call returned, so what it means to call (`Op`) is
told from the call itself (`TraitCall`).

A SQL store and the in-memory store given the same calls agree as long as the
in-memory store refuses none of the saves, and otherwise the SQL store goes on as
if no save had a version (`sql_sessions`).
-/

namespace Ra2a

open Session

/-! ### The table -/

/-- The table `a2a_tasks`, the next version, and that the id is the key. -/
structure SqlTaskStore where
  rows : Finmap fun _ : String => TaskRow
  nextVersion : Int64
  keyed : ∀ k r, rows.lookup k = some r → r.id = k

namespace SqlTaskStore

/-- A store made by `new` over an empty table. -/
def new : SqlTaskStore := ⟨∅, 1, fun k r h => by simp at h⟩

/-- `INSERT INTO a2a_tasks … ON CONFLICT(id) DO UPDATE SET …`. -/
def upsert (rows : Finmap fun _ : String => TaskRow) (row : TaskRow) :
    Finmap fun _ : String => TaskRow :=
  match rows.lookup row.id with
  | some existing =>
    rows.insert row.id { existing with
      contextId := row.contextId
      statusState := row.statusState
      statusMessage := row.statusMessage
      statusTimestamp := row.statusTimestamp
      history := row.history
      artifacts := row.artifacts
      metadata := row.metadata }
  | none => rows.insert row.id row

/-- An update sets every column but the key. -/
theorem upsert_eq_insert (s : SqlTaskStore) (row : TaskRow) :
    upsert s.rows row = s.rows.insert row.id row := by
  rw [upsert]
  split
  · rename_i existing hl
    have hid : existing.id = row.id := s.keyed row.id existing hl
    rw [hid]
  · rfl

theorem keyed_upsert (s : SqlTaskStore) (row : TaskRow) (k : String) (r : TaskRow)
    (h : (upsert s.rows row).lookup k = some r) : r.id = k := by
  rw [upsert_eq_insert] at h
  exact Keyed.OwnKeys.insert s.keyed row k r h

theorem keyed_erase (s : SqlTaskStore) (taskId k : String) (r : TaskRow)
    (h : (s.rows.erase taskId).lookup k = some r) : r.id = k :=
  Keyed.OwnKeys.erase s.keyed taskId k r h

variable [Base64] [JsonText]

/-- `TaskStore::save`. -/
def save (s : SqlTaskStore) (task : Task) (_prev : TaskVersion) :
    Except A2AError TaskVersion × SqlTaskStore :=
  let row := TaskRow.fromTask task
  let ver : TaskVersion := ⟨s.nextVersion⟩
  (.ok ver, ⟨upsert s.rows row, s.nextVersion + 1, s.keyed_upsert row⟩)

/-- `TaskStore::get`. -/
def get (s : SqlTaskStore) (taskId now : String) : Option (Task × TaskVersion) :=
  (s.rows.lookup taskId).map fun r => (r.toTask now, .MISSING)

omit [Base64] [JsonText] in
/-- `TaskStore::delete`. -/
def delete (s : SqlTaskStore) (taskId : String) : SqlTaskStore :=
  ⟨s.rows.erase taskId, s.nextVersion, s.keyed_erase taskId⟩

/-- What `SELECT … FROM a2a_tasks` returns: the rows in some order. -/
structure Selection (s : SqlTaskStore) where
  rows : List TaskRow
  nodup : rows.Nodup
  mem_iff : ∀ r, r ∈ rows ↔ s.rows.lookup r.id = some r

/-- `TaskStore::list`; `now` is the clock as each row is decoded. -/
def list {s : SqlTaskStore} (sel : s.Selection) (now : String → String)
    (_req : ListTasksRequest) : ListTasksResponse :=
  let tasks := sel.rows.map fun r => r.toTask (now r.id)
  let total := saturateI32 tasks.length
  { tasks := tasks
    totalSize := total
    pageSize := total
    nextPageToken := "" }

theorem lookup_save (s : SqlTaskStore) (task : Task) (prev : TaskVersion) (k : String) :
    (s.save task prev).2.rows.lookup k =
      if task.id = k then some (TaskRow.fromTask task) else s.rows.lookup k := by
  have hrows : (s.save task prev).2.rows = s.rows.insert task.id (TaskRow.fromTask task) :=
    s.upsert_eq_insert (TaskRow.fromTask task)
  rw [hrows, Keyed.lookup_insert]

omit [Base64] [JsonText] in
theorem lookup_delete (s : SqlTaskStore) (taskId k : String) :
    (s.delete taskId).rows.lookup k = if taskId = k then none else s.rows.lookup k :=
  Keyed.lookup_erase _ _

end SqlTaskStore

/-! ### Sessions -/

namespace TaskStore

/-- A call of the trait. -/
inductive TraitCall
  | save (task : Task) (prev : TaskVersion)
  | get (taskId : String)
  | delete (taskId : String)
  | list (req : ListTasksRequest)

inductive Reply
  | saved (result : Except A2AError TaskVersion)
  | got (result : Option (Task × TaskVersion))
  | deleted
  | listed (response : ListTasksResponse)

/-- The version in a reply. -/
def Reply.version : Reply → Option TaskVersion
  | saved (.ok v) => some v
  | got (some (_, v)) => some v
  | _ => none

/-- A refused save. -/
def Reply.Refused (r : Reply) : Prop := r = saved (.error .concurrentTaskModification)

/-- The `prev` of a save: a version, or the one call `i` of the session returned. -/
inductive Prev
  | version (v : TaskVersion)
  | returned (i : ℕ)

def Prev.value (past : List Reply) : Prev → TaskVersion
  | version v => v
  | returned i => (past[i]?.bind Reply.version).getD .MISSING

/-- What the client means to call. -/
inductive Op
  | save (task : Task) (prev : Prev)
  | get (taskId : String)
  | delete (taskId : String)
  | list (req : ListTasksRequest)

def Op.call (past : List Reply) : Op → TraitCall
  | save task prev => .save task (prev.value past)
  | get taskId => .get taskId
  | delete taskId => .delete taskId
  | list req => .list req

/-- The same without a version. -/
def Op.unconditional : Op → Op
  | save task _ => save task (.version .MISSING)
  | op => op

end TaskStore

open TaskStore

/-- What the in-memory store may reply. -/
inductive InMemoryTaskStore.Answers (s : InMemoryTaskStore) :
    TraitCall → Reply → InMemoryTaskStore → Prop
  | save (task : Task) (prev : TaskVersion) :
    Answers s (.save task prev) (.saved (s.save task prev).1) (s.save task prev).2
  | get (taskId : String) : Answers s (.get taskId) (.got (s.get taskId)) s
  | delete (taskId : String) : Answers s (.delete taskId) .deleted (s.delete taskId)
  | list (req : ListTasksRequest) (it : s.Iteration) :
    Answers s (.list req) (.listed (s.list it req)) s

section

variable [Base64] [JsonText]

/-- What a SQL store may reply. -/
inductive SqlTaskStore.Answers (s : SqlTaskStore) : TraitCall → Reply → SqlTaskStore → Prop
  | save (task : Task) (prev : TaskVersion) :
    Answers s (.save task prev) (.saved (s.save task prev).1) (s.save task prev).2
  | get (taskId now : String) : Answers s (.get taskId) (.got (s.get taskId now)) s
  | delete (taskId : String) : Answers s (.delete taskId) .deleted (s.delete taskId)
  | list (req : ListTasksRequest) (sel : s.Selection) (now : String → String) :
    Answers s (.list req) (.listed (SqlTaskStore.list sel now req)) s

/-- A session with an in-memory store, empty at first. -/
abbrev InMemorySession (past : List (Op × Reply)) (s : InMemoryTaskStore) : Prop :=
  Run InMemoryTaskStore.Answers Op.call .new past s

/-- A session with a SQL store, empty at first. -/
abbrev SqlSession (past : List (Op × Reply)) (s : SqlTaskStore) : Prop :=
  Run SqlTaskStore.Answers Op.call .new past s

/-- The task comes back from its row as it was. -/
def Task.Lossless (t : Task) : Prop := ∀ now, (TaskRow.fromTask t).toTask now = t

/-- The row codec is lossless on what the call saves. -/
def TaskStore.Op.Lossless : Op → Prop
  | .save task _ => task.Lossless
  | _ => True

/-! ### What the two stores have in common -/

/-- The table holds the row of every task the in-memory store holds, and those
rows can be read back. -/
structure Mirrors (sql : SqlTaskStore) (mem : InMemoryTaskStore) : Prop where
  rows : ∀ k, sql.rows.lookup k = (mem.task? k).map TaskRow.fromTask
  nextVersion : sql.nextVersion = mem.nextVersion
  lossless : ∀ k t, mem.task? k = some t → t.Lossless

namespace Mirrors

variable {sql : SqlTaskStore} {mem : InMemoryTaskStore}

theorem new : Mirrors .new .new where
  rows _ := rfl
  nextVersion := rfl
  lossless k t h := by
    rw [InMemoryTaskStore.task?_eq, InMemoryTaskStore.new, Finmap.lookup_empty] at h
    cases h

/-- A save that is not refused leaves the two stores alike. -/
theorem save (h : Mirrors sql mem) {task : Task} (hl : task.Lossless) {prev prev' : TaskVersion}
    (hok : ¬ mem.Conflicts task.id prev') :
    Mirrors (sql.save task prev).2 (mem.save task prev').2 := by
  rw [InMemoryTaskStore.save_of_not_conflicts hok]
  have htask : ∀ k, (mem.drawVersion.2.put ⟨task, ⟨mem.nextVersion⟩⟩).task? k =
      if task.id = k then some task else mem.task? k :=
    fun k => InMemoryTaskStore.task?_put
  refine ⟨fun k => ?_, ?_, fun k t ht => ?_⟩
  · rw [htask, SqlTaskStore.lookup_save, h.rows]
    split
    · rfl
    · rfl
  · show sql.nextVersion + 1 = mem.nextVersion + 1
    rw [h.nextVersion]
  · rw [htask] at ht
    split at ht
    · cases ht
      exact hl
    · exact h.lossless k t ht

theorem get (h : Mirrors sql mem) (taskId now : String) :
    (sql.get taskId now).map Prod.fst = mem.task? taskId := by
  rw [SqlTaskStore.get, h.rows, Option.map_map, Option.map_map]
  cases ht : mem.task? taskId with
  | none => rfl
  | some t => exact congrArg some (h.lossless taskId t ht now)

theorem delete (h : Mirrors sql mem) (taskId : String) :
    Mirrors (sql.delete taskId) (mem.delete taskId) := by
  refine ⟨fun k => ?_, h.nextVersion, fun k t ht => ?_⟩
  · rw [InMemoryTaskStore.task?_delete, SqlTaskStore.lookup_delete, h.rows]
    split
    · rfl
    · rfl
  · rw [InMemoryTaskStore.task?_delete] at ht
    split at ht
    · cases ht
    · exact h.lossless k t ht

/-- The rows of the table are those of the tasks stored. -/
theorem lookup_eq_some_iff (h : Mirrors sql mem) {k : String} {r : TaskRow} :
    sql.rows.lookup k = some r ↔ ∃ t, mem.task? k = some t ∧ TaskRow.fromTask t = r := by
  rw [h.rows, Option.map_eq_some_iff]

/-- The whole table, decoded, is what the in-memory store holds. -/
theorem list (h : Mirrors sql mem) (sel : sql.Selection) (it : mem.Iteration)
    (now : String → String) (req : ListTasksRequest) :
    (it.values.map VersionedTask.task).Perm (SqlTaskStore.list sel now req).tasks := by
  -- the rows are those of stored tasks, so each decodes to the task it is the row of
  have hread : ∀ r ∈ sel.rows, mem.task? r.id = some (r.toTask (now r.id)) ∧
      TaskRow.fromTask (r.toTask (now r.id)) = r := by
    intro r hr
    obtain ⟨t, ht, rfl⟩ := h.lookup_eq_some_iff.mp ((sel.mem_iff r).mp hr)
    rw [h.lossless _ t ht]
    exact ⟨ht, rfl⟩
  refine (List.perm_ext_iff_of_nodup it.nodup_tasks ?_).mpr fun t => ?_
  · refine List.Nodup.map_on (fun r hr r' hr' heq => ?_) sel.nodup
    rw [← (hread r hr).2, ← (hread r' hr').2, heq]
  · rw [it.mem_tasks, SqlTaskStore.list, List.mem_map]
    constructor
    · intro ht
      refine ⟨TaskRow.fromTask t, (sel.mem_iff _).mpr (h.lookup_eq_some_iff.mpr ⟨t, ht, rfl⟩), ?_⟩
      exact h.lossless t.id t ht _
    · rintro ⟨r, hr, rfl⟩
      have hid : (r.toTask (now r.id)).id = r.id := InMemoryTaskStore.id_of_task? (hread r hr).1
      rw [hid]
      exact (hread r hr).1

end Mirrors

/-! ### Sessions compared -/

/-- Two exchanges that agree: a save with the same version, a get with the same
task, and a list of which the other store's list is the page asked for. -/
inductive Agree : Op × Reply → Op × Reply → Prop
  | saved (task : Task) (prev prev' : Prev) (v : TaskVersion) :
    Agree (.save task prev, .saved (.ok v)) (.save task prev', .saved (.ok v))
  | got (taskId : String) (r r' : Option (Task × TaskVersion))
      (htask : r.map Prod.fst = r'.map Prod.fst) :
    Agree (.get taskId, .got r) (.get taskId, .got r')
  | deleted (taskId : String) : Agree (.delete taskId, .deleted) (.delete taskId, .deleted)
  | listed (req : ListTasksRequest) (all page : ListTasksResponse) (order : List Task)
      (hall : order.Perm all.tasks)
      (hpage : page.tasks = Paging.page (req.retain order) req.limit req.offset) :
    Agree (.list req, .listed all) (.list req, .listed page)

/-- The calls are the same up to the versions given, what is saved can be read
back, and the second store does not refuse it. -/
structure Matched (x y : Op × Reply) : Prop where
  same : x.1.unconditional = y.1.unconditional
  lossless : x.1.Lossless
  accepted : ¬ y.2.Refused

omit [Base64] [JsonText] in
/-- Calls that are the same up to the version given. -/
theorem TaskStore.Op.cases_of_unconditional {o o' : Op} (h : o.unconditional = o'.unconditional) :
    (∃ task prev prev', o = .save task prev ∧ o' = .save task prev') ∨
      (∃ taskId, o = .get taskId ∧ o' = .get taskId) ∨
      (∃ taskId, o = .delete taskId ∧ o' = .delete taskId) ∨
      ∃ req, o = .list req ∧ o' = .list req := by
  cases o <;> cases o' <;> cases h <;> simp

/-- One call of each store. -/
theorem agree_of_answers {sql sql' : SqlTaskStore} {mem mem' : InMemoryTaskStore} {o o' : Op}
    {r r' : Reply} {past past' : List Reply} (h : Mirrors sql mem)
    (hm : Matched (o, r) (o', r')) (hsql : sql.Answers (o.call past) r sql')
    (hmem : mem.Answers (o'.call past') r' mem') :
    Mirrors sql' mem' ∧ Agree (o, r) (o', r') := by
  obtain ⟨hsame, hl, hok⟩ := hm
  rcases TaskStore.Op.cases_of_unconditional hsame with ⟨task, prev, prev', rfl, rfl⟩ |
    ⟨taskId, rfl, rfl⟩ | ⟨taskId, rfl, rfl⟩ | ⟨req, rfl, rfl⟩
  · cases hsql
    cases hmem
    have hconf : ¬ mem.Conflicts task.id (prev'.value past') := by
      intro hc
      apply hok
      show Reply.saved _ = _
      rw [InMemoryTaskStore.save_of_conflicts hc]
    refine ⟨h.save hl hconf, ?_⟩
    rw [InMemoryTaskStore.save_of_not_conflicts hconf, ← h.nextVersion]
    exact .saved task prev prev' _
  · cases hsql with
    | get _ now =>
      cases hmem
      exact ⟨h, .got taskId _ _ (h.get taskId now)⟩
  · cases hsql
    cases hmem
    exact ⟨h.delete taskId, .deleted taskId⟩
  · cases hsql with
    | list _ sel now =>
      cases hmem with
      | list _ it => exact ⟨h, .listed req _ _ _ (h.list sel it now req) rfl⟩

section

variable {past : List (Op × Reply)} {sql : SqlTaskStore}

/-- Two sessions with the same calls are matched if nothing of the second is
refused. -/
theorem matched_of_map_eq {past' : List (Op × Reply)}
    (hops : past.map (fun x => x.1.unconditional) = past'.map fun x => x.1.unconditional)
    (hl : ∀ x ∈ past, x.1.Lossless) (hok : ∀ y ∈ past', ¬ y.2.Refused) :
    List.Forall₂ Matched past past' :=
  (forall₂_of_map_eq hops).imp fun x y ⟨hxy, hx, hy⟩ => ⟨hxy, hl x hx, hok y hy⟩

/-- A SQL store refuses no save. -/
theorem SqlSession.accepted (h : SqlSession past sql) : ∀ x ∈ past, ¬ x.2.Refused := by
  refine h.forall_mem fun {past s s' o r} hans href => ?_
  generalize o.call (past.map Prod.snd) = call at hans
  cases hans <;> cases href

omit [Base64] [JsonText] in
/-- Nor does an in-memory store if no save has a version. -/
theorem InMemorySession.accepted {mem : InMemoryTaskStore} (h : InMemorySession past mem) :
    ∀ x ∈ past, x.1.unconditional = x.1 → ¬ x.2.Refused := by
  refine h.forall_mem fun {past s s' o r} hans hu href => ?_
  cases o with
  | save task prev =>
    cases hu
    cases hans
    have hsaved : Reply.saved (s.save task .MISSING).1 = _ := href
    rw [InMemoryTaskStore.save_of_not_conflicts InMemoryTaskStore.not_conflicts_missing] at hsaved
    cases hsaved
  | get _ => cases hans; cases href
  | delete _ => cases hans; cases href
  | list _ => cases hans; cases href

/-- A session with each store: as long as the calls match, so do the stores. -/
theorem mirrors_of_matched {past' : List (Op × Reply)} {mem : InMemoryTaskStore}
    (h : SqlSession past sql) (h' : InMemorySession past' mem)
    (hm : List.Forall₂ Matched past past') : Mirrors sql mem ∧ List.Forall₂ Agree past past' :=
  Run.related Mirrors.new (fun hrel _ hm hans hans' => agree_of_answers hrel hm hans hans') h h' hm

/-- **A SQL store refuses no save, and agrees with the in-memory store** given the
same calls if that one refuses none.  In any case it agrees with the in-memory
store given the same calls with no version in any save. -/
theorem sql_sessions (h : SqlSession past sql) (hl : ∀ x ∈ past, x.1.Lossless) :
    (∀ x ∈ past, ¬ x.2.Refused) ∧
      (∀ past' mem, InMemorySession past' mem → past'.map Prod.fst = past.map Prod.fst →
        (∀ y ∈ past', ¬ y.2.Refused) → List.Forall₂ Agree past past') ∧
      ∀ past' mem, InMemorySession past' mem →
        past'.map Prod.fst = past.map (fun x => x.1.unconditional) →
        List.Forall₂ Agree past past' := by
  refine ⟨h.accepted, fun past' mem h' hops hok => ?_, fun past' mem h' hops => ?_⟩
  · refine (mirrors_of_matched h h' (matched_of_map_eq ?_ hl hok)).2
    have hmap := congrArg (List.map Op.unconditional) hops
    rw [List.map_map, List.map_map] at hmap
    exact hmap.symm
  · have hidem : ∀ o : Op, o.unconditional.unconditional = o.unconditional := by
      intro o
      cases o <;> rfl
    refine (mirrors_of_matched h h' (matched_of_map_eq ?_ hl fun y hy => ?_)).2
    · have hmap := congrArg (List.map Op.unconditional) hops
      rw [List.map_map, List.map_map] at hmap
      refine Eq.trans ?_ hmap.symm
      exact List.map_congr_left fun x _ => (hidem x.1).symm
    · refine InMemorySession.accepted h' y hy ?_
      have hmem : y.1 ∈ past'.map Prod.fst := List.mem_map_of_mem hy
      rw [hops, List.mem_map] at hmem
      obtain ⟨x, -, hx⟩ := hmem
      rw [← hx, hidem]

end

end

end Ra2a
