import Ra2a.Server.Handler.Collect

/-!
# The record as the fold of its events

What the events of a task say about it: a Task event is the whole record, a
status update its status, an artifact update a change of its artifacts, and a
message says nothing.  `foldEvent` keeps a record by that, creating it with the
first status.

The record a collector stores is that fold only where the three things
`persist_event_snapshot` drops make no difference (`record_is_fold_iff`): a
status without a record is dropped, of a status only the state is kept, and
artifact updates are not applied.
-/

namespace Ra2a

/-- A record of task `k` after one more of its events. -/
def foldEvent (k : String) (r : Option Task) : Event → Option Task
  | .task t => if t.id = k then some t else r
  | .statusUpdate e =>
    if e.taskId = k then
      some ((r.getD ⟨e.taskId, e.contextId, e.status, [], [], none⟩).withStatus e.status)
    else r
  | .artifactUpdate e => if e.taskId = k then r.map (·.applyArtifactUpdate e) else r
  | .message _ => r

/-- The update of `foldEvent`. -/
def folded : Option Task → Update → Option Task
  | r, .status e _ =>
    some ((r.getD ⟨e.taskId, e.contextId, e.status, [], [], none⟩).withStatus e.status)
  | r, .artifact e => r.map (·.applyArtifactUpdate e)

theorem foldEvent_eq (k : String) (r : Option Task) (p : Event × Tick) :
    foldEvent k r p.1 = ((writeTo k p).map (Cell.apply folded r)).getD r := by
  obtain ⟨event, tick⟩ := p
  cases event with
  | message m => rfl
  | task t => by_cases hk : t.id = k <;> simp [foldEvent, writeTo, hk, Cell.apply]
  | statusUpdate e =>
    by_cases hk : e.taskId = k <;> simp [foldEvent, writeTo, hk, Cell.apply, folded]
  | artifactUpdate e =>
    by_cases hk : e.taskId = k <;> simp [foldEvent, writeTo, hk, Cell.apply, folded]

theorem foldl_foldEvent (k : String) (r : Option Task) (events : List (Event × Tick)) :
    (events.map Prod.fst).foldl (foldEvent k) r = Cell.run folded r (writesTo k events) := by
  induction events using List.reverseRecOn with
  | nil => rfl
  | append_singleton events p ih =>
    rw [List.map_append, List.foldl_append, ih, writesTo, writesTo, List.filterMap_append]
    cases hw : writeTo k p with
    | none => simp [foldEvent_eq k _ p, hw]
    | some w => simp [foldEvent_eq k _ p, hw, Cell.run_append]

/-! ### The fold from a snapshot on -/

/-- Artifact updates change the artifacts alone. -/
theorem applyArtifactUpdate_eq (t : Task) (e : TaskArtifactUpdateEvent) :
    t.applyArtifactUpdate e = { t with artifacts := (t.applyArtifactUpdate e).artifacts } := by
  unfold Task.applyArtifactUpdate
  dsimp only
  split <;> split <;> rfl

theorem applyArtifactUpdate_withStatus (t : Task) (s : TaskStatus) (e : TaskArtifactUpdateEvent) :
    (t.withStatus s).applyArtifactUpdate e = (t.applyArtifactUpdate e).withStatus s := by
  unfold Task.applyArtifactUpdate
  dsimp only [Task.withStatus]
  split <;> split <;> rfl

/-- The task with the artifact updates among `us` applied in turn. -/
def withArtifacts (us : List Update) (t : Task) : Task :=
  (us.filterMap Update.artifact?).foldl Task.applyArtifactUpdate t

@[simp] theorem withArtifacts_status (us : List Update) (e : TaskStatusUpdateEvent) (now : String)
    (t : Task) : withArtifacts (us ++ [.status e now]) t = withArtifacts us t := by
  simp [withArtifacts, List.filterMap_append, List.filterMap_cons, Update.artifact?]

@[simp] theorem withArtifacts_artifact (us : List Update) (e : TaskArtifactUpdateEvent) (t : Task) :
    withArtifacts (us ++ [.artifact e]) t = (withArtifacts us t).applyArtifactUpdate e := by
  simp [withArtifacts, List.filterMap_append, Update.artifact?]

theorem withArtifacts_eq (us : List Update) (t : Task) :
    withArtifacts us t = { t with artifacts := (withArtifacts us t).artifacts } := by
  induction us using List.reverseRecOn with
  | nil => rfl
  | append_singleton us u ih =>
    cases u with
    | status e now => simpa using ih
    | artifact e => rw [withArtifacts_artifact, applyArtifactUpdate_eq, ih]

/-- The status `foldEvent` leaves where it found `s`. -/
def carried (us : List Update) (s : TaskStatus) : TaskStatus :=
  match lastStatus us with
  | some (status, _) => status
  | none => s

theorem foldl_folded_some (us : List Update) (t : Task) :
    us.foldl folded (some t) = some ((withArtifacts us t).withStatus (carried us t.status)) := by
  induction us using List.reverseRecOn with
  | nil => rfl
  | append_singleton us u ih =>
    rw [List.foldl_append, ih]
    cases u with
    | status e now => simp [folded, carried]
    | artifact e => simp [folded, carried, applyArtifactUpdate_withStatus]

theorem foldl_folded_none (us : List Update) :
    us.foldl folded none = none ↔ lastStatus us = none := by
  induction us using List.reverseRecOn with
  | nil => simp
  | append_singleton us u ih =>
    rw [List.foldl_append]
    cases u with
    | status e now => simp [folded]
    | artifact e => simp [folded, ih]

/-! ### Where the two agree -/

/-- The updates after the last snapshot are ones `persist_event_snapshot` keeps
whole: with no record there is no status among them; with a record the last
status has no message and the clock reading of its processing, and the artifact
updates come out where they began. -/
def KeptWhole (us : List Update) : Option Task → Prop
  | none => lastStatus us = none
  | some t =>
    (∀ s now, lastStatus us = some (s, now) → s = .new s.state now) ∧
      (withArtifacts us t).artifacts = t.artifacts

theorem carried_eq_restamped {us : List Update} {s : TaskStatus} :
    restamped us s = carried us s ↔
      ∀ s' now, lastStatus us = some (s', now) → s' = .new s'.state now := by
  rw [restamped, carried]
  cases hl : lastStatus us with
  | none => simp
  | some p =>
    obtain ⟨s', now⟩ := p
    constructor
    · rintro h _ _ hs
      cases hs
      exact h.symm
    · intro h
      exact (h s' now rfl).symm

theorem foldl_persisted_eq_iff (us : List Update) (b : Option Task) :
    us.foldl persisted b = us.foldl folded b ↔ KeptWhole us b := by
  cases b with
  | none => rw [foldl_persisted_none, eq_comm, foldl_folded_none, KeptWhole]
  | some t =>
    rw [foldl_persisted_some, foldl_folded_some, KeptWhole, ← carried_eq_restamped (s := t.status)]
    constructor
    · intro h
      have ht := Option.some.inj h
      exact ⟨by simpa using congrArg Task.status ht,
        by simpa using (congrArg Task.artifacts ht).symm⟩
    · rintro ⟨hs, ha⟩
      rw [hs, withArtifacts_eq, ha]

/-- **The stored record is the fold of the events exactly when nothing dropped
matters**: the updates after the last snapshot of the task, or after the record
there was at first, are kept whole. -/
theorem record_is_fold_iff (h : DefaultRequestHandler) (nb : Bool) (receipts : List Receipt)
    (k : String) :
    (h.collectResult nb none receipts).1.getTaskInternal k =
        ((processed nb receipts).map Prod.fst).foldl (foldEvent k) (h.getTaskInternal k) ↔
      KeptWhole (Cell.since (writesTo k (processed nb receipts)))
        ((Cell.snapshot (writesTo k (processed nb receipts))).or (h.getTaskInternal k)) := by
  rw [DefaultRequestHandler.collectResult_fst, DefaultRequestHandler.getTaskInternal_persistAll,
    foldl_foldEvent, Cell.run_eq_run_iff, foldl_persisted_eq_iff]

/-- The first status of a task nobody has stored. -/
def firstStatus : TaskStatusUpdateEvent := ⟨"t1", "c1", ⟨.working, none, some "12:00"⟩, none⟩

/-- A new handler drops it: the fold has a record of it, the store has none. -/
theorem firstStatus_dropped :
    (DefaultRequestHandler.new.collectResult false none
        [.ok (.statusUpdate firstStatus) ⟨"12:01", "u1", "u2", "v1"⟩]).1.getTaskInternal "t1" ≠
      ((processed false [.ok (.statusUpdate firstStatus) ⟨"12:01", "u1", "u2", "v1"⟩]).map
        Prod.fst).foldl (foldEvent "t1") (DefaultRequestHandler.new.getTaskInternal "t1") := by
  decide

end Ra2a
