import Ra2a.Server.Handler.PushConfigs
import Ra2a.Server.PushRuns

/-!
# Push configurations as they are shown

`on_list_task_push_configs` shows a configuration under the id it is stored with,
and would number one that has none.  After a run of the store every one has its
own, so what is shown can be fetched and deleted under the id shown.
-/

namespace Ra2a

open InMemoryPushNotificationConfigStore

/-- A call from its beginning to its end, with nothing in between. -/
def DefaultRequestHandler.answerPushCall (h : DefaultRequestHandler) (card : AgentCard)
    (tick : Tick) (order : List PushNotificationConfig) (call : PushCall) :
    Option (Except A2AError PushResponse × DefaultRequestHandler) :=
  match h.requirePushSupport card call.taskId with
  | .error e => some (.error e, h)
  | .ok () => h.onPushCall tick order call

/-- What is shown under this id can be fetched and deleted. -/
structure DefaultRequestHandler.Serves (h : DefaultRequestHandler) (card : AgentCard)
    (tenant : Option String) (taskId id : String) (shown : TaskPushNotificationConfig) : Prop where
  fetched : ∀ tick order, h.answerPushCall card tick order (.get ⟨tenant, taskId, id⟩) =
    some (.ok (.config shown), h)
  deleted : ∀ tick order, ∃ h',
    h.answerPushCall card tick order (.delete ⟨tenant, taskId, id⟩) = some (.ok .deleted, h') ∧
      ∀ c, c ∈ h'.pushConfigStore.list taskId ↔
        c ∈ h.pushConfigStore.list taskId ∧ c.id ≠ some id

variable {h h' : DefaultRequestHandler} {card : AgentCard} {tick : Tick}
  {order : List PushNotificationConfig} {calls : List PushStoreCall}
  {params : ListTaskPushNotificationConfigsRequest}
  {r : ListTaskPushNotificationConfigsResponse}

theorem DefaultRequestHandler.answerPushCall_of_supported {call : PushCall}
    (hs : h.requirePushSupport card call.taskId = .ok ()) :
    h.answerPushCall card tick order call = h.onPushCall tick order call := by
  rw [answerPushCall, hs]

/-- What a listing that was answered says. -/
theorem DefaultRequestHandler.listed
    (hlist : h.answerPushCall card tick order (.list params) = some (.ok (.configs r), h')) :
    h.requirePushSupport card params.taskId = .ok () ∧
      (order : Multiset PushNotificationConfig) = h.pushConfigStore.list params.taskId ∧
      r = listTaskPushConfigs params order ∧ h' = h := by
  cases hs : h.requirePushSupport card params.taskId with
  | error e =>
    rw [answerPushCall, PushCall.taskId, hs] at hlist
    cases hlist
  | ok u =>
    rw [answerPushCall_of_supported hs, onPushCall] at hlist
    split at hlist
    · cases hlist
      exact ⟨rfl, ‹_›, rfl, rfl⟩
    · cases hlist

/-- **Whatever is shown can be fetched and deleted by the id shown.** -/
theorem DefaultRequestHandler.serves_of_listed (hstore : h.pushConfigStore = run calls)
    (hlist : h.answerPushCall card tick order (.list params) = some (.ok (.configs r), h'))
    {shown : TaskPushNotificationConfig} (hshown : shown ∈ r.configs) :
    ∃ id, shown.id = some id ∧ h.Serves card params.tenant params.taskId id shown := by
  obtain ⟨hs, horder, rfl, -⟩ := listed hlist
  obtain ⟨i, hi, rfl⟩ := List.mem_mapIdx.mp hshown
  have hin : order[i] ∈ h.pushConfigStore.list params.taskId := by
    rw [← horder, Multiset.mem_coe]
    exact List.getElem_mem hi
  obtain ⟨id, hid⟩ := mem_list_iff.mp hin
  have hown : order[i].id = some id := by
    rw [hstore] at hid
    exact (lookup_run_iff.mp hid).2
  refine ⟨id, by rw [hown, Option.getD_some], ?_, fun t o => ?_⟩
  · intro t o
    rw [answerPushCall_of_supported hs, onPushCall, getTaskPushConfig, get_eq_ok_iff.mpr hid, hown]
    rfl
  · refine ⟨_, answerPushCall_of_supported hs, fun c => ?_⟩
    rw [deleteTaskPushConfig, mem_list_iff, mem_list_iff]
    have hlookup : ∀ j, (h.pushConfigStore.ofTask params.taskId).lookup j = some c →
        c.id = some j := by
      intro j hj
      rw [hstore] at hj
      exact (lookup_run_iff.mp hj).2
    constructor
    · rintro ⟨j, hj⟩
      rw [ofTask_delete, if_pos rfl, Keyed.lookup_erase, Option.ite_none_left_eq_some] at hj
      refine ⟨⟨j, hj.2⟩, ?_⟩
      rw [hlookup j hj.2]
      exact fun he => hj.1 (Option.some.inj he).symm
    · rintro ⟨⟨j, hj⟩, hne⟩
      refine ⟨j, ?_⟩
      rw [ofTask_delete, if_pos rfl, Keyed.lookup_erase, if_neg, hj]
      rintro rfl
      exact hne (hlookup _ hj)

/-- **What a run of the store leaves**, for each task, and what the handler shows of it. -/
theorem pushConfigs_of_run (calls : List PushStoreCall) (hdrawn : ∀ call ∈ calls, call.Draws)
    (k : String) :
    (∀ c, c ∈ (run calls).list k ↔ Standing calls k c) ∧
      (∀ c ∈ (run calls).list k, ∃ id, c.id = some id ∧ id ≠ "") ∧
      (((run calls).list k).map (·.id)).Nodup ∧
      (∀ id c, (run calls).get k id = .ok c ↔ c ∈ (run calls).list k ∧ c.id = some id) ∧
      (∀ config uuid e, ((run calls).save k config uuid).1 = .error e →
        ((run calls).save k config uuid).2 = run calls) ∧
      (∀ call : PushStoreCall, call.taskId ≠ k →
        (call.apply (run calls)).list k = (run calls).list k ∧
          ∀ id, (call.apply (run calls)).get k id = (run calls).get k id) ∧
      ∀ (h h' : DefaultRequestHandler) (card : AgentCard) (tick : Tick)
        (order : List PushNotificationConfig) (params : ListTaskPushNotificationConfigsRequest)
        (r : ListTaskPushNotificationConfigsResponse), h.pushConfigStore = run calls →
        h.answerPushCall card tick order (.list params) = some (.ok (.configs r), h') →
        ∀ shown ∈ r.configs, ∃ id, shown.id = some id ∧
          h.Serves card params.tenant params.taskId id shown := by
  refine ⟨fun c => mem_list_run_iff, fun c => id_of_mem_list hdrawn, nodup_ids,
    fun id c => get_run_eq_ok_iff, fun config uuid e he => save_of_error k uuid he,
    fun call hne => ?_, fun h h' card tick order params r hstore hlist shown hshown => ?_⟩
  · have hother := PushStoreCall.ofTask_apply_of_ne (s := run calls) hne
    refine ⟨by rw [list, list, hother], fun id => ?_⟩
    rw [InMemoryPushNotificationConfigStore.get, InMemoryPushNotificationConfigStore.get, hother]
  · exact DefaultRequestHandler.serves_of_listed hstore hlist hshown

/-- One configuration gets an id, and is overwritten under it. -/
def overwriting : List PushStoreCall :=
  [.save "t" ⟨none, "https://a", none, none⟩ "u1",
    .save "t" ⟨some "u1", "https://b", none, none⟩ "u2", .deleteAll "s"]

theorem pushConfigs_of_overwriting :
    Standing overwriting "t" ⟨some "u1", "https://b", none, none⟩ ∧
      ⟨some "u1", "https://b", none, none⟩ ∈ (run overwriting).list "t" := by
  have hdrawn : ∀ call ∈ overwriting, call.Draws := by
    simp [overwriting, PushStoreCall.Draws]
  have hstanding : Standing overwriting "t" ⟨some "u1", "https://b", none, none⟩ := by
    refine ⟨[.save "t" ⟨none, "https://a", none, none⟩ "u1"], _, [.deleteAll "s"], rfl, ?_, ?_⟩
    · exact ⟨rfl, by simp [validatePushConfig], rfl⟩
    · simp [PushStoreCall.Clears]
  exact ⟨hstanding, ((pushConfigs_of_run overwriting hdrawn "t").1 _).mpr hstanding⟩

end Ra2a
