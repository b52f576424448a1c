import Ra2a.Error
import Ra2a.Lib.Keyed
import Ra2a.Types.Request

/-!
# The push configuration store

`InMemoryPushNotificationConfigStore` of `server/push.rs`: for each task a map
from configuration ids to configurations.
-/

namespace Ra2a

/-- `validate_push_config`. -/
def validatePushConfig (config : PushNotificationConfig) : Except A2AError Unit :=
  if config.url.isEmpty then .error (.invalidParams "push config URL cannot be empty")
  else if !config.url.startsWith "http://" && !config.url.startsWith "https://" then
    .error (.invalidParams "push config URL must be http or https")
  else .ok ()

structure InMemoryPushNotificationConfigStore where
  configs : Finmap fun _ : String => Finmap fun _ : String => PushNotificationConfig

namespace InMemoryPushNotificationConfigStore

/-- `InMemoryPushNotificationConfigStore::new`. -/
def new : InMemoryPushNotificationConfigStore := ⟨∅⟩

/-- The configurations of a task. -/
def ofTask (s : InMemoryPushNotificationConfigStore) (taskId : String) :
    Finmap fun _ : String => PushNotificationConfig :=
  (s.configs.lookup taskId).getD ∅

/-- `save`; `uuid` is the identifier drawn when the configuration has none. -/
def save (s : InMemoryPushNotificationConfigStore) (taskId : String)
    (config : PushNotificationConfig) (uuid : String) :
    Except A2AError PushNotificationConfig × InMemoryPushNotificationConfigStore :=
  match validatePushConfig config with
  | .error e => (.error e, s)
  | .ok () =>
    let configId := if (config.id.getD "").isEmpty then uuid else config.id.getD ""
    let toSave := { config with id := some configId }
    (.ok toSave, ⟨s.configs.insert taskId ((s.ofTask taskId).insert configId toSave)⟩)

/-- `get`. -/
def get (s : InMemoryPushNotificationConfigStore) (taskId configId : String) :
    Except A2AError PushNotificationConfig :=
  match (s.ofTask taskId).lookup configId with
  | some config => .ok config
  | none => .error (.invalidParams "push config not found")

/-- `list`, whose order is that of a hash map. -/
def list (s : InMemoryPushNotificationConfigStore) (taskId : String) :
    Multiset PushNotificationConfig :=
  (s.ofTask taskId).entries.map Sigma.snd

/-- `delete`, which leaves the map of a task where it is. -/
def delete (s : InMemoryPushNotificationConfigStore) (taskId configId : String) :
    InMemoryPushNotificationConfigStore :=
  match s.configs.lookup taskId with
  | some m => ⟨s.configs.insert taskId (m.erase configId)⟩
  | none => s

/-- `delete_all`. -/
def deleteAll (s : InMemoryPushNotificationConfigStore) (taskId : String) :
    InMemoryPushNotificationConfigStore := ⟨s.configs.erase taskId⟩

/-- The store accepts a configuration and does not have it yet. -/
def Takes (s : InMemoryPushNotificationConfigStore) (taskId : String)
    (config : PushNotificationConfig) (uuid : String) : Prop :=
  validatePushConfig config = .ok () ∧
    let configId := if (config.id.getD "").isEmpty then uuid else config.id.getD ""
    (s.ofTask taskId).lookup configId ≠ some { config with id := some configId }

variable {s : InMemoryPushNotificationConfigStore} {taskId uuid : String}
  {config : PushNotificationConfig}

/-- What a task has after an insertion. -/
theorem ofTask_insert (m : Finmap fun _ : String => PushNotificationConfig) :
    (⟨s.configs.insert taskId m⟩ : InMemoryPushNotificationConfigStore).ofTask taskId = m := by
  rw [ofTask, Finmap.lookup_insert, Option.getD_some]

/-- **A save changes the store exactly if the store takes the configuration.** -/
theorem save_eq_self_iff : (s.save taskId config uuid).2 = s ↔ ¬ s.Takes taskId config uuid := by
  unfold save Takes
  cases hv : validatePushConfig config with
  | error e => simp
  | ok u =>
    obtain ⟨configs⟩ := s
    simp only [true_and, ne_eq, not_not]
    generalize (if (config.id.getD "").isEmpty then uuid else config.id.getD "") = configId
    constructor
    · intro h
      rw [← h, ofTask_insert, Finmap.lookup_insert]
    · intro h
      have hinner : ∀ m : Finmap fun _ : String => PushNotificationConfig,
          m.lookup configId = some { config with id := some configId } →
          m.insert configId { config with id := some configId } = m := by
        intro m hm
        refine Finmap.ext_lookup fun k => ?_
        rw [Keyed.lookup_insert]
        split
        · rename_i hk
          rw [← hk, hm]
        · rfl
      rw [hinner _ h]
      congr 1
      refine Finmap.ext_lookup fun k => ?_
      rw [Keyed.lookup_insert]
      split
      · rename_i hk
        subst hk
        cases hm : configs.lookup taskId with
        | none =>
          rw [ofTask, hm, Option.getD_none, Finmap.lookup_empty] at h
          cases h
        | some m => rw [ofTask, hm, Option.getD_some]
      · rfl

end InMemoryPushNotificationConfigStore

end Ra2a
