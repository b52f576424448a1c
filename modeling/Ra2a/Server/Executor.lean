import Ra2a.Server.CallContext
import Ra2a.Server.TaskStore
import Ra2a.Types.Request

/-!
# The request context

`RequestContext` of `server/executor.rs`, what an executor is given, and the
interceptors that may change it first.  An interceptor may read the task store,
as `ReferencedTasksLoader` does.
-/

namespace Ra2a

structure RequestContext where
  taskId : String
  contextId : String
  message : Option Message
  storedTask : Option Task
  relatedTasks : List Task
  metadata : Metadata
  user : User
  tenant : Option String
  serviceParams : Finmap fun _ : String => List String

/-- `RequestContext::new`. -/
def RequestContext.new (taskId contextId : String) : RequestContext where
  taskId := taskId
  contextId := contextId
  message := none
  storedTask := none
  relatedTasks := []
  metadata := ∅
  user := .unauthenticatedUser
  tenant := none
  serviceParams := ∅

/-- `RequestContextInterceptor::intercept`. -/
abbrev RequestContextInterceptor :=
  InMemoryTaskStore → RequestContext → Except A2AError RequestContext

/-- `ReferencedTasksLoader::load_referenced_tasks`. -/
def referencedTasksLoader : RequestContextInterceptor := fun store ctx =>
  match ctx.message with
  | none => .ok ctx
  | some m =>
    match m.referenceTaskIds.filterMap store.task? with
    | [] => .ok ctx
    | tasks => .ok { ctx with relatedTasks := tasks }

/-- The interceptor of the library loads tasks and leaves the rest alone. -/
theorem referencedTasksLoader_eq {store : InMemoryTaskStore} {ctx ctx' : RequestContext}
    (h : referencedTasksLoader store ctx = .ok ctx') :
    ∃ tasks, ctx' = { ctx with relatedTasks := tasks } := by
  rw [referencedTasksLoader] at h
  split at h
  · cases h
    exact ⟨_, rfl⟩
  · split at h
    · cases h
      exact ⟨_, rfl⟩
    · cases h
      exact ⟨_, rfl⟩

end Ra2a
