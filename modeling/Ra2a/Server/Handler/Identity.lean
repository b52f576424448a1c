import Ra2a.Server.Handler.Aborting
import Ra2a.Server.Handler.Hooks

/-!
# Who the executor works for

A hook `before` a send may put the user in the context of the call.  The executor
gets another context, which `build_request_context` makes: of the request, and of
nobody.  Nothing but a request-context interceptor can put a user there
(`executed_user_iff`).
-/

namespace Ra2a

open Interleave Middleware

/-- An interceptor that leaves the user of a context alone. -/
def RequestContextInterceptor.KeepsUser (i : RequestContextInterceptor) : Prop :=
  ∀ store ctx ctx', i store ctx = .ok ctx' → ctx'.user = ctx.user

theorem keepsUser_referencedTasksLoader : referencedTasksLoader.KeepsUser := by
  intro store ctx ctx' h
  obtain ⟨_, rfl⟩ := referencedTasksLoader_eq h
  rfl

namespace DefaultRequestHandler

variable {h : DefaultRequestHandler} {params : SendMessageRequest}
  {serviceParams : Finmap fun _ : String => List String} {tick : Tick}

/-- The context that `execute` is given for a send, if the send gets that far. -/
def executed (h : DefaultRequestHandler) (params : SendMessageRequest)
    (serviceParams : Finmap fun _ : String => List String) (tick : Tick) :
    Option RequestContext :=
  match h.buildRequestContext params serviceParams tick with
  | (_, .ready ctx _) => some ctx
  | (_, _) => none

/-- The request-context interceptors make `u` the user of the request's context,
which has nobody before them. -/
def Identifies (h : DefaultRequestHandler) (params : SendMessageRequest)
    (serviceParams : Finmap fun _ : String => List String) (tick : Tick) (u : User) : Prop :=
  ∃ resolved left, h.resolveContext params serviceParams tick = .ok resolved ∧
    h.intercept resolved = .ok left ∧ left.user = u

theorem intercept_saveInlinePushConfig (k : TaskId) (ctx : RequestContext) :
    (h.saveInlinePushConfig params k tick).intercept ctx = h.intercept ctx := by
  obtain ⟨_, he⟩ := h.saveInlinePushConfig_eq params k tick
  rw [he]
  rfl

/-- What `build_request_context` takes to get a context to the executor. -/
theorem executed_eq_some {ctx : RequestContext}
    (hexec : h.executed params serviceParams tick = some ctx) :
    ∃ resolved, h.resolveContext params serviceParams tick = .ok resolved ∧
      h.intercept resolved = .ok ctx ∧
      ∃ q m, h.queueManager.getOrCreateQueue resolved.taskId = some (q, m) := by
  unfold executed buildRequestContext at hexec
  cases hres : h.resolveContext params serviceParams tick with
  | error e =>
    rw [hres] at hexec
    cases hexec
  | ok resolved =>
    rw [hres] at hexec
    simp only [intercept_saveInlinePushConfig, queueManager_saveInlinePushConfig] at hexec
    cases hint : h.intercept resolved with
    | error e =>
      rw [hint] at hexec
      cases hexec
    | ok ctx' =>
      rw [hint] at hexec
      cases hq : h.queueManager.getOrCreateQueue resolved.taskId with
      | none =>
        rw [hq] at hexec
        cases hexec
      | some p =>
        rw [hq] at hexec
        cases hexec
        exact ⟨resolved, rfl, hint, p.1, p.2, hq⟩

/-- **What a context is built of**: the message and the metadata of the request, and its
tenant. -/
theorem resolveContext_eq_ok {ctx : RequestContext}
    (hctx : h.resolveContext params serviceParams tick = .ok ctx) :
    ∃ taskId contextId storedTask, ctx =
      { RequestContext.new taskId contextId with
        message := some params.message
        storedTask := storedTask
        metadata := params.metadata.getD ∅
        tenant := params.tenant
        serviceParams := serviceParams } := by
  unfold resolveContext at hctx
  split at hctx
  · cases hctx
  · split at hctx
    · cases hctx
    · split at hctx
      · cases hctx
      · split at hctx <;> cases hctx
        exact ⟨_, _, _, rfl⟩

/-- **The context of a request comes with nobody.** -/
theorem user_resolveContext {ctx : RequestContext}
    (hctx : h.resolveContext params serviceParams tick = .ok ctx) :
    ctx.user = .unauthenticatedUser := by
  obtain ⟨taskId, contextId, storedTask, rfl⟩ := resolveContext_eq_ok hctx
  rfl

/-- What each interceptor leaves alone, they leave alone one after another. -/
theorem intercept_keeps {α : Type} (get : RequestContext → α)
    (hkeep : ∀ i ∈ h.reqContextInterceptors, ∀ store ctx ctx', i store ctx = .ok ctx' →
      get ctx' = get ctx)
    {ctx ctx' : RequestContext} (hint : h.intercept ctx = .ok ctx') : get ctx' = get ctx := by
  unfold intercept at hint
  generalize h.reqContextInterceptors = is at hkeep hint
  induction is generalizing ctx with
  | nil =>
    cases hint
    rfl
  | cons i is ih =>
    rw [List.foldlM_cons] at hint
    cases hi : i h.taskStore ctx with
    | error e =>
      rw [hi] at hint
      cases hint
    | ok mid =>
      rw [hi] at hint
      rw [ih (fun j hj => hkeep j (List.mem_cons_of_mem i hj)) hint]
      exact hkeep i List.mem_cons_self _ _ _ hi

/-- Interceptors that leave the user alone do so one after another. -/
theorem user_intercept (hkeep : ∀ i ∈ h.reqContextInterceptors, i.KeepsUser)
    {ctx ctx' : RequestContext} (hint : h.intercept ctx = .ok ctx') : ctx'.user = ctx.user :=
  intercept_keeps RequestContext.user hkeep hint

end DefaultRequestHandler

/-! ### The context as a request's thread gets it -/

section

variable {h : DefaultRequestHandler} {threads : List Thread} {i : ℕ} {tick : Tick} {r : Request}

/-- A request passes the interceptors it has not passed yet. -/
theorem ticks_intercepting {key : TaskId} {ctx ctx' : RequestContext} {n k : ℕ}
    {c' : ServerConfig} (hi : i < threads.length)
    (hpc : r.pc = .intercepting key ctx n)
    (hint : (h.reqContextInterceptors.drop n).foldlM (fun ctx i => i h.taskStore ctx) ctx =
      .ok ctx')
    (hrest : Ticks ⟨h, threads.set i (.request (r.goto (.queueing key ctx')))⟩ i tick k c') :
    ∃ k', Ticks ⟨h, threads.set i (.request r)⟩ i tick k' c' := by
  generalize hd : h.reqContextInterceptors.drop n = is at hint
  induction is generalizing r ctx n with
  | nil =>
    cases hint
    have hnone : h.reqContextInterceptors[n]? = none :=
      List.getElem?_eq_none (List.drop_eq_nil_iff.mp hd)
    refine ⟨k + 1, ticks_succ hi (fun ts => ?_) hrest⟩
    simp only [Request.advance, hpc, hnone]
  | cons f is ih =>
    rw [List.foldlM_cons] at hint
    cases hf : f h.taskStore ctx with
    | error e =>
      rw [hf] at hint
      cases hint
    | ok mid =>
      rw [hf] at hint
      obtain ⟨hsome, htail⟩ : h.reqContextInterceptors[n]? = some f ∧
          h.reqContextInterceptors.drop (n + 1) = is := by
        constructor
        · rw [← List.head?_drop, hd]
          rfl
        · rw [← List.tail_drop, hd]
          rfl
      obtain ⟨k', hk'⟩ := ih (r := r.goto (.intercepting key mid (n + 1))) rfl hrest htail hint
      refine ⟨k' + 1, ticks_succ hi (fun ts => ?_) hk'⟩
      simp only [Request.advance, hpc, hsome, hf]

/-- A request that has its queue starts an execution with its context. -/
theorem ticks_spawn {params : SendMessageRequest} {key : TaskId} {ctx : RequestContext} {q : ℕ}
    (hi : i < threads.length) (hpc : r.pc = .queued key ctx q)
    (hcall : r.call = .messageSend params ∨ r.call = .messageStream params) :
    ∃ c' x, Ticks ⟨h, threads.set i (.request r)⟩ i tick 1 c' ∧
      c'.threads[threads.length]? = some (.execution x) ∧ x.job = .execute ∧ x.ctx = ctx ∧
      x.owner = i := by
  obtain ⟨r', g, hspawn⟩ : ∃ r' g, r.spawn h (threads.set i (.request r)) i key ctx q =
      some (r', [.execution ⟨.execute, ctx, key, q, i, .running⟩, g]) := by
    rcases hcall with hcall | hcall <;>
    · unfold Request.spawn
      rw [hcall]
      exact ⟨_, _, rfl⟩
  have hadvance : r.advance h (threads.set i (.request r)) i tick =
      some (h, r', [.execution ⟨.execute, ctx, key, q, i, .running⟩, g]) := by
    unfold Request.advance
    rw [hpc]
    change Option.map _ (r.spawn h (threads.set i (.request r)) i key ctx q) = _
    rw [hspawn]
    rfl
  have hself : (threads.set i (.request r))[i]? = some (.request r) := List.getElem?_set_self hi
  refine ⟨⟨h, (threads.set i (.request r)).set i (.request r') ++
    [.execution ⟨.execute, ctx, key, q, i, .running⟩, g]⟩,
    ⟨.execute, ctx, key, q, i, .running⟩, ?_, ?_, rfl, rfl, rfl⟩
  · rw [Ticks, List.replicate_one, Machine.exec, step_tick hself hadvance]
    rfl
  · rw [List.getElem?_append_right (by simp), List.length_set, List.length_set, Nat.sub_self]
    rfl

/-- **A send that runs alone** starts an execution with the context that
`build_request_context` builds. -/
theorem executed_alone {params : SendMessageRequest} {ctx : RequestContext}
    (hi : i < threads.length) (hpc : r.pc = .received)
    (hcall : r.call = .messageSend params ∨ r.call = .messageStream params)
    (hexec : h.executed params r.serviceParams tick = some ctx) :
    ∃ k c' x, Ticks ⟨h, threads.set i (.request r)⟩ i tick k c' ∧
      c'.threads[threads.length]? = some (.execution x) ∧ x.job = .execute ∧ x.ctx = ctx ∧
      x.owner = i := by
  obtain ⟨resolved, hres, hint, q, m, hq⟩ := DefaultRequestHandler.executed_eq_some hexec
  let h₁ := h.saveInlinePushConfig params resolved.taskId tick
  let h₂ : DefaultRequestHandler := { h₁ with queueManager := m }
  obtain ⟨c', x, hspawn, hx⟩ : ∃ c' x,
      Ticks ⟨h₂, threads.set i (.request (r.goto (.queued resolved.taskId ctx q)))⟩ i tick 1 c' ∧
        c'.threads[threads.length]? = some (.execution x) ∧ x.job = .execute ∧ x.ctx = ctx ∧
        x.owner = i := ticks_spawn hi rfl hcall
  have hqueue : Ticks ⟨h₁, threads.set i (.request (r.goto (.queueing resolved.taskId ctx)))⟩ i
      tick 2 c' := by
    refine ticks_succ hi (fun ts => ?_) hspawn
    have hq₁ : h₁.queueManager.getOrCreateQueue resolved.taskId = some (q, m) := by
      rw [DefaultRequestHandler.queueManager_saveInlinePushConfig, hq]
    simp only [Request.advance, Request.goto_pc, hq₁]
    rfl
  have hint₁ : (h₁.reqContextInterceptors.drop 0).foldlM (fun ctx i => i h₁.taskStore ctx)
      resolved = .ok ctx := by
    rw [List.drop_zero]
    exact (DefaultRequestHandler.intercept_saveInlinePushConfig _ _).trans hint
  obtain ⟨k, hk⟩ := ticks_intercepting (r := r.goto (.intercepting resolved.taskId resolved 0)) hi
    rfl hint₁ hqueue
  have hconfigure : Ticks ⟨h, threads.set i (.request (r.goto (.resolved resolved)))⟩ i tick
      (k + 1) c' := by
    refine ticks_succ hi (fun ts => ?_) hk
    rcases hcall with hcall | hcall <;>
    · simp only [Request.advance, Request.goto_pc, Request.goto_call, hcall]
      rfl
  refine ⟨k + 2, c', x, ticks_succ hi (fun ts => ?_) hconfigure, hx⟩
  have hbegin : r.begin h tick = r.goto (.resolved resolved) := by
    unfold Request.begin
    rcases hcall with hcall | hcall <;>
    · rw [hcall]
      simp only [hres]
  simp only [Request.advance, hpc, hbegin]

end

/-! ### Who it is -/

namespace InterceptedHandler

/-- A send of the handler that `HandlerBuilder` builds, up to `execute`: the
context the hooks leave, and the one `execute` is given, if it is. -/
def executes {σ : Type} (built : InterceptedHandler (σ × DefaultRequestHandler))
    (requestMeta : RequestMeta) (method : String) (tick : Tick) (params : SendMessageRequest) :
    Handling (σ × DefaultRequestHandler) (CallContext × Option RequestContext) := do
  let p ← built.runBeforeTyped requestMeta method .sendMessageRequest params
  let s ← get
  pure (p.1, s.2.executed p.2 requestMeta.kv tick)

/-- **The executor works for the user of the call** exactly if this is who the
request-context interceptors say it is; if these leave it alone, nobody. -/
theorem executes_user_iff {σ : Type} {built : InterceptedHandler (σ × DefaultRequestHandler)}
    {requestMeta : RequestMeta} {method : String} {tick : Tick} {params : SendMessageRequest}
    {ctx : CallContext} {rctx : RequestContext} {s s' : σ × DefaultRequestHandler}
    (hsend : built.executes requestMeta method tick params s = (.ok (ctx, some rctx), s')) :
    (rctx.user = ctx.user ↔ ∃ params',
      built.runBeforeTyped requestMeta method .sendMessageRequest params s =
        (.ok (ctx, params'), s') ∧ s'.2.Identifies params' requestMeta.kv tick ctx.user) ∧
      ((∀ i ∈ s'.2.reqContextInterceptors, i.KeepsUser) →
        (rctx.user = ctx.user ↔ ctx.user = .unauthenticatedUser)) := by
  unfold executes at hsend
  rw [Chain.bind_run] at hsend
  rcases hbefore : built.runBeforeTyped requestMeta method .sendMessageRequest params s
    with ⟨e | ⟨c, params'⟩, s₁⟩
  · rw [hbefore] at hsend
    cases hsend
  · rw [hbefore] at hsend
    change (Except.ok (c, s₁.2.executed params' requestMeta.kv tick), s₁) = _ at hsend
    cases hexec : s₁.2.executed params' requestMeta.kv tick with
    | none =>
      rw [hexec] at hsend
      cases hsend
    | some rc =>
      rw [hexec] at hsend
      cases hsend
      obtain ⟨resolved, hres, hint, -⟩ := DefaultRequestHandler.executed_eq_some hexec
      constructor
      · constructor
        · intro huser
          exact ⟨params', rfl, resolved, rctx, hres, hint, huser⟩
        · rintro ⟨params'', hp, resolved', left, hres', hint', huser⟩
          cases hp
          rw [hres] at hres'
          cases hres'
          rw [hint] at hint'
          cases hint'
          exact huser
      · intro hkeep
        rw [DefaultRequestHandler.user_intercept hkeep hint,
          DefaultRequestHandler.user_resolveContext hres]
        exact eq_comm

end InterceptedHandler

/-! ### A send of somebody -/

/-- A handler with one interceptor, over any other. -/
def oneHook (i : CallInterceptor (Unit × DefaultRequestHandler)) :
    InterceptedHandler (Unit × DefaultRequestHandler) where
  inner _ := echoing _
  interceptors := [i]

/-- The hook has found out who sends, and the executor works for nobody. -/
theorem alice_executed_for_nobody : ∃ ctx rctx s',
    (oneHook (authenticator _ "alice")).executes ⟨∅⟩ METHOD_MESSAGE_SEND ⟨"12:00", "u1", "u2", "v1"⟩
      ⟨none, .new "m1" .user [.text "hello"], none, none⟩ ((), .new) =
        (.ok (ctx, some rctx), s') ∧
      ctx.user = .authenticatedUser "alice" ∧ rctx.user ≠ ctx.user := by
  refine ⟨_, _, _, rfl, rfl, ?_⟩
  decide

/-- A request-context interceptor that says who the user is. -/
def identifying (username : String) : RequestContextInterceptor := fun _ ctx =>
  .ok { ctx with user := .authenticatedUser username }

def namingHandler : DefaultRequestHandler :=
  { DefaultRequestHandler.new with
    reqContextInterceptors := [referencedTasksLoader, identifying "alice"] }

def loadingHandler : DefaultRequestHandler :=
  { DefaultRequestHandler.new with reqContextInterceptors := [referencedTasksLoader] }

/-- A send of somebody whom an interceptor names too is executed for them, and a send of
nobody for nobody. -/
theorem executes_user_iff_named :
    (∃ ctx rctx s',
      (oneHook (authenticator _ "alice")).executes ⟨∅⟩ METHOD_MESSAGE_STREAM
        ⟨"12:00", "u1", "u2", "v1"⟩ ⟨none, .new "m1" .user [.text "hello"], none, none⟩
        ((), namingHandler) = (.ok (ctx, some rctx), s') ∧
      ctx.user = .authenticatedUser "alice" ∧ rctx.user = ctx.user) ∧
    ∃ ctx rctx s',
      (oneHook (passthroughInterceptor _)).executes ⟨∅⟩ METHOD_MESSAGE_SEND
        ⟨"12:00", "u1", "u2", "v1"⟩ ⟨none, .new "m1" .user [.text "hello"], none, none⟩
        ((), loadingHandler) = (.ok (ctx, some rctx), s') ∧ rctx.user = ctx.user := by
  constructor
  · obtain ⟨ctx, params, rctx, s', hsend, hbefore, hctx, hnames⟩ : ∃ ctx params rctx s',
        (oneHook (authenticator _ "alice")).executes ⟨∅⟩ METHOD_MESSAGE_STREAM
          ⟨"12:00", "u1", "u2", "v1"⟩ ⟨none, .new "m1" .user [.text "hello"], none, none⟩
          ((), namingHandler) = (.ok (ctx, some rctx), s') ∧
        (oneHook (authenticator _ "alice")).runBeforeTyped ⟨∅⟩ METHOD_MESSAGE_STREAM
          .sendMessageRequest ⟨none, .new "m1" .user [.text "hello"], none, none⟩
          ((), namingHandler) = (.ok (ctx, params), s') ∧
        ctx.user = .authenticatedUser "alice" ∧
        s'.2.Identifies params ∅ ⟨"12:00", "u1", "u2", "v1"⟩ ctx.user :=
      ⟨_, _, _, _, rfl, rfl, rfl, _, _, rfl, rfl, rfl⟩
    exact ⟨ctx, rctx, s', hsend, hctx,
      (InterceptedHandler.executes_user_iff hsend).1.mpr ⟨params, hbefore, hnames⟩⟩
  · obtain ⟨ctx, rctx, s', hsend, huser, hloads⟩ : ∃ ctx rctx s',
        (oneHook (passthroughInterceptor _)).executes ⟨∅⟩ METHOD_MESSAGE_SEND
          ⟨"12:00", "u1", "u2", "v1"⟩ ⟨none, .new "m1" .user [.text "hello"], none, none⟩
          ((), loadingHandler) = (.ok (ctx, some rctx), s') ∧
        ctx.user = .unauthenticatedUser ∧
        s'.2.reqContextInterceptors = [referencedTasksLoader] :=
      ⟨_, _, _, rfl, rfl, rfl⟩
    refine ⟨ctx, rctx, s', hsend, ((InterceptedHandler.executes_user_iff hsend).2 ?_).mpr huser⟩
    intro i hi
    rw [hloads, List.mem_singleton] at hi
    subst hi
    exact keepsUser_referencedTasksLoader

end Ra2a
