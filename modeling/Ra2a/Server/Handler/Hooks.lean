import Ra2a.Server.Handler.Intercepted

/-!
# What the hooks of a handler see

A method that answers once keeps the context of its `before` hooks for the
`after` hooks.  A method that answers with a stream drops it, and every event
gets a new one, made of the name of the method and the request's metadata.  So
the user and the extensions of a call are lost on its stream (`keepsContext_iff`).

Of the outcomes of a call, the hooks see those that are no errors of a stream:
neither an error item nor the failure to open one (`seesOutcomes_iff`).
-/

namespace Ra2a

open Middleware

/-- The methods of `RequestHandler`. -/
inductive HandlerMethod
  | unary (m : UnaryMethod)
  | streaming (m : StreamingMethod)

namespace HandlerMethod

def name : HandlerMethod → String
  | unary m => m.name
  | streaming m => m.name

abbrev request : HandlerMethod → PayloadType
  | unary m => m.request
  | streaming m => m.request

end HandlerMethod

namespace InterceptedHandler

variable {σ : Type} {h : InterceptedHandler σ} {requestMeta : RequestMeta}

/-- What the `after` hooks are given during a call from state `s`. -/
def visits (h : InterceptedHandler σ) (requestMeta : RequestMeta) :
    (m : HandlerMethod) → m.request.Carrier → σ → List Visit
  | .unary m, req, s => ((h.observed.handler requestMeta).unaryCall m req (s, [])).2.2
  | .streaming m, req, s => ((h.observed.handler requestMeta).streamingCall m req (s, [])).2.2

theorem visits_unary (m : UnaryMethod) (req : m.request.Carrier) (s : σ) :
    h.visits requestMeta (.unary m) req s =
      Chain.onOk (h.runBeforeTyped requestMeta m.name m.request req s) fun p s =>
        Chain.given (h.afterHooks p.1)
          (.ofResult m.response ((h.inner requestMeta).unaryCall m p.2 s).1)
          ((h.inner requestMeta).unaryCall m p.2 s).2 := by
  have hinner : (h.observed.inner requestMeta).unaryCall m =
      fun req => Chain.beside ((h.inner requestMeta).unaryCall m req) :=
    funext ((h.inner requestMeta).unaryCall_beside m)
  rw [visits, unaryCall_handler, hinner, h.writes_unary requestMeta]
  exact List.nil_append _

theorem visits_streaming (m : StreamingMethod) (req : m.request.Carrier) (s : σ) :
    h.visits requestMeta (.streaming m) req s =
      Chain.onOk (h.runBeforeTyped requestMeta m.name m.request req s) fun p s =>
        Chain.onOk ((h.inner requestMeta).streamingCall m p.2 s) fun stream s =>
          (h.streamVisits requestMeta m.name stream s).flatten := by
  have hinner : (h.observed.inner requestMeta).streamingCall m =
      fun req => Chain.beside ((h.inner requestMeta).streamingCall m req) :=
    funext ((h.inner requestMeta).streamingCall_beside m)
  rw [visits, streamingCall_handler, hinner, h.writes_streaming requestMeta]
  exact List.nil_append _

/-! ### Before -/

/-- Hooks that leave the payload its type are all that `run_before_typed` runs. -/
theorem runBeforeTyped_ok_iff {method : String} {P : PayloadType} {params params' : P.Carrier}
    {ctx : CallContext} {s s' : σ} :
    h.runBeforeTyped requestMeta method P params s = (.ok (ctx, params'), s') ↔
      h.runBefore (.new method requestMeta) ⟨⟨P, params⟩⟩ s = (.ok (ctx, ⟨⟨P, params'⟩⟩), s') := by
  rw [runBeforeTyped, Chain.bind_run]
  rcases h.runBefore (.new method requestMeta) ⟨⟨P, params⟩⟩ s with ⟨e | ⟨c, ⟨p⟩⟩, s₁⟩
  · refine iff_of_false ?_ ?_ <;> intro heq <;> cases heq
  · rcases p.downcast_cases P with ⟨a, rfl, hp⟩ | ⟨hne, hp⟩
    · simp only [hp]
      constructor <;> intro heq <;> cases heq <;> rfl
    · simp only [hp]
      refine iff_of_false ?_ ?_ <;> intro heq <;> cases heq
      exact hne rfl

/-! ### After -/

theorem ctx_of_mem_given {ctx : CallContext} {resp : Middleware.Response} {s : σ} {v : Visit}
    (hv : v ∈ Chain.given (h.afterHooks ctx) resp s) : v.ctx = ctx := by
  refine Chain.forall_mem_given (P := fun v => v.ctx = ctx) ?_ resp s v hv
  intro p hp resp
  obtain ⟨q, -, rfl⟩ := List.mem_map.mp hp
  rfl

theorem afterHooks_eq_nil_iff {ctx : CallContext} :
    h.afterHooks ctx = [] ↔ h.interceptors = [] := by
  rw [afterHooks, List.map_eq_nil_iff, List.reverse_eq_nil_iff, List.zipIdx_eq_nil_iff]

theorem ctx_of_mem_streamVisits {method : String} {stream : List (Except A2AError Event)} {s : σ}
    {v : Visit} (hv : v ∈ (h.streamVisits requestMeta method stream s).flatten) :
    v.ctx = .new method requestMeta := by
  induction stream generalizing s with
  | nil => cases hv
  | cons item stream ih =>
    cases item with
    | error e => exact ih hv
    | ok event =>
      rcases List.mem_append.mp hv with hv | hv
      · exact ctx_of_mem_given hv
      · exact ih hv

/-- Whoever is visited is visited for an event, and intercepts. -/
theorem event_of_mem_streamVisits {method : String} {stream : List (Except A2AError Event)} {s : σ}
    {v : Visit} (hv : v ∈ (h.streamVisits requestMeta method stream s).flatten) :
    h.interceptors ≠ [] ∧ ∃ event, .ok event ∈ stream := by
  induction stream generalizing s with
  | nil => cases hv
  | cons item stream ih =>
    cases item with
    | error e =>
      obtain ⟨hne, event, hevent⟩ := ih hv
      exact ⟨hne, event, List.mem_cons_of_mem _ hevent⟩
    | ok event =>
      refine ⟨fun hnil => ?_, event, List.mem_cons_self⟩
      rcases List.mem_append.mp hv with hv | hv
      · rw [Chain.given_eq_nil_iff.mpr (afterHooks_eq_nil_iff.mpr hnil)] at hv
        cases hv
      · exact (ih hv).1 hnil

/-- An event visits somebody, if there is somebody. -/
theorem exists_mem_streamVisits {method : String} {stream : List (Except A2AError Event)}
    {event : Event} (hevent : .ok event ∈ stream) (hne : h.interceptors ≠ []) (s : σ) :
    ∃ v, v ∈ (h.streamVisits requestMeta method stream s).flatten := by
  induction stream generalizing s with
  | nil => cases hevent
  | cons item stream ih =>
    cases item with
    | error e =>
      rcases List.mem_cons.mp hevent with he | hevent
      · cases he
      · exact ih hevent s
    | ok event' =>
      have hround : Chain.given (h.afterHooks (.new method requestMeta))
          (.ok .event event') s ≠ [] := by
        intro hnil
        exact hne (afterHooks_eq_nil_iff.mp (Chain.given_eq_nil_iff.mp hnil))
      obtain ⟨v, hv⟩ := List.exists_mem_of_ne_nil _ hround
      exact ⟨v, List.mem_append_left _ hv⟩

/-! ### The context of a call -/

/-- Every hook `after` gets the context that the hooks `before` left. -/
def KeepsContext (h : InterceptedHandler σ) (requestMeta : RequestMeta) (m : HandlerMethod)
    (req : m.request.Carrier) (s : σ) : Prop :=
  ∀ ctx left s', h.runBefore (.new m.name requestMeta) ⟨⟨m.request, req⟩⟩ s =
    (.ok (ctx, left), s') → ∀ v ∈ h.visits requestMeta m req s, v.ctx = ctx

/-- There is no hook to get another context: the method answers once, nobody
intercepts it, or the hooks `before` left the context as it was made or led to a
stream without events, or to none. -/
def NeedsNoContext (h : InterceptedHandler σ) (requestMeta : RequestMeta) :
    (m : HandlerMethod) → m.request.Carrier → σ → Prop
  | .unary _, _, _ => True
  | .streaming m, req, s => h.interceptors = [] ∨ ∀ ctx params s',
      h.runBeforeTyped requestMeta m.name m.request req s = (.ok (ctx, params), s') →
        ctx = .new m.name requestMeta ∨ ∀ stream s'',
          (h.inner requestMeta).streamingCall m params s' = (.ok stream, s'') →
            ∀ event, .ok event ∉ stream

/-- The context that `run_before_typed` gives back is the one the hooks left. -/
theorem ctx_of_runBefore {m : HandlerMethod} {req : m.request.Carrier} {ctx : CallContext}
    {left : Middleware.Request} {p : CallContext × m.request.Carrier} {s s' s₁ : σ}
    (hbefore : h.runBefore (.new m.name requestMeta) ⟨⟨m.request, req⟩⟩ s = (.ok (ctx, left), s'))
    (ht : h.runBeforeTyped requestMeta m.name m.request req s = (.ok p, s₁)) : p.1 = ctx := by
  have hctx := runBeforeTyped_ok_iff.mp ht
  rw [hbefore] at hctx
  cases hctx
  rfl

theorem keepsContext_unary (m : UnaryMethod) (req : m.request.Carrier) (s : σ) :
    h.KeepsContext requestMeta (.unary m) req s := by
  intro ctx left s' hbefore v hv
  rw [visits_unary] at hv
  obtain ⟨p, s₁, ht, hv⟩ := Chain.mem_onOk_iff.mp hv
  rw [ctx_of_mem_given hv]
  exact ctx_of_runBefore (m := .unary m) hbefore ht

/-- **The hooks after a call get its context** unless the call is for a stream
that has events, and somebody before it changed the context. -/
theorem keepsContext_iff (m : HandlerMethod) (req : m.request.Carrier) (s : σ) :
    h.KeepsContext requestMeta m req s ↔ h.NeedsNoContext requestMeta m req s := by
  cases m with
  | unary m => exact iff_of_true (keepsContext_unary m req s) trivial
  | streaming m =>
    constructor
    · intro hkeeps
      refine or_iff_not_imp_left.mpr fun hne ctx params s' ht => ?_
      refine or_iff_not_imp_right.mpr fun hevents => ?_
      push Not at hevents
      obtain ⟨stream, s'', hstream, event, hevent⟩ := hevents
      obtain ⟨v, hv⟩ : ∃ v, v ∈ (h.streamVisits requestMeta m.name stream s'').flatten :=
        exists_mem_streamVisits hevent hne s''
      have hvisit : v ∈ h.visits requestMeta (.streaming m) req s := by
        rw [visits_streaming]
        exact Chain.mem_onOk_iff.mpr ⟨_, s', ht, Chain.mem_onOk_iff.mpr ⟨_, s'', hstream, hv⟩⟩
      rw [← hkeeps ctx _ s' (runBeforeTyped_ok_iff.mp ht) v hvisit]
      exact ctx_of_mem_streamVisits hv
    · intro hneeds ctx left s' hbefore v hv
      rw [visits_streaming] at hv
      obtain ⟨p, s₁, ht, hv⟩ := Chain.mem_onOk_iff.mp hv
      obtain ⟨stream, s₂, hstream, hv⟩ := Chain.mem_onOk_iff.mp hv
      rw [← ctx_of_runBefore (m := .streaming m) hbefore ht,
        ctx_of_mem_streamVisits hv]
      obtain ⟨hne, event, hevent⟩ := event_of_mem_streamVisits hv
      rcases hneeds.resolve_left hne p.1 p.2 s₁ ht with hctx | hnone
      · exact hctx.symm
      · exact absurd hevent (hnone stream s₂ hstream event)

end InterceptedHandler

/-! ### A stream for an authenticated user -/

/-- An interceptor that says who calls. -/
def authenticator (σ : Type) (username : String) : CallInterceptor σ where
  before ctx req := pure ({ ctx with user := .authenticatedUser username }, req)
  after _ resp := pure resp

/-- A handler that streams the message it is sent. -/
def echoing (σ : Type) : StreamingHandler σ where
  toStatefulHandler := .unsupported σ
  onMessageStream req := pure [.ok (.message req.message)]
  onSubscribeToTask _ := throw (.unsupportedOperation METHOD_TASKS_RESUBSCRIBE)

/-- The hook before a stream has found out who calls, and the one after it gets
a context with nobody. -/
theorem authenticator_not_keepsContext :
    ¬ InterceptedHandler.KeepsContext ⟨fun _ => echoing Unit, [authenticator Unit "alice"]⟩ ⟨∅⟩
      (.streaming .messageStream) ⟨none, .new "m1" .user [.text "hello"], none, none⟩ () := by
  intro hkeeps
  have hctx := hkeeps _ _ _ rfl
    ⟨0, .new METHOD_MESSAGE_STREAM ⟨∅⟩, .ok .event (.message (.new "m1" .user [.text "hello"]))⟩
    List.mem_cons_self
  have huser := congrArg CallContext.user hctx
  exact absurd huser (by decide)

/-! ### The outcomes of a call -/

/-- Which hook was visited, and about what. -/
def Visit.about (v : Visit) : ℕ × CallOutcome := (v.index, ⟨v.resp.payload, v.resp.err⟩)

/-- The outcomes of a stream: its items, or the failure to open it. -/
def streamOutcomes : Except A2AError (List (Except A2AError Event)) → List CallOutcome
  | .ok stream => stream.map (CallOutcome.ofResult .event)
  | .error e => [⟨none, some e⟩]

/-- An interceptor whose hooks return `Ok`. -/
structure Middleware.CallInterceptor.Succeeds {σ : Type} (i : CallInterceptor σ) : Prop where
  before : ∀ ctx req s, ∃ r s', i.before ctx req s = (.ok r, s')
  after : ∀ ctx resp s, ∃ r s', i.after ctx resp s = (.ok r, s')

namespace InterceptedHandler

variable {σ : Type} {h : InterceptedHandler σ} {requestMeta : RequestMeta}

/-- What comes of a call from state `s`. -/
def outcomes (h : InterceptedHandler σ) (requestMeta : RequestMeta) :
    (m : HandlerMethod) → m.request.Carrier → σ → List CallOutcome
  | .unary m, req, s =>
    match h.runBeforeTyped requestMeta m.name m.request req s with
    | (.ok p, s') => [.ofResult m.response ((h.inner requestMeta).unaryCall m p.2 s').1]
    | (.error e, _) => [⟨none, some e⟩]
  | .streaming m, req, s =>
    match h.runBeforeTyped requestMeta m.name m.request req s with
    | (.ok p, s') => streamOutcomes ((h.inner requestMeta).streamingCall m p.2 s').1
    | (.error e, _) => [⟨none, some e⟩]

/-- Every hook `after` is run on every outcome of the call, in reverse order. -/
def SeesOutcomes (h : InterceptedHandler σ) (requestMeta : RequestMeta) (m : HandlerMethod)
    (req : m.request.Carrier) (s : σ) : Prop :=
  Chain.AllVisited (List.range h.interceptors.length).reverse (h.outcomes requestMeta m req s)
    ((h.visits requestMeta m req s).map Visit.about)

/-- Nobody intercepts the call, or the request keeps its type and the method
answers once or with a stream that has no error. -/
def NoErrorApart (h : InterceptedHandler σ) (requestMeta : RequestMeta) (m : HandlerMethod)
    (req : m.request.Carrier) (s : σ) : Prop :=
  h.interceptors = [] ∨ ∃ p s',
    h.runBeforeTyped requestMeta m.name m.request req s = (.ok p, s') ∧
      match m, p with
      | .unary _, _ => True
      | .streaming m, p => ∃ stream s'',
        (h.inner requestMeta).streamingCall m p.2 s' = (.ok stream, s'') ∧
          ∀ e, .error e ∉ stream

/-- **A round of hooks that return `Ok`** visits everybody. -/
theorem visited_given (hok : ∀ i ∈ h.interceptors, i.Succeeds) (ctx : CallContext)
    (resp : Middleware.Response) (s : σ) :
    Chain.Visited (List.range h.interceptors.length).reverse ⟨resp.payload, resp.err⟩
      ((Chain.given (h.afterHooks ctx) resp s).map Visit.about) := by
  have horder : (List.range h.interceptors.length).reverse =
      h.interceptors.zipIdx.reverse.map Prod.snd := by
    rw [List.map_reverse, List.zipIdx_map_snd, List.range_eq_range']
  rw [horder, afterHooks]
  refine Chain.visited_given (fun p _ resp' => ?_) (fun p hp resp' s => ?_) (fun p _ => ?_) s
  · rfl
  · exact (hok p.1 (List.fst_mem_of_mem_zipIdx (List.mem_reverse.mp hp))).after ctx resp' s
  · rfl

theorem outcome_ofResult {R : PayloadType} {result : Except A2AError R.Carrier} :
    (⟨(Middleware.Response.ofResult R result).payload,
      (Middleware.Response.ofResult R result).err⟩ : CallOutcome) =
      .ofResult R result := by
  cases result <;> rfl

/-- Without interceptors nobody is visited. -/
theorem visits_of_nil (hnil : h.interceptors = []) (m : HandlerMethod) (req : m.request.Carrier)
    (s : σ) : h.visits requestMeta m req s = [] := by
  refine List.eq_nil_iff_forall_not_mem.mpr fun v hv => ?_
  cases m with
  | unary m =>
    rw [visits_unary] at hv
    obtain ⟨p, s', -, hv⟩ := Chain.mem_onOk_iff.mp hv
    rw [Chain.given_eq_nil_iff.mpr (afterHooks_eq_nil_iff.mpr hnil)] at hv
    cases hv
  | streaming m =>
    rw [visits_streaming] at hv
    obtain ⟨p, s', -, hv⟩ := Chain.mem_onOk_iff.mp hv
    obtain ⟨stream, s'', -, hv⟩ := Chain.mem_onOk_iff.mp hv
    exact (event_of_mem_streamVisits hv).1 hnil

/-- Each event is a round, and an error is none. -/
theorem length_streamVisits (hok : ∀ i ∈ h.interceptors, i.Succeeds) (method : String)
    (stream : List (Except A2AError Event)) (s : σ) :
    (h.streamVisits requestMeta method stream s).flatten.length =
      stream.countP Except.isOk * h.interceptors.length := by
  induction stream generalizing s with
  | nil => exact (Nat.zero_mul _).symm
  | cons item stream ih =>
    cases item with
    | error e =>
      rw [List.countP_cons_of_neg (by simp [Except.isOk, Except.toBool])]
      exact ih s
    | ok event =>
      have hround := congrArg List.length
        (visited_given hok (.new method requestMeta) (.ok .event event) s).1
      rw [List.length_map, List.length_map, List.length_reverse, List.length_range] at hround
      rw [List.countP_cons_of_pos rfl, streamVisits, List.flatten_cons, List.length_append, hround,
        ih]
      ring

/-- The events of a stream without errors are all that is visited. -/
theorem allVisited_streamVisits (hok : ∀ i ∈ h.interceptors, i.Succeeds) (method : String)
    {stream : List (Except A2AError Event)} (hstream : ∀ e, .error e ∉ stream) (s : σ) :
    Chain.AllVisited (List.range h.interceptors.length).reverse
      (stream.map (CallOutcome.ofResult .event))
      ((h.streamVisits requestMeta method stream s).flatten.map Visit.about) := by
  induction stream generalizing s with
  | nil => exact ⟨[], .nil, rfl⟩
  | cons item stream ih =>
    cases item with
    | error e => exact absurd List.mem_cons_self (hstream e)
    | ok event =>
      rw [streamVisits, List.flatten_cons, List.map_append]
      exact .cons (visited_given hok _ _ s)
        (ih (fun e he => hstream e (List.mem_cons_of_mem _ he)) _)

theorem seesOutcomes_of_noErrorApart (hok : ∀ i ∈ h.interceptors, i.Succeeds) {m : HandlerMethod}
    {req : m.request.Carrier} {s : σ} (hno : h.NoErrorApart requestMeta m req s) :
    h.SeesOutcomes requestMeta m req s := by
  unfold SeesOutcomes
  rcases hno with hnil | ⟨p, s', ht, hm⟩
  · rw [visits_of_nil hnil, hnil]
    exact Chain.allVisited_nil _
  · cases m with
    | unary m =>
      change h.runBeforeTyped requestMeta m.name m.request req s = _ at ht
      rw [visits_unary, outcomes, ht]
      refine Chain.allVisited_singleton ?_
      have hround := visited_given hok p.1
        (.ofResult m.response ((h.inner requestMeta).unaryCall m p.2 s').1)
        ((h.inner requestMeta).unaryCall m p.2 s').2
      rw [outcome_ofResult] at hround
      exact hround
    | streaming m =>
      change h.runBeforeTyped requestMeta m.name m.request req s = _ at ht
      obtain ⟨stream, s'', hstream, herror⟩ := hm
      rw [visits_streaming, outcomes, ht]
      change Chain.AllVisited _ (streamOutcomes ((h.inner requestMeta).streamingCall m p.2 s').1)
        ((Chain.onOk ((h.inner requestMeta).streamingCall m p.2 s') _).map Visit.about)
      rw [hstream]
      exact allVisited_streamVisits hok m.name herror s''

/-- An outcome that nobody is visited for. -/
theorem not_allVisited_singleton {outcome : CallOutcome} (hne : h.interceptors ≠ []) :
    ¬ Chain.AllVisited (List.range h.interceptors.length).reverse [outcome] [] := by
  refine Chain.not_allVisited_singleton (fun hnil => hne ?_) outcome
  rwa [List.reverse_eq_nil_iff, List.range_eq_nil, List.length_eq_zero_iff] at hnil

/-- **The hooks after a call see its outcomes** if they are there and return
`Ok`, unless the request has changed its type or a stream has an error. -/
theorem seesOutcomes_iff (hok : ∀ i ∈ h.interceptors, i.Succeeds) {m : HandlerMethod}
    {req : m.request.Carrier} {s : σ} :
    h.SeesOutcomes requestMeta m req s ↔ h.NoErrorApart requestMeta m req s := by
  refine ⟨fun hsees => or_iff_not_imp_left.mpr fun hne => ?_, seesOutcomes_of_noErrorApart hok⟩
  unfold SeesOutcomes at hsees
  cases m with
  | unary m =>
    rw [visits_unary, outcomes] at hsees
    rcases ht : h.runBeforeTyped requestMeta m.name m.request req s with ⟨e | p, s'⟩
    · rw [ht] at hsees
      exact absurd hsees (not_allVisited_singleton hne)
    · exact ⟨p, s', ht, trivial⟩
  | streaming m =>
    rw [visits_streaming, outcomes] at hsees
    rcases ht : h.runBeforeTyped requestMeta m.name m.request req s with ⟨e | p, s'⟩
    · rw [ht] at hsees
      exact absurd hsees (not_allVisited_singleton hne)
    · rw [ht] at hsees
      change Chain.AllVisited _ (streamOutcomes ((h.inner requestMeta).streamingCall m p.2 s').1)
        ((Chain.onOk ((h.inner requestMeta).streamingCall m p.2 s') _).map Visit.about) at hsees
      rcases hs : (h.inner requestMeta).streamingCall m p.2 s' with ⟨e | stream, s''⟩
      · rw [hs] at hsees
        exact absurd hsees (not_allVisited_singleton hne)
      · rw [hs] at hsees
        refine ⟨p, s', ht, stream, s'', hs, fun e he => ?_⟩
        -- as many rounds as items, so every item is an event
        have hlength := hsees.length_eq
        change ((h.streamVisits requestMeta m.name stream s'').flatten.map Visit.about).length =
          (stream.map (CallOutcome.ofResult .event)).length * _ at hlength
        rw [List.length_map, length_streamVisits hok, List.length_map, List.length_reverse,
          List.length_range] at hlength
        have hpos : 0 < h.interceptors.length := List.length_pos_iff.mpr hne
        have hcount := List.countP_eq_length.mp (Nat.eq_of_mul_eq_mul_right hpos hlength)
        exact absurd (hcount _ he) (by simp [Except.isOk, Except.toBool])

end InterceptedHandler

end Ra2a
