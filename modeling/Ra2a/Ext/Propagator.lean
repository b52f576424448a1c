import Ra2a.Client.Interceptors
import Ra2a.Server.Middleware
import Ra2a.Server.RequestMeta

/-!
# Extensions handed on

`propagator.rs` and `util.rs` of `ra2a-ext`.  An agent that serves a request and sends
others for it is to hand the extensions on: the hook of its server copies what belongs
to them to a task local, and the hook of its client takes it from there.

The values of the header are handed on.  But the server looks for them under the name
as it is written in `SVC_PARAM_EXTENSIONS`, and the keys of the metadata are in lower
case; so does the client, on what the server has copied (`chained_propagates_iff`).
-/

namespace Ra2a

open SortedMap

/-- `eq_ignore_ascii_case`. -/
def eqIgnoreAsciiCase (a b : String) : Bool := lowerCase a = lowerCase b

def isExtensionSupported (card : Option AgentCard) (extUri : String) : Bool :=
  match card with
  | none => true
  | some c => c.capabilities.extensions.any (·.uri = extUri)

/-! ### The task local -/

structure PropagatorContext where
  requestHeaders : Finmap fun _ : String => List String
  metadata : Metadata

/-- `PROPAGATOR_CTX`: there is a cell inside `init_propagation`, and nothing outside. -/
abbrev PropagatorCell := Option (Option PropagatorContext)

namespace PropagatorContext

def current : Handling PropagatorCell (Option PropagatorContext) :=
  fun cell => (.ok cell.join, cell)

def install (self : PropagatorContext) : Handling PropagatorCell Bool :=
  fun cell => (.ok cell.isSome, cell.map fun _ => some self)

/-- Each header with each of its values. -/
def headerValues (self : PropagatorContext) : List (String × String) :=
  (entriesOf self.requestHeaders).flatMap fun e => e.2.map fun v => (e.1, v)

end PropagatorContext

def initPropagation {α : Type} (f : Handling PropagatorCell α) : Handling PropagatorCell α :=
  fun cell => ((f (some none)).1, cell)

/-! ### The server's side -/

structure ServerPropagatorConfig where
  metadataPredicate : Option (List String → String → Bool)
  headerPredicate : Option (String → Bool)

structure ServerPropagator where
  metadataPredicate : List String → String → Bool
  headerPredicate : String → Bool

namespace ServerPropagator

def withConfig (config : ServerPropagatorConfig) : ServerPropagator where
  metadataPredicate :=
    config.metadataPredicate.getD fun requestedUris key => requestedUris.any (· = key)
  headerPredicate :=
    config.headerPredicate.getD fun key => eqIgnoreAsciiCase key SVC_PARAM_EXTENSIONS

def new : ServerPropagator := withConfig ⟨none, none⟩

/-- `collect_matching_metadata`. -/
def collectMatchingMetadata (metadata : Metadata) (requested : List String)
    (predicate : List String → String → Bool) (out : Metadata) : Metadata :=
  insertWhere (predicate requested) metadata out

/-- `extract_metadata`. -/
def extractMetadata (req : Middleware.Request) (requested : List String)
    (predicate : List String → String → Bool) (out : Metadata) : Metadata :=
  match req.payload.downcast .sendMessageRequest with
  | some params =>
    match params.metadata with
    | some metadata => collectMatchingMetadata metadata requested predicate out
    | none => out
  | none => out

variable (self : ServerPropagator) (ctx : CallContext) (req : Middleware.Request)

/-- What `propagate_server` copies. -/
def extract : PropagatorContext where
  metadata := extractMetadata req ctx.requestedExtensionUris self.metadataPredicate ∅
  requestHeaders := insertWhere self.headerPredicate ctx.requestMeta.kv ∅

/-- `propagate_server`. -/
def propagateServer : Handling PropagatorCell CallContext := do
  let propCtx := self.extract ctx req
  let ctx :=
    match propCtx.requestHeaders.lookup SVC_PARAM_EXTENSIONS with
    | some extValues => extValues.foldl CallContext.activateExtension ctx
    | none => ctx
  let _installed ← propCtx.install
  return ctx

def interceptor : Middleware.CallInterceptor PropagatorCell where
  before ctx req := do return (← self.propagateServer ctx req, req)
  after _ resp := pure resp

end ServerPropagator

/-! ### The client's side -/

structure ClientPropagatorConfig where
  metadataPredicate : Option (Option AgentCard → List String → String → Bool)
  headerPredicate : Option (Option AgentCard → String → String → Bool)

structure ClientPropagator where
  metadataPredicate : Option AgentCard → List String → String → Bool
  headerPredicate : Option AgentCard → String → String → Bool

namespace ClientPropagator

def defaultClientMetadataPredicate (card : Option AgentCard) (requested : List String)
    (key : String) : Bool :=
  requested.any (· = key) && isExtensionSupported card key

def defaultClientHeaderPredicate (card : Option AgentCard) (key val : String) : Bool :=
  eqIgnoreAsciiCase key SVC_PARAM_EXTENSIONS && isExtensionSupported card val

def withConfig (config : ClientPropagatorConfig) : ClientPropagator where
  metadataPredicate := config.metadataPredicate.getD defaultClientMetadataPredicate
  headerPredicate := config.headerPredicate.getD defaultClientHeaderPredicate

def new : ClientPropagator := withConfig ⟨none, none⟩

/-- `inject_matching_metadata`. -/
def injectMatchingMetadata (target source : Metadata) (card : Option AgentCard)
    (requested : List String) (predicate : Option AgentCard → List String → String → Bool) :
    Metadata :=
  insertWhere (predicate card requested) source target

/-- `inject_metadata`. -/
def injectMetadata (payload : Payload) (metadata : Metadata) (card : Option AgentCard)
    (requested : List String) (predicate : Option AgentCard → List String → String → Bool) :
    Payload :=
  match payload.downcast .sendMessageRequest with
  | some params =>
    ⟨.sendMessageRequest, { params with
      metadata := some
        (injectMatchingMetadata (params.metadata.getD ∅) metadata card requested predicate) }⟩
  | none => payload

variable (self : ClientPropagator) (propCtx : PropagatorContext) (req : Interceptor.Request)

/-- What `propagate_client` makes of a request, with what the server has copied. -/
def inject : Interceptor.Request :=
  let requested := (propCtx.requestHeaders.lookup SVC_PARAM_EXTENSIONS).getD []
  { req with
    payload :=
      if (entriesOf propCtx.metadata).isEmpty then req.payload
      else injectMetadata req.payload propCtx.metadata req.card requested self.metadataPredicate
    serviceParams := propCtx.headerValues.foldl (fun sp e =>
      if self.headerPredicate req.card e.1 e.2 then sp.append e.1 e.2 else sp) req.serviceParams }

/-- `propagate_client`. -/
def propagateClient : Handling PropagatorCell Interceptor.Request := do
  match ← PropagatorContext.current with
  | none => return req
  | some propCtx => return self.inject propCtx req

def interceptor : Interceptor.CallInterceptor PropagatorCell where
  before req := self.propagateClient req
  after resp := pure resp

end ClientPropagator

/-! ### What the client's hook does -/

theorem PropagatorContext.mem_headerValues {propCtx : PropagatorContext} {e : String × String} :
    e ∈ propCtx.headerValues ↔ e.2 ∈ (propCtx.requestHeaders.lookup e.1).getD [] := by
  obtain ⟨k, v⟩ := e
  rw [headerValues, List.mem_flatMap]
  constructor
  · rintro ⟨⟨l, vals⟩, hmem, he⟩
    obtain ⟨w, hw, heq⟩ := List.mem_map.mp he
    cases heq
    rw [mem_entriesOf.mp hmem]
    exact hw
  · intro hv
    cases hk : propCtx.requestHeaders.lookup k with
    | none =>
      rw [hk] at hv
      cases hv
    | some vals =>
      rw [hk] at hv
      exact ⟨(k, vals), mem_entriesOf.mpr hk, List.mem_map.mpr ⟨v, hv, rfl⟩⟩

namespace ClientPropagator

open Interceptor

theorem mem_pairs_foldl_append (p : String × String → Bool) (es : List (String × String))
    {sp : ServiceParams} {e : String × String} :
    e ∈ (es.foldl (fun sp e => if p e then sp.append e.1 e.2 else sp) sp).pairs ↔
      e ∈ sp.pairs ∨ (p e ∧ e ∈ es) := by
  induction es generalizing sp with
  | nil => simp
  | cons d es ih =>
    rw [List.foldl_cons, ih, List.mem_cons]
    split
    · rename_i hd
      rw [ServiceParams.mem_pairs_append, or_assoc]
      refine or_congr_right ⟨?_, ?_⟩
      · rintro (rfl | ⟨hp, he⟩)
        · exact ⟨hd, Or.inl rfl⟩
        · exact ⟨hp, Or.inr he⟩
      · rintro ⟨hp, rfl | he⟩
        · exact Or.inl rfl
        · exact Or.inr ⟨hp, he⟩
    · rename_i hd
      refine or_congr_right (and_congr_right fun hp => ?_)
      constructor
      · exact Or.inr
      · rintro (rfl | he)
        · exact absurd hp hd
        · exact he

variable (propCtx : PropagatorContext) {req : Interceptor.Request}

/-- **The parameters after the hook**: values of the extensions header that the card
supports are added. -/
theorem mem_pairs_inject {e : String × String} :
    e ∈ (new.inject propCtx req).serviceParams.pairs ↔ e ∈ req.serviceParams.pairs ∨
      (lowerCase e.1 = lowerCase SVC_PARAM_EXTENSIONS ∧ isExtensionSupported req.card e.2 ∧
        e.2 ∈ (propCtx.requestHeaders.lookup e.1).getD []) := by
  refine (mem_pairs_foldl_append
    (fun e => defaultClientHeaderPredicate req.card e.1 e.2) propCtx.headerValues).trans ?_
  rw [PropagatorContext.mem_headerValues, defaultClientHeaderPredicate, Bool.and_eq_true,
    eqIgnoreAsciiCase, decide_eq_true_iff, and_assoc]

/-- **The message after the hook**: entries whose key is asked for and supported are taken
over. -/
theorem payload_inject {params : SendMessageRequest}
    (hreq : req.payload = ⟨.sendMessageRequest, params⟩) :
    ∃ metadata, (new.inject propCtx req).payload =
        ⟨.sendMessageRequest, { params with metadata := metadata }⟩ ∧
      ∀ k, (metadata.getD ∅).lookup k =
        (if k ∈ (propCtx.requestHeaders.lookup SVC_PARAM_EXTENSIONS).getD [] ∧
            isExtensionSupported req.card k then propCtx.metadata.lookup k else none).or
          ((params.metadata.getD ∅).lookup k) := by
  by_cases hempty : entriesOf propCtx.metadata = []
  · refine ⟨params.metadata, ?_, fun k => ?_⟩
    · rw [inject, hempty, hreq]
      rfl
    · rw [entriesOf_eq_nil_iff.mp hempty, Finmap.lookup_empty, ite_self, Option.none_or]
  · refine ⟨some (insertWhere (new.metadataPredicate req.card
      ((propCtx.requestHeaders.lookup SVC_PARAM_EXTENSIONS).getD [])) propCtx.metadata
      (params.metadata.getD ∅)), ?_, fun k => ?_⟩
    · rw [inject, if_neg (by rwa [List.isEmpty_iff]), injectMetadata, hreq, Payload.downcast_self]
      rfl
    · rw [Option.getD_some, lookup_insertWhere]
      congr 2
      simp [new, withConfig, defaultClientMetadataPredicate]

/-- The cell is only read. -/
theorem before_apply (c : ClientPropagator) (cell : PropagatorCell) :
    c.interceptor.before req cell =
      (.ok (match cell.join with
        | none => req
        | some propCtx => c.inject propCtx req), cell) := by
  show c.propagateClient req cell = _
  rw [propagateClient, Chain.bind_run]
  show (match cell.join with
    | none => pure req
    | some propCtx => pure (c.inject propCtx req) :
      Handling PropagatorCell Interceptor.Request) cell = _
  cases cell.join <;> rfl

/-- **One request after the other** gets the same. -/
theorem mapM_before (c : ClientPropagator) (reqs : List Interceptor.Request) :
    reqs.mapM c.interceptor.before (some (some propCtx)) =
      (.ok (reqs.map (c.inject propCtx)), some (some propCtx)) := by
  induction reqs with
  | nil => rfl
  | cons req reqs ih =>
    rw [List.mapM_cons, Chain.bind_run, before_apply]
    show (reqs.mapM c.interceptor.before >>= fun outs => pure (c.inject propCtx req :: outs) :
      Handling PropagatorCell (List Interceptor.Request)) _ = _
    rw [Chain.bind_run, ih]
    rfl

end ClientPropagator

/-! ### What the server's hook does -/

namespace ServerPropagator

variable {ctx : CallContext} {headers : HeaderMap}

theorem lookup_requestHeaders {req : Middleware.Request} {k : String} :
    (new.extract ctx req).requestHeaders.lookup k =
      if lowerCase k = lowerCase SVC_PARAM_EXTENSIONS then ctx.requestMeta.kv.lookup k
      else none := by
  rw [extract, lookup_insertWhere, Finmap.lookup_empty, Option.or_none]
  simp [new, withConfig, eqIgnoreAsciiCase]

/-- The URIs that are asked for are the values of the header. -/
theorem requestedExtensionUris_eq (hctx : ctx.requestMeta.OfRequest headers) :
    ctx.requestedExtensionUris = headers.texts "a2a-extensions" := by
  have hname : lowerCase SVC_PARAM_EXTENSIONS = "a2a-extensions" := by decide
  rw [CallContext.requestedExtensionUris, RequestMeta.get, hname]
  exact hctx.lookup (by decide)

/-- No header is copied under the name as it is written. -/
theorem lookup_SVC_PARAM_EXTENSIONS (hctx : ctx.requestMeta.OfRequest headers)
    (hlower : ∀ e ∈ headers, lowerCase e.1 = e.1) (req : Middleware.Request) :
    (new.extract ctx req).requestHeaders.lookup SVC_PARAM_EXTENSIONS = none := by
  rw [lookup_requestHeaders, if_pos rfl, Finmap.lookup_eq_none]
  intro hmem
  exact absurd (hctx.lowerCase_eq hlower hmem) (by decide)

/-- **The hook on a request that came with headers**: the context stays as it is. -/
theorem before_apply (hctx : ctx.requestMeta.OfRequest headers)
    (hlower : ∀ e ∈ headers, lowerCase e.1 = e.1) (req : Middleware.Request)
    (cell : PropagatorCell) :
    new.interceptor.before ctx req cell =
      (.ok (ctx, req), cell.map fun _ => some (new.extract ctx req)) := by
  show (new.propagateServer ctx req >>= fun ctx => pure (ctx, req) :
    Handling PropagatorCell (CallContext × Middleware.Request)) cell = _
  rw [Chain.bind_run, propagateServer, lookup_SVC_PARAM_EXTENSIONS hctx hlower]
  rfl

end ServerPropagator

/-! ### Along the chain -/

open Interceptor

/-- A card with these extensions. -/
def makeCard (uris : List String) : AgentCard :=
  { AgentCard.new "test" "test agent" [.new "https://example.com" "JSONRPC"] with
    capabilities := ⟨none, none, uris.map fun u => ⟨u, none, false, none⟩, none⟩ }

/-- The card lists the extension. -/
def AgentCard.Declares (K : AgentCard) (uri : String) : Prop :=
  ∃ e ∈ K.capabilities.extensions, e.uri = uri

instance (K : AgentCard) (uri : String) : Decidable (K.Declares uri) :=
  inferInstanceAs (Decidable (∃ e ∈ K.capabilities.extensions, e.uri = uri))

theorem isExtensionSupported_some_iff {K : AgentCard} {uri : String} :
    isExtensionSupported (some K) uri ↔ K.Declares uri := by
  rw [isExtensionSupported, List.any_eq_true]
  simp only [decide_eq_true_eq]
  rfl

theorem declares_makeCard {uris : List String} {uri : String} (h : uri ∈ uris) :
    (makeCard uris).Declares uri := ⟨_, List.mem_map_of_mem h, rfl⟩

/-- The values of the extensions header among the parameters. -/
def Interceptor.ServiceParams.extensions (sp : ServiceParams) : Set String :=
  {v | ∃ k, lowerCase k = lowerCase SVC_PARAM_EXTENSIONS ∧ (k, v) ∈ sp.pairs}

/-- What becomes of the message `p` and the parameters `sp` for the agent of card `K`
carries, on top of its own, what there is to hand on of the metadata `M` and the URIs `R`. -/
structure HandsOn (R : List String) (M : Metadata) (K : AgentCard) (p : SendMessageRequest)
    (sp : ServiceParams) (out : Interceptor.Request) : Prop where
  metadata : ∃ metadata, out.payload = ⟨.sendMessageRequest, { p with metadata := metadata }⟩ ∧
    ∀ k, (metadata.getD ∅).lookup k =
      (if k ∈ R ∧ K.Declares k then M.lookup k else none).or ((p.metadata.getD ∅).lookup k)
  extensions : out.serviceParams.extensions = sp.extensions ∪ {u | u ∈ R ∧ K.Declares u}
  others : ∀ e, lowerCase e.1 ≠ lowerCase SVC_PARAM_EXTENSIONS →
    (e ∈ out.serviceParams.pairs ↔ e ∈ sp.pairs)

/-- The hook of the server on a message, and the hooks of the client on the requests that are
then sent, inside `init_propagation`. -/
def chained (ctx : CallContext) (params : SendMessageRequest) (reqs : List Interceptor.Request) :
    Handling PropagatorCell (CallContext × List Interceptor.Request) :=
  initPropagation do
    let served ← ServerPropagator.new.interceptor.before ctx ⟨⟨.sendMessageRequest, params⟩⟩
    let outs ← reqs.mapM ClientPropagator.new.interceptor.before
    return (served.1, outs)

/-- After the hook of the server the URIs `R` are active, and every message that is then
sent to an agent with a card hands them on. -/
def Propagates (ctx : CallContext) (params : SendMessageRequest) (R : List String) : Prop :=
  ∀ reqs cell, ∃ ctx' outs, (chained ctx params reqs cell).1 = .ok (ctx', outs) ∧
    (∀ u ∈ R, ctx'.isExtensionActive u) ∧
    List.Forall₂ (fun req out => ∀ K p, req.card = some K →
      req.payload = ⟨.sendMessageRequest, p⟩ →
      HandsOn R (params.metadata.getD ∅) K p req.serviceParams out) reqs outs

theorem CallContext.isExtensionActive_iff {ctx : CallContext} {uri : String} :
    ctx.isExtensionActive uri ↔ uri ∈ ctx.activatedExtensions := by
  rw [isExtensionActive, List.any_eq_true]
  simp

section

variable {ctx : CallContext} {headers : HeaderMap} {params : SendMessageRequest}

theorem chained_apply (hctx : ctx.requestMeta.OfRequest headers)
    (hlower : ∀ e ∈ headers, lowerCase e.1 = e.1) (reqs : List Interceptor.Request)
    (cell : PropagatorCell) :
    (chained ctx params reqs cell).1 = .ok (ctx, reqs.map (ClientPropagator.new.inject
      (ServerPropagator.new.extract ctx ⟨⟨.sendMessageRequest, params⟩⟩))) := by
  rw [chained, initPropagation, Chain.bind_run,
    ServerPropagator.before_apply hctx hlower ⟨⟨.sendMessageRequest, params⟩⟩]
  show ((reqs.mapM ClientPropagator.new.interceptor.before >>= fun outs => pure (ctx, outs) :
    Handling PropagatorCell (CallContext × List Interceptor.Request)) (some (some _))).1 = _
  rw [Chain.bind_run, ClientPropagator.mapM_before]
  rfl

/-- What is copied of the headers is what is asked for, under the name in lower case. -/
theorem mem_lookup_requestHeaders (hctx : ctx.requestMeta.OfRequest headers)
    (hlower : ∀ e ∈ headers, lowerCase e.1 = e.1) {req : Middleware.Request} {k v : String} :
    v ∈ ((ServerPropagator.new.extract ctx req).requestHeaders.lookup k).getD [] ↔
      k = lowerCase SVC_PARAM_EXTENSIONS ∧ v ∈ headers.texts "a2a-extensions" := by
  have hname : lowerCase SVC_PARAM_EXTENSIONS = "a2a-extensions" := by decide
  rw [ServerPropagator.lookup_requestHeaders, hname]
  constructor
  · intro hv
    split at hv
    · rename_i hk
      have hmem : k ∈ ctx.requestMeta.kv := by
        by_contra hmem
        rw [Finmap.lookup_eq_none.mpr hmem] at hv
        cases hv
      obtain rfl : k = "a2a-extensions" := (hctx.lowerCase_eq hlower hmem).symm.trans hk
      rw [hctx.lookup (by decide)] at hv
      exact ⟨rfl, hv⟩
    · cases hv
  · rintro ⟨rfl, hv⟩
    rw [if_pos (by decide), hctx.lookup (by decide)]
    exact hv

/-- **The header is handed on**, whatever is asked for. -/
theorem extensions_inject (hctx : ctx.requestMeta.OfRequest headers)
    (hlower : ∀ e ∈ headers, lowerCase e.1 = e.1) {served : Middleware.Request}
    {req : Interceptor.Request}
    {K : AgentCard} (hcard : req.card = some K) :
    (ClientPropagator.new.inject (ServerPropagator.new.extract ctx served)
        req).serviceParams.extensions =
      req.serviceParams.extensions ∪ {u | u ∈ headers.texts "a2a-extensions" ∧ K.Declares u} := by
  ext u
  constructor
  · rintro ⟨k, hk, hmem⟩
    rcases (ClientPropagator.mem_pairs_inject _).mp hmem with hmem | ⟨-, hsupp, hu⟩
    · exact Or.inl ⟨k, hk, hmem⟩
    · rw [hcard, isExtensionSupported_some_iff] at hsupp
      exact Or.inr ⟨((mem_lookup_requestHeaders hctx hlower).mp hu).2, hsupp⟩
  · rintro (⟨k, hk, hmem⟩ | ⟨hu, hdecl⟩)
    · exact ⟨k, hk, (ClientPropagator.mem_pairs_inject _).mpr (Or.inl hmem)⟩
    · have hname : lowerCase (lowerCase SVC_PARAM_EXTENSIONS) = lowerCase SVC_PARAM_EXTENSIONS := by
        decide
      refine ⟨lowerCase SVC_PARAM_EXTENSIONS, hname,
        (ClientPropagator.mem_pairs_inject _).mpr (Or.inr ⟨hname, ?_, ?_⟩)⟩
      · rw [hcard]
        exact isExtensionSupported_some_iff.mpr hdecl
      · exact (mem_lookup_requestHeaders hctx hlower).mpr ⟨rfl, hu⟩

/-- **The metadata stays as it is**, whatever is asked for. -/
theorem metadata_inject (hctx : ctx.requestMeta.OfRequest headers)
    (hlower : ∀ e ∈ headers, lowerCase e.1 = e.1) {served : Middleware.Request}
    {req : Interceptor.Request}
    {p : SendMessageRequest} (hreq : req.payload = ⟨.sendMessageRequest, p⟩) :
    ∃ metadata, (ClientPropagator.new.inject (ServerPropagator.new.extract ctx served)
        req).payload = ⟨.sendMessageRequest, { p with metadata := metadata }⟩ ∧
      metadata.getD ∅ = p.metadata.getD ∅ := by
  obtain ⟨metadata, hpayload, hlookup⟩ :=
    ClientPropagator.payload_inject (ServerPropagator.new.extract ctx served) hreq
  refine ⟨metadata, hpayload, Finmap.ext_lookup fun k => ?_⟩
  rw [hlookup, ServerPropagator.lookup_SVC_PARAM_EXTENSIONS hctx hlower]
  rw [if_neg fun h => List.not_mem_nil h.1, Option.none_or]

theorem active_of_propagates (hctx : ctx.requestMeta.OfRequest headers)
    (hlower : ∀ e ∈ headers, lowerCase e.1 = e.1) {R : List String}
    (h : Propagates ctx params R) : ∀ u ∈ R, u ∈ ctx.activatedExtensions := by
  intro u hu
  obtain ⟨ctx', outs, hrun, hactive, -⟩ := h [] none
  rw [chained_apply hctx hlower] at hrun
  cases hrun
  exact CallContext.isExtensionActive_iff.mp (hactive u hu)

/-- A value that there is to hand on is missed by an agent that has the extension. -/
theorem notMem_of_propagates (hctx : ctx.requestMeta.OfRequest headers)
    (hlower : ∀ e ∈ headers, lowerCase e.1 = e.1) {R : List String}
    (h : Propagates ctx params R) {u : String} (hu : u ∈ R) : u ∉ params.metadata.getD ∅ := by
  intro hM
  let p : SendMessageRequest := { params with metadata := none }
  let req : Interceptor.Request :=
    ⟨"SendMessage", some (makeCard [u]), .empty, ⟨.sendMessageRequest, p⟩⟩
  have hreq : req.payload = ⟨.sendMessageRequest, p⟩ := rfl
  obtain ⟨ctx', outs, hrun, -, houts⟩ := h [req] none
  rw [chained_apply hctx hlower] at hrun
  cases hrun
  obtain ⟨hhands, -⟩ := List.forall₂_cons.mp houts
  obtain ⟨m, hm, hlookup⟩ := (hhands _ _ rfl hreq).metadata
  obtain ⟨m', hm', hown⟩ := metadata_inject hctx hlower hreq
  rw [hm'] at hm
  cases hm
  have hnone := hlookup u
  rw [hown, if_pos ⟨hu, declares_makeCard List.mem_cons_self⟩] at hnone
  rw [← Finmap.lookup_isSome] at hM
  obtain ⟨v, hv⟩ := Option.isSome_iff_exists.mp hM
  rw [hv] at hnone
  cases hnone

/-- Where no metadata is asked for, everything that is to be handed on is. -/
theorem handsOn_inject (hctx : ctx.requestMeta.OfRequest headers)
    (hlower : ∀ e ∈ headers, lowerCase e.1 = e.1)
    (hnone : ∀ u ∈ headers.texts "a2a-extensions", u ∉ params.metadata.getD ∅)
    {req : Interceptor.Request} {K : AgentCard} {p : SendMessageRequest}
    (hcard : req.card = some K) (hreq : req.payload = ⟨.sendMessageRequest, p⟩) :
    HandsOn (headers.texts "a2a-extensions") (params.metadata.getD ∅) K p req.serviceParams
      (ClientPropagator.new.inject
        (ServerPropagator.new.extract ctx ⟨⟨.sendMessageRequest, params⟩⟩) req) := by
  constructor
  · obtain ⟨m, hm, hown⟩ := metadata_inject hctx hlower hreq
    refine ⟨m, hm, fun k => ?_⟩
    rw [hown]
    split
    · rename_i hk
      rw [Finmap.lookup_eq_none.mpr (hnone k hk.1), Option.none_or]
    · exact Option.none_or.symm
  · exact extensions_inject hctx hlower hcard
  · intro e he
    refine (ClientPropagator.mem_pairs_inject _).trans (or_iff_left ?_)
    exact fun hnew => he hnew.1

/-- **The chain hands on what it is to, and activates what is asked for, exactly if** that
was active before and there is no metadata under a URI that is asked for. -/
theorem chained_propagates_iff (hctx : ctx.requestMeta.OfRequest headers)
    (hlower : ∀ e ∈ headers, lowerCase e.1 = e.1) :
    Propagates ctx params (headers.texts "a2a-extensions") ↔
      ∀ u ∈ headers.texts "a2a-extensions",
        u ∈ ctx.activatedExtensions ∧ u ∉ params.metadata.getD ∅ := by
  constructor
  · intro h u hu
    exact ⟨active_of_propagates hctx hlower h u hu, notMem_of_propagates hctx hlower h hu⟩
  · intro h reqs cell
    have hactive : ∀ u ∈ headers.texts "a2a-extensions", ctx.isExtensionActive u :=
      fun u hu => CallContext.isExtensionActive_iff.mpr (h u hu).1
    refine ⟨ctx, _, chained_apply hctx hlower reqs cell, hactive, ?_⟩
    rw [List.forall₂_map_right_iff]
    refine List.forall₂_same.mpr fun req _ K p hcard hreq => ?_
    exact handsOn_inject hctx hlower (fun u hu => (h u hu).2) hcard hreq

end

/-! ### A message that asks for an extension -/

def durationHeaders : HeaderMap := [("a2a-extensions", Utf8.encode "urn:a2a:ext:duration".toList)]

def durationContext : CallContext := .new METHOD_MESSAGE_SEND (.fromHeaderMap durationHeaders)

/-- A message with a value for the extension. -/
def durationMessage : SendMessageRequest :=
  ⟨none, .new "m1" .user [.text "hello"], none,
    some ((∅ : Metadata).insert "urn:a2a:ext:duration" (.string "PT1S"))⟩

theorem texts_durationHeaders :
    durationHeaders.texts "a2a-extensions" = ["urn:a2a:ext:duration"] := by
  decide

theorem lowerCase_durationHeaders : ∀ e ∈ durationHeaders, lowerCase e.1 = e.1 := by
  intro e he
  obtain rfl := List.mem_singleton.mp he
  decide

/-- The extension that is asked for does not become active. -/
theorem duration_not_propagated :
    durationHeaders.texts "a2a-extensions" = ["urn:a2a:ext:duration"] ∧
      ¬ Propagates durationContext durationMessage ["urn:a2a:ext:duration"] := by
  refine ⟨texts_durationHeaders, fun h => ?_⟩
  have hctx : durationContext.requestMeta.OfRequest durationHeaders := .base
  have hactive := active_of_propagates hctx lowerCase_durationHeaders h _ List.mem_cons_self
  cases hactive

/-- An extension that a hook before this one has made active, and that no metadata is for. -/
theorem duration_propagated :
    Propagates (durationContext.activateExtension "urn:a2a:ext:duration")
      { durationMessage with metadata := none } ["urn:a2a:ext:duration"] := by
  have hctx : (durationContext.activateExtension "urn:a2a:ext:duration").requestMeta.OfRequest
      durationHeaders := .base
  rw [← texts_durationHeaders]
  refine (chained_propagates_iff hctx lowerCase_durationHeaders).mpr fun u hu => ?_
  rw [texts_durationHeaders] at hu
  obtain rfl := List.mem_singleton.mp hu
  exact ⟨List.mem_cons_self, Finmap.notMem_empty⟩

end Ra2a
