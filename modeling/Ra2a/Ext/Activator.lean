import Ra2a.Ext.Propagator

/-!
# Activators beside propagators

`activator.rs` of `ra2a-ext`, and chains of hooks some of which are activators and some
client propagators.

An activator appends the URIs it offers under the name in `SVC_PARAM_EXTENSIONS`, and a
propagator what the server has copied, whose names are in lower case.  The parameters
have every value once under each spelling of a name, so a URI is sent twice if it comes
from both (`extensions_sent_iff`).
-/

namespace Ra2a

open SortedMap Interceptor

structure ExtensionActivator where
  extensionUris : List String

namespace ExtensionActivator

variable (self : ExtensionActivator) (req : Interceptor.Request)

/-- `activate`. -/
def activate : Interceptor.Request :=
  if req.card.any fun card => card.capabilities.extensions.isEmpty then req
  else { req with
    serviceParams := self.extensionUris.foldl (fun sp uri =>
      if isExtensionSupported req.card uri then sp.append SVC_PARAM_EXTENSIONS uri else sp)
      req.serviceParams }

def interceptor : Interceptor.CallInterceptor PropagatorCell where
  before req := pure (self.activate req)
  after resp := pure resp

end ExtensionActivator

/-! ### One hook -/

/-- A hook that is an activator or a propagator. -/
inductive ExtensionHook
  | activator (a : ExtensionActivator)
  | propagator (c : ClientPropagator)

namespace ExtensionHook

def interceptor : ExtensionHook → Interceptor.CallInterceptor PropagatorCell
  | activator a => a.interceptor
  | propagator c => c.interceptor

/-- What a hook makes of a request, with what the server has copied. -/
def apply (propCtx : PropagatorContext) (req : Interceptor.Request) :
    ExtensionHook → Interceptor.Request
  | activator a => a.activate req
  | propagator c => c.inject propCtx req

/-- The hook adds a value to a parameter. -/
def Adds (card : Option AgentCard) (propCtx : PropagatorContext) (e : String × String) :
    ExtensionHook → Prop
  | activator a =>
    e.1 = SVC_PARAM_EXTENSIONS ∧ e.2 ∈ a.extensionUris ∧ isExtensionSupported card e.2
  | propagator c => c.headerPredicate card e.1 e.2 ∧ e ∈ propCtx.headerValues

variable {propCtx : PropagatorContext} {req : Interceptor.Request} {h : ExtensionHook}

theorem before_apply (h : ExtensionHook) :
    h.interceptor.before req (some (some propCtx)) =
      (.ok (h.apply propCtx req), some (some propCtx)) := by
  cases h with
  | activator a => rfl
  | propagator c => exact c.before_apply (some (some propCtx))

theorem card_apply : (h.apply propCtx req).card = req.card := by
  cases h with
  | activator a =>
    rw [apply, ExtensionActivator.activate]
    split <;> rfl
  | propagator c => rfl

theorem type_apply : (h.apply propCtx req).payload.type = req.payload.type := by
  cases h with
  | activator a =>
    rw [apply, ExtensionActivator.activate]
    split <;> rfl
  | propagator c =>
    rw [apply, ClientPropagator.inject]
    dsimp only
    split
    · rfl
    · rcases req.payload.downcast_cases .sendMessageRequest with ⟨a, hp, hd⟩ | ⟨-, hd⟩
      · rw [ClientPropagator.injectMetadata, hd, hp]
      · rw [ClientPropagator.injectMetadata, hd]

/-- The parameters after appends, each under a condition. -/
theorem wellFormed_foldl {α : Type} (p : α → Bool) (e : α → String × String) (xs : List α)
    {sp : ServiceParams} (hsp : sp.WellFormed) :
    (xs.foldl (fun sp x => if p x then sp.append (e x).1 (e x).2 else sp) sp).WellFormed := by
  induction xs generalizing sp with
  | nil => exact hsp
  | cons x xs ih =>
    rw [List.foldl_cons]
    refine ih ?_
    split
    · exact hsp.append _ _
    · exact hsp

theorem wellFormed_apply (hsp : req.serviceParams.WellFormed) :
    (h.apply propCtx req).serviceParams.WellFormed := by
  cases h with
  | activator a =>
    rw [apply, ExtensionActivator.activate]
    split
    · exact hsp
    · exact wellFormed_foldl (fun uri => isExtensionSupported req.card uri)
        (fun uri => (SVC_PARAM_EXTENSIONS, uri)) a.extensionUris hsp
  | propagator c =>
    exact wellFormed_foldl (fun e => c.headerPredicate req.card e.1 e.2) (fun e => e)
      propCtx.headerValues hsp

/-- **What a hook adds.** -/
theorem mem_pairs_apply {e : String × String} :
    e ∈ (h.apply propCtx req).serviceParams.pairs ↔
      e ∈ req.serviceParams.pairs ∨ h.Adds req.card propCtx e := by
  cases h with
  | activator a =>
    rw [apply, ExtensionActivator.activate, Adds]
    split
    · rename_i hnone
      refine (or_iff_left ?_).symm
      rintro ⟨-, -, hsupp⟩
      cases hcard : req.card with
      | none =>
        rw [hcard] at hnone
        cases hnone
      | some card =>
        rw [hcard] at hnone hsupp
        have hempty : card.capabilities.extensions = [] := List.isEmpty_iff.mp hnone
        rw [isExtensionSupported, hempty] at hsupp
        cases hsupp
    · have hmem : e ∈ (List.foldl (fun sp e => if isExtensionSupported req.card e.2 then
            sp.append e.1 e.2 else sp) req.serviceParams
            (a.extensionUris.map fun uri => (SVC_PARAM_EXTENSIONS, uri))).pairs ↔ _ :=
        ClientPropagator.mem_pairs_foldl_append (fun e => isExtensionSupported req.card e.2) _
      rw [List.foldl_map] at hmem
      refine hmem.trans (or_congr_right ?_)
      rw [List.mem_map]
      constructor
      · rintro ⟨hsupp, uri, huri, rfl⟩
        exact ⟨rfl, huri, hsupp⟩
      · rintro ⟨hkey, huri, hsupp⟩
        exact ⟨hsupp, e.2, huri, Prod.ext hkey.symm rfl⟩
  | propagator c =>
    exact ClientPropagator.mem_pairs_foldl_append
      (fun e => c.headerPredicate req.card e.1 e.2) propCtx.headerValues

end ExtensionHook

/-! ### A chain of hooks -/

section

variable {e : String × String}

/-- What a chain of hooks makes of a request. -/
def applyHooks (propCtx : PropagatorContext) (chain : List ExtensionHook)
    (req : Interceptor.Request) : Interceptor.Request :=
  chain.foldl (fun req h => h.apply propCtx req) req

theorem run_hooks (propCtx : PropagatorContext) (chain : List ExtensionHook)
    (req : Interceptor.Request) :
    Chain.run (chain.map fun h => h.interceptor.before) req (some (some propCtx)) =
      (.ok (applyHooks propCtx chain req), some (some propCtx)) := by
  induction chain generalizing req with
  | nil => rfl
  | cons h chain ih =>
    rw [List.map_cons, Chain.run_cons, h.before_apply]
    exact ih _

/-- What a chain leaves as it is, and what it adds. -/
theorem applyHooks_spec (propCtx : PropagatorContext) (chain : List ExtensionHook)
    (req : Interceptor.Request) (hsp : req.serviceParams.WellFormed) :
    (applyHooks propCtx chain req).serviceParams.WellFormed ∧
      (applyHooks propCtx chain req).payload.type = req.payload.type ∧
      ∀ e, e ∈ (applyHooks propCtx chain req).serviceParams.pairs ↔
        e ∈ req.serviceParams.pairs ∨ ∃ h ∈ chain, h.Adds req.card propCtx e := by
  induction chain generalizing req with
  | nil => exact ⟨hsp, rfl, by simp [applyHooks]⟩
  | cons h chain ih =>
    obtain ⟨hwell, htype, hmem⟩ := ih (h.apply propCtx req) (h.wellFormed_apply hsp)
    refine ⟨hwell, htype.trans h.type_apply, fun e => (hmem e).trans ?_⟩
    rw [h.mem_pairs_apply, h.card_apply, or_assoc]
    simp only [List.mem_cons, exists_eq_or_imp]

end

/-! ### What a client sends -/

/-- The values of the extensions header, in any spelling of its name. -/
def Interceptor.ServiceParams.extensionValues (sp : ServiceParams) : List String :=
  (sp.pairs.filter fun e => lowerCase e.1 = lowerCase SVC_PARAM_EXTENSIONS).map Prod.snd

/-- A client with these hooks, for an agent with this card. -/
def hookedClient (transport : Transport PropagatorCell) (card : Option AgentCard)
    (chain : List ExtensionHook) : Client PropagatorCell where
  transport := transport
  interceptors := chain.map ExtensionHook.interceptor
  card _ := card
  setCard _ cell := cell

section

variable {card : Option AgentCard} {chain : List ExtensionHook}

theorem interceptBefore_hookedClient (transport : Transport PropagatorCell)
    (card : Option AgentCard) (chain : List ExtensionHook) (propCtx : PropagatorContext)
    (method : String) (P : PayloadType) (payload : P.Carrier) :
    ∃ p, (hookedClient transport card chain).interceptBefore method P payload
        (some (some propCtx)) =
      (.ok (p, (applyHooks propCtx chain
        ⟨method, card, .empty, ⟨P, payload⟩⟩).serviceParams), some (some propCtx)) := by
  cases chain with
  | nil => exact ⟨payload, rfl⟩
  | cons h chain =>
    let req : Interceptor.Request := ⟨method, card, .empty, ⟨P, payload⟩⟩
    have htype : (applyHooks propCtx (h :: chain) req).payload.type = P :=
      (applyHooks_spec propCtx (h :: chain) req ServiceParams.wellFormed_empty).2.1
    obtain ⟨p, hp, hdown⟩ : ∃ p, (applyHooks propCtx (h :: chain) req).payload = ⟨P, p⟩ ∧
        (applyHooks propCtx (h :: chain) req).payload.downcast P = some p := by
      rcases (applyHooks propCtx (h :: chain) req).payload.downcast_cases P with hok | ⟨hne, -⟩
      · exact hok
      · exact absurd htype hne
    refine ⟨p, ?_⟩
    have hrun := run_hooks propCtx (h :: chain) req
    rw [← Function.comp_def CallInterceptor.before, ← List.map_map] at hrun
    have hcached : (hookedClient transport card (h :: chain)).cached (some (some propCtx)) =
        (.ok card, some (some propCtx)) := rfl
    rw [Client.interceptBefore, if_neg (by simp [hookedClient]), Chain.bind_of_ok hcached]
    refine (Chain.bind_of_ok hrun).trans ?_
    rw [hdown]
    rfl

variable {s : ServerPropagator} {ctx : CallContext} {served : Middleware.Request}

/-- An extensions header is copied under its name in lower case. -/
theorem mem_headerValues_extract (hkeys : ∀ name ∈ ctx.requestMeta.kv, lowerCase name = name)
    {k v : String} (hk : lowerCase k = lowerCase SVC_PARAM_EXTENSIONS) :
    (k, v) ∈ (s.extract ctx served).headerValues ↔
      k = "a2a-extensions" ∧ s.headerPredicate "a2a-extensions" ∧
        v ∈ ctx.requestedExtensionUris := by
  have hname : lowerCase SVC_PARAM_EXTENSIONS = "a2a-extensions" := by decide
  rw [PropagatorContext.mem_headerValues, ServerPropagator.extract, lookup_insertWhere,
    Finmap.lookup_empty, Option.or_none, CallContext.requestedExtensionUris, RequestMeta.get, hname]
  dsimp only
  constructor
  · intro hv
    split at hv
    · rename_i hpred
      cases hlookup : ctx.requestMeta.kv.lookup k with
      | none =>
        rw [hlookup] at hv
        cases hv
      | some vals =>
        have hlower := hkeys k (Finmap.mem_of_lookup_eq_some hlookup)
        obtain rfl : k = "a2a-extensions" := hlower.symm.trans (hk.trans hname)
        exact ⟨rfl, hpred, hv⟩
    · cases hv
  · rintro ⟨rfl, hpred, hv⟩
    rw [if_pos hpred]
    exact hv

/-- A URI that came with the request served and that the propagators hand on. -/
def Forwards (s : ServerPropagator) (ctx : CallContext) (card : Option AgentCard)
    (chain : List ExtensionHook) (u : String) : Prop :=
  s.headerPredicate "a2a-extensions" ∧ u ∈ ctx.requestedExtensionUris ∧
    ∃ c, .propagator c ∈ chain ∧ c.headerPredicate card "a2a-extensions" u

/-- A URI that the activators add. -/
def Activates (card : Option AgentCard) (chain : List ExtensionHook) (u : String) : Prop :=
  isExtensionSupported card u ∧ ∃ a, .activator a ∈ chain ∧ u ∈ a.extensionUris

/-- **The values of an extensions header**, with the spelling of its name. -/
theorem exists_adds_iff (hkeys : ∀ name ∈ ctx.requestMeta.kv, lowerCase name = name)
    {e : String × String} (he : lowerCase e.1 = lowerCase SVC_PARAM_EXTENSIONS) :
    (∃ h ∈ chain, h.Adds card (s.extract ctx served) e) ↔
      (e.1 = SVC_PARAM_EXTENSIONS ∧ Activates card chain e.2) ∨
        (e.1 = "a2a-extensions" ∧ Forwards s ctx card chain e.2) := by
  constructor
  · rintro ⟨h, hmem, hadds⟩
    cases h with
    | activator a => exact Or.inl ⟨hadds.1, hadds.2.2, a, hmem, hadds.2.1⟩
    | propagator c =>
      obtain ⟨hk, hpred, hv⟩ := (mem_headerValues_extract hkeys he).mp hadds.2
      exact Or.inr ⟨hk, hpred, hv, c, hmem, hk ▸ hadds.1⟩
  · rintro (⟨hk, hsupp, a, hmem, hu⟩ | ⟨hk, hpred, hv, c, hmem, hc⟩)
    · exact ⟨.activator a, hmem, hk, hu, hsupp⟩
    · refine ⟨.propagator c, hmem, hk ▸ hc, ?_⟩
      exact (mem_headerValues_extract hkeys he).mpr ⟨hk, hpred, hv⟩

/-- The spellings of the name that are used. -/
theorem spellings_ne : SVC_PARAM_EXTENSIONS ≠ "a2a-extensions" ∧
    lowerCase SVC_PARAM_EXTENSIONS = lowerCase SVC_PARAM_EXTENSIONS ∧
    lowerCase "a2a-extensions" = lowerCase SVC_PARAM_EXTENSIONS := by
  refine ⟨by decide, rfl, by decide⟩

section

variable {req : Interceptor.Request}

/-- The values of an extensions header after a chain. -/
theorem mem_pairs_applyHooks (chain : List ExtensionHook) (s : ServerPropagator)
    (served : Middleware.Request) (hkeys : ∀ name ∈ ctx.requestMeta.kv, lowerCase name = name)
    (hreq : req.serviceParams = .empty) (e : String × String)
    (he : lowerCase e.1 = lowerCase SVC_PARAM_EXTENSIONS) :
    e ∈ (applyHooks (s.extract ctx served) chain req).serviceParams.pairs ↔
      (e.1 = SVC_PARAM_EXTENSIONS ∧ Activates req.card chain e.2) ∨
        (e.1 = "a2a-extensions" ∧ Forwards s ctx req.card chain e.2) := by
  obtain ⟨-, -, hpairs⟩ := applyHooks_spec (s.extract ctx served) chain req
    (by rw [hreq]; exact ServiceParams.wellFormed_empty)
  refine ((hpairs e).trans (or_iff_right ?_)).trans (exists_adds_iff hkeys he)
  rw [hreq]
  exact fun hempty => by cases hempty

/-- They stand once each exactly if none comes in both spellings. -/
theorem nodup_extensionValues_iff (hkeys : ∀ name ∈ ctx.requestMeta.kv, lowerCase name = name)
    (hreq : req.serviceParams = .empty) :
    (applyHooks (s.extract ctx served) chain req).serviceParams.extensionValues.Nodup ↔
      ∀ u, Forwards s ctx req.card chain u → ¬ Activates req.card chain u := by
  obtain ⟨hne, hself, hlow⟩ := spellings_ne
  obtain ⟨hwell, -, -⟩ := applyHooks_spec (s.extract ctx served) chain req
    (by rw [hreq]; exact ServiceParams.wellFormed_empty)
  have hmem := mem_pairs_applyHooks chain s served hkeys hreq
  rw [ServiceParams.extensionValues, List.nodup_map_iff_inj_on (hwell.nodup_pairs.filter _)]
  constructor
  · intro hinj u hf ha
    have hupper := (hmem (SVC_PARAM_EXTENSIONS, u) hself).mpr (Or.inl ⟨rfl, ha⟩)
    have hlower := (hmem ("a2a-extensions", u) hlow).mpr (Or.inr ⟨rfl, hf⟩)
    have heq := hinj _ (List.mem_filter.mpr ⟨hupper, decide_eq_true hself⟩) _
      (List.mem_filter.mpr ⟨hlower, decide_eq_true hlow⟩) rfl
    exact hne (Prod.mk.inj heq).1
  · rintro hnone ⟨k, u⟩ hx ⟨l, v⟩ hy huv
    obtain rfl : u = v := huv
    obtain ⟨hx, hk⟩ := List.mem_filter.mp hx
    obtain ⟨hy, hl⟩ := List.mem_filter.mp hy
    rcases (hmem (k, u) (of_decide_eq_true hk)).mp hx with ⟨hk, hu⟩ | ⟨hk, hu⟩ <;>
      rcases (hmem (l, u) (of_decide_eq_true hl)).mp hy with ⟨hl, hv⟩ | ⟨hl, hv⟩
    · exact Prod.ext (hk.trans hl.symm) rfl
    · exact absurd hu (hnone u hv)
    · exact absurd hv (hnone u hu)
    · exact Prod.ext (hk.trans hl.symm) rfl

end

theorem mem_extensionValues {sp : ServiceParams} {u : String} :
    u ∈ sp.extensionValues ↔
      ∃ k, lowerCase k = lowerCase SVC_PARAM_EXTENSIONS ∧ (k, u) ∈ sp.pairs := by
  rw [ServiceParams.extensionValues, List.mem_map]
  constructor
  · rintro ⟨⟨k, v⟩, hmem, rfl⟩
    obtain ⟨hmem, hk⟩ := List.mem_filter.mp hmem
    exact ⟨k, of_decide_eq_true hk, hmem⟩
  · rintro ⟨k, hk, hmem⟩
    exact ⟨(k, u), List.mem_filter.mpr ⟨hmem, decide_eq_true hk⟩, rfl⟩

/-- **What a chain leaves in the extensions header.** -/
theorem extensionValues_applyHooks_iff (chain : List ExtensionHook) (s : ServerPropagator)
    (served : Middleware.Request) (hkeys : ∀ name ∈ ctx.requestMeta.kv, lowerCase name = name)
    {req : Interceptor.Request} (hreq : req.serviceParams = .empty) :
    let sp := (applyHooks (s.extract ctx served) chain req).serviceParams
    (sp.extensionValues.Nodup ∧ ∀ u ∈ sp.extensionValues, isExtensionSupported req.card u) ↔
      ∀ u, Forwards s ctx req.card chain u → isExtensionSupported req.card u ∧
        ∀ a, .activator a ∈ chain → u ∉ a.extensionUris := by
  intro sp
  have hmem := mem_pairs_applyHooks chain s served hkeys hreq
  obtain ⟨-, hself, hlow⟩ := spellings_ne
  rw [nodup_extensionValues_iff hkeys hreq]
  constructor
  · rintro ⟨hnone, hsupp⟩ u hf
    have hu : isExtensionSupported req.card u :=
      hsupp u (mem_extensionValues.mpr ⟨"a2a-extensions", hlow,
        (hmem ("a2a-extensions", u) hlow).mpr (Or.inr ⟨rfl, hf⟩)⟩)
    exact ⟨hu, fun a ha hin => hnone u hf ⟨hu, a, ha, hin⟩⟩
  · intro hall
    refine ⟨fun u hf hact => ?_, fun u hu => ?_⟩
    · obtain ⟨-, a, ha, hin⟩ := hact
      exact (hall u hf).2 a ha hin
    · obtain ⟨k, hk, hpair⟩ := mem_extensionValues.mp hu
      rcases (hmem (k, u) hk).mp hpair with ⟨-, ha⟩ | ⟨-, hf⟩
      · exact ha.1
      · exact (hall u hf).1

/-- **What a client sends in the extensions header**: every URI once and each supported,
exactly if every URI that is forwarded is supported and offered by no activator of the
chain. -/
theorem extensions_sent_iff (transport : Transport PropagatorCell) (card : Option AgentCard)
    (chain : List ExtensionHook) (s : ServerPropagator) (served : Middleware.Request)
    (hkeys : ∀ name ∈ ctx.requestMeta.kv, lowerCase name = name) (method : String)
    (P : PayloadType) (payload : P.Carrier) :
    ∃ p sp, (hookedClient transport card chain).interceptBefore method P payload
        (some (some (s.extract ctx served))) =
        (.ok (p, sp), some (some (s.extract ctx served))) ∧
      ((sp.extensionValues.Nodup ∧ ∀ u ∈ sp.extensionValues, isExtensionSupported card u) ↔
        ∀ u, Forwards s ctx card chain u → isExtensionSupported card u ∧
          ∀ a, .activator a ∈ chain → u ∉ a.extensionUris) := by
  obtain ⟨p, hp⟩ := interceptBefore_hookedClient transport card chain (s.extract ctx served)
    method P payload
  exact ⟨p, _, hp, extensionValues_applyHooks_iff chain s served hkeys rfl⟩

end

/-! ### An extension that is offered and handed on -/

/-- A transport that reaches nobody. -/
def unreachable : Transport PropagatorCell where
  sendMessage _ _ := throw (.http "unreachable")
  sendStreamingMessage _ _ := throw (.http "unreachable")
  getTask _ _ := throw (.http "unreachable")
  listTasks _ _ := throw (.http "unreachable")
  cancelTask _ _ := throw (.http "unreachable")
  subscribeToTask _ _ := throw (.http "unreachable")
  getAgentCard := throw (.http "unreachable")

theorem lowerCase_durationContext :
    ∀ name ∈ durationContext.requestMeta.kv, lowerCase name = name :=
  fun _ => RequestMeta.OfRequest.lowerCase_eq .base lowerCase_durationHeaders

/-- What the server's hook copies of the request. -/
def durationCopied : PropagatorContext :=
  ServerPropagator.new.extract durationContext ⟨⟨.sendMessageRequest, durationMessage⟩⟩

theorem forwards_duration {card : Option AgentCard} {chain : List ExtensionHook}
    (hcard : isExtensionSupported card "urn:a2a:ext:duration")
    (hchain : .propagator .new ∈ chain) :
    Forwards .new durationContext card chain "urn:a2a:ext:duration" := by
  refine ⟨by decide, ?_, .new, hchain, ?_⟩
  · rw [ServerPropagator.requestedExtensionUris_eq .base, texts_durationHeaders]
    exact List.mem_cons_self
  · change (eqIgnoreAsciiCase "a2a-extensions" SVC_PARAM_EXTENSIONS &&
      isExtensionSupported card "urn:a2a:ext:duration") = true
    rw [hcard]
    decide

/-- A card with two extensions. -/
def tracedCard : AgentCard := makeCard ["urn:a2a:ext:duration", "urn:a2a:ext:tracing"]

/-- A chain that hands one on and offers the other. -/
def tracingHooks : List ExtensionHook := [.propagator .new, .activator ⟨["urn:a2a:ext:tracing"]⟩]

/-- Both are sent, once each. -/
theorem duration_sent_once :
    ∃ p sp, (hookedClient unreachable (some tracedCard) tracingHooks).interceptBefore
        "SendMessage" .sendMessageRequest durationMessage (some (some durationCopied)) =
        (.ok (p, sp), some (some durationCopied)) ∧
      ("urn:a2a:ext:duration" ∈ sp.extensionValues ∧
        "urn:a2a:ext:tracing" ∈ sp.extensionValues) ∧
      sp.extensionValues.Nodup ∧
      ∀ u ∈ sp.extensionValues, isExtensionSupported (some tracedCard) u := by
  obtain ⟨p, sp, hp, hiff⟩ := extensions_sent_iff unreachable (some tracedCard) tracingHooks .new
    ⟨⟨.sendMessageRequest, durationMessage⟩⟩ lowerCase_durationContext "SendMessage"
    .sendMessageRequest durationMessage
  have hsupp : ∀ u ∈ ["urn:a2a:ext:duration", "urn:a2a:ext:tracing"],
      isExtensionSupported (some tracedCard) u :=
    fun u hu => isExtensionSupported_some_iff.mpr (declares_makeCard hu)
  have honce : sp.extensionValues.Nodup ∧
      ∀ u ∈ sp.extensionValues, isExtensionSupported (some tracedCard) u := by
    refine hiff.mpr fun u hu => ?_
    obtain ⟨-, hasked, -⟩ := hu
    rw [ServerPropagator.requestedExtensionUris_eq .base, texts_durationHeaders,
      List.mem_singleton] at hasked
    subst hasked
    refine ⟨hsupp _ List.mem_cons_self, fun a ha => ?_⟩
    obtain rfl : a = ⟨["urn:a2a:ext:tracing"]⟩ := by simpa [tracingHooks] using ha
    decide
  refine ⟨p, sp, hp, ?_, honce⟩
  obtain ⟨p', hp'⟩ := interceptBefore_hookedClient unreachable (some tracedCard) tracingHooks
    durationCopied "SendMessage" .sendMessageRequest durationMessage
  obtain rfl := (Prod.mk.inj (Except.ok.inj (Prod.mk.inj (hp'.symm.trans hp)).1)).2
  obtain ⟨-, hself, hlow⟩ := spellings_ne
  have hreq : (⟨"SendMessage", some tracedCard, .empty, ⟨.sendMessageRequest, durationMessage⟩⟩ :
      Interceptor.Request).serviceParams = .empty := rfl
  have hmem := mem_pairs_applyHooks tracingHooks .new ⟨⟨.sendMessageRequest, durationMessage⟩⟩
    lowerCase_durationContext hreq
  exact ⟨mem_extensionValues.mpr ⟨_, hlow, (hmem ("a2a-extensions", _) hlow).mpr
      (Or.inr ⟨rfl, forwards_duration (hsupp _ List.mem_cons_self) List.mem_cons_self⟩)⟩,
    mem_extensionValues.mpr ⟨_, hself, (hmem (SVC_PARAM_EXTENSIONS, _) hself).mpr
      (Or.inl ⟨rfl, hsupp _ (by decide), ⟨["urn:a2a:ext:tracing"]⟩, by simp [tracingHooks],
        List.mem_cons_self⟩)⟩⟩

/-- A chain that offers what it hands on. -/
def durationHooks : List ExtensionHook :=
  [.activator ⟨["urn:a2a:ext:duration"]⟩, .propagator .new]

/-- It is sent twice. -/
theorem duration_sent_twice :
    ∃ p sp, (hookedClient unreachable (some (makeCard ["urn:a2a:ext:duration"]))
        durationHooks).interceptBefore "SendMessage" .sendMessageRequest durationMessage
        (some (some durationCopied)) = (.ok (p, sp), some (some durationCopied)) ∧
      ¬ sp.extensionValues.Nodup := by
  obtain ⟨p, hp⟩ := interceptBefore_hookedClient unreachable
    (some (makeCard ["urn:a2a:ext:duration"])) durationHooks durationCopied "SendMessage"
    .sendMessageRequest durationMessage
  refine ⟨p, _, hp, fun hnodup => ?_⟩
  have hsupp : isExtensionSupported (some (makeCard ["urn:a2a:ext:duration"]))
      "urn:a2a:ext:duration" :=
    isExtensionSupported_some_iff.mpr (declares_makeCard List.mem_cons_self)
  refine (nodup_extensionValues_iff lowerCase_durationContext rfl).mp hnodup _
    (forwards_duration hsupp (by simp [durationHooks]))
    ⟨hsupp, ⟨["urn:a2a:ext:duration"]⟩, ?_, List.mem_cons_self⟩
  simp [durationHooks]

end Ra2a
