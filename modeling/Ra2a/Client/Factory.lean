import Ra2a.Client.Interceptors
import Ra2a.Lib.FirstBest
import Ra2a.Server.Event

/-!
# The client factory

`client/factory.rs`: a client for an agent card.  Of the interfaces in the card those are
candidates whose protocol has a builder.  They are sorted by the place of the protocol in the
preferred ones, by a sort that is stable, and their builders are called one after another
till one succeeds; so the client is over the first in the order of preference and place in
the card that can be connected to (`ClientFactory.createFromCard_least`).

A builder may do anything to the state, and what it returns may depend on the state.
-/

namespace Ra2a

open Interceptor

/-- What the factory reads of `ClientConfig`.  A vector has no more than `usize::MAX` entries. -/
structure ClientConfig where
  preferredTransports : List TransportProtocol
  length_le : preferredTransports.length ≤ usizeMax

/-- The place in the state for the card that a client has cached. -/
structure CardPlace (τ : Type) where
  card : τ → Option AgentCard
  setCard : AgentCard → τ → τ
  card_setCard : ∀ c s, card (setCard c s) = some c

variable {τ : Type}

/-! ### Transports -/

/-- `TenantTransportDecorator`. -/
def tenantTransportDecorator (inner : Transport τ) (tenant : String) : Transport τ where
  sendMessage params req := inner.sendMessage params { req with tenant := some tenant }
  sendStreamingMessage params req :=
    inner.sendStreamingMessage params { req with tenant := some tenant }
  getTask params req := inner.getTask params { req with tenant := some tenant }
  listTasks params req := inner.listTasks params { req with tenant := some tenant }
  cancelTask params req := inner.cancelTask params { req with tenant := some tenant }
  subscribeToTask params req := inner.subscribeToTask params { req with tenant := some tenant }
  getAgentCard := inner.getAgentCard

/-- `TransportBuilder::build`. -/
abbrev TransportBuilder (τ : Type) := AgentInterface → Handling τ (Transport τ)

/-- `Client::new`. -/
def Client.new (place : CardPlace τ) (transport : Transport τ) : Client τ where
  transport := transport
  interceptors := []
  card := place.card
  setCard := place.setCard

/-- `Client::with_interceptor_arc`. -/
def Client.withInterceptorArc (c : Client τ) (interceptor : CallInterceptor τ) : Client τ :=
  { c with interceptors := c.interceptors ++ [interceptor] }

/-- What the factory knows of an interface with a builder. -/
structure Candidate (τ : Type) where
  iface : AgentInterface
  builder : TransportBuilder τ
  priority : ℕ

structure ClientFactory (τ : Type) where
  config : ClientConfig
  interceptors : List (CallInterceptor τ)
  builders : Finmap fun _ : String => TransportBuilder τ

namespace ClientFactory

variable (f : ClientFactory τ) (place : CardPlace τ) (card : AgentCard)

def priority (protocol : String) : ℕ :=
  (f.config.preferredTransports.findIdx? (· == protocol)).getD usizeMax

def candidate? (iface : AgentInterface) : Option (Candidate τ) :=
  (f.builders.lookup iface.protocolBinding).map fun builder =>
    ⟨iface, builder, f.priority iface.protocolBinding⟩

def candidates : List (Candidate τ) := card.supportedInterfaces.filterMap f.candidate?

/-- The loop of `create_from_card` over the sorted candidates. -/
def connect : List (Candidate τ) → List String → Handling τ (Client τ)
  | [], errors =>
    let joined := "; ".intercalate errors
    throw (.other s!"all transports failed: {joined}")
  | c :: candidates, errors => do
    match ← liftM (c.builder c.iface).run with
    | .error e => connect candidates (errors ++ [s!"{c.iface.url}: {e.display}"])
    | .ok transport =>
      let transport := match c.iface.tenant with
        | some tenant =>
          if tenant.isEmpty then transport else tenantTransportDecorator transport tenant
        | none => transport
      let client := Client.new place transport
      modify (client.setCard card)
      pure (f.interceptors.foldl Client.withInterceptorArc client)

/-- `ClientFactory::create_from_card`. -/
def createFromCard : Handling τ (Client τ) :=
  if card.supportedInterfaces.isEmpty then
    throw (.invalidParams "agent card has no supported interfaces")
  else
    let candidates := f.candidates card
    if candidates.isEmpty then
      let protocols := ", ".intercalate (card.supportedInterfaces.map (·.protocolBinding))
      throw (.other s!"no compatible transports found: available protocols - [{protocols}]")
    else f.connect place card (candidates.mergeSort fun a b => a.priority ≤ b.priority) []

/-! ### The order of the interfaces -/

/-- The place of a protocol among the preferred ones, at their end if it is not listed, and
then the place of the interface in the card. -/
def order (i : ℕ) : ℕ ×ₗ ℕ :=
  toLex ((card.supportedInterfaces[i]?).elim 0 fun iface =>
    f.config.preferredTransports.idxOf iface.protocolBinding, i)

def candidateAt (i : ℕ) : Option (Candidate τ) :=
  card.supportedInterfaces[i]?.bind f.candidate?

/-- The places of the interfaces with a builder, the least in the order first. -/
def queue : List ℕ :=
  ((List.range card.supportedInterfaces.length).filter fun i =>
    (f.candidateAt card i).isSome).mergeSort fun i j => f.order card i ≤ f.order card j

/-- What the builder for an interface does, with the line there is for an error. -/
def attempt (i : ℕ) (s : τ) : Except String (Transport τ) × τ :=
  match f.candidateAt card i with
  | none => (.error "", s)
  | some c =>
    match c.builder c.iface s with
    | (.ok t, s') => (.ok t, s')
    | (.error e, s') => (.error s!"{c.iface.url}: {e.display}", s')

/-- The state in which it is the turn of an interface, if none before it is connected to. -/
def turn (s : τ) (i : ℕ) : τ := FirstBest.turn (f.attempt card) s (f.queue card) i

/-- The interface has a builder, which succeeds when it is its turn. -/
def Succeeds (s : τ) (i : ℕ) : Prop :=
  ∃ iface builder t s', card.supportedInterfaces[i]? = some iface ∧
    f.builders.lookup iface.protocolBinding = some builder ∧
    builder iface (f.turn card s i) = (.ok t, s')

/-- The transport of an interface: wrapped exactly if its tenant is not empty. -/
structure Wraps (iface : AgentInterface) (t wrapped : Transport τ) : Prop where
  tenant : ∀ tenant, iface.tenant = some tenant → tenant ≠ "" →
    wrapped = tenantTransportDecorator t tenant
  noTenant : iface.tenant = none ∨ iface.tenant = some "" → wrapped = t

/-- What a client is made of: the transport of an interface and the interceptors. -/
structure Made (f : ClientFactory τ) (place : CardPlace τ) (iface : AgentInterface)
    (t : Transport τ) (c : Client τ) : Prop where
  wraps : Wraps iface t c.transport
  interceptors : c.interceptors = f.interceptors
  card : c.card = place.card

/-- A client over the interface at a place, whose builder was the last one called: but for
the card of the client the state is as this builder left it. -/
def Connected (s : τ) (i : ℕ) (c : Client τ) (s' : τ) : Prop :=
  ∃ iface builder t s₁, card.supportedInterfaces[i]? = some iface ∧
    f.builders.lookup iface.protocolBinding = some builder ∧
    builder iface (f.turn card s i) = (.ok t, s₁) ∧ s' = place.setCard card s₁ ∧
    f.Made place iface t c ∧ c.card s' = some card

variable {f place card} {i : ℕ}

theorem candidateAt_eq_some_iff {c : Candidate τ} : f.candidateAt card i = some c ↔
    ∃ iface builder, card.supportedInterfaces[i]? = some iface ∧
      f.builders.lookup iface.protocolBinding = some builder ∧
      c = ⟨iface, builder, f.priority iface.protocolBinding⟩ := by
  rw [candidateAt, Option.bind_eq_some_iff]
  refine exists_congr fun iface => ?_
  rw [candidate?, Option.map_eq_some_iff]
  constructor
  · rintro ⟨hiface, builder, hbuilder, rfl⟩
    exact ⟨builder, hiface, hbuilder, rfl⟩
  · rintro ⟨builder, hiface, hbuilder, rfl⟩
    exact ⟨hiface, builder, hbuilder, rfl⟩

theorem priority_eq (p : String) : f.priority p =
    if f.config.preferredTransports.idxOf p < f.config.preferredTransports.length then
      f.config.preferredTransports.idxOf p else usizeMax := by
  rw [priority, List.findIdx?_eq_guard_findIdx_lt]
  show (Option.guard (fun i => decide (i < f.config.preferredTransports.length))
    (f.config.preferredTransports.idxOf p)).getD usizeMax = _
  rw [Option.guard]
  by_cases h : f.config.preferredTransports.idxOf p < f.config.preferredTransports.length
  · rw [if_pos (decide_eq_true h), if_pos h, Option.getD_some]
  · rw [if_neg fun hd => h (of_decide_eq_true hd), if_neg h, Option.getD_none]

/-- The priorities are compared as the places in the list are. -/
theorem priority_le_iff {p q : String} : f.priority p ≤ f.priority q ↔
    f.config.preferredTransports.idxOf p ≤ f.config.preferredTransports.idxOf q := by
  have hfits := f.config.length_le
  have hp : f.config.preferredTransports.idxOf p ≤ f.config.preferredTransports.length :=
    List.idxOf_le_length
  have hq : f.config.preferredTransports.idxOf q ≤ f.config.preferredTransports.length :=
    List.idxOf_le_length
  rw [priority_eq, priority_eq]
  split_ifs <;> omega

theorem order_injective : Function.Injective (f.order card) := by
  intro i j h
  exact (Prod.mk.inj (toLex_inj.mp h)).2

theorem mem_queue_iff : i ∈ f.queue card ↔ (f.candidateAt card i).isSome := by
  rw [queue, List.mem_mergeSort, List.mem_filter, List.mem_range, and_iff_right_iff_imp]
  intro h
  obtain ⟨c, hc⟩ := Option.isSome_iff_exists.mp h
  obtain ⟨iface, -, hiface, -, -⟩ := candidateAt_eq_some_iff.mp hc
  exact (List.getElem?_eq_some_iff.mp hiface).1

theorem nodup_queue : (f.queue card).Nodup :=
  (List.mergeSort_perm _ _).nodup_iff.mpr (List.nodup_range.filter _)

theorem pairwise_queue : (f.queue card).Pairwise fun i j => f.order card i < f.order card j := by
  have hle : (f.queue card).Pairwise fun i j => f.order card i ≤ f.order card j :=
    FirstBest.pairwise_mergeSort_key (f.order card) _
  refine (hle.and nodup_queue).imp fun {i j} h => ?_
  exact lt_of_le_of_ne h.1 fun heq => h.2 (order_injective heq)

/-! ### The candidates in the order -/

variable (f card) in
/-- The candidates with their places in the card. -/
def placed : List (ℕ × Candidate τ) :=
  (List.range card.supportedInterfaces.length).filterMap fun i =>
    (f.candidateAt card i).map fun c => (i, c)

theorem mem_placed_iff {p : ℕ × Candidate τ} :
    p ∈ f.placed card ↔ f.candidateAt card p.1 = some p.2 := by
  obtain ⟨i, c⟩ := p
  rw [placed, List.mem_filterMap]
  constructor
  · rintro ⟨j, -, hj⟩
    obtain ⟨c', hc', heq⟩ := Option.map_eq_some_iff.mp hj
    cases heq
    exact hc'
  · intro hc
    obtain ⟨iface, -, hiface, -, -⟩ := candidateAt_eq_some_iff.mp hc
    refine ⟨i, List.mem_range.mpr (List.getElem?_eq_some_iff.mp hiface).1, ?_⟩
    rw [show f.candidateAt card i = some c from hc, Option.map_some]

theorem map_snd_placed : (f.placed card).map Prod.snd = f.candidates card := by
  have hrange : ∀ xs : List AgentInterface,
      (List.range xs.length).filterMap (fun i => xs[i]?.bind f.candidate?) =
        xs.filterMap f.candidate? := by
    intro xs
    induction xs with
    | nil => rfl
    | cons x xs ih =>
      rw [List.length_cons, List.range_succ_eq_map, List.filterMap_cons, List.filterMap_map,
        List.filterMap_cons, ← ih]
      rfl
  rw [placed, List.map_filterMap, candidates, ← hrange]
  refine List.filterMap_congr fun i _ => ?_
  rw [Option.map_map]
  exact Option.map_id'

theorem pairwise_placed : (f.placed card).Pairwise fun p q => p.1 < q.1 := by
  rw [placed, List.pairwise_filterMap]
  refine List.pairwise_lt_range.imp fun {i j} hij p hp q hq => ?_
  obtain ⟨_, -, rfl⟩ := Option.map_eq_some_iff.mp hp
  obtain ⟨_, -, rfl⟩ := Option.map_eq_some_iff.mp hq
  exact hij

variable (f card) in
/-- The sorted candidates with their places. -/
def sorted : List (ℕ × Candidate τ) :=
  (f.placed card).mergeSort fun p q => p.2.priority ≤ q.2.priority

theorem mem_sorted_iff {p : ℕ × Candidate τ} :
    p ∈ f.sorted card ↔ f.candidateAt card p.1 = some p.2 := by
  rw [sorted, List.mem_mergeSort, mem_placed_iff]

theorem map_snd_sorted : (f.sorted card).map Prod.snd =
    (f.candidates card).mergeSort fun a b => a.priority ≤ b.priority := by
  have hmap := List.map_mergeSort (r := fun p q => decide (p.2.priority ≤ q.2.priority))
    (s := fun a b => decide (a.priority ≤ b.priority)) (f := Prod.snd) (l := f.placed card)
    fun _ _ _ _ => rfl
  rw [sorted, hmap, map_snd_placed]

/-- **The sorted candidates are in the order of preference and place.** -/
theorem map_fst_sorted : (f.sorted card).map Prod.fst = f.queue card := by
  have hsorted : ((f.sorted card).map Prod.fst).Pairwise
      fun i j => f.order card i < f.order card j := by
    rw [List.pairwise_map]
    refine (FirstBest.pairwise_mergeSort_lex (fun p => p.2.priority)
      pairwise_placed).imp_of_mem fun {p q} hp hq hlt => ?_
    obtain ⟨iface, _, hiface, -, hpc⟩ := candidateAt_eq_some_iff.mp (mem_sorted_iff.mp hp)
    obtain ⟨iface', _, hiface', -, hqc⟩ := candidateAt_eq_some_iff.mp (mem_sorted_iff.mp hq)
    rw [hpc, hqc, Prod.Lex.toLex_lt_toLex'] at hlt
    rw [order, order, hiface, hiface', Prod.Lex.toLex_lt_toLex']
    refine ⟨priority_le_iff.mp hlt.1, fun heq => hlt.2 ?_⟩
    exact le_antisymm (priority_le_iff.mpr (le_of_eq heq)) (priority_le_iff.mpr (ge_of_eq heq))
  have := (inferInstance : Std.Irrefl fun i j => f.order card i < f.order card j)
  refine hsorted.eq_of_mem_iff pairwise_queue fun i => ?_
  rw [mem_queue_iff, Option.isSome_iff_exists, List.mem_map]
  constructor
  · rintro ⟨p, hp, rfl⟩
    exact ⟨p.2, mem_sorted_iff.mp hp⟩
  · rintro ⟨c, hc⟩
    exact ⟨(i, c), mem_sorted_iff.mpr hc, rfl⟩

/-! ### The loop -/

theorem foldl_withInterceptorArc (xs : List (CallInterceptor τ)) (c : Client τ) :
    xs.foldl Client.withInterceptorArc c = { c with interceptors := c.interceptors ++ xs } := by
  induction xs generalizing c with
  | nil => rw [List.foldl_nil, List.append_nil]
  | cons x xs ih =>
    rw [List.foldl_cons, ih, Client.withInterceptorArc]
    simp

variable {c : Candidate τ} {cs : List (Candidate τ)} {errors : List String} {s s' : τ}

theorem connect_of_error {e : A2AError} (h : c.builder c.iface s = (.error e, s')) :
    f.connect place card (c :: cs) errors s =
      f.connect place card cs (errors ++ [s!"{c.iface.url}: {e.display}"]) s' := by
  rw [connect]
  show ((liftM (c.builder c.iface).run : Handling τ _) >>= _) s = _
  rw [Chain.bind_run, handling_liftM, show (c.builder c.iface).run s = (.error e, s') from h]

variable (place) in
theorem connect_of_ok {t : Transport τ} (h : c.builder c.iface s = (.ok t, s')) :
    ∃ client, f.connect place card (c :: cs) errors s = (.ok client, place.setCard card s') ∧
      f.Made place c.iface t client := by
  rw [connect]
  show ∃ client, ((liftM (c.builder c.iface).run : Handling τ _) >>= _) s = _ ∧ _
  rw [Chain.bind_run, handling_liftM, show (c.builder c.iface).run s = (.ok t, s') from h]
  refine ⟨_, rfl, ?_⟩
  rw [foldl_withInterceptorArc]
  refine ⟨⟨fun tenant htenant hne => ?_, fun hnone => ?_⟩, List.nil_append _, rfl⟩
  · have hempty : ¬ tenant.isEmpty := fun h => hne (String.isEmpty_iff.mp h)
    simp only [Client.new, htenant, if_neg hempty]
  · rcases hnone with hnone | hempty
    · simp only [Client.new, hnone]
    · simp only [Client.new, hempty]
      rfl

variable {l : List (ℕ × Candidate τ)}

theorem attempt_eq (h : f.candidateAt card i = some c) : f.attempt card i s =
    match c.builder c.iface s with
    | (.ok t, s') => (.ok t, s')
    | (.error e, s') => (.error s!"{c.iface.url}: {e.display}", s') := by
  rw [attempt, h]

theorem attempt_eq_ok_iff {t : Transport τ} (h : f.candidateAt card i = some c) :
    f.attempt card i s = (.ok t, s') ↔ c.builder c.iface s = (.ok t, s') := by
  rw [attempt_eq h]
  rcases c.builder c.iface s with ⟨e | t', s₁⟩
  · exact iff_of_false (fun h => by cases h) fun h => by cases h
  · constructor <;> intro h <;> cases h <;> rfl

variable (place errors) in
/-- **The loop makes a client over the first candidate that succeeds.** -/
theorem connect_of_first_ok {t : Transport τ}
    (hl : ∀ p ∈ l, f.candidateAt card p.1 = some p.2)
    (h : FirstBest.first (f.attempt card) (l.map Prod.fst) s = (.ok (i, t), s')) :
    ∃ c client, f.candidateAt card i = some c ∧
      f.connect place card (l.map Prod.snd) errors s = (.ok client, place.setCard card s') ∧
      f.Made place c.iface t client := by
  induction l generalizing s errors with
  | nil => cases h
  | cons p l ih =>
    rw [List.forall_mem_cons] at hl
    have hattempt := attempt_eq (s := s) hl.1
    rw [List.map_cons] at h ⊢
    rcases hp : p.2.builder p.2.iface s with ⟨e | t', s₁⟩
    · rw [hp] at hattempt
      rw [FirstBest.first_of_error hattempt] at h
      rcases hrest : FirstBest.first (f.attempt card) (l.map Prod.fst) s₁ with ⟨es | r, s₂⟩
      · rw [hrest] at h
        cases h
      · rw [hrest] at h
        cases h
        rw [connect_of_error hp]
        exact ih _ hl.2 hrest
    · rw [hp] at hattempt
      rw [FirstBest.first_of_ok hattempt] at h
      cases h
      obtain ⟨client, hclient, hmade⟩ := connect_of_ok place hp
      exact ⟨p.2, client, hl.1, hclient, hmade⟩

/-- **It fails with all that the builders have failed with** where none succeeds. -/
theorem connect_of_first_error {es : List String}
    (hl : ∀ p ∈ l, f.candidateAt card p.1 = some p.2)
    (h : FirstBest.first (f.attempt card) (l.map Prod.fst) s = (.error es, s')) :
    f.connect place card (l.map Prod.snd) errors s =
      (.error (.other ("all transports failed: " ++ "; ".intercalate (errors ++ es))), s') := by
  induction l generalizing s errors es with
  | nil =>
    cases h
    rw [List.append_nil]
    rfl
  | cons p l ih =>
    rw [List.forall_mem_cons] at hl
    have hattempt := attempt_eq (s := s) hl.1
    rw [List.map_cons] at h ⊢
    rcases hp : p.2.builder p.2.iface s with ⟨e | t', s₁⟩
    · rw [hp] at hattempt
      rw [FirstBest.first_of_error hattempt] at h
      rcases hrest : FirstBest.first (f.attempt card) (l.map Prod.fst) s₁ with ⟨es' | r, s₂⟩
      · rw [hrest] at h
        cases h
        rw [connect_of_error hp, ih hl.2 hrest, List.append_assoc]
        rfl
      · rw [hrest] at h
        cases h
    · rw [hp] at hattempt
      rw [FirstBest.first_of_ok hattempt] at h
      cases h

/-! ### The client -/

/-- The cases before the loop are those in which there is nothing to sort. -/
theorem createFromCard_eq (h : f.sorted card ≠ []) :
    f.createFromCard place card = f.connect place card ((f.sorted card).map Prod.snd) [] := by
  have hcandidates : f.candidates card ≠ [] := by
    intro hnil
    have hsorted : (f.sorted card).map Prod.snd = _ := map_snd_sorted
    rw [hnil, List.mergeSort_nil, List.map_eq_nil_iff] at hsorted
    exact h hsorted
  have hinterfaces : card.supportedInterfaces ≠ [] := by
    intro hnil
    rw [candidates, hnil] at hcandidates
    exact hcandidates rfl
  rw [createFromCard, if_neg (by simpa using hinterfaces)]
  simp only
  rw [if_neg (by simpa using hcandidates), map_snd_sorted]

variable (place) in
theorem createFromCard_of_nil (h : f.sorted card = []) :
    ∃ e, ∀ s, f.createFromCard place card s = (.error e, s) := by
  have hcandidates : f.candidates card = [] := by
    have hsorted : (f.sorted card).map Prod.snd = _ := map_snd_sorted
    rw [h] at hsorted
    have hlength := congrArg List.length hsorted
    rw [List.length_mergeSort] at hlength
    exact List.length_eq_zero_iff.mp hlength.symm
  rw [createFromCard]
  split_ifs
  · exact ⟨_, fun _ => rfl⟩
  · simp only [hcandidates, List.isEmpty_nil, if_true]
    exact ⟨_, fun _ => rfl⟩

theorem succeeds_iff : f.Succeeds card s i ↔
    i ∈ f.queue card ∧ FirstBest.Succeeds (f.attempt card) s (f.queue card) i := by
  rw [mem_queue_iff]
  constructor
  · rintro ⟨iface, builder, t, s', hiface, hbuilder, hok⟩
    have hat := candidateAt_eq_some_iff.mpr ⟨iface, builder, hiface, hbuilder, rfl⟩
    exact ⟨Option.isSome_iff_exists.mpr ⟨_, hat⟩, t, s', (attempt_eq_ok_iff hat).mpr hok⟩
  · rintro ⟨hsome, t, s', hok⟩
    obtain ⟨c, hc⟩ := Option.isSome_iff_exists.mp hsome
    obtain ⟨iface, builder, hiface, hbuilder, rfl⟩ := candidateAt_eq_some_iff.mp hc
    exact ⟨iface, builder, t, s', hiface, hbuilder, (attempt_eq_ok_iff hc).mp hok⟩

variable (place) in
theorem createFromCard_of_first_ok {t : Transport τ}
    (h : FirstBest.first (f.attempt card) (f.queue card) s = (.ok (i, t), s')) :
    ∃ c client, f.candidateAt card i = some c ∧
      f.createFromCard place card s = (.ok client, place.setCard card s') ∧
      f.Made place c.iface t client := by
  have hne : f.sorted card ≠ [] := by
    intro hnil
    rw [← map_fst_sorted, hnil] at h
    cases h
  rw [← map_fst_sorted] at h
  rw [createFromCard_eq hne]
  exact connect_of_first_ok place [] (fun _ hp => mem_sorted_iff.mp hp) h

variable (place) in
theorem createFromCard_of_first_error {es : List String}
    (h : FirstBest.first (f.attempt card) (f.queue card) s = (.error es, s')) :
    ∃ e s', f.createFromCard place card s = (.error e, s') := by
  by_cases hnil : f.sorted card = []
  · obtain ⟨e, he⟩ := createFromCard_of_nil place hnil
    exact ⟨e, s, he s⟩
  · rw [← map_fst_sorted] at h
    rw [createFromCard_eq hnil]
    exact ⟨_, _, connect_of_first_error (fun _ hp => mem_sorted_iff.mp hp) h⟩

/-- **The client is over the least interface that can be connected to**, in the order of
preference and place, and there is none exactly if no interface can be. -/
theorem createFromCard_least (f : ClientFactory τ) (place : CardPlace τ) (card : AgentCard)
    (s : τ) :
    (∀ c s', f.createFromCard place card s = (.ok c, s') →
      ∃ i, f.Succeeds card s i ∧ (∀ j, f.Succeeds card s j → f.order card i ≤ f.order card j) ∧
        f.Connected place card s i c s') ∧
      ((∃ e s', f.createFromCard place card s = (.error e, s')) ↔
        ∀ i, ¬ f.Succeeds card s i) := by
  have hnone : (∀ i, ¬ f.Succeeds card s i) ↔
      ∃ es s', FirstBest.first (f.attempt card) (f.queue card) s = (.error es, s') := by
    rw [FirstBest.first_error_iff nodup_queue]
    refine forall_congr' fun i => ?_
    rw [succeeds_iff, not_and]
  rw [hnone]
  rcases hfirst : FirstBest.first (f.attempt card) (f.queue card) s with ⟨es | ⟨i, t⟩, s₁⟩
  · obtain ⟨e, s₂, he⟩ := createFromCard_of_first_error place hfirst
    refine ⟨fun c s' hc => ?_, iff_of_true ⟨e, s₂, he⟩ ⟨es, s₁, rfl⟩⟩
    rw [hc] at he
    cases he
  · obtain ⟨hi, hturn, hleast⟩ := FirstBest.least_of_first pairwise_queue hfirst
    obtain ⟨cand, client, hcand, hclient, hmade⟩ := createFromCard_of_first_ok place hfirst
    obtain ⟨iface, builder, hiface, hbuilder, rfl⟩ := candidateAt_eq_some_iff.mp hcand
    refine ⟨fun c s' hc => ?_, iff_of_false ?_ ?_⟩
    · rw [hclient] at hc
      cases hc
      refine ⟨i, succeeds_iff.mpr ⟨hi, t, s₁, hturn⟩, fun j hj => ?_, iface, builder, t, s₁,
        hiface, hbuilder, (attempt_eq_ok_iff hcand).mp hturn, rfl, hmade, ?_⟩
      · exact hleast j (succeeds_iff.mp hj).1 (succeeds_iff.mp hj).2
      · rw [hmade.card, place.card_setCard]
    · rintro ⟨e, s', he⟩
      rw [hclient] at he
      cases he
    · rintro ⟨es, s', he⟩
      cases he

end ClientFactory

end Ra2a
