import Ra2a.Server.Handler.Notices
import Ra2a.Server.Handler.PushConfigs
import Ra2a.Server.PushRuns
import Ra2a.Server.PushSender

/-!
# Deliveries

What is told to whom, along a run of the server and the calls beside it.  The log of a
run has each call of the store of push configurations, from wherever it is made, and
each task that a round of notifications is begun for, in the order in which they
happen.

A round goes to the configurations that stand in the log at its point: those that were
saved for the task and neither overwritten nor deleted since.  It asks for one call of
`send_push` for each of them, and each call asked for is made, is still to be made by
the request whose round it is, or was given up with this request (`deliveries_run`).
-/

namespace Ra2a

open Interleave

abbrev Round := Multiset PushNotificationConfig × Task

/-- The calls of `send_push` a round asks for. -/
def Round.sends (round : Round) : List Push := Ra2a.sends round.1 round.2 0

/-! ### The log of a run -/

/-- What happens to the store, and what is told of from it. -/
inductive PushEvent
  | call (c : PushStoreCall)
  | tell (task : Task)

/-- The calls of the store in a log. -/
def storeCalls (log : List PushEvent) : List PushStoreCall :=
  log.filterMap fun
    | .call c => some c
    | .tell _ => none

/-- What a call does with the store once it is let through. -/
def PushCall.storeCall (uuid : String) : PushCall → PushStoreCall
  | .create params => .save (params.taskId.getD "")
      ⟨params.id, params.url, params.token, params.authentication⟩ uuid
  | .get params => .get params.taskId params.id
  | .list params => .list params.taskId
  | .delete params => .delete params.taskId params.id

/-- The configuration that comes with a request. -/
def Call.inlineConfig : Call → Option PushNotificationConfig
  | .messageSend params => params.inlineConfig
  | .messageStream params => params.inlineConfig
  | .cancelTask _ => none
  | .subscribeToTask _ => none

/-- What a request does with the store at its next step. -/
def Request.pushEvents (r : Request) (tick : Tick) : List PushEvent :=
  match r.pc with
  | .resolved ctx =>
    (r.call.inlineConfig.map fun config =>
      PushEvent.call (.save ctx.taskId config tick.configUuid)).toList
  | .collecting _ _ (.notifying _ t) => [.tell t]
  | _ => []

/-- What a step of the server does with it. -/
def serverPushEvents (c : ServerConfig) : Label Thread Move → List PushEvent
  | .run i (.tick tick) =>
    match c.threads[i]? with
    | some (.request r) => r.pushEvents tick
    | _ => []
  | _ => []

/-- What a step of an operation does with it. -/
def Operation.pushEvents (c : ServerConfig) (m : OperationMove) : Operation → List PushEvent
  | .service =>
    match m with
    | .serve l => serverPushEvents c l
    | _ => []
  | .push call .supported =>
    match m with
    | .tick t _ => [.call (call.storeCall t.configUuid)]
    | _ => []
  | .push _ _ => []

def pushEvents (c : OperationsConfig) : Label Operation OperationMove → List PushEvent
  | .run i m =>
    match c.threads[i]? with
    | some o => o.pushEvents c.shared m
    | none => []
  | .arrive _ => []

/-- The calls that are given up by a step of the server. -/
def Operation.givesUp (c : ServerConfig) (m : OperationMove) : Operation → List Push
  | .service =>
    match m with
    | .serve l => Ra2a.givesUp c l
    | _ => []
  | .push _ _ => []

def operationGivesUp (c : OperationsConfig) : Label Operation OperationMove → List Push
  | .run i m =>
    match c.threads[i]? with
    | some o => o.givesUp c.shared m
    | none => []
  | .arrive _ => []

/-- The calls given up along a run. -/
def pushesGivenUp (card : AgentCard) (c : OperationsConfig)
    (ls : List (Label Operation OperationMove)) : List Push :=
  (operations card).yields operationGivesUp c ls

/-- **The log of a run.** -/
def pushLog (card : AgentCard) (c : OperationsConfig)
    (ls : List (Label Operation OperationMove)) : List PushEvent :=
  (operations card).yields pushEvents c ls

/-! ### What a log comes to -/

/-- The rounds of a log: one for each task that is told of, to what stands for it, unless
nothing does. -/
inductive RoundsOf : List PushEvent → List Round → Prop
  | nil : RoundsOf [] []
  | call {log : List PushEvent} {rounds : List Round} (c : PushStoreCall)
      (prior : RoundsOf log rounds) : RoundsOf (log ++ [.call c]) rounds
  | nobody {log : List PushEvent} {rounds : List Round} (t : Task) (prior : RoundsOf log rounds)
      (hnone : ∀ config, ¬ Standing (storeCalls log) t.id config) :
      RoundsOf (log ++ [.tell t]) rounds
  | tell {log : List PushEvent} {rounds : List Round} {configs : Multiset PushNotificationConfig}
      (t : Task) (prior : RoundsOf log rounds) (hsome : configs ≠ 0) (hnodup : configs.Nodup)
      (hmem : ∀ config, config ∈ configs ↔ Standing (storeCalls log) t.id config) :
      RoundsOf (log ++ [.tell t]) (rounds ++ [(configs, t)])

variable {log : List PushEvent} {rounds : List Round} {calls : List PushStoreCall}

theorem storeCalls_append (log log' : List PushEvent) :
    storeCalls (log ++ log') = storeCalls log ++ storeCalls log' := List.filterMap_append

/-- The configurations of a task are different ones. -/
theorem nodup_list_run (k : String) :
    ((InMemoryPushNotificationConfigStore.run calls).list k).Nodup :=
  Multiset.Nodup.of_map _ InMemoryPushNotificationConfigStore.nodup_ids

/-- Nothing stands for a task without configurations. -/
theorem list_run_eq_zero_iff (k : String) :
    (InMemoryPushNotificationConfigStore.run calls).list k = 0 ↔
      ∀ config, ¬ Standing calls k config := by
  rw [Multiset.eq_zero_iff_forall_notMem]
  simp only [InMemoryPushNotificationConfigStore.mem_list_run_iff]

/-- Each round is one that the log has at some point. -/
theorem RoundsOf.exists_tell {round : Round} (h : RoundsOf log rounds) (hmem : round ∈ rounds) :
    ∃ before after, log = before ++ .tell round.2 :: after ∧ round.1.Nodup ∧
      ∀ config, config ∈ round.1 ↔ Standing (storeCalls before) round.2.id config := by
  induction h with
  | nil => cases hmem
  | call c _ ih =>
    obtain ⟨before, after, rfl, hround⟩ := ih hmem
    exact ⟨before, after ++ [.call c], by simp, hround⟩
  | nobody t _ _ ih =>
    obtain ⟨before, after, rfl, hround⟩ := ih hmem
    exact ⟨before, after ++ [.tell t], by simp, hround⟩
  | @tell log rounds configs t _ _ hnodup hstanding ih =>
    rcases List.mem_append.mp hmem with hmem | hmem
    · obtain ⟨before, after, rfl, hround⟩ := ih hmem
      exact ⟨before, after ++ [.tell t], by simp, hround⟩
    · obtain rfl := List.mem_singleton.mp hmem
      exact ⟨log, [], rfl, hnodup, hstanding⟩

/-- What stands was valid when it was saved. -/
theorem valid_of_standing {k : String} {config : PushNotificationConfig}
    (h : Standing calls k config) : validatePushConfig config = .ok () := by
  obtain ⟨before, call, after, -, hsaves, -⟩ := h
  cases call with
  | save k' saved uuid =>
    obtain ⟨-, hvalid, rfl⟩ := hsaves
    exact hvalid
  | _ => exact hsaves.elim

/-! ### What is asked for -/

section Asked

variable [JsonText] [Base64] [EncodeError]

/-- What the client is asked for when the loop goes over the configurations in this order. -/
def asked {σ : Type} (sender : HttpPushSender) (client : HttpClient σ) (s : σ) (task : Task)
    (order : List PushNotificationConfig) : List PushRequest :=
  ((sender.notifyAll client.noting task order).run (s, [])).2.2

/-- A round belongs to a point of the log at which its task is told of, and goes to what
stands there for the task.  Wherever it is given up and whatever the client answers, the
client is asked for one request for each configuration the loop has come to. -/
def Reaches (log : List PushEvent) (round : Round) : Prop :=
  ∃ before after, log = before ++ .tell round.2 :: after ∧
    ∀ (σ : Type) (client : HttpClient σ) (sender : HttpPushSender) (s : σ)
      (order : List PushNotificationConfig) (body : String),
      (order : Multiset PushNotificationConfig) = round.1 → toText round.2 = some body →
        order.Nodup ∧
        (∀ config, config ∈ order ↔ Standing (storeCalls before) round.2.id config) ∧
        (∀ config ∈ order, validatePushConfig config = .ok ()) ∧
        ∀ n, asked sender client s round.2 (order.take n) =
          (order.take n).map (HttpPushSender.request · body)

theorem RoundsOf.reaches {round : Round} (h : RoundsOf log rounds) (hmem : round ∈ rounds) :
    Reaches log round := by
  obtain ⟨before, after, hlog, hnodup, hstanding⟩ := h.exists_tell hmem
  refine ⟨before, after, hlog, fun σ client sender s order body horder hbody => ?_⟩
  have hiff : ∀ config, config ∈ order ↔ Standing (storeCalls before) round.2.id config := by
    intro config
    rw [← hstanding, ← horder, Multiset.mem_coe]
  refine ⟨?_, hiff, fun config hc => valid_of_standing ((hiff config).mp hc), fun n => ?_⟩
  · rw [← Multiset.coe_nodup, horder]
    exact hnodup
  · rw [asked, HttpPushSender.asked_notifyAll hbody, List.nil_append]

end Asked

/-! ### What a step does -/

/-- What a step does: nothing, a call of the store, or the beginning of a round; what it
leaves of the store, and the calls of `send_push` it asks for. -/
inductive PushStep (store : InMemoryPushNotificationConfigStore) :
    List PushEvent → InMemoryPushNotificationConfigStore → List Push → Prop
  | quiet : PushStep store [] store []
  | call (c : PushStoreCall) : PushStep store [.call c] (c.apply store) []
  | tell (t : Task) : PushStep store [.tell t] store (sends (store.list t.id) t 0)

/-- **A step and the log.** -/
theorem PushStep.run {events : List PushEvent} {store' : InMemoryPushNotificationConfigStore}
    {asks : List Push} (h : PushStep (.run (storeCalls log)) events store' asks)
    (hrounds : RoundsOf log rounds) :
    store' = .run (storeCalls (log ++ events)) ∧
      ∃ more, RoundsOf (log ++ events) (rounds ++ more) ∧ more.flatMap Round.sends = asks := by
  rw [storeCalls_append]
  cases h with
  | quiet =>
    rw [List.append_nil]
    exact ⟨by rw [storeCalls, storeCalls, List.filterMap_nil, List.append_nil],
      [], by rwa [List.append_nil], rfl⟩
  | call c =>
    have hcall : storeCalls [.call c] = [c] := rfl
    refine ⟨?_, [], by rw [List.append_nil]; exact .call c hrounds, rfl⟩
    rw [hcall, InMemoryPushNotificationConfigStore.run, InMemoryPushNotificationConfigStore.run,
      List.foldl_append]
    rfl
  | tell t =>
    have hcall : storeCalls [.tell t] = [] := rfl
    rw [hcall, List.append_nil]
    refine ⟨rfl, ?_⟩
    by_cases hnone : (InMemoryPushNotificationConfigStore.run (storeCalls log)).list t.id = 0
    · refine ⟨[], ?_, ?_⟩
      · rw [List.append_nil]
        exact .nobody t hrounds ((list_run_eq_zero_iff t.id).mp hnone)
      · rw [hnone, sends_of_card_le (Nat.le_refl 0)]
        rfl
    · refine ⟨[(_, t)], .tell t hrounds hnone (nodup_list_run t.id)
        fun config => InMemoryPushNotificationConfigStore.mem_list_run_iff, ?_⟩
      rw [List.flatMap_singleton]
      rfl

section Steps

variable {h h' : DefaultRequestHandler} {threads new : List Thread} {i : ℕ} {tick : Tick}

/-- What is saved of a message is the configuration that comes with it. -/
theorem pushStep_saveInlinePushConfig (params : SendMessageRequest) (k : TaskId) :
    PushStep h.pushConfigStore (params.inlineConfig.map fun config =>
        PushEvent.call (.save k config tick.configUuid)).toList
      (h.saveInlinePushConfig params k tick).pushConfigStore [] := by
  rw [DefaultRequestHandler.saveInlinePushConfig, SendMessageRequest.inlineConfig]
  cases params.configuration.bind SendMessageConfiguration.taskPushNotificationConfig with
  | none => exact .quiet
  | some tpc => exact .call (.save k ⟨tpc.id, tpc.url, tpc.token, tpc.authentication⟩ _)

/-- A step of a thread that is not about to save leaves the store. -/
theorem pushConfigStore_of_quiet {m : Move} {t t' : Thread}
    (ha : server.advance h threads i m t = some (h', t', new))
    (hsave : ∀ r params ctx tick, t = .request r → r.Configures params ctx → m ≠ .tick tick) :
    h'.pushConfigStore = h.pushConfigStore := by
  rcases pushConfigStore_step ha with hsame | ⟨r, params, ctx, tick, rfl, hr, ⟨t, rfl⟩, -⟩
  · exact hsame
  · exact absurd rfl (hsave r params ctx t rfl hr)

/-- A request at its step. -/
theorem Request.pushStep_advance {r : Request} {t' : Thread} (hsender : h.pushSender = true)
    (ha : server.advance h threads i (.tick tick) (.request r) = some (h', t', new)) :
    PushStep h.pushConfigStore (r.pushEvents tick) h'.pushConfigStore (r.asksFor h) := by
  have hkeep : (∀ ctx, r.pc ≠ .resolved ctx) → h'.pushConfigStore = h.pushConfigStore := by
    intro hno
    refine pushConfigStore_of_quiet ha fun _ params ctx _ he hr => ?_
    cases he
    exact absurd hr.1 (hno ctx)
  unfold Request.pushEvents Request.asksFor
  split
  · rename_i ctx hpc
    rw [hpc]
    by_cases hsave : ∃ params, r.Configures params ctx
    · obtain ⟨params, hr⟩ := hsave
      rw [hr.advance] at ha
      cases ha
      have hinline : r.call.inlineConfig = params.inlineConfig := by
        rcases hr.2 with hcall | hcall <;> rw [hcall] <;> rfl
      rw [hinline]
      exact pushStep_saveInlinePushConfig params ctx.taskId
    · have hcall : r.call.inlineConfig = none := by
        cases hcall : r.call with
        | messageSend params => exact absurd ⟨params, hpc, Or.inl hcall⟩ hsave
        | messageStream params => exact absurd ⟨params, hpc, Or.inr hcall⟩ hsave
        | cancelTask params => rfl
        | subscribeToTask params => rfl
      have hsame : h'.pushConfigStore = h.pushConfigStore := by
        refine pushConfigStore_of_quiet ha fun _ params ctx' _ he hr => ?_
        cases he
        obtain rfl : ctx' = ctx := by
          have hpc' := hr.1
          rw [hpc] at hpc'
          exact (Pc.resolved.inj hpc').symm
        exact absurd ⟨params, hr⟩ hsave
      rw [hcall, hsame]
      exact .quiet
  · rename_i removes col event t hpc
    rw [hpc, hkeep (by simp [hpc])]
    change PushStep _ _ _ (sends (h.pushConfigs t.id) t 0)
    rw [DefaultRequestHandler.pushConfigs, if_pos hsender]
    exact .tell t
  · rename_i hresolved hnotifying
    rw [hkeep fun ctx hpc => hresolved ctx hpc]
    split
    · exact absurd ‹_› (hnotifying _ _ _ _)
    · exact .quiet

/-- A step of the server. -/
theorem pushStep_serve {c c' : ServerConfig} {l : Label Thread Move}
    (hsender : c.shared.pushSender = true) (hs : server.step c l = some c') :
    c'.shared.pushSender = true ∧
      PushStep c.shared.pushConfigStore (serverPushEvents c l) c'.shared.pushConfigStore
        (asksFor c l) := by
  rcases Machine.step_cases hs with ⟨t, rfl, -, rfl⟩ | ⟨i, m, t, h', t', new, rfl, ht, ha, rfl⟩
  · exact ⟨hsender, .quiet⟩
  · refine ⟨(pushSender_step ha).trans hsender, ?_⟩
    by_cases hr : ∃ r tick, t = .request r ∧ m = .tick tick
    · obtain ⟨r, tick, rfl, rfl⟩ := hr
      rw [serverPushEvents, asksFor, ht]
      exact Request.pushStep_advance hsender ha
    · have hnil : serverPushEvents c (.run i m) = [] ∧ asksFor c (.run i m) = [] := by
        cases m with
        | tick tick =>
          rw [serverPushEvents, asksFor, ht]
          cases t with
          | request r => exact absurd ⟨r, tick, rfl, rfl⟩ hr
          | execution x => exact ⟨rfl, rfl⟩
          | registration g => exact ⟨rfl, rfl⟩
        | _ => exact ⟨rfl, rfl⟩
      have hsame : h'.pushConfigStore = c.shared.pushConfigStore :=
        pushConfigStore_of_quiet ha fun r params ctx tick he _ hm => hr ⟨r, tick, he, hm⟩
      rw [hnil.1, hnil.2]
      change PushStep _ _ h'.pushConfigStore _
      rw [hsame]
      exact .quiet

/-- A call beside the server. -/
theorem pushStep_onPushCall {order : List PushNotificationConfig} {call : PushCall}
    {result : Except A2AError PushResponse}
    (hc : h.onPushCall tick order call = some (result, h')) :
    h'.pushSender = h.pushSender ∧ h'.pushed = h.pushed ∧
      PushStep h.pushConfigStore [.call (call.storeCall tick.configUuid)] h'.pushConfigStore
        [] := by
  cases call with
  | create params =>
    obtain ⟨-, rfl⟩ := Prod.ext_iff.mp (Option.some.inj hc)
    have hcreate : (h.createTaskPushConfig params tick.configUuid).2 =
        { h with pushConfigStore :=
          ((PushCall.create params).storeCall tick.configUuid).apply h.pushConfigStore } := by
      rw [DefaultRequestHandler.createTaskPushConfig]
      split
      · rename_i store hsave
        change _ = { h with pushConfigStore := (h.pushConfigStore.save _ _ _).2 }
        rw [hsave]
      · rename_i saved store hsave
        change _ = { h with pushConfigStore := (h.pushConfigStore.save _ _ _).2 }
        rw [hsave]
    change (h.createTaskPushConfig params tick.configUuid).2.pushSender = _ ∧
      (h.createTaskPushConfig params tick.configUuid).2.pushed = _ ∧
      PushStep _ _ (h.createTaskPushConfig params tick.configUuid).2.pushConfigStore _
    rw [hcreate]
    exact ⟨rfl, rfl, .call _⟩
  | get params =>
    obtain ⟨-, rfl⟩ := Prod.ext_iff.mp (Option.some.inj hc)
    exact ⟨rfl, rfl, .call _⟩
  | list params =>
    rw [DefaultRequestHandler.onPushCall] at hc
    split at hc
    · obtain ⟨-, rfl⟩ := Prod.ext_iff.mp (Option.some.inj hc)
      exact ⟨rfl, rfl, .call _⟩
    · cases hc
  | delete params =>
    obtain ⟨-, rfl⟩ := Prod.ext_iff.mp (Option.some.inj hc)
    exact ⟨rfl, rfl, .call _⟩

/-- **One operation, whichever it is**: what it does with the store and the log, and what
becomes of the calls of `send_push`. -/
theorem Operation.pushStep_advance {card : AgentCard} {c c' : ServerConfig} {m : OperationMove}
    {o o' : Operation} (hsender : c.shared.pushSender = true)
    (ha : o.advance card c m = some (c', o')) :
    c'.shared.pushSender = true ∧ ∃ asks,
      PushStep c.shared.pushConfigStore (o.pushEvents c m) c'.shared.pushConfigStore asks ∧
      (c'.shared.pushed ++ unsent c' ++ o.givesUp c m).Perm
        (c.shared.pushed ++ unsent c ++ asks) := by
  have hquiet : ∀ c : ServerConfig, (c.shared.pushed ++ unsent c ++ []).Perm
      (c.shared.pushed ++ unsent c ++ []) := fun c => List.Perm.refl _
  cases o with
  | service =>
    cases m with
    | serve l =>
      obtain ⟨c₁, hstep, he⟩ := Option.map_eq_some_iff.mp ha
      cases he
      obtain ⟨hsame, hpush⟩ := pushStep_serve hsender hstep
      exact ⟨hsame, asksFor c l, hpush, sends_step hstep⟩
    | tick t order => cases ha
    | drop => cases ha
  | push call pc =>
    cases pc with
    | received =>
      cases m with
      | serve l => cases ha
      | tick t order =>
        rw [Operation.advance] at ha
        split at ha
        · cases ha
          exact ⟨hsender, [], .quiet, hquiet c⟩
        · cases ha
          exact ⟨hsender, [], .quiet, hquiet c⟩
      | drop =>
        cases ha
        exact ⟨hsender, [], .quiet, hquiet c⟩
    | supported =>
      cases m with
      | serve l => cases ha
      | tick t order =>
        obtain ⟨⟨result, h'⟩, hcall, he⟩ := Option.map_eq_some_iff.mp ha
        cases he
        obtain ⟨hsame, hpushed, hpush⟩ := pushStep_onPushCall hcall
        refine ⟨hsame.trans hsender, [], hpush, ?_⟩
        change (h'.pushed ++ unsent c ++ []).Perm _
        rw [hpushed]
      | drop =>
        cases ha
        exact ⟨hsender, [], .quiet, hquiet c⟩
    | done result => cases m <;> cases ha
    | dropped => cases m <;> cases ha

end Steps

/-! ### Runs -/

section Runs

variable {card : AgentCard} {s : ServerConfig} {ls : List (Label Operation OperationMove)}
  {c : OperationsConfig}

/-- What holds of a schedule and of where it has come to. -/
structure PushesDelivered (card : AgentCard) (s : ServerConfig)
    (ls : List (Label Operation OperationMove)) (c : OperationsConfig) : Prop where
  sender : c.shared.shared.pushSender = true
  store : c.shared.shared.pushConfigStore = .run (storeCalls (pushLog card (serving s) ls))
  rounds : ∃ rounds, RoundsOf (pushLog card (serving s) ls) rounds ∧
    (c.shared.shared.pushed ++ unsent c.shared ++ pushesGivenUp card (serving s) ls).Perm
      (rounds.flatMap Round.sends)

/-- One step of an operation. -/
theorem PushesDelivered.step {i : ℕ} {m : OperationMove} {o o' : Operation} {c' : ServerConfig}
    (h : PushesDelivered card s ls c) (hrun : (operations card).exec (serving s) ls = some c)
    (ho : c.threads[i]? = some o) (ha : o.advance card c.shared m = some (c', o'))
    (threads : List Operation) : PushesDelivered card s (ls ++ [.run i m]) ⟨c', threads⟩ := by
  obtain ⟨hsender, hstore, rounds, hrounds, hsends⟩ := h
  have hlog : pushLog card (serving s) (ls ++ [.run i m]) =
      pushLog card (serving s) ls ++ o.pushEvents c.shared m := by
    rw [pushLog, Machine.Reach.yields_concat hrun, pushEvents, ho]
    rfl
  have hgiven : pushesGivenUp card (serving s) (ls ++ [.run i m]) =
      pushesGivenUp card (serving s) ls ++ o.givesUp c.shared m := by
    rw [pushesGivenUp, Machine.Reach.yields_concat hrun, operationGivesUp, ho]
    rfl
  obtain ⟨hsame, asks, hpush, hperm⟩ := Operation.pushStep_advance hsender ha
  rw [hstore] at hpush
  obtain ⟨hstore', more, hrounds', hmore⟩ := hpush.run hrounds
  refine ⟨hsame, by rw [hlog]; exact hstore', rounds ++ more, by rw [hlog]; exact hrounds', ?_⟩
  rw [hgiven, List.flatMap_append, hmore]
  rw [← Multiset.coe_eq_coe] at hsends hperm ⊢
  simp only [← Multiset.coe_add] at hsends hperm ⊢
  calc _ = ((c'.shared.pushed : Multiset Push) + unsent c' + o.givesUp c.shared m) +
        pushesGivenUp card (serving s) ls := by abel
    _ = ((c.shared.shared.pushed : Multiset Push) + unsent c.shared +
        pushesGivenUp card (serving s) ls) + asks := by rw [hperm]; abel
    _ = _ := by rw [hsends]

/-- **Who is told.**  Along every run of the server and the calls beside it, the store is
what its calls make of it, and there is a round for each task that is told of while
somebody is registered for it.  Each round goes to exactly the configurations that were
saved for the task, by a message or by a call, and neither overwritten nor deleted
since.  The calls of `send_push` that were made, those that requests in the middle of a
round have still to make and those that were given up with their request are together
one for each configuration of each round. -/
theorem deliveries_run [JsonText] [Base64] [EncodeError]
    (hstore : s.shared.pushConfigStore = .new) (hpushed : s.shared.pushed = [])
    (hthreads : s.threads = []) (hsender : s.shared.pushSender = true)
    (hrun : (operations card).exec (serving s) ls = some c) :
    c.shared.shared.pushConfigStore = .run (storeCalls (pushLog card (serving s) ls)) ∧
      ∃ rounds, RoundsOf (pushLog card (serving s) ls) rounds ∧
        (∀ round ∈ rounds, Reaches (pushLog card (serving s) ls) round) ∧
        (c.shared.shared.pushed ++ unsent c.shared ++ pushesGivenUp card (serving s) ls).Perm
          (rounds.flatMap Round.sends) := by
  have hdelivered : PushesDelivered card s ls c := by
    refine Machine.Reach.of_schedule (P := PushesDelivered card s) ?_ ?_
      (Machine.Reach.along_always ls) hrun
    · refine ⟨hsender, hstore, [], .nil, ?_⟩
      change (s.shared.pushed ++ unsent s ++ []).Perm []
      rw [hpushed, unsent, hthreads]
      exact List.Perm.refl _
    · intro ls l c c' _ hrun hP _ hs
      rcases Machine.step_cases hs with ⟨o, rfl, -, rfl⟩ | ⟨i, m, o, s', o', new, rfl, ho, ha, rfl⟩
      · have hlog : pushLog card (serving s) (ls ++ [.arrive o]) =
            pushLog card (serving s) ls := by
          rw [pushLog, Machine.Reach.yields_concat hrun]
          exact List.append_nil _
        have hgiven : pushesGivenUp card (serving s) (ls ++ [.arrive o]) =
            pushesGivenUp card (serving s) ls := by
          rw [pushesGivenUp, Machine.Reach.yields_concat hrun]
          exact List.append_nil _
        exact ⟨hP.sender, by rw [hlog]; exact hP.store, by rw [hlog, hgiven]; exact hP.rounds⟩
      · obtain ⟨⟨s₁, o₁⟩, hadv, he⟩ := Option.map_eq_some_iff.mp ha
        cases he
        exact hP.step hrun ho hadv _
  obtain ⟨rounds, hrounds, hsends⟩ := hdelivered.rounds
  exact ⟨hdelivered.store, rounds, hrounds, fun round hround => hrounds.reaches hround, hsends⟩

end Runs

/-! ### A round that is given up -/

/-- The card of an agent that announces push notifications. -/
def tellingCard : AgentCard :=
  { plainCard with capabilities := { plainCard.capabilities with pushNotifications := some true } }

/-- A handler with a task at work and nobody to be told of it yet. -/
def untoldHandler : DefaultRequestHandler := { tellingHandler with pushConfigStore := .new }

/-- Two are registered, the task is completed, the first of them is told, and then the
client gives the request up. -/
def tellOne : List (Label Operation OperationMove) :=
  [.arrive (.push (.create ⟨none, none, some "t1", "https://example.com", none, none⟩) .received),
    .run 1 (.tick ⟨"12:00", "u1", "u2", "p1"⟩ []), .run 1 (.tick ⟨"12:00", "u1", "u2", "p1"⟩ []),
    .arrive (.push (.create ⟨none, none, some "t1", "https://example.org", none, none⟩) .received),
    .run 2 (.tick ⟨"12:00", "u1", "u2", "p2"⟩ []), .run 2 (.tick ⟨"12:00", "u1", "u2", "p2"⟩ [])] ++
    toldOnce.map (fun l => .run 0 (.serve l)) ++ [.run 0 (.serve (.run 0 .drop))]

/-- The task once it is completed. -/
def completedTask : Task := ⟨"t1", "c1", ⟨.completed, none, none⟩, [], [], none⟩

theorem deliveries_run_givenUp :
    letI := byteChars
    letI := tableText [(serialize completedTask, "t1 completed")]
    letI : EncodeError := ⟨fun _ => "invalid"⟩
    let start := serving ⟨untoldHandler, []⟩
    ∃ (c : OperationsConfig) (rounds : List Round),
      (operations tellingCard).exec start tellOne = some c ∧
      c.shared.shared.pushed.length = 1 ∧ (pushesGivenUp tellingCard start tellOne).length = 1 ∧
      (∀ round ∈ rounds, Reaches (pushLog tellingCard start tellOne) round) ∧
      (c.shared.shared.pushed ++ unsent c.shared ++ pushesGivenUp tellingCard start tellOne).Perm
        (rounds.flatMap Round.sends) := by
  let := byteChars
  let := tableText [(serialize completedTask, "t1 completed")]
  let : EncodeError := ⟨fun _ => "invalid"⟩
  have hlength : ((operations tellingCard).exec (serving ⟨untoldHandler, []⟩)
      tellOne).map (·.shared.shared.pushed.length) = some 1 := by
    decide +kernel
  have hgiven : (pushesGivenUp tellingCard (serving ⟨untoldHandler, []⟩) tellOne).length = 1 := by
    decide +kernel
  obtain ⟨c, hrun, hone⟩ := Option.map_eq_some_iff.mp hlength
  obtain ⟨-, rounds, -, hreaches, hsends⟩ := deliveries_run rfl rfl rfl rfl hrun
  exact ⟨c, rounds, hrun, hone, hgiven, hreaches, hsends⟩

end Ra2a
