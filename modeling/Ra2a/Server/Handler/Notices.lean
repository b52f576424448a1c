import Ra2a.Server.Handler.Losses
import Ra2a.Server.Handler.Rounds
import Ra2a.Server.Handler.Settled

/-!
# Notifications

Who persists an event also notifies of it, and that is each collector of the
queue: as many rounds of notifications go out for an event as collectors receive
it.  None goes out when nobody collects, two when two requests on the task wait.

`notices` are the rounds of a run and `emissions` the events that call for one.
Each of these has exactly one round, begun or still to be begun by one collector,
along every run in which such an event is sent only while exactly one collector
listens, no collector lags and none that has it before it is given up
(`notifiedOnce_run`).  The calls of `send_push` are those of the rounds begun, each
made once or still to be made.
-/

namespace Ra2a

open Broadcast Interleave

/-! ### Rounds -/

/-- A round of notifications: the event it is sent for, by queue and position, the
configurations it goes to and the task they are told of. -/
structure Notice where
  queue : ℕ
  pos : ℕ
  configs : Multiset PushNotificationConfig
  task : Task

/-- The event a round is sent for. -/
def Notice.isFor (q p : ℕ) (n : Notice) : Bool := n.queue = q && n.pos = p

/-- The round a step begins. -/
def notice (c : ServerConfig) : Label Thread Move → List Notice
  | .run i (.tick _) =>
    match c.threads[i]? with
    | some (.request r) =>
      match r.pc with
      | .collecting _ col (.notifying _ t) =>
        if c.shared.pushSender then
          [⟨col.queue, col.pos - 1, c.shared.pushConfigs t.id, t⟩]
        else []
      | _ => []
    | _ => []
  | _ => []

/-- The rounds of a schedule. -/
def notices (c : ServerConfig) (ls : List (Label Thread Move)) : List Notice :=
  server.yields notice c ls

/-- The calls of `send_push` rounds come to. -/
def rounds (ns : List Notice) : List Push := ns.flatMap fun n => sends n.configs n.task 0

/-! ### Events that call for one -/

/-- The event is a task or a status, of a task that is stored. -/
def Event.notifies (h : DefaultRequestHandler) : Event → Bool
  | .task t => (h.getTaskInternal t.id).isSome
  | .statusUpdate e => (h.getTaskInternal e.taskId).isSome
  | _ => false

/-- The event a step sends, by queue and position, if it calls for a round. -/
def emission (c : ServerConfig) : Label Thread Move → List (ℕ × ℕ)
  | .run i m =>
    match c.threads[i]? with
    | some (.execution x) =>
      match x.sends m with
      | some e =>
        if e.notifies c.shared then [(x.queue, (c.shared.queueManager.log x.queue).length)] else []
      | none => []
    | _ => []
  | .arrive _ => []

/-- The events of a schedule that call for a round. -/
def emissions (c : ServerConfig) (ls : List (Label Thread Move)) : List (ℕ × ℕ) :=
  server.yields emission c ls

/-- A collector in this phase has still to notify of the event in hand. -/
def Phase.toNotify : Phase → Bool
  | .persisting _ => true
  | .updating _ _ => true
  | .notifying _ _ => true
  | _ => false

/-- A collector will begin the round for position `p` of its log: it has the event
in hand, or will come to it. -/
def Collector.owes (col : Collector) (phase : Phase) (nb : Bool) (log : List Sent) (p : ℕ) : Bool :=
  if col.pos ≤ p then
    phase.goesOn nb && ((log.take p).drop col.pos).all fun s => !stopsAt nb s.event
  else col.pos = p + 1 && phase.toNotify

/-- The thread will begin the round for position `p` of queue `q`. -/
def Thread.owes (h : DefaultRequestHandler) (q p : ℕ) : Thread → Bool
  | .request r =>
    match r.pc with
    | .collecting _ col phase =>
      col.queue = q && col.owes phase r.call.isNonBlocking (h.queueManager.log q) p
    | _ => false
  | _ => false

/-- How many threads will. -/
def owing (c : ServerConfig) (q p : ℕ) : ℕ := c.threads.countP (·.owes c.shared q p)

/-- **Every event that calls for a round has exactly one**, begun or owed; each call
of the rounds begun is made once or is still to be made, no other is made, and each
round is about the task of its event. -/
structure NotifiedOnce (c₀ : ServerConfig) (ls : List (Label Thread Move)) (c : ServerConfig) :
    Prop where
  pushed : (c.shared.pushed ++ unsent c).Perm (c₀.shared.pushed ++ rounds (notices c₀ ls))
  about : ∀ n ∈ notices c₀ ls, ∃ s, (c.shared.queueManager.log n.queue)[n.pos]? = some s ∧
    n.task.id = s.event.taskId
  once : ∀ q p, (q, p) ∈ emissions c₀ ls →
    (notices c₀ ls).countP (·.isFor q p) + owing c q p = 1

/-! ### The condition -/

/-- An event that calls for a round is sent only while exactly one collector is
going to receive it, no collector lags, and none is given up that has such an
event before it or is in the middle of its round. -/
structure KeepsNotices (c : ServerConfig) (l : Label Thread Move) : Prop where
  listened : ∀ i m x e, l = .run i m → c.threads[i]? = some (.execution x) → x.sends m = some e →
    e.notifies c.shared = true →
    owing c x.queue (c.shared.queueManager.log x.queue).length = 1
  keepsUp : ∀ i tick r removes col n pos, l = .run i (.tick tick) →
    c.threads[i]? = some (.request r) → r.pc = .collecting removes col .receiving →
    c.shared.recv c.threads col.queue col.pos ≠ some (.lagged n, pos)
  stays : ∀ i r q p s, l = .run i .drop → c.threads[i]? = some (.request r) →
    (c.shared.queueManager.log q)[p]? = some s → s.event.notifies c.shared = true →
    (Thread.request r).owes c.shared q p = false
  completes : ∀ i r, l = .run i .drop → c.threads[i]? = some (.request r) → r.unsent = []

/-! ### What a collector owes -/

section

variable {col col' : Collector} {phase phase' : Phase} {nb : Bool} {log : List Sent} {p : ℕ}

theorem Collector.owes_congr (hpos : col'.pos = col.pos)
    (hgo : phase'.goesOn nb = phase.goesOn nb) (hn : phase'.toNotify = phase.toNotify) :
    col'.owes phase' nb log p = col.owes phase nb log p := by
  rw [owes, owes, hpos, hgo, hn]

/-- A receive passes on what is owed. -/
theorem Collector.owes_receive {s : Sent} (hget : log[col.pos]? = some s)
    (hpos : col'.pos = col.pos + 1) :
    col'.owes (.persisting s.event) nb log p = col.owes .receiving nb log p := by
  rw [owes, owes, hpos]
  by_cases hlt : col.pos < p
  · have htake : (log.take p)[col.pos]? = some s := by
      rw [List.getElem?_take_of_lt hlt, hget]
    obtain ⟨hlen, hs⟩ := List.getElem?_eq_some_iff.mp htake
    rw [if_pos (by omega), if_pos (by omega), List.drop_eq_getElem_cons hlen, List.all_cons, hs]
    simp [Phase.goesOn, Phase.event?]
  · rw [if_neg (by omega)]
    by_cases he : col.pos = p
    · have hnil : (log.take p).drop col.pos = [] := by
        rw [List.drop_eq_nil_iff, List.length_take]
        omega
      rw [if_pos (by omega), hnil]
      simp [he, Phase.toNotify, Phase.goesOn, Phase.event?]
    · rw [if_neg (by omega)]
      simp [Phase.toNotify, he]

/-- A round begun is no longer owed. -/
theorem Collector.owes_notify {event : Event} (t : Task) (hpos : 0 < col.pos)
    (hn : phase.toNotify = false) (he : phase.event? = some event) :
    (decide (col.pos - 1 = p)).toNat + (col.owes phase nb log p).toNat =
      (col.owes (.notifying event t) nb log p).toNat := by
  rw [owes, owes]
  by_cases hle : col.pos ≤ p
  · have hne : col.pos - 1 ≠ p := by omega
    have hgo : phase.goesOn nb = (Phase.notifying event t).goesOn nb := by
      rw [Phase.goesOn, Phase.goesOn, he]
      rfl
    simp [hle, hne, hgo]
  · have hiff : col.pos - 1 = p ↔ col.pos = p + 1 := by omega
    have htold : (Phase.notifying event t).toNotify = true := rfl
    simp [hle, hiff, hn, htold]

/-- What is owed does not depend on what is sent later. -/
theorem Collector.owes_append (later : List Sent) (hp : p ≤ log.length) :
    col.owes phase nb (log ++ later) p = col.owes phase nb log p := by
  rw [owes, owes, List.take_append_of_le_length hp]

/-- A collector that has not come to anything owes nothing. -/
theorem Collector.owes_of_length_le (hlen : log.length ≤ col.pos) (hp : p < log.length)
    (hn : phase.toNotify = false) : col.owes phase nb log p = false := by
  rw [owes, if_neg (by omega), hn, Bool.and_false]

end

theorem Thread.owes_of_log {h h' : DefaultRequestHandler} {q p : ℕ} {later : List Sent}
    (hlog : h'.queueManager.log q = h.queueManager.log q ++ later)
    (hp : p ≤ (h.queueManager.log q).length) (t : Thread) : t.owes h' q p = t.owes h q p := by
  cases t with
  | request r =>
    cases hpc : r.pc with
    | collecting removes col phase => simp only [owes, hpc, hlog, Collector.owes_append later hp]
    | _ => simp only [owes, hpc]
  | _ => rfl

/-- What is owed after a step, but for the thread that moves. -/
theorem owing_step {c : ServerConfig} {h' : DefaultRequestHandler} {new : List Thread} {i q p : ℕ}
    {m : Move} {t t' : Thread} (ht : c.threads[i]? = some t)
    (ha : server.advance c.shared c.threads i m t = some (h', t', new))
    (hp : p ≤ (c.shared.queueManager.log q).length) :
    owing ⟨h', c.threads.set i t' ++ new⟩ q p + (t.owes c.shared q p).toNat =
      owing c q p + (t'.owes c.shared q p).toNat := by
  obtain ⟨later, hlog⟩ := log_step ha q
  have hsame : (fun u : Thread => u.owes h' q p) = fun u => u.owes c.shared q p :=
    funext (Thread.owes_of_log hlog hp)
  have hnew : new.countP (fun u => u.owes c.shared q p) = 0 := by
    rw [List.countP_eq_zero]
    intro u hu
    rcases spawned_step ha hu with ⟨r, x, -, rfl, -⟩ | ⟨g, rfl⟩ <;> exact Bool.false_ne_true
  rw [owing, owing, hsame, List.countP_append, hnew, Nat.add_zero, Places.countP_set ht]

/-! ### What a collector has in hand -/

/-- The task about to be stored or told of is that of the event. -/
def Phase.Names : Phase → Prop
  | .updating e t => t.id = e.taskId
  | .notifying event t => t.id = event.taskId
  | _ => True

theorem Request.Step.names {h h' : DefaultRequestHandler} {threads new : List Thread} {i : ℕ}
    {r r' : Request} (hs : r.Step h threads i h' r' new)
    (hr : ∀ removes col phase, r.pc = .collecting removes col phase → phase.Names)
    {removes : TaskId} {col : Collector} {phase : Phase}
    (hpc' : r'.pc = .collecting removes col phase) : phase.Names := by
  cases hs with
  | persist removes col t hpc => cases hpc'; rfl
  | read removes col e t tick hpc htask =>
    cases hpc'
    have hid : t.id = e.taskId := DefaultRequestHandler.id_of_getTaskInternal htask
    exact hid
  | update removes col e t hpc =>
    cases hpc'
    have hnames : (Phase.updating e t).Names := hr _ _ _ hpc
    exact hnames
  | spawnSend | spawnCancel | receive | lag | close | skip | list | nobody | push | pushLast
  | goOn =>
    cases hpc'
    exact trivial
  | _ => cases hpc'

theorem naming_reach {ok : ServerConfig → Label Thread Move → Prop} {c₀ c : ServerConfig}
    (h₀ : Initial c₀) (h : server.Reach ok c₀ c) :
    EachRequest (fun _ _ r =>
      ∀ removes col phase, r.pc = .collecting removes col phase → phase.Names) c := by
  refine requests_reach h₀ ?_ ?_ ?_ ?_ h
  · intro c j r hpc hrec removes col phase hpc'
    rw [hpc] at hpc'
    cases hpc'
  · intro c t j r hok hf hr hA
    exact hA
  · intro c i m r h' r' new hok hi ha hs hm hA removes col phase hpc
    exact hs.names hA hpc
  · intro c i m t h' t' new j r hok ht ha hr hA
    exact hA

/-- What is known of a collector: that the event in hand is the last it has come
past, and whose task that is. -/
structure Placed (c : ServerConfig) (col : Collector) (phase : Phase) : Prop where
  inHand : ∀ event, phase.event? = some event → 0 < col.pos ∧
    ∃ s, (c.shared.queueManager.log col.queue)[col.pos - 1]? = some s ∧ s.event = event
  names : phase.Names

theorem placed_reach {ok : ServerConfig → Label Thread Move → Prop} {c₀ c : ServerConfig}
    (h₀ : Initial c₀) (h : server.Reach ok c₀ c) {i : ℕ} {r : Request} {removes : TaskId}
    {col : Collector} {phase : Phase} (hi : c.threads[i]? = some (.request r))
    (hpc : r.pc = .collecting removes col phase) : Placed c col phase := by
  have hany : server.Reach (fun c l => ∀ p ∈ (∅ : Set ℕ), ¬ Loses c l i p) c₀ c :=
    h.mono fun _ _ _ _ hp => absurd hp (Set.notMem_empty _)
  obtain ⟨ps, hps⟩ := collected_reach h₀ hany i r hi rfl col (by rw [hpc]; rfl)
  have hheard : r.Heard := heard_reach h₀ h i _ hi
  refine ⟨fun event hevent => ?_, naming_reach h₀ h i r hi _ _ _ hpc⟩
  have hlast := hps.last (by rw [hpc, Pc.inHand, hevent]; rfl)
  have hpos := (hps.read.bounds _ (List.mem_of_getLast? hlast)).2
  have hrec : ∃ pre s, r.received = pre ++ [s] ∧ s.event = event := by
    rw [Request.Heard, hpc] at hheard
    cases phase with
    | receiving | closing => cases hevent
    | persisting | updating | notifying | pushing | persisted =>
      obtain ⟨pre, s, hrec, he, -⟩ := hheard
      rw [hevent] at he
      exact ⟨pre, s, hrec, (Option.some.inj he).symm⟩
  obtain ⟨pre, s, hrec, he⟩ := hrec
  have hmap := congrArg List.getLast? hps.read.values_eq
  rw [hrec, List.getLast?_map, List.getLast?_map, List.getLast?_concat, hlast] at hmap
  exact ⟨by omega, s, (Option.some.inj hmap).symm, he⟩

/-! ### One step -/

section

variable {c : ServerConfig} {h' : DefaultRequestHandler} {new : List Thread} {i q p : ℕ}
  {r r' : Request}

theorem owes_collecting {h : DefaultRequestHandler} {removes : TaskId} {col : Collector}
    {phase : Phase} (hpc : r.pc = .collecting removes col phase) :
    (Thread.request r).owes h q p = (decide (col.queue = q) &&
      col.owes phase r.call.isNonBlocking (h.queueManager.log q) p) := by
  simp only [Thread.owes, hpc]

theorem owes_of_not_collecting {h : DefaultRequestHandler}
    (hno : ∀ removes col phase, r.pc ≠ .collecting removes col phase) :
    (Thread.request r).owes h q p = false := by
  cases hpc : r.pc with
  | collecting removes col phase => exact absurd hpc (hno _ _ _)
  | _ => simp only [Thread.owes, hpc]

/-- Only a listing begins a round. -/
theorem notice_eq_nil {m : Move} {t : Thread} (ht : c.threads[i]? = some t)
    (hno : ∀ r removes col event u, t = .request r →
      r.pc ≠ .collecting removes col (.notifying event u)) : notice c (.run i m) = [] := by
  cases m with
  | tick tick =>
    rw [notice, ht]
    cases t with
    | request r =>
      dsimp only
      split
      · exact absurd ‹_› (hno r _ _ _ _ rfl)
      · rfl
    | execution x => rfl
    | registration g => rfl
  | _ => rfl

/-- A listing begins a round, where somebody sends it. -/
theorem notice_notifying {removes : TaskId} {col : Collector} {event : Event} {t : Task}
    (hi : c.threads[i]? = some (.request r)) (hsender : c.shared.pushSender = true)
    (hpc : r.pc = .collecting removes col (.notifying event t)) (tick : Tick) :
    notice c (.run i (.tick tick)) =
      [⟨col.queue, col.pos - 1, c.shared.pushConfigs t.id, t⟩] := by
  rw [notice, hi]
  simp only [hpc, hsender, if_true]

/-- A collector that stays where it is owes what it owed. -/
theorem owes_stay {removes : TaskId} {col col' : Collector} {phase phase' : Phase}
    (hpc : r.pc = .collecting removes col phase) (hpc' : r'.pc = .collecting removes col' phase')
    (hcall : r'.call = r.call) (hq : col'.queue = col.queue) (hpos : col'.pos = col.pos)
    (hgo : phase'.goesOn r.call.isNonBlocking = phase.goesOn r.call.isNonBlocking)
    (hn : col.queue = q → col.pos = p + 1 → phase'.toNotify = phase.toNotify) :
    (Thread.request r').owes c.shared q p = (Thread.request r).owes c.shared q p := by
  rw [owes_collecting hpc, owes_collecting hpc', hcall, hq]
  by_cases hqueue : col.queue = q
  · by_cases hp : col.pos = p + 1
    · rw [Collector.owes_congr hpos hgo (hn hqueue hp)]
    · congr 1
      rw [Collector.owes, Collector.owes, hpos, hgo]
      simp [hp]
  · simp [hqueue]

/-- An event whose record is not there to be updated calls for no round. -/
theorem Event.notifies_of_skip {h : DefaultRequestHandler} {event : Event}
    (hskip : ∀ t, event ≠ .task t)
    (hnone : ∀ e, event = .statusUpdate e → h.getTaskInternal e.taskId = none) :
    event.notifies h = false := by
  cases event with
  | task t => exact absurd rfl (hskip t)
  | statusUpdate e => rw [notifies, hnone e rfl, Option.isSome_none]
  | message m => rfl
  | artifactUpdate e => rfl

/-- A request that begins no round owes what it owed. -/
theorem Request.Step.owes_eq {tick : Tick} {s : Sent} (hs : r.Step c.shared c.threads i h' r' new)
    (hi : c.threads[i]? = some (.request r)) (hlive : r'.pc ≠ .dropped) (hheard : r.Heard)
    (hplaced : ∀ removes col phase, r.pc = .collecting removes col phase → Placed c col phase)
    (hok : KeepsNotices c (.run i (.tick tick)))
    (hget : (c.shared.queueManager.log q)[p]? = some s)
    (hnotifies : s.event.notifies c.shared = true)
    (hno : ∀ removes col event t, r.pc ≠ .collecting removes col (.notifying event t)) :
    (Thread.request r').owes c.shared q p = (Thread.request r).owes c.shared q p := by
  have hlt : p < (c.shared.queueManager.log q).length := (List.getElem?_eq_some_iff.mp hget).1
  -- outside of collect_result nothing is owed
  have hoff : (∀ removes col phase, r.pc ≠ .collecting removes col phase) →
      (∀ removes col phase, r'.pc ≠ .collecting removes col phase) →
      (Thread.request r').owes c.shared q p = (Thread.request r).owes c.shared q p := by
    intro hoff hoff'
    rw [owes_of_not_collecting hoff, owes_of_not_collecting hoff']
  cases hs with
  | drop => exact absurd rfl hlive
  | spawnSend params key ctx queue pos hpc hcall hpos
  | spawnCancel params key ctx queue pos hpc hcall hpos =>
    rw [owes_of_not_collecting (r := r) (by simp [hpc]), owes_collecting rfl]
    by_cases hq : queue = q
    · subst hq
      rw [Collector.owes_of_length_le hpos.ge hlt rfl, Bool.and_false]
    · simp [hq]
  | receive removes col sent pos hpc hrecv =>
    obtain ⟨ch, -, hlog, hr⟩ := DefaultRequestHandler.of_recv hrecv
    obtain ⟨hsent, hpos⟩ := Channel.recv_ok hr
    rw [owes_collecting hpc, owes_collecting rfl]
    by_cases hq : col.queue = q
    · subst hq
      rw [← hlog] at hsent
      rw [Collector.owes_receive hsent hpos]
    · simp [hq]
  | lag removes col n pos hpc hrecv =>
    exact absurd hrecv (hok.keepsUp i tick r removes col n pos rfl hi hpc)
  | close removes col pos hpc hrecv =>
    exact absurd hrecv (not_closed_while_collecting hi hpc pos)
  | persist removes col t hpc => exact owes_stay hpc rfl rfl rfl rfl rfl fun _ _ => rfl
  | read removes col e t now hpc htask => exact owes_stay hpc rfl rfl rfl rfl rfl fun _ _ => rfl
  | skip removes col event hpc hskip hnone =>
    refine owes_stay hpc rfl rfl rfl rfl rfl fun hq hp => ?_
    obtain ⟨-, s', hs', he⟩ := (hplaced _ _ _ hpc).inHand event rfl
    rw [hq, hp, Nat.add_sub_cancel, hget] at hs'
    cases hs'
    rw [he, Event.notifies_of_skip hskip hnone] at hnotifies
    cases hnotifies
  | update removes col e t hpc => exact owes_stay hpc rfl rfl rfl rfl rfl fun _ _ => rfl
  | list removes col event t hpc | nobody removes col event t hpc =>
    exact absurd hpc (hno _ _ _ _)
  | push removes col event t configs n hpc | pushLast removes col event t configs n hpc =>
    exact owes_stay hpc rfl rfl rfl rfl rfl fun _ _ => rfl
  | goOn removes col event hpc hstop =>
    refine owes_stay hpc rfl rfl rfl rfl ?_ fun _ _ => rfl
    simp [Phase.goesOn, Phase.event?, hstop]
  | answer removes col event now hpc hstop =>
    rw [owes_of_not_collecting (by simp), owes_collecting hpc]
    simp [Collector.owes, Phase.goesOn, Phase.event?, Phase.toNotify, hstop]
  | finalize removes col resp now hpc hresp =>
    exact absurd hpc hheard.not_closing
  | failClosed removes col e now hpc herr =>
    exact absurd hpc hheard.not_closing
  | refuse e hpc =>
    refine hoff ?_ (by simp)
    rcases hpc with hpc | ⟨key, ctx, n, hpc⟩ | hpc <;> simp [hpc]
  | resolve _ _ _ hpc | configure _ _ _ hpc | intercept _ _ _ _ _ hpc | intercepted _ _ _ hpc
  | accept _ _ hpc | abort _ _ hpc | queue _ _ _ _ hpc | panic _ _ hpc | spawnStream _ _ _ _ hpc
  | finish _ _ _ hpc | locate _ _ hpc | find _ _ hpc | subscribe _ hpc | deliver _ _ _ _ hpc
  | deliverLag _ _ _ _ hpc | endStream _ _ _ hpc => exact hoff (by simp [hpc]) (by simp)

/-- Where a request is once it has listed what is registered. -/
theorem Request.Step.of_notifying {removes : TaskId} {col : Collector} {event : Event} {t : Task}
    (hs : r.Step c.shared c.threads i h' r' new) (hlive : r'.pc ≠ .dropped)
    (hpc : r.pc = .collecting removes col (.notifying event t)) :
    ∃ phase, r' = r.goto (.collecting removes col phase) ∧ phase.toNotify = false ∧
      phase.event? = some event := by
  cases hs with
  | list removes col event t hpc' | nobody removes col event t hpc' =>
    rw [hpc] at hpc'
    cases hpc'
    exact ⟨_, rfl, rfl, rfl⟩
  | drop => exact absurd rfl hlive
  | _ => simp_all

/-- **A request begins the round it owes at that step, and owes the others as
before.** -/
theorem Request.Step.owes {tick : Tick} {s : Sent} (hs : r.Step c.shared c.threads i h' r' new)
    (hi : c.threads[i]? = some (.request r)) (hlive : r'.pc ≠ .dropped) (hheard : r.Heard)
    (hplaced : ∀ removes col phase, r.pc = .collecting removes col phase → Placed c col phase)
    (hok : KeepsNotices c (.run i (.tick tick))) (hsender : c.shared.pushSender = true)
    (hget : (c.shared.queueManager.log q)[p]? = some s)
    (hnotifies : s.event.notifies c.shared = true) :
    (notice c (.run i (.tick tick))).countP (·.isFor q p) +
        ((Thread.request r').owes c.shared q p).toNat =
      ((Thread.request r).owes c.shared q p).toNat := by
  by_cases hnotifying : ∃ removes col event t, r.pc = .collecting removes col (.notifying event t)
  · obtain ⟨removes, col, event, t, hpc⟩ := hnotifying
    obtain ⟨phase, rfl, hn, he⟩ := hs.of_notifying hlive hpc
    have hpos := ((hplaced _ _ _ hpc).inHand event rfl).1
    rw [notice_notifying hi hsender hpc, owes_collecting hpc, owes_collecting rfl,
      List.countP_singleton]
    by_cases hq : col.queue = q
    · have howes : (decide (col.pos - 1 = p)).toNat +
          (col.owes phase r.call.isNonBlocking (c.shared.queueManager.log q) p).toNat =
          (col.owes (.notifying event t) r.call.isNonBlocking (c.shared.queueManager.log q)
            p).toNat := Collector.owes_notify t hpos hn he
      by_cases hp : col.pos - 1 = p <;> simpa [Notice.isFor, hq, hp] using howes
    · simp [Notice.isFor, hq]
  · have hno : ∀ removes col event t, r.pc ≠ .collecting removes col (.notifying event t) :=
      fun removes col event t hpc => hnotifying ⟨removes, col, event, t, hpc⟩
    have hnil : notice c (.run i (.tick tick)) = [] := by
      refine notice_eq_nil hi ?_
      rintro _ removes col event t ⟨⟩
      exact hno removes col event t
    rw [hnil, List.countP_nil, Nat.zero_add,
      hs.owes_eq hi hlive hheard hplaced hok hget hnotifies hno]

/-- Nobody takes the sender away. -/
theorem pushSender_step {m : Move} {t t' : Thread}
    (ha : server.advance c.shared c.threads i m t = some (h', t', new)) :
    h'.pushSender = c.shared.pushSender := by
  rcases cases_of_step ha with ⟨r, r', rfl, rfl, hs, -⟩ | ⟨x, x', rfl, rfl, rfl, hs⟩ |
    ⟨g, rfl, -, rfl, rfl, rfl⟩
  · cases hs with
    | configure params ctx tick =>
      obtain ⟨_, he⟩ := c.shared.saveInlinePushConfig_eq params ctx.taskId tick
      rw [he]
    | abort params task =>
      obtain ⟨_, _, he⟩ := c.shared.abortRunning_eq params.id
      rw [he]
    | _ => rfl
  · cases hs <;> rfl
  · rfl

/-- **A step asks for the calls of the round it begins.** -/
theorem asksFor_eq_rounds (c : ServerConfig) (l : Label Thread Move) :
    asksFor c l = rounds (notice c l) := by
  cases l with
  | arrive t => rfl
  | run i m =>
    cases m with
    | tick tick =>
      cases ht : c.threads[i]? with
      | none => simp [asksFor, notice, ht, rounds]
      | some t =>
        cases t with
        | request r =>
          by_cases hno : ∃ removes col event t, r.pc = .collecting removes col (.notifying event t)
          · obtain ⟨removes, col, event, t, hpc⟩ := hno
            by_cases hsender : c.shared.pushSender = true
            · rw [notice_notifying ht hsender hpc, rounds, List.flatMap_singleton]
              simp only [asksFor, ht, Request.asksFor, hpc]
            · have hnobody : c.shared.pushConfigs t.id = 0 := if_neg hsender
              simp [asksFor, notice, ht, Request.asksFor, hpc, hsender, hnobody, rounds, sends]
          · have hno' : ∀ removes col event t,
                r.pc ≠ .collecting removes col (.notifying event t) :=
              fun removes col event t hpc => hno ⟨removes, col, event, t, hpc⟩
            have hnil : notice c (.run i (.tick tick)) = [] := by
              refine notice_eq_nil ht ?_
              rintro _ removes col event t ⟨⟩
              exact hno' removes col event t
            rw [hnil, asksFor, ht]
            exact Request.asksFor_of_not_notifying hno'
        | execution x => simp [asksFor, notice, ht, rounds]
        | registration g => simp [asksFor, notice, ht, rounds]
    | _ => rfl

/-- A record stays, and with it what an event calls for. -/
theorem notifies_step {m : Move} {t t' : Thread} {event : Event}
    (ha : server.advance c.shared c.threads i m t = some (h', t', new))
    (h : event.notifies c.shared = true) : event.notifies h' = true := by
  have hkeep : ∀ k, (c.shared.getTaskInternal k).isSome = true →
      (h'.getTaskInternal k).isSome = true := by
    intro k hk
    rcases store_step ha with hsame | ⟨saved, -, -, -, hst⟩
    · rwa [hsame k]
    · rw [hst k]
      split
      · rfl
      · exact hk
  cases event with
  | task t => exact hkeep _ h
  | statusUpdate e => exact hkeep _ h
  | message m => cases h
  | artifactUpdate e => cases h

/-- What the event of a step is, if the step sends one that calls for a round. -/
theorem mem_emission {l : Label Thread Move} (h : (q, p) ∈ emission c l) :
    ∃ i m x e, l = .run i m ∧ c.threads[i]? = some (.execution x) ∧ x.sends m = some e ∧
      e.notifies c.shared = true ∧ q = x.queue ∧ p = (c.shared.queueManager.log q).length := by
  cases l with
  | arrive t => cases h
  | run i m =>
    rw [emission] at h
    split at h
    · rename_i x hx
      split at h
      · rename_i e he
        split at h
        · obtain ⟨rfl, rfl⟩ := Prod.mk.inj (List.mem_singleton.mp h)
          exact ⟨i, m, x, e, rfl, hx, he, ‹_›, rfl, rfl⟩
        · cases h
      · cases h
    · cases h

/-- What the round of a step is, if it sends one. -/
theorem mem_notice {l : Label Thread Move} {n : Notice} (h : n ∈ notice c l) :
    ∃ i tick r removes col event, l = .run i (.tick tick) ∧ c.threads[i]? = some (.request r) ∧
      r.pc = .collecting removes col (.notifying event n.task) ∧ n.queue = col.queue ∧
      n.pos = col.pos - 1 := by
  unfold notice at h
  split at h
  · rename_i i tick
    split at h
    · rename_i r hr
      split at h
      · rename_i removes col event t hpc
        split at h
        · rw [List.mem_singleton.mp h]
          exact ⟨i, tick, r, removes, col, event, rfl, hr, hpc, rfl, rfl⟩
        · cases h
      · cases h
    · cases h
  · cases h

/-- An event that is sent stands at the end of its log. -/
theorem log_of_sends {m : Move} {x x' : Execution} {e : Event} (hs : x.Step c.shared i m h' x')
    (he : x.sends m = some e) {k : String} (hk : c.shared.queueManager.key x.queue = some k) :
    h'.queueManager.log x.queue = c.shared.queueManager.log x.queue ++ [⟨i, e⟩] := by
  have hq := hs.queueManager
  rw [he] at hq
  rw [hq, QueueManager.log_send _ _ (QueueManager.lt_of_key hk), if_pos rfl]

/-- Where no round is given up each of their calls is made or still to be made. -/
theorem pushed_run {c₀ : ServerConfig} {ls : List (Label Thread Move)}
    (hthreads : c₀.threads = []) (hok : server.Along KeepsNotices c₀ ls)
    (hrun : server.exec c₀ ls = some c) :
    (c.shared.pushed ++ unsent c).Perm (c₀.shared.pushed ++ rounds (notices c₀ ls)) := by
  have haccount := sends_account hrun
  have hasked : askedFor c₀ ls = rounds (notices c₀ ls) :=
    Machine.Reach.yields_flatMap asksFor_eq_rounds ls
  have hgiven : givenUp c₀ ls = [] := by
    refine Machine.Reach.yields_eq_nil (fun c l (hl : KeepsNotices c l) => ?_) hok
    unfold givesUp
    split
    · split
      · exact hl.completes _ _ rfl ‹_›
      · rfl
    · rfl
  have hstart : unsent c₀ = [] := by rw [unsent, hthreads, List.flatMap_nil]
  rwa [hasked, hgiven, hstart, List.append_nil, List.append_nil] at haccount

end

/-! ### A whole run -/

/-- What holds of a schedule and of where it has come to. -/
structure Noted (c₀ : ServerConfig) (ls : List (Label Thread Move)) (c : ServerConfig) : Prop where
  about : ∀ n ∈ notices c₀ ls, ∃ s, (c.shared.queueManager.log n.queue)[n.pos]? = some s ∧
    n.task.id = s.event.taskId
  once : ∀ q p, (q, p) ∈ emissions c₀ ls →
    (notices c₀ ls).countP (·.isFor q p) + owing c q p = 1
  sender : c.shared.pushSender = true
  emitted : ∀ q p, (q, p) ∈ emissions c₀ ls →
    ∃ s, (c.shared.queueManager.log q)[p]? = some s ∧ s.event.notifies c.shared = true

section

variable {c₀ c : ServerConfig} {ls : List (Label Thread Move)} {h' : DefaultRequestHandler}
  {new : List Thread} {i : ℕ} {m : Move} {t t' : Thread}

/-- A call arrives. -/
theorem Noted.arrive (hrun : server.exec c₀ ls = some c) (h : Noted c₀ ls c) {t : Thread}
    (hf : t.isFresh = true) : Noted c₀ (ls ++ [.arrive t]) ⟨c.shared, c.threads ++ [t]⟩ := by
  have hnotices : notices c₀ (ls ++ [.arrive t]) = notices c₀ ls := by
    rw [notices, Machine.Reach.yields_concat hrun]
    exact List.append_nil _
  have hemissions : emissions c₀ (ls ++ [.arrive t]) = emissions c₀ ls := by
    rw [emissions, Machine.Reach.yields_concat hrun]
    exact List.append_nil _
  refine ⟨?_, ?_, h.sender, ?_⟩
  · rw [hnotices]
    exact h.about
  · intro q p hp
    rw [hemissions] at hp
    rw [hnotices, ← h.once q p hp]
    obtain ⟨r, rfl, hpc, -⟩ := Thread.of_isFresh hf
    have hnone : (Thread.request r).owes c.shared q p = false :=
      owes_of_not_collecting (by simp [hpc])
    simp only [owing, List.countP_append, List.countP_singleton, hnone]
    rfl
  · rw [hemissions]
    exact h.emitted

/-- What the thread that moves owes of an event is passed on or sent. -/
theorem owes_step {q p : ℕ} {s : Sent} (h₀ : Initial c₀)
    {ok : ServerConfig → Label Thread Move → Prop} (hreach : server.Reach ok c₀ c)
    (hsender : c.shared.pushSender = true) (hok : KeepsNotices c (.run i m))
    (ht : c.threads[i]? = some t)
    (ha : server.advance c.shared c.threads i m t = some (h', t', new))
    (hget : (c.shared.queueManager.log q)[p]? = some s)
    (hnotifies : s.event.notifies c.shared = true) :
    (notice c (.run i m)).countP (·.isFor q p) + (t'.owes c.shared q p).toNat =
      (t.owes c.shared q p).toNat := by
  rcases cases_of_step ha with ⟨r, r', rfl, rfl, hs, hm⟩ | ⟨x, x', rfl, rfl, rfl, hs⟩ |
    ⟨g, rfl, -, rfl, rfl, rfl⟩
  · cases m with
    | tick tick =>
      exact hs.owes ht (not_dropped_of_tick ha) (heard_reach h₀ hreach i _ ht)
        (fun removes col phase => placed_reach h₀ hreach ht) hok hsender hget hnotifies
    | drop =>
      rcases hm with ⟨tick, hm⟩ | ⟨-, rfl⟩
      · cases hm
      · rw [hok.stays i r q p s rfl ht hget hnotifies, owes_of_not_collecting (by simp)]
        rfl
    | _ =>
      rcases hm with ⟨tick, hm⟩ | ⟨rfl, rfl⟩
      · cases hm
      · cases ha
  · rw [notice_eq_nil ht (by simp)]
    rfl
  · rw [notice_eq_nil ht (by simp)]
    rfl

/-- A round is about the task of its event. -/
theorem about_of_mem_notice (h₀ : Initial c₀) {ok : ServerConfig → Label Thread Move → Prop}
    (hreach : server.Reach ok c₀ c) {l : Label Thread Move} {n : Notice} (hn : n ∈ notice c l) :
    ∃ s, (c.shared.queueManager.log n.queue)[n.pos]? = some s ∧ n.task.id = s.event.taskId := by
  obtain ⟨j, tick, r, removes, col, event, -, hr, hpc, hq, hp⟩ := mem_notice hn
  have hplaced := placed_reach h₀ hreach hr hpc
  obtain ⟨-, s, hs, he⟩ := hplaced.inHand event rfl
  have hid : n.task.id = event.taskId := hplaced.names
  rw [hq, hp]
  exact ⟨s, hs, by rw [hid, he]⟩

/-- Nothing has been sent for what comes next in a log. -/
theorem Noted.unsent (h : Noted c₀ ls c) (q : ℕ) :
    (notices c₀ ls).countP (·.isFor q (c.shared.queueManager.log q).length) = 0 := by
  rw [List.countP_eq_zero]
  intro n hn hfor
  obtain ⟨s, hs, -⟩ := h.about n hn
  have hlt := (List.getElem?_eq_some_iff.mp hs).1
  simp only [Notice.isFor, Bool.and_eq_true, decide_eq_true_eq] at hfor
  rw [hfor.1, hfor.2] at hlt
  exact lt_irrefl _ hlt

/-- An execution sends an event that calls for a round: it comes to the end of its
log, and one collector is going to receive it. -/
theorem of_mem_emission {q p : ℕ} (h₀ : Initial c₀)
    {ok : ServerConfig → Label Thread Move → Prop} (hreach : server.Reach ok c₀ c)
    (hok : KeepsNotices c (.run i m)) (ht : c.threads[i]? = some t)
    (ha : server.advance c.shared c.threads i m t = some (h', t', new))
    (hp : (q, p) ∈ emission c (.run i m)) :
    p = (c.shared.queueManager.log q).length ∧ owing c q p = 1 ∧
      (∃ x x', t = .execution x ∧ t' = .execution x') ∧
      ∃ s, (h'.queueManager.log q)[p]? = some s ∧ s.event.notifies c.shared = true := by
  obtain ⟨j, m', x, e, hl, hx, he, hn, rfl, rfl⟩ := mem_emission hp
  cases hl
  rw [ht] at hx
  cases hx
  rcases cases_of_step ha with ⟨r, r', hr, -⟩ | ⟨y, x', hy, rfl, rfl, hs⟩ | ⟨g, hg, -⟩
  · cases hr
  · cases hy
    have hkey : c.shared.queueManager.key x.queue = some x.key := linked_reach h₀ hreach i _ ht
    refine ⟨rfl, hok.listened i m x e rfl ht he hn, ⟨x, x', rfl, rfl⟩, ⟨i, e⟩, ?_, hn⟩
    rw [log_of_sends hs he hkey, List.getElem?_concat_length]
  · cases hg

/-- The rounds sent and owed for an event after a step. -/
theorem Noted.once_step {q p : ℕ} (h₀ : Initial c₀)
    {ok : ServerConfig → Label Thread Move → Prop} (hreach : server.Reach ok c₀ c)
    (h : Noted c₀ ls c) (hok : KeepsNotices c (.run i m)) (ht : c.threads[i]? = some t)
    (ha : server.advance c.shared c.threads i m t = some (h', t', new))
    (hp : (q, p) ∈ emissions c₀ ls ++ emission c (.run i m)) :
    (notices c₀ ls ++ notice c (.run i m)).countP (·.isFor q p) +
      owing ⟨h', c.threads.set i t' ++ new⟩ q p = 1 := by
  rw [List.countP_append]
  rcases List.mem_append.mp hp with hp | hp
  · obtain ⟨s, hs, hn⟩ := h.emitted q p hp
    have hlt : p < (c.shared.queueManager.log q).length := (List.getElem?_eq_some_iff.mp hs).1
    have honce := h.once q p hp
    have howing := owing_step ht ha hlt.le
    have hmoved := owes_step h₀ hreach h.sender hok ht ha hs hn
    omega
  · -- nothing has been sent for the new event, and one collector is going to receive it
    obtain ⟨rfl, hlistened, ⟨x, x', rfl, rfl⟩, -⟩ := of_mem_emission h₀ hreach hok ht ha hp
    have howing := owing_step ht ha (le_refl (c.shared.queueManager.log q).length)
    rw [h.unsent, notice_eq_nil ht (by simp), List.countP_nil]
    simp only [Thread.owes, Bool.toNat_false, Nat.add_zero] at howing
    omega

/-- One step of a thread. -/
theorem Noted.step (h₀ : Initial c₀) {ok : ServerConfig → Label Thread Move → Prop}
    (hreach : server.Reach ok c₀ c) (hrun : server.exec c₀ ls = some c) (h : Noted c₀ ls c)
    (hok : KeepsNotices c (.run i m)) (ht : c.threads[i]? = some t)
    (ha : server.advance c.shared c.threads i m t = some (h', t', new)) :
    Noted c₀ (ls ++ [.run i m]) ⟨h', c.threads.set i t' ++ new⟩ := by
  have hext := extends_advance ht ha
  have hnotices : notices c₀ (ls ++ [.run i m]) = notices c₀ ls ++ notice c (.run i m) :=
    Machine.Reach.yields_concat hrun
  have hemissions : emissions c₀ (ls ++ [.run i m]) = emissions c₀ ls ++ emission c (.run i m) :=
    Machine.Reach.yields_concat hrun
  refine ⟨?_, ?_, (pushSender_step ha).trans h.sender, ?_⟩
  · rw [hnotices]
    intro n hn
    have habout : ∃ s, (c.shared.queueManager.log n.queue)[n.pos]? = some s ∧
        n.task.id = s.event.taskId := by
      rcases List.mem_append.mp hn with hn | hn
      · exact h.about n hn
      · exact about_of_mem_notice h₀ hreach hn
    obtain ⟨s, hs, hid⟩ := habout
    exact ⟨s, hext.getElem?_log hs, hid⟩
  · rw [hnotices, hemissions]
    intro q p hp
    exact h.once_step h₀ hreach hok ht ha hp
  · rw [hemissions]
    intro q p hp
    rcases List.mem_append.mp hp with hp | hp
    · obtain ⟨s, hs, hn⟩ := h.emitted q p hp
      exact ⟨s, hext.getElem?_log hs, notifies_step ha hn⟩
    · obtain ⟨-, -, -, s, hs, hn⟩ := of_mem_emission h₀ hreach hok ht ha hp
      exact ⟨s, hs, notifies_step ha hn⟩

/-- **Every event that calls for a round of notifications has exactly one**, along
a run in which such an event is sent only while exactly one collector listens. -/
theorem notifiedOnce_run (h₀ : Initial c₀) (hsender : c₀.shared.pushSender = true)
    (hok : server.Along KeepsNotices c₀ ls) (hrun : server.exec c₀ ls = some c) :
    NotifiedOnce c₀ ls c := by
  have hnoted : Noted c₀ ls c := by
    refine Machine.Reach.of_schedule ?_ ?_ hok hrun
    · refine ⟨?_, ?_, hsender, ?_⟩
      · intro n hn
        cases hn
      · intro q p hp
        cases hp
      · intro q p hp
        cases hp
    · intro ls l c c' hreach hrun hP hok hs
      rcases Machine.step_cases hs with ⟨t, rfl, hf, rfl⟩ | ⟨i, m, t, s', t', new, rfl, ht, ha, rfl⟩
      · exact hP.arrive hrun hf
      · exact hP.step h₀ hreach hrun hok ht ha
  exact ⟨pushed_run h₀.threads hok hrun, hnoted.about, hnoted.once⟩

end

/-! ### One send and two -/

/-- A handler with a task at work and somebody to be told of it. -/
def tellingHandler : DefaultRequestHandler :=
  { DefaultRequestHandler.new.storeTask ⟨"t1", "c1", ⟨.working, none, none⟩, [], [], none⟩ with
    pushSender := true
    pushConfigStore :=
      ⟨Finmap.singleton "t1"
        (Finmap.singleton "p1" ⟨some "p1", "https://example.com", none, none⟩)⟩ }

theorem initial_tellingHandler : Initial ⟨tellingHandler, []⟩ := ⟨rfl, rfl, rfl, rfl⟩

/-- One send, whose execution completes the task. -/
def toldOnce : List (Label Thread Move) :=
  blockingSpawn ++ .run 1 (.emit completedEvent) ::
    List.replicate 4 (.run 0 (.tick ⟨"12:02", "u5", "u6", "v1"⟩))

def toldOnceConfig : ServerConfig :=
  (server.exec ⟨tellingHandler, []⟩ toldOnce).getD ⟨tellingHandler, []⟩

theorem toldOnce_keepsNotices : server.Along KeepsNotices ⟨tellingHandler, []⟩ toldOnce := by
  refine ⟨?_, ?_, ?_, ?_, ?_, ?_, ?_, ?_, ?_, ?_, ?_, trivial⟩
  all_goals
    refine ⟨?_, ?_, ?_, ?_⟩
    · intro i m x e hl hx he hn
      cases hl
      all_goals cases hx
      all_goals rfl
    · intro i tick r removes col n pos hl hr hpc hrecv
      cases hl
      all_goals cases hr
      all_goals cases hpc
      all_goals cases hrecv
    · intro i r q p s hl
      cases hl
    · intro i r hl
      cases hl

theorem notifiedOnce_run_toldOnce :
    NotifiedOnce ⟨tellingHandler, []⟩ toldOnce toldOnceConfig :=
  notifiedOnce_run initial_tellingHandler rfl toldOnce_keepsNotices rfl

/-- Two sends wait when the execution of the first completes the task. -/
def toldTwice : List (Label Thread Move) :=
  blockingSpawn ++
    .arrive (sendTo "m2" false) :: List.replicate 5 (.run 3 (.tick ⟨"12:01", "u3", "u4", "v1"⟩)) ++
    .run 1 (.emit completedEvent) ::
    (List.replicate 4 (.run 0 (.tick ⟨"12:02", "u5", "u6", "v1"⟩)) ++
      List.replicate 4 (.run 3 (.tick ⟨"12:02", "u5", "u6", "v1"⟩)))

def toldTwiceConfig : ServerConfig :=
  (server.exec ⟨tellingHandler, []⟩ toldTwice).getD ⟨tellingHandler, []⟩

/-- One event, and whoever is registered is told of it twice. -/
theorem toldTwice_not_notifiedOnce :
    Initial ⟨tellingHandler, []⟩ ∧ tellingHandler.pushSender = true ∧
      server.exec ⟨tellingHandler, []⟩ toldTwice = some toldTwiceConfig ∧
      toldTwiceConfig.shared.pushed.length = 2 ∧
      ¬ NotifiedOnce ⟨tellingHandler, []⟩ toldTwice toldTwiceConfig := by
  refine ⟨initial_tellingHandler, rfl, rfl, rfl, fun hnotified => ?_⟩
  have honce := hnotified.once 0 0 (by decide)
  exact absurd honce (by decide)

end Ra2a
