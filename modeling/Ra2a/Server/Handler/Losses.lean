import Ra2a.Server.Handler.Waiting

/-!
# What a collector passes on

`collect_result` passes every event it receives to `process_event`, one after
the other.  It receives from a channel that holds so many events and no more: a
collector further behind is told that it lags, logs a warning and goes on with
the oldest event held.  So what `process_event` has seen when `collect_result`
returns are the events sent since the subscription, in their order, up to the
one that made it return, without those that had been overwritten when the
collector came to receive them (`events_passed`).
-/

namespace Ra2a

open Broadcast Interleave

/-- The collector of a request whose `collect_result` has returned. -/
def Pc.returned? : Pc → Option Collector
  | .returning _ col _ => some col
  | .done (.answered col _) => some col
  | _ => none

/-- The event before the position of the collector is the last it has received. -/
def Pc.inHand : Pc → Bool
  | .collecting _ _ phase => phase.event?.isSome
  | .returning _ _ _ => true
  | .done (.answered _ _) => true
  | _ => false

/-- At this step request `i` is about to receive from a channel that no longer
holds the event at position `p`, which it has not come to yet. -/
def Loses (c : ServerConfig) (l : Label Thread Move) (i p : ℕ) : Prop :=
  ∃ tick r removes col ch, l = .run i (.tick tick) ∧ c.threads[i]? = some (.request r) ∧
    r.pc = .collecting removes col .receiving ∧
    c.shared.queueManager.channel col.queue = some ch ∧
    col.pos ≤ p ∧ p + ch.capacity < ch.log.length

/-- Some step of the schedule loses position `p` for request `i`. -/
def Lost (c₀ : ServerConfig) (ls : List (Label Thread Move)) (i p : ℕ) : Prop :=
  ∃ pre l rest c, ls = pre ++ l :: rest ∧ server.exec c₀ pre = some c ∧ Loses c l i p

/-! ### The invariant -/

/-- The collector has read the positions `ps`, and all those in `K` that it has
passed. -/
structure Collected (K : Set ℕ) (c : ServerConfig) (r : Request) (col : Collector)
    (ps : List ℕ) : Prop where
  read : Read (c.shared.queueManager.log col.queue) col.since col.pos ps r.received
  complete : ∀ p ∈ K, col.since ≤ p → p < col.pos → p ∈ ps
  last : r.pc.inHand = true → ps.getLast? = some (col.pos - 1)

variable {K : Set ℕ} {c c' : ServerConfig} {r r' : Request} {col : Collector} {ps : List ℕ}

theorem Collected.extend (he : Extends c c') (h : Collected K c r col ps) :
    Collected K c' r col ps := by
  obtain ⟨later, hl⟩ := he.log col.queue
  refine ⟨?_, h.complete, h.last⟩
  rw [hl]
  exact h.read.append later

/-- A step at which the collector stays where it is. -/
theorem Collected.stay (h : Collected K c r col ps) {col' : Collector}
    (hlog : c'.shared.queueManager.log col.queue = c.shared.queueManager.log col.queue)
    (hrec : r'.received = r.received) (hq : col'.queue = col.queue) (hs : col'.since = col.since)
    (hp : col'.pos = col.pos) (hhand : r'.pc.inHand = true → r.pc.inHand = true) :
    Collected K c' r' col' ps := by
  refine ⟨?_, ?_, ?_⟩
  · rw [hq, hlog, hs, hp, hrec]
    exact h.read
  · rw [hs, hp]
    exact h.complete
  · intro hr
    rw [hp]
    exact h.last (hhand hr)

/-- One step of request `i`. -/
theorem Request.Step.collected {h' : DefaultRequestHandler} {new : List Thread} {i : ℕ}
    {tick : Tick} (hs : r.Step c.shared c.threads i h' r' new)
    (hi : c.threads[i]? = some (.request r)) (hheard : r.Heard)
    (hok : ∀ p ∈ K, ¬ Loses c (.run i (.tick tick)) i p)
    (hA : ∀ col, r.pc.collector? = some col → ∃ ps, Collected K c r col ps) {ts : List Thread} :
    ∀ col, r'.pc.collector? = some col → ∃ ps, Collected K ⟨h', ts⟩ r' col ps := by
  have hlog : ∀ q, h'.queueManager.log q = c.shared.queueManager.log q := hs.log
  intro col' hcol'
  cases hs with
  | spawnSend params key ctx q pos hpc hcall hpos
  | spawnCancel params key ctx q pos hpc hcall hpos =>
    cases hcol'
    rw [Request.Heard, hpc] at hheard
    refine ⟨[], ?_, ?_, ?_⟩
    · rw [Request.goto_received, hheard, hpos]
      exact Read.subscribe _
    · intro p hp h₁ h₂
      exact absurd (lt_of_le_of_lt h₁ h₂) (lt_irrefl _)
    · intro h
      cases h
  | receive removes col sent pos hpc hrecv =>
    cases hcol'
    obtain ⟨ps, hps⟩ := hA col (by rw [hpc]; rfl)
    obtain ⟨ch, hch, hchan, hr⟩ := DefaultRequestHandler.of_recv hrecv
    obtain ⟨-, rfl⟩ := Channel.recv_ok hr
    have hread := hps.read
    rw [hchan] at hread
    refine ⟨ps ++ [col.pos], ?_, ?_, ?_⟩
    · rw [hchan]
      exact hread.recv_ok hr
    · intro p hp h₁ h₂
      by_cases h : p < col.pos
      · exact List.mem_append_left _ (hps.complete p hp h₁ h)
      · have hpos : p = col.pos := by
          change p < col.pos + 1 at h₂
          omega
        rw [hpos]
        exact List.mem_append_right _ (List.mem_singleton_self _)
    · intro h
      rw [List.getLast?_concat]
      rfl
  | lag removes col n pos hpc hrecv =>
    cases hcol'
    obtain ⟨ps, hps⟩ := hA col (by rw [hpc]; rfl)
    obtain ⟨ch, hch, hchan, hr⟩ := DefaultRequestHandler.of_recv hrecv
    have hread := hps.read
    rw [hchan] at hread
    refine ⟨ps, ?_, ?_, ?_⟩
    · rw [hchan]
      exact hread.recv_lagged hr
    · intro p hp h₁ h₂
      by_cases h : p < col.pos
      · exact hps.complete p hp h₁ h
      · refine absurd ⟨tick, r, removes, col, ch, rfl, hi, hpc, hch, not_lt.mp h, ?_⟩ (hok p hp)
        have hold : pos = ch.log.length - ch.capacity := Channel.recv_lagged_oldest hr
        change p < pos at h₂
        omega
    · intro h
      cases h
  | close removes col pos hpc hrecv =>
    exact absurd hrecv (not_closed_while_collecting hi hpc pos)
  | persist removes col t hpc | read removes col e t tick hpc | skip removes col event hpc
  | update removes col e t hpc | list removes col event t hpc | nobody removes col event t hpc
  | push removes col event t configs n hpc | pushLast removes col event t configs n hpc
  | answer removes col event tick hpc =>
    cases hcol'
    obtain ⟨ps, hps⟩ := hA col' (by rw [hpc]; rfl)
    exact ⟨ps, hps.stay (hlog _) rfl rfl rfl rfl fun _ => by rw [hpc]; rfl⟩
  | goOn removes col event hpc =>
    cases hcol'
    obtain ⟨ps, hps⟩ := hA col (by rw [hpc]; rfl)
    refine ⟨ps, hps.stay (hlog _) rfl rfl rfl rfl fun h => ?_⟩
    cases h
  | finalize removes col resp tick hpc | failClosed removes col e tick hpc =>
    exact absurd hpc hheard.not_closing
  | finish removes col resp hpc =>
    cases hcol'
    obtain ⟨ps, hps⟩ := hA col' (by rw [hpc]; rfl)
    exact ⟨ps, hps.stay (hlog _) rfl rfl rfl rfl fun _ => by rw [hpc]; rfl⟩
  | _ => cases hcol'

/-- **A collector passes on every event that no step of the run loses for it.** -/
theorem collected_reach {c₀ : ServerConfig} {i : ℕ} (h₀ : Initial c₀)
    (h : server.Reach (fun c l => ∀ p ∈ K, ¬ Loses c l i p) c₀ c) :
    EachRequest (fun c j r => j = i →
      ∀ col, r.pc.collector? = some col → ∃ ps, Collected K c r col ps) c := by
  refine requests_reach h₀ ?_ ?_ ?_ ?_ (h.assuming fun _ => heard_reach h₀)
  · intro c j r hpc hrec hj col hcol
    rw [hpc] at hcol
    cases hcol
  · intro c t j r hok hf hr hA hj col hcol
    obtain ⟨ps, hps⟩ := hA hj col hcol
    exact ⟨ps, hps.extend (extends_arrive c t)⟩
  · intro c j m r h' r' new hok hr ha hs hm hA hj col hcol
    subst hj
    rcases hm with ⟨tick, rfl⟩ | ⟨-, rfl⟩
    · exact hs.collected hr (hok.1 j _ hr) hok.2 (hA rfl) col hcol
    · cases hcol
  · intro c k m t h' t' new j r hok ht ha hr hA hj col hcol
    obtain ⟨ps, hps⟩ := hA hj col hcol
    exact ⟨ps, hps.extend (extends_advance ht ha)⟩

/-! ### Its own execution -/

/-- Where the collector of a request comes from. -/
theorem Request.Step.collector {h h' : DefaultRequestHandler} {threads new : List Thread} {i : ℕ}
    (hs : r.Step h threads i h' r' new) {col' : Collector}
    (hcol' : r'.pc.collector? = some col') :
    (∃ col, r.pc.collector? = some col ∧ col'.queue = col.queue ∧ col'.own = col.own ∧
        col'.since = col.since) ∨
      col'.since = (h.queueManager.log col'.queue).length ∧ col'.own = threads.length := by
  cases hs with
  | spawnSend params key ctx q pos hpc hcall hpos => cases hcol'; exact Or.inr ⟨hpos, rfl⟩
  | spawnCancel params key ctx q pos hpc hcall hpos => cases hcol'; exact Or.inr ⟨hpos, rfl⟩
  | receive removes col sent pos hpc | lag removes col n pos hpc | goOn removes col event hpc =>
    cases hcol'
    exact Or.inl ⟨col, by rw [hpc]; rfl, rfl, rfl, rfl⟩
  | close removes col pos hpc | persist removes col t hpc | read removes col e t tick hpc
  | skip removes col event hpc | update removes col e t hpc | list removes col event t hpc
  | nobody removes col event t hpc | push removes col event t configs n hpc
  | pushLast removes col event t configs n hpc | answer removes col event tick hpc
  | finalize removes col resp tick hpc | failClosed removes col e tick hpc
  | finish removes col resp hpc =>
    cases hcol'
    exact Or.inl ⟨col', by rw [hpc]; rfl, rfl, rfl, rfl⟩
  | _ => cases hcol'

/-- The collector subscribed in the past, and what its own execution has sent came
later. -/
structure SubscribedFirst (c : ServerConfig) (col : Collector) : Prop where
  since_le : col.since ≤ (c.shared.queueManager.log col.queue).length
  own : ∀ p s, (c.shared.queueManager.log col.queue)[p]? = some s → s.sender = col.own →
    col.since ≤ p

theorem SubscribedFirst.extend (he : Extends c c') (h : SubscribedFirst c col) :
    SubscribedFirst c' col := by
  obtain ⟨later, hl⟩ := he.log col.queue
  refine ⟨h.since_le.trans (he.length_le _), fun p s hp hs => ?_⟩
  rw [hl] at hp
  by_cases hlt : p < (c.shared.queueManager.log col.queue).length
  · rw [List.getElem?_append_left hlt] at hp
    exact h.own p s hp hs
  · exact h.since_le.trans (not_lt.mp hlt)

/-- **A collector subscribes before its own execution can send.** -/
theorem subscribedFirst_reach {ok : ServerConfig → Label Thread Move → Prop} {c₀ : ServerConfig}
    (h₀ : Initial c₀) (h : server.Reach ok c₀ c) :
    EachRequest (fun c _ r => ∀ col, r.pc.collector? = some col → SubscribedFirst c col) c := by
  refine requests_reach h₀ ?_ ?_ ?_ ?_ (h.assuming fun _ => logsSent_reach h₀)
  · intro c j r hpc hrec col hcol
    rw [hpc] at hcol
    cases hcol
  · intro c t j r hok hf hr hA col hcol
    exact (hA col hcol).extend (extends_arrive c t)
  · intro c i m r h' r' new hok hi ha hs hm hA col' hcol'
    have hext := extends_advance hi ha
    rcases hs.collector hcol' with ⟨col, hcol, hq, ho, hsince⟩ | ⟨hsince, ho⟩
    · have hsub := (hA col hcol).extend hext
      refine ⟨?_, ?_⟩
      · rw [hq, hsince]
        exact hsub.since_le
      · rw [hq, hsince, ho]
        exact hsub.own
    · refine ⟨?_, fun p s hp hsent => ?_⟩
      · rw [hsince]
        exact hext.length_le _
      · -- nobody was there yet to send it
        have hlog : h'.queueManager.log col'.queue = c.shared.queueManager.log col'.queue :=
          hs.log col'.queue
        rw [hlog] at hp
        obtain ⟨x, hx, -⟩ := hok.1 col'.queue s (List.mem_of_getElem? hp)
        rw [hsent, ho, List.getElem?_eq_none le_rfl] at hx
        cases hx
  · intro c i m t h' t' new j r hok ht ha hr hA col hcol
    exact (hA col hcol).extend (extends_advance ht ha)

/-! ### A whole run -/

/-- What a request has passed on, in the order of emission, ends with the event
that made it return. -/
structure PassedOn (c : ServerConfig) (r : Request) (col : Collector) (ps : List ℕ) : Prop where
  read : Read (c.shared.queueManager.log col.queue) col.since col.pos ps r.received
  last : ∃ s, ps.getLast? = some (col.pos - 1) ∧
    (c.shared.queueManager.log col.queue)[col.pos - 1]? = some s ∧
    stopsAt r.call.isNonBlocking s.event = true
  own : ∀ p s, (c.shared.queueManager.log col.queue)[p]? = some s → s.sender = col.own →
    col.since ≤ p

/-- A request that has returned was stopped by the last event it received. -/
theorem Request.Heard.stopped (h : r.Heard) (hret : r.pc.returned? = some col) :
    ∃ s, r.StoppedBy s := by
  unfold Pc.returned? at hret
  split at hret
  · rename_i removes col' resp hpc
    rw [Request.Heard, hpc] at h
    obtain ⟨s, hs, -⟩ := h
    exact ⟨s, hs⟩
  · rename_i col' result hpc
    rw [Request.Heard, hpc] at h
    obtain ⟨s, -, hs, -⟩ := h
    exact ⟨s, hs⟩
  · cases hret

theorem Pc.collector?_of_returned? {pc : Pc} (h : pc.returned? = some col) :
    pc.collector? = some col ∧ pc.inHand = true := by
  unfold Pc.returned? at h
  split at h <;> cases h <;> exact ⟨rfl, rfl⟩

/-- **Every event sent from the subscription to the return is passed on, in
order, or has been lost by a receive that came too late.** -/
theorem events_passed {c₀ : ServerConfig} (h₀ : Initial c₀) {ls : List (Label Thread Move)}
    (hrun : server.exec c₀ ls = some c) {i : ℕ} (hi : c.threads[i]? = some (.request r))
    (hret : r.pc.returned? = some col) :
    ∃ ps, PassedOn c r col ps ∧
      ∀ p, col.since ≤ p → p < col.pos → p ∉ ps → Lost c₀ ls i p := by
  obtain ⟨hcol, hhand⟩ := Pc.collector?_of_returned? hret
  have hreach : server.Reach (fun c l => ∀ p ∈ {p | ¬ Lost c₀ ls i p}, ¬ Loses c l i p) c₀ c := by
    refine .of_along (Machine.Reach.along_of_forall ?_) hrun
    intro pre l rest c₁ he hc₁ p hp hl
    exact hp ⟨pre, l, rest, c₁, he, hc₁, hl⟩
  obtain ⟨ps, hps⟩ := collected_reach h₀ hreach i r hi rfl col hcol
  have hsub := subscribedFirst_reach h₀ hreach i r hi col hcol
  obtain ⟨s, pre, hrec, -, hstop⟩ := (heard_reach h₀ hreach i _ hi : r.Heard).stopped hret
  have hlast : (c.shared.queueManager.log col.queue)[col.pos - 1]? = some s := by
    have he := congrArg List.getLast? hps.read.values_eq
    rw [hrec, List.getLast?_map, List.getLast?_map, List.getLast?_concat, hps.last hhand] at he
    exact (Option.some.inj he).symm
  refine ⟨ps, ⟨hps.read, ⟨s, hps.last hhand, hlast, hstop⟩, hsub.own⟩, ?_⟩
  intro p h₁ h₂ hnot
  by_contra hl
  exact hnot (hps.complete p hl h₁ h₂)

/-! ### A queue that is overrun -/

/-- A handler whose queues hold one event. -/
def narrowHandler : DefaultRequestHandler := { DefaultRequestHandler.new with
  queueManager := .withCapacity 1 }

/-- The execution says that it works and then that it is done, before the
collector has looked. -/
def overrunning : List (Label Thread Move) :=
  blockingSpawn ++
    [.run 1 (.emit (.statusUpdate ⟨"t1", "c1", ⟨.working, none, none⟩, none⟩)),
      .run 1 (.emit completedEvent)] ++
    List.replicate 5 (.run 0 (.tick ⟨"12:00", "u1", "u2", "v1"⟩))

def overrunConfig : ServerConfig :=
  (server.exec ⟨narrowHandler, []⟩ overrunning).getD ⟨narrowHandler, []⟩

theorem events_passed_overrun :
    ∃ r col ps, overrunConfig.threads[0]? = some (.request r) ∧ PassedOn overrunConfig r col ps ∧
      ∀ p, col.since ≤ p → p < col.pos → p ∉ ps → Lost ⟨narrowHandler, []⟩ overrunning 0 p := by
  have hrun : server.exec ⟨narrowHandler, []⟩ overrunning = some overrunConfig := rfl
  obtain ⟨ps, hps, hlost⟩ := events_passed ⟨rfl, rfl, rfl, rfl⟩ hrun (i := 0) rfl (by rfl)
  exact ⟨_, _, ps, rfl, hps, hlost⟩

/-- The collector returns, and has never passed on the first event of its own
execution. -/
theorem overrun_not_passed :
    Initial ⟨narrowHandler, []⟩ ∧
      server.exec ⟨narrowHandler, []⟩ overrunning = some overrunConfig ∧
      ∃ r col s, overrunConfig.threads[0]? = some (.request r) ∧ r.pc.returned? = some col ∧
        (overrunConfig.shared.queueManager.log col.queue)[0]? = some s ∧ s.sender = col.own ∧
        0 < col.pos - 1 ∧ s ∉ r.received := by
  refine ⟨⟨rfl, rfl, rfl, rfl⟩, rfl, _, _, _, rfl, rfl, rfl, rfl, by decide, ?_⟩
  decide

end Ra2a
