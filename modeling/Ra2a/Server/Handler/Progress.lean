import Ra2a.Server.Handler.Notices

/-!
# How soon a request is answered

Once the queue of a collector holds an event that stops it, the request needs
nobody else: whatever the others do, each step it is given can be taken and brings
it nearer to its answer.  It takes at most five steps for an event it has still to
pass and six for the one that stops it (`Request.left`), and one for each call of
`send_push` its rounds ask for, unless it lags and loses that event, or is given up
(`answered_within`).
-/

namespace Ra2a

open Broadcast Interleave

variable {c c' : ServerConfig} {h' : DefaultRequestHandler} {new : List Thread} {i j p : ℕ}
  {m : Move} {t t' : Thread} {r r' : Request}

/-- The steps request `r` takes at most until it is answered, when the event at
position `p` stops it and no round asks for anything. -/
def Request.left (p : ℕ) (r : Request) : ℕ :=
  match r.pc with
  | .collecting _ col .receiving => 5 * (p + 1 - col.pos) + 1
  | .collecting _ col (.persisting _) => 5 * (p + 1 - col.pos) + 5
  | .collecting _ col (.updating _ _) => 5 * (p + 1 - col.pos) + 4
  | .collecting _ col (.notifying _ _) => 5 * (p + 1 - col.pos) + 3
  | .collecting _ col (.pushing _ _ configs n) =>
    5 * (p + 1 - col.pos) + 3 + (configs.card - (n + 1))
  | .collecting _ col (.persisted _) => 5 * (p + 1 - col.pos) + 2
  | .returning _ _ _ => 1
  | _ => 0

/-- The event at position `p` stops the collector, which has not come to it, or has
it in hand. -/
def Request.Ahead (h : DefaultRequestHandler) (p : ℕ) (r : Request) : Prop :=
  match r.pc with
  | .collecting _ col phase =>
    phase ≠ .closing ∧ ∃ s, (h.queueManager.log col.queue)[p]? = some s ∧
      stopsAt r.call.isNonBlocking s.event = true ∧
      (col.pos ≤ p ∨ col.pos = p + 1 ∧ phase.event? = some s.event)
  | .returning _ _ _ => True
  | .done (.answered _ _) => True
  | _ => False

def Request.IsAnswered (r : Request) : Prop := ∃ col result, r.pc = .done (.answered col result)

/-- The steps request `i` takes. -/
def isTickOf (i : ℕ) : Label Thread Move → Bool
  | .run j (.tick _) => j = i
  | _ => false

/-- The calls of `send_push` the rounds of request `i` ask for. -/
def asksForAt (i : ℕ) (c : ServerConfig) (l : Label Thread Move) : List Push :=
  if isTickOf i l then asksFor c l else []

/-- Those of a schedule. -/
def askedForAt (i : ℕ) (c : ServerConfig) (ls : List (Label Thread Move)) : List Push :=
  server.yields (asksForAt i) c ls

/-- No step gives request `i` up, and none loses position `p` for it. -/
def KeepsWaiting (i p : ℕ) (c : ServerConfig) (l : Label Thread Move) : Prop :=
  l ≠ .run i .drop ∧ ¬ Loses c l i p

/-- The event stays where it is. -/
theorem Request.Ahead.extend (h : r.Ahead c.shared p) (hext : Extends c c') :
    r.Ahead c'.shared p := by
  rw [Request.Ahead] at h ⊢
  generalize r.pc = pc at h ⊢
  cases pc with
  | collecting removes col phase =>
    obtain ⟨hopen, s, hs, hrest⟩ := h
    exact ⟨hopen, s, hext.getElem?_log hs, hrest⟩
  | done o => cases o <;> exact h
  | _ => exact h

/-- The collector goes on with the event it has in hand. -/
theorem Request.Ahead.next {h : DefaultRequestHandler} {removes : TaskId} {col : Collector}
    {phase phase' : Phase} (hA : r.Ahead h p) (hpc : r.pc = .collecting removes col phase)
    (hlog : ∀ q, h'.queueManager.log q = h.queueManager.log q) (hopen : phase' ≠ .closing)
    (he : phase'.event? = phase.event?) :
    (r.goto (.collecting removes col phase')).Ahead h' p := by
  rw [Request.Ahead, hpc] at hA
  obtain ⟨-, s, hs, hstop, hpos⟩ := hA
  exact ⟨hopen, s, by rw [hlog, hs], hstop, by rwa [he]⟩

/-- **One step of the request** brings it nearer to its answer. -/
theorem Request.Step.ahead {tick : Tick} (hs : r.Step c.shared c.threads i h' r' new)
    (hlive : r'.pc ≠ .dropped) (hi : c.threads[i]? = some (.request r))
    (hA : r.Ahead c.shared p) (hkeep : ¬ Loses c (.run i (.tick tick)) i p) :
    r'.Ahead h' p ∧ r'.left p + 1 ≤ r.left p + (r.asksFor c.shared).length := by
  have hlog : ∀ q, h'.queueManager.log q = c.shared.queueManager.log q := hs.log
  cases hs with
  | drop => exact absurd rfl hlive
  | receive removes col sent pos hpc hrecv =>
    rw [Request.Ahead, hpc] at hA
    obtain ⟨-, s, hs, hstop, hpos⟩ := hA
    obtain ⟨ch, -, hchan, hr⟩ := DefaultRequestHandler.of_recv hrecv
    obtain ⟨hsent, rfl⟩ := Channel.recv_ok hr
    have hle : col.pos ≤ p := hpos.resolve_right fun hp => by cases hp.2
    refine ⟨⟨by simp, s, hs, hstop, ?_⟩, ?_⟩
    · by_cases hp : col.pos = p
      · right
        rw [hchan, ← hp, hsent] at hs
        cases hs
        exact ⟨congrArg (· + 1) hp, rfl⟩
      · left
        change col.pos + 1 ≤ p
        omega
    · simp only [Request.left, hpc]
      omega
  | lag removes col n pos hpc hrecv =>
    rw [Request.Ahead, hpc] at hA
    obtain ⟨-, s, hs, hstop, hpos⟩ := hA
    obtain ⟨ch, hch, hchan, hr⟩ := DefaultRequestHandler.of_recv hrecv
    have hle : col.pos ≤ p := hpos.resolve_right fun hp => by cases hp.2
    have hlt : col.pos < pos := (Channel.recv_lagged hr).1
    have hpos : pos ≤ p := by
      by_contra hgt
      refine hkeep ⟨tick, r, removes, col, ch, rfl, hi, hpc, hch, hle, ?_⟩
      have hold : pos = ch.log.length - ch.capacity := Channel.recv_lagged_oldest hr
      omega
    refine ⟨⟨by simp, s, hs, hstop, Or.inl hpos⟩, ?_⟩
    simp only [Request.left, hpc, Request.goto_pc]
    omega
  | close removes col pos hpc hrecv => exact absurd hrecv (not_closed_while_collecting hi hpc pos)
  | persist removes col t hpc | read removes col e t tick hpc | skip removes col event hpc
  | update removes col e t hpc | nobody removes col event t hpc
  | push removes col event t configs n hpc | pushLast removes col event t configs n hpc =>
    refine ⟨hA.next hpc hlog (by simp) rfl, ?_⟩
    simp only [Request.left, hpc, Request.goto_pc]
    omega
  | list removes col event t hpc hsome =>
    refine ⟨hA.next hpc hlog (by simp) rfl, ?_⟩
    simp only [Request.left, Request.asksFor, hpc, Request.goto_pc, length_sends]
    omega
  | goOn removes col event hpc hgoes =>
    rw [Request.Ahead, hpc] at hA
    obtain ⟨-, s, hs, hstop, hpos⟩ := hA
    have hle : col.pos ≤ p := by
      refine hpos.resolve_right fun hp => ?_
      rw [Option.some.inj hp.2, hstop] at hgoes
      cases hgoes
    refine ⟨⟨by simp, s, hs, hstop, Or.inl hle⟩, ?_⟩
    simp [Request.left, hpc]
  | answer removes col event tick hpc hstop =>
    refine ⟨trivial, ?_⟩
    simp only [Request.left, hpc, Request.goto_pc]
    omega
  | finish removes col resp hpc => exact ⟨trivial, by simp [Request.left, hpc]⟩
  | finalize removes col resp tick hpc | failClosed removes col e tick hpc =>
    rw [Request.Ahead, hpc] at hA
    exact absurd rfl hA.1
  | refuse e hpc =>
    rcases hpc with hpc | ⟨_, _, _, hpc⟩ | hpc <;> rw [Request.Ahead, hpc] at hA <;> cases hA
  | resolve _ _ _ hpc | configure _ _ _ hpc | intercept _ _ _ _ _ hpc | intercepted _ _ _ hpc
  | accept _ _ hpc | abort _ _ hpc | queue _ _ _ _ hpc | panic _ _ hpc | spawnSend _ _ _ _ _ hpc
  | spawnStream _ _ _ _ hpc | spawnCancel _ _ _ _ _ hpc | locate _ _ hpc | find _ _ hpc
  | subscribe _ hpc | deliver _ _ _ _ hpc | deliverLag _ _ _ _ hpc | endStream _ _ _ hpc =>
    rw [Request.Ahead, hpc] at hA
    cases hA

/-- A receive where the log goes on does not wait. -/
theorem recv_ne_none_of_getElem? {h : DefaultRequestHandler} {threads : List Thread} {q pos : ℕ}
    {s : Sent} (hs : (h.queueManager.log q)[p]? = some s) (hle : pos ≤ p) :
    h.recv threads q pos ≠ none := by
  cases hch : h.queueManager.channel q with
  | none =>
    rw [QueueManager.log, hch] at hs
    cases hs
  | some ch =>
    rw [QueueManager.log, hch] at hs
    obtain ⟨hlt, -⟩ := List.getElem?_eq_some_iff.mp hs
    rw [DefaultRequestHandler.recv, hch]
    exact Channel.recv_ne_none_of_lt (Nat.lt_of_le_of_lt hle hlt)

/-- **The request is never blocked.** -/
theorem Request.Ahead.enabled (hA : r.Ahead c.shared p) (hwait : ¬ r.IsAnswered) (tick : Tick) :
    r.advance c.shared c.threads i tick ≠ none := by
  rw [Request.Ahead] at hA
  cases hpc : r.pc with
  | collecting removes col phase =>
    rw [hpc] at hA
    obtain ⟨hopen, s, hs, hstop, hpos⟩ := hA
    simp only [Request.advance, hpc, ne_eq, Option.map_eq_none_iff]
    cases phase with
    | closing => exact absurd rfl hopen
    | receiving =>
      have hle : col.pos ≤ p := hpos.resolve_right fun hp => by cases hp.2
      have hrecv : c.shared.recv c.threads col.queue col.pos ≠ none :=
        recv_ne_none_of_getElem? hs hle
      rw [Request.collect]
      split
      · simp
      · simp
      · simp
      · exact fun _ => hrecv ‹_›
    | persisting event =>
      cases event with
      | statusUpdate e =>
        simp only [Request.collect]
        split <;> simp
      | _ => simp [Request.collect]
    | updating e t => simp [Request.collect]
    | notifying event t => simp [Request.collect]
    | pushing event t configs n => simp [Request.collect]
    | persisted event =>
      rw [Request.collect]
      split <;> simp
  | returning removes col resp => simp [Request.advance, hpc]
  | done o =>
    rw [hpc] at hA
    cases o with
    | answered col result => exact absurd ⟨col, result, hpc⟩ hwait
    | _ => cases hA
  | _ =>
    rw [hpc] at hA
    cases hA

/-- Where there is nothing left to do the request is answered. -/
theorem Request.Ahead.isAnswered {h : DefaultRequestHandler} (hA : r.Ahead h p)
    (hleft : r.left p = 0) : r.IsAnswered := by
  rw [Request.Ahead] at hA
  rw [Request.left] at hleft
  cases hpc : r.pc with
  | collecting removes col phase =>
    rw [hpc] at hA hleft
    cases phase with
    | closing => exact absurd rfl hA.1
    | pushing event t configs n =>
      dsimp only at hleft
      omega
    | _ => cases hleft
  | returning removes col resp =>
    rw [hpc] at hleft
    cases hleft
  | done o =>
    rw [hpc] at hA
    cases o with
    | answered col result => exact ⟨col, result, hpc⟩
    | _ => cases hA
  | _ =>
    rw [hpc] at hA
    cases hA

/-! ### Along a schedule -/

/-- Request `i` is on its way to the event at position `p`, or past it. -/
def AheadAt (i p : ℕ) (c : ServerConfig) : Prop :=
  ∃ r, c.threads[i]? = some (.request r) ∧ r.Ahead c.shared p

/-- The steps it takes at most. -/
def leftAt (i p : ℕ) (c : ServerConfig) : ℕ :=
  match c.threads[i]? with
  | some (.request r) => r.left p
  | _ => 0

theorem ahead_step {l : Label Thread Move} (hA : AheadAt i p c) (hok : KeepsWaiting i p c l)
    (hstep : server.step c l = some c') :
    AheadAt i p c' ∧ leftAt i p c' + (if isTickOf i l then 1 else 0) ≤
      leftAt i p c + (asksForAt i c l).length := by
  obtain ⟨r, hr, hA⟩ := hA
  rcases Machine.step_cases hstep with ⟨t, rfl, -, rfl⟩ |
    ⟨j, m, t, h', t', new, rfl, ht, ha, rfl⟩
  · have hr' : (c.threads ++ [t])[i]? = some (.request r) := Places.getElem?_append_of_some hr
    refine ⟨⟨r, hr', hA.extend (extends_arrive c t)⟩, ?_⟩
    simp [leftAt, hr, hr', isTickOf]
  · by_cases hij : j = i
    · subst hij
      rw [hr] at ht
      cases ht
      rcases cases_of_step ha with ⟨r₁, r', he, rfl, hs, hm⟩ | ⟨_, _, he, -⟩ | ⟨_, he, -⟩
      · cases he
        have hr' : (c.threads.set j (.request r') ++ new)[j]? = some (.request r') :=
          Machine.getElem?_self hr
        rcases hm with ⟨tick, rfl⟩ | ⟨-, rfl⟩
        · obtain ⟨hA', hle⟩ := hs.ahead (not_dropped_of_tick ha) hr hA hok.2
          refine ⟨⟨r', hr', hA'⟩, ?_⟩
          simpa [leftAt, hr, hr', isTickOf, asksForAt, asksFor] using hle
        · exact absurd (congrArg (Label.run j) ((dropped_iff ha).mp rfl)) hok.1
      · cases he
      · cases he
    · have hr' : (c.threads.set j t' ++ new)[i]? = some (.request r) :=
        Machine.getElem?_of_ne hr (Ne.symm hij)
      refine ⟨⟨r, hr', hA.extend (extends_advance ht ha)⟩, ?_⟩
      have hno : isTickOf i (.run j m) = false := by
        cases m <;> simp [isTickOf, hij]
      simp [leftAt, hr, hr', hno]

/-- **A request is answered within so many steps of its own**, whatever the others
do: once its queue holds an event that stops it, each step it is given can be taken
and there are at most `left` of them and one for each call of `send_push` it asks for, until
it is answered. -/
theorem answered_within {ls : List (Label Thread Move)} (hi : c.threads[i]? = some (.request r))
    (hahead : r.Ahead c.shared p) (hok : server.Along (KeepsWaiting i p) c ls)
    (hrun : server.exec c ls = some c') :
    ∃ r', c'.threads[i]? = some (.request r') ∧
      ls.countP (isTickOf i) ≤ r.left p + (askedForAt i c ls).length ∧
      (ls.countP (isTickOf i) = r.left p + (askedForAt i c ls).length → r'.IsAnswered) ∧
      (¬ r'.IsAnswered → ∀ tick, server.step c' (.run i (.tick tick)) ≠ none) := by
  obtain ⟨⟨r', hr', hA'⟩, hle⟩ := Machine.Reach.measure_of_exec
    (fun _ _ _ => ahead_step) ⟨r, hi, hahead⟩ hok hrun
  have hleft : r'.left p + ls.countP (isTickOf i) ≤ r.left p + (askedForAt i c ls).length := by
    simpa [leftAt, hi, hr', askedForAt] using hle
  refine ⟨r', hr', by omega, fun heq => hA'.isAnswered (by omega), fun hwait tick hnone => ?_⟩
  refine hA'.enabled (i := i) hwait tick ?_
  simp only [Machine.step, hr', Option.map_eq_none_iff] at hnone
  change (Option.map _ (r'.advance c'.shared c'.threads i tick)) = none at hnone
  exact Option.map_eq_none_iff.mp hnone

/-- Somebody is registered, and the execution of a send has completed its task. -/
def untoldConfig : ServerConfig :=
  (server.exec ⟨tellingHandler, []⟩ (blockingSpawn ++ [.run 1 (.emit completedEvent)])).getD
    ⟨tellingHandler, []⟩

/-- The send takes the steps it needs, one of them for the notification. -/
def answering : List (Label Thread Move) :=
  List.replicate 6 (.run 0 (.tick ⟨"12:01", "u1", "u2", "v1"⟩))

theorem answering_keepsWaiting : server.Along (KeepsWaiting 0 0) untoldConfig answering := by
  refine ⟨⟨by simp, ?_⟩, ⟨by simp, ?_⟩, ⟨by simp, ?_⟩, ⟨by simp, ?_⟩, ⟨by simp, ?_⟩, ⟨by simp, ?_⟩,
    trivial⟩
  all_goals
    rintro ⟨tick, r, removes, col, ch, -, hr, hpc, hch, -, hlt⟩
    cases hr
    cases hpc
    try cases hch
    try exact absurd hlt (by decide)

theorem answered_within_answering : ∃ c' r', server.exec untoldConfig answering = some c' ∧
    c'.threads[0]? = some (.request r') ∧ (askedForAt 0 untoldConfig answering).length = 1 ∧
    answering.countP (isTickOf 0) ≤ 6 + (askedForAt 0 untoldConfig answering).length := by
  obtain ⟨r', hr', hle, -⟩ := answered_within
    (show untoldConfig.threads[0]? = some (.request _) from rfl)
    ⟨by simp, ⟨1, completedEvent⟩, rfl, rfl, Or.inl le_rfl⟩ answering_keepsWaiting rfl
  exact ⟨_, r', rfl, hr', rfl, hle⟩

end Ra2a
