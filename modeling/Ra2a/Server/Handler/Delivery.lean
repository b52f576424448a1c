import Ra2a.Server.Handler.Losses
import Ra2a.Server.Handler.Spawning
import Ra2a.Server.Handler.Streaming

/-!
# What a stream accounts for

The receiver that `on_message_stream` or `on_subscribe_to_task` hands out is
unfolded with `broadcast_recv_next`: an event is an item, a lag is the item that
says by how many, and the stream ends when the channel is closed.  Whatever else
runs meanwhile, the items account for the log from the subscription on: put end to
end, what they stand for is all the receiver has passed, once and in order
(`Accounted`).  A queue without a sender never gets one again
(`hasSender_step`), so a stream that has ended has accounted for all that was
and will ever be sent after it subscribed, and with a message that is all its own
execution has sent (`streams_account`).
-/

namespace Ra2a

open Broadcast Interleave

/-- What one `recv` of a stream returned. -/
def Received.receipt (tick : Tick) : Received Sent → Receipt
  | .ok sent => .ok sent.event tick
  | .lagged n => .lagged n
  | .closed => .closed tick

/-- The item stream `i` hands out at a step. -/
def itemsAt (i : ℕ) (c : ServerConfig) : Label Thread Move → List (Except A2AError Event)
  | .run j (.tick tick) =>
    match c.threads[j]? with
    | some (.request r) =>
      match r.pc with
      | .streaming q pos =>
        if j = i then
          match c.shared.recv c.threads q pos with
          | some (res, _) =>
            (DefaultRequestHandler.broadcastRecvNext (Received.receipt tick res)).toList
          | none => []
        else []
      | _ => []
    | _ => []
  | _ => []

/-- The items stream `i` hands out along a schedule. -/
def handedTo (i : ℕ) (c : ServerConfig) (ls : List (Label Thread Move)) :
    List (Except A2AError Event) :=
  server.yields (itemsAt i) c ls

/-- What an item of a stream stands for. -/
inductive StandsFor : Except A2AError Event → List Sent → Prop
  | event (s : Sent) : StandsFor (.ok s.event) [s]
  | lagged (missed : List Sent) (h : missed ≠ []) :
      StandsFor (.error (.other s!"Lagged by {missed.length} events")) missed

/-- Request `i` subscribes to queue `q` at one of the steps, when the log of the
queue has `since` entries. -/
def SubscribedAt (c₀ : ServerConfig) (ls : List (Label Thread Move)) (i q since : ℕ) : Prop :=
  ∃ pre tick rest c r, ls = pre ++ .run i (.tick tick) :: rest ∧ server.exec c₀ pre = some c ∧
    c.threads[i]? = some (.request r) ∧
    (r.pc = .located q ∨ ∃ key ctx, r.pc = .queued key ctx q) ∧
    since = (c.shared.queueManager.log q).length

/-- The items account for what stream `i` has passed of queue `q`, and nothing that
its own execution has sent comes before. -/
structure Accounted (c₀ : ServerConfig) (ls : List (Label Thread Move)) (c : ServerConfig)
    (i q since pos : ℕ) : Prop where
  subscribed : SubscribedAt c₀ ls i q since
  told : Told StandsFor (c.shared.queueManager.log q) since pos (handedTo i c₀ ls)
  own : ∀ p s, (c.shared.queueManager.log q)[p]? = some s → RunsFor c i s.sender → since ≤ p

/-- Nobody can send to queue `q`. -/
def Deserted (c : ServerConfig) (q : ℕ) : Prop :=
  c.shared.hasSender c.threads q = false ∧ ∃ k, c.shared.queueManager.key q = some k

/-- What request `i` has been handed, by where it is. -/
def Request.Accounts (c₀ : ServerConfig) (ls : List (Label Thread Move)) (c : ServerConfig)
    (i : ℕ) (r : Request) : Prop :=
  match r.pc with
  | .streaming q pos => ∃ since, Accounted c₀ ls c i q since pos
  | .done .streamed =>
    ∃ q since, Accounted c₀ ls c i q since (c.shared.queueManager.log q).length ∧ Deserted c q
  | .dropped => handedTo i c₀ ls = [] ∨ ∃ q since pos, Accounted c₀ ls c i q since pos
  | _ => handedTo i c₀ ls = []

variable {c₀ c : ServerConfig} {ls : List (Label Thread Move)} {l : Label Thread Move}
  {h' : DefaultRequestHandler} {new : List Thread} {i j q since pos : ℕ} {m : Move}
  {t t' : Thread} {r r' : Request}

/-! ### Queues without a sender -/

theorem hasSender_iff : c.shared.hasSender c.threads q = true ↔
    Kept c q ∨ ∃ (j : ℕ) (x : Execution), c.threads[j]? = some (.execution x) ∧
      x.pc.isFinished = false ∧ x.queue = q := by
  constructor
  · intro h
    rw [DefaultRequestHandler.hasSender, Bool.or_eq_true] at h
    rcases h with hmap | hany
    · exact Or.inl (Or.inl (QueueManager.maps_iff.mp hmap))
    · obtain ⟨t, ht, hholds⟩ := List.any_eq_true.mp hany
      obtain ⟨j, hj⟩ := List.getElem?_of_mem ht
      cases t with
      | request r => exact Or.inl (Or.inr ⟨j, r, hj, hholds⟩)
      | execution x => exact Or.inr ⟨j, x, hj, by simpa [Thread.holdsSender] using hholds⟩
      | registration g => cases hholds
  · rintro (hkept | ⟨j, x, hj, hopen, hq⟩)
    · exact hasSender_of_kept hkept
    · rw [DefaultRequestHandler.hasSender, Bool.or_eq_true]
      exact Or.inr (List.any_eq_true.mpr
        ⟨_, List.mem_of_getElem? hj, by simp [Thread.holdsSender, hopen, hq]⟩)

/-- **A queue without a sender gets none**, and nothing is sent to it. -/
theorem Deserted.advance (h : Deserted c q) (ht : c.threads[i]? = some t)
    (ha : server.advance c.shared c.threads i m t = some (h', t', new)) :
    Deserted ⟨h', c.threads.set i t' ++ new⟩ q ∧
      h'.queueManager.log q = c.shared.queueManager.log q := by
  obtain ⟨hno, k, hk⟩ := h
  have hkept : ¬ Kept c q := fun hkept => by
    rw [hasSender_of_kept hkept] at hno
    cases hno
  have hrest : ∀ {j : ℕ} {x : Execution}, c.threads[j]? = some (.execution x) → x.queue = q →
      x.pc.isFinished = true := by
    intro j x hj hq
    by_contra hopen
    rw [hasSender_iff.mpr (Or.inr ⟨j, x, hj, by simpa using hopen, hq⟩)] at hno
    cases hno
  refine ⟨⟨?_, k, key_step ha hk⟩, ?_⟩
  · by_contra hsender
    rcases hasSender_iff.mp (Bool.eq_true_of_not_eq_false hsender) with hkept' |
      ⟨j, x', hj, hopen, hq⟩
    · exact hkept (kept_step ht ha hk hkept')
    · rcases Machine.getElem?_moved hj with ⟨rfl, rfl⟩ | ⟨-, hj⟩ | ⟨-, hj⟩
      · rcases cases_of_step ha with ⟨_, _, -, he, -⟩ | ⟨x, y, rfl, he, -, hs⟩ | ⟨_, -, -, he, -⟩
        · cases he
        · cases he
          have hfin := hs.unfinished
          rw [hrest ht (hs.same.queue.symm.trans hq)] at hfin
          cases hfin
        · cases he
      · rw [hrest hj hq] at hopen
        cases hopen
      · rcases spawned_step ha (List.mem_of_getElem? hj) with ⟨r, x, rfl, he, -, hpc⟩ | ⟨_, he⟩
        · cases he
          exact hkept (Or.inr ⟨i, r, ht, by simp [Thread.holdsSender, hpc, hq]⟩)
        · cases he
  · rcases cases_of_step ha with ⟨r, r', rfl, rfl, hs, -⟩ | ⟨x, x', rfl, rfl, rfl, hs⟩ |
      ⟨g, rfl, -, rfl, rfl, rfl⟩
    · exact hs.log q
    · rcases hs.log q with hlog | ⟨e, -, hq, -⟩
      · exact hlog
      · have hfin := hs.unfinished
        rw [hrest ht hq] at hfin
        cases hfin
    · rfl

theorem Deserted.arrive (h : Deserted c q) (hf : t.isFresh = true) :
    Deserted ⟨c.shared, c.threads ++ [t]⟩ q := by
  refine ⟨?_, h.2⟩
  obtain ⟨r, rfl, hpc, -⟩ := Thread.of_isFresh hf
  have hno := h.1
  rw [DefaultRequestHandler.hasSender, Bool.or_eq_false_iff] at hno ⊢
  refine ⟨hno.1, ?_⟩
  rw [List.any_append, hno.2, Bool.false_or]
  simp [Thread.holdsSender, hpc]

/-! ### One step -/

theorem SubscribedAt.concat (h : SubscribedAt c₀ ls i q since) (l : Label Thread Move) :
    SubscribedAt c₀ (ls ++ [l]) i q since := by
  obtain ⟨pre, tick, rest, c, r, rfl, hrest⟩ := h
  exact ⟨pre, tick, rest ++ [l], c, r, by simp, hrest⟩

theorem handedTo_concat (hrun : server.exec c₀ ls = some c) (i : ℕ) (l : Label Thread Move) :
    handedTo i c₀ (ls ++ [l]) = handedTo i c₀ ls ++ itemsAt i c l :=
  Machine.Reach.yields_concat hrun

/-- The sender of an entry is there, so what a step starts has sent nothing yet. -/
theorem RunsFor.before (hsent : LogsSent c) (ht : c.threads[i]? = some t)
    (ha : server.advance c.shared c.threads i m t = some (h', t', new)) {s : Sent} {k : ℕ}
    (hs : s ∈ c.shared.queueManager.log q)
    (h : RunsFor ⟨h', c.threads.set i t' ++ new⟩ k s.sender) : RunsFor c k s.sender := by
  rcases runsFor_cases ht ha h with h | ⟨-, hj, -⟩
  · exact h
  · obtain ⟨x, hx, -⟩ := hsent q s hs
    rw [hj, List.getElem?_eq_none le_rfl] at hx
    cases hx

/-- A step at which the stream is handed nothing. -/
theorem Accounted.step (h : Accounted c₀ ls c i q since pos) (hrun : server.exec c₀ ls = some c)
    (hnone : itemsAt i c l = []) {c' : ServerConfig} (hext : Extends c c')
    (hbefore : ∀ s ∈ c.shared.queueManager.log q, RunsFor c' i s.sender → RunsFor c i s.sender) :
    Accounted c₀ (ls ++ [l]) c' i q since pos where
  subscribed := h.subscribed.concat l
  told := by
    obtain ⟨later, hl⟩ := hext.log q
    rw [handedTo_concat hrun, hnone, List.append_nil, hl]
    exact h.told.append later
  own p s hp hs := by
    obtain ⟨later, hl⟩ := hext.log q
    rw [hl] at hp
    by_cases hlt : p < (c.shared.queueManager.log q).length
    · rw [List.getElem?_append_left hlt] at hp
      exact h.own p s hp (hbefore s (List.mem_of_getElem? hp) hs)
    · have hle := h.told.since_le.trans h.told.pos_le
      omega

/-- The subscription of a stream: nobody runs for it yet. -/
theorem Accounted.start (hrun : server.exec c₀ ls = some c) (hi : c.threads[i]? = some (.request r))
    (hpc : r.pc = .located q ∨ ∃ key ctx, r.pc = .queued key ctx q) {tick : Tick}
    (hnone : handedTo i c₀ (ls ++ [.run i (.tick tick)]) = []) {c' : ServerConfig}
    (hlog : c'.shared.queueManager.log q = c.shared.queueManager.log q)
    (hno : ∀ s ∈ c.shared.queueManager.log q, ¬ RunsFor c' i s.sender) :
    Accounted c₀ (ls ++ [.run i (.tick tick)]) c' i q (c.shared.queueManager.log q).length
      (c.shared.queueManager.log q).length where
  subscribed := ⟨ls, tick, [], c, r, rfl, hrun, hi, hpc, rfl⟩
  told := by
    rw [hnone, hlog]
    exact Told.subscribe _
  own p s hp hs := by
    rw [hlog] at hp
    exact absurd hs (hno s (List.mem_of_getElem? hp))

/-- What `broadcast_recv_next` makes of a receive stands for what that does. -/
theorem standsFor_of_covers {res : Received Sent} {part : List Sent} (h : Covers res part)
    (tick : Tick) : ∃ item, DefaultRequestHandler.broadcastRecvNext (Received.receipt tick res) =
      some item ∧ StandsFor item part := by
  cases h with
  | ok s => exact ⟨_, rfl, .event s⟩
  | lagged _ hne => exact ⟨_, rfl, .lagged _ hne⟩

/-- A receive of a stream that is not at its end. -/
theorem Accounted.next (h : Accounted c₀ ls c i q since pos) (hrun : server.exec c₀ ls = some c)
    (hi : c.threads[i]? = some (.request r)) (hpc : r.pc = .streaming q pos) {tick : Tick}
    {res : Received Sent} {pos' : ℕ} (hrecv : c.shared.recv c.threads q pos = some (res, pos'))
    (hopen : res ≠ .closed) {c' : ServerConfig}
    (hlog : c'.shared.queueManager.log q = c.shared.queueManager.log q)
    (hruns : ∀ j, RunsFor c' i j → RunsFor c i j) :
    Accounted c₀ (ls ++ [.run i (.tick tick)]) c' i q since pos' where
  subscribed := h.subscribed.concat _
  told := by
    obtain ⟨ch, -, hchan, hr⟩ := DefaultRequestHandler.of_recv hrecv
    obtain ⟨hle, hlen, hcov⟩ := covers_of_recv hr hopen
    obtain ⟨item, hitem, hstands⟩ := standsFor_of_covers hcov tick
    have hitems : itemsAt i c (.run i (.tick tick)) = [item] := by
      simp [itemsAt, hi, hpc, hrecv, hitem]
    rw [handedTo_concat hrun, hitems, hlog]
    rw [← hchan] at hlen hstands
    exact h.told.concat hle hlen hstands
  own p s hp hs := by
    rw [hlog] at hp
    exact h.own p s hp (hruns _ hs)

/-- A step at which request `i` stays where it is. -/
theorem Request.Accounts.stay (h : r.Accounts c₀ ls c i) (hrun : server.exec c₀ ls = some c)
    (hnone : itemsAt i c l = []) {c' : ServerConfig} (hext : Extends c c')
    (hbefore : ∀ q, ∀ s ∈ c.shared.queueManager.log q,
      RunsFor c' i s.sender → RunsFor c i s.sender)
    (hdeserted : ∀ q, Deserted c q →
      Deserted c' q ∧ c'.shared.queueManager.log q = c.shared.queueManager.log q) :
    r.Accounts c₀ (ls ++ [l]) c' i := by
  have hsame : handedTo i c₀ (ls ++ [l]) = handedTo i c₀ ls := by
    rw [handedTo_concat hrun, hnone, List.append_nil]
  rw [Request.Accounts] at h ⊢
  generalize r.pc = pc at h ⊢
  cases pc with
  | streaming q pos =>
    obtain ⟨since, hacc⟩ := h
    exact ⟨since, hacc.step hrun hnone hext (hbefore q)⟩
  | dropped =>
    rcases h with h | ⟨q, since, pos, hacc⟩
    · exact Or.inl (hsame.trans h)
    · exact Or.inr ⟨q, since, pos, hacc.step hrun hnone hext (hbefore q)⟩
  | done o =>
    cases o with
    | streamed =>
      obtain ⟨q, since, hacc, hdes⟩ := h
      obtain ⟨hdes', hlog⟩ := hdeserted q hdes
      refine ⟨q, since, ?_, hdes'⟩
      rw [hlog]
      exact hacc.step hrun hnone hext (hbefore q)
    | _ => exact hsame.trans h
  | _ => exact hsame.trans h

theorem Request.Accounts.drop (h : r.Accounts c₀ ls c i) :
    (r.goto .dropped).Accounts c₀ ls c i := by
  rw [Request.Accounts] at h
  change handedTo i c₀ ls = [] ∨ ∃ q since pos, Accounted c₀ ls c i q since pos
  generalize r.pc = pc at h
  cases pc with
  | streaming q pos =>
    obtain ⟨since, hacc⟩ := h
    exact Or.inr ⟨q, since, pos, hacc⟩
  | dropped => exact h
  | done o =>
    cases o with
    | streamed =>
      obtain ⟨q, since, hacc, -⟩ := h
      exact Or.inr ⟨q, since, _, hacc⟩
    | _ => exact Or.inl h
  | _ => exact Or.inl h

/-- A request that reads no stream is handed nothing. -/
theorem itemsAt_eq_nil (hi : c.threads[i]? = some (.request r))
    (hpc : ∀ q pos, r.pc ≠ .streaming q pos) (m : Move) : itemsAt i c (.run i m) = [] := by
  cases m with
  | tick tick =>
    simp only [itemsAt, hi]
  | _ => rfl

theorem itemsAt_of_ne (hij : j ≠ i) (m : Move) : itemsAt i c (.run j m) = [] := by
  cases m with
  | tick tick =>
    simp only [itemsAt, if_neg hij]
    split
    · split <;> rfl
    · rfl
  | _ => rfl

/-- One step of request `i`. -/
theorem Request.Step.accounts {tick : Tick} (hs : r.Step c.shared c.threads i h' r' new)
    (hlive : r'.pc ≠ .dropped) (hA : r.Accounts c₀ ls c i) (hrun : server.exec c₀ ls = some c)
    (hi : c.threads[i]? = some (.request r)) (howns : Owns c i r) {ts : List Thread}
    (hext : Extends c ⟨h', ts⟩)
    (hbefore : ∀ q, ∀ s ∈ c.shared.queueManager.log q, RunsFor ⟨h', ts⟩ i s.sender →
      RunsFor c i s.sender)
    (hruns : new = [] → ∀ j, RunsFor ⟨h', ts⟩ i j → RunsFor c i j)
    (hdeserted : ∀ q, Deserted c q → Deserted ⟨h', ts⟩ q) :
    r'.Accounts c₀ (ls ++ [.run i (.tick tick)]) ⟨h', ts⟩ i := by
  have hlog : ∀ q, h'.queueManager.log q = c.shared.queueManager.log q := hs.log
  have hnil : (∀ q pos, r.pc ≠ .streaming q pos) → handedTo i c₀ ls = [] →
      handedTo i c₀ (ls ++ [.run i (.tick tick)]) = [] := by
    intro hpc hnone
    rw [handedTo_concat hrun, hnone, itemsAt_eq_nil hi hpc, List.append_nil]
  cases hs with
  | drop => exact absurd rfl hlive
  | spawnStream params key ctx q hpc hcall =>
    have hstarted : r.started = some false := by rw [Request.started, hpc]
    rw [Request.Accounts, hpc] at hA
    exact ⟨_, .start hrun hi (Or.inr ⟨key, ctx, hpc⟩) (hnil (by simp [hpc]) hA) (hlog q)
      fun s hs hr => howns.zero hstarted _ (hbefore q s hs hr)⟩
  | subscribe q hpc =>
    have hstarted : r.started = some false := by rw [Request.started, hpc]
    rw [Request.Accounts, hpc] at hA
    exact ⟨_, .start hrun hi (Or.inl hpc) (hnil (by simp [hpc]) hA) (hlog q)
      fun s hs hr => howns.zero hstarted _ (hbefore q s hs hr)⟩
  | deliver q pos pos' sent hpc hrecv =>
    rw [Request.Accounts, hpc] at hA
    obtain ⟨since, hacc⟩ := hA
    exact ⟨since, hacc.next hrun hi hpc hrecv (by simp) (hlog q) (hruns rfl)⟩
  | deliverLag q pos pos' n hpc hrecv =>
    rw [Request.Accounts, hpc] at hA
    obtain ⟨since, hacc⟩ := hA
    exact ⟨since, hacc.next hrun hi hpc hrecv (by simp) (hlog q) (hruns rfl)⟩
  | endStream q pos pos' hpc hrecv =>
    rw [Request.Accounts, hpc] at hA
    obtain ⟨since, hacc⟩ := hA
    obtain ⟨ch, hch, hchan, hr⟩ := DefaultRequestHandler.of_recv hrecv
    have hnone : itemsAt i c (.run i (.tick tick)) = [] := by
      simp [itemsAt, hi, hpc, hrecv, Received.receipt, DefaultRequestHandler.broadcastRecvNext]
    have hpos : pos = (c.shared.queueManager.log q).length := by
      have hle := hacc.told.pos_le
      have hge := Channel.length_le_of_recv_closed hr
      rw [← hchan] at hge
      omega
    have hdes : Deserted c q := by
      refine ⟨by simpa using (Channel.recv_closed hr).1, ?_⟩
      obtain ⟨queue, hqueue, -⟩ := Option.map_eq_some_iff.mp hch
      exact ⟨queue.key, by rw [QueueManager.key, hqueue]; rfl⟩
    refine ⟨q, since, ?_, hdeserted q hdes⟩
    rw [hlog q, ← hpos]
    exact hacc.step hrun hnone hext (hbefore q)
  | refuse e hpc =>
    have hstarts : handedTo i c₀ ls = [] ∧ ∀ q pos, r.pc ≠ .streaming q pos := by
      rcases hpc with hpc | ⟨_, _, _, hpc⟩ | hpc <;> rw [Request.Accounts, hpc] at hA <;>
        exact ⟨hA, by simp [hpc]⟩
    exact hnil hstarts.2 hstarts.1
  | resolve _ _ _ hpc | configure _ _ _ hpc | intercept _ _ _ _ _ hpc | intercepted _ _ _ hpc
  | accept _ _ hpc | abort _ _ hpc | queue _ _ _ _ hpc | panic _ _ hpc | spawnSend _ _ _ _ _ hpc
  | spawnCancel _ _ _ _ _ hpc | receive _ _ _ _ hpc | lag _ _ _ _ hpc | close _ _ _ hpc
  | persist _ _ _ hpc | read _ _ _ _ _ hpc | skip _ _ _ hpc | update _ _ _ _ hpc
  | list _ _ _ _ hpc | nobody _ _ _ _ hpc | push _ _ _ _ _ _ hpc | pushLast _ _ _ _ _ _ hpc
  | goOn _ _ _ hpc | answer _ _ _ _ hpc | finalize _ _ _ _ hpc | failClosed _ _ _ _ hpc
  | finish _ _ _ hpc | locate _ _ hpc | find _ _ hpc =>
    rw [Request.Accounts, hpc] at hA
    exact hnil (by simp [hpc]) hA

/-- Nothing was handed to a thread that is not there yet, and what a request was
handed is accounted for. -/
def Accounting (c₀ : ServerConfig) (i : ℕ) (ls : List (Label Thread Move)) (c : ServerConfig) :
    Prop :=
  (c.threads[i]? = none → handedTo i c₀ ls = []) ∧
    ∀ r, c.threads[i]? = some (.request r) → r.Accounts c₀ ls c i

theorem accounting_arrive (hA : Accounting c₀ i ls c) (hrun : server.exec c₀ ls = some c)
    (hf : t.isFresh = true) :
    Accounting c₀ i (ls ++ [.arrive t]) ⟨c.shared, c.threads ++ [t]⟩ := by
  have hsame : handedTo i c₀ (ls ++ [.arrive t]) = handedTo i c₀ ls := by
    rw [handedTo_concat hrun]
    exact List.append_nil _
  refine ⟨fun hnone => ?_, fun r hr => ?_⟩
  · rw [hsame]
    refine hA.1 (List.getElem?_eq_none ?_)
    have hlen := List.getElem?_eq_none_iff.mp hnone
    rw [List.length_append] at hlen
    omega
  · rcases Places.getElem?_concat_cases hr with hr | ⟨rfl, he⟩
    · exact (hA.2 r hr).stay hrun rfl (extends_arrive c t)
        (fun q s _ hs => (runsFor_arrive hf).mp hs) fun q hdes => ⟨hdes.arrive hf, rfl⟩
    · obtain ⟨r', rfl, hpc, -⟩ := Thread.of_isFresh hf
      cases he
      rw [Request.Accounts, hpc]
      exact hsame.trans (hA.1 (List.getElem?_eq_none le_rfl))

theorem accounting_run (hA : Accounting c₀ i ls c) (hrun : server.exec c₀ ls = some c)
    (hsent : LogsSent c) (hstarted : Machine.Reach.Each StartedThread c)
    (ht : c.threads[j]? = some t)
    (ha : server.advance c.shared c.threads j m t = some (h', t', new)) :
    Accounting c₀ i (ls ++ [.run j m]) ⟨h', c.threads.set j t' ++ new⟩ := by
  have hext := extends_advance ht ha
  have hbefore : ∀ q, ∀ s ∈ c.shared.queueManager.log q,
      RunsFor ⟨h', c.threads.set j t' ++ new⟩ i s.sender → RunsFor c i s.sender :=
    fun q s hs hr => hr.before hsent ht ha hs
  have hstay : (∀ r, t = .request r → j ≠ i ∨ m = .drop) → itemsAt i c (.run j m) = [] := by
    intro hother
    rcases cases_of_step ha with ⟨r, _, rfl, -⟩ | ⟨_, _, rfl, -⟩ | ⟨_, rfl, -⟩
    · rcases hother r rfl with hne | rfl
      · exact itemsAt_of_ne hne m
      · rfl
    · cases m <;> simp [itemsAt, ht]
    · cases m <;> simp [itemsAt, ht]
  refine ⟨fun hnone => ?_, fun r' hr' => ?_⟩
  · have hij : j ≠ i := by
      rintro rfl
      rw [Machine.getElem?_self ht] at hnone
      cases hnone
    have hold : c.threads[i]? = none := by
      refine List.getElem?_eq_none ?_
      have hlen := List.getElem?_eq_none_iff.mp hnone
      rw [List.length_append, List.length_set] at hlen
      omega
    rw [handedTo_concat hrun, hA.1 hold, hstay fun _ _ => Or.inl hij, List.append_nil]
  · rcases Machine.getElem?_moved hr' with ⟨rfl, rfl⟩ | ⟨hij, hr⟩ | ⟨-, hnew⟩
    · rcases cases_of_step ha with ⟨r, r₁, rfl, he, hs, hm⟩ | ⟨_, _, -, he, -⟩ | ⟨_, -, -, he, -⟩
      · cases he
        rcases hm with ⟨tick, rfl⟩ | ⟨rfl, rfl⟩
        · refine hs.accounts (not_dropped_of_tick ha) (hA.2 r ht) hrun ht (hstarted i _ ht) hext
            hbefore ?_ fun q hdes => (hdes.advance ht ha).1
          intro hnil j hj
          rcases runsFor_cases ht ha hj with hj | ⟨-, -, hne⟩
          · exact hj
          · exact absurd hnil hne
        · refine (hA.2 r ht).drop.stay hrun (hstay fun _ _ => Or.inr ((dropped_iff ha).mp rfl)) hext
            hbefore fun q hdes => hdes.advance ht ha
      · cases he
      · cases he
    · exact (hA.2 r' hr).stay hrun (hstay fun _ _ => Or.inl (Ne.symm hij)) hext hbefore
        fun q hdes => hdes.advance ht ha
    · exact absurd (List.mem_of_getElem? hnew) (not_request_new ha)

theorem accounting_exec (h₀ : Initial c₀) (hrun : server.exec c₀ ls = some c) (i : ℕ) :
    Accounting c₀ i ls c := by
  refine Machine.Reach.of_schedule (P := Accounting c₀ i) ⟨fun _ => rfl, fun r hr => ?_⟩ ?_
    (Machine.Reach.along_always ls) hrun
  · rw [h₀.threads] at hr
    cases hr
  · intro ls l c c' hreach hrun hA _ hs
    rcases Machine.step_cases hs with ⟨t, rfl, hf, rfl⟩ | ⟨j, m, t, h', t', new, rfl, ht, ha, rfl⟩
    · exact accounting_arrive hA hrun hf
    · exact accounting_run hA hrun (logsSent_reach h₀ hreach) (started_reach h₀ hreach) ht ha

/-! ### Every run -/

/-- **The items of a stream account for its queue**, whatever the interleaving: at
any time what they stand for is, put end to end, the log from the subscription to
where the stream is, and when it has ended, to the end, for good. -/
theorem streams_account (h₀ : Initial c₀) (hrun : server.exec c₀ ls = some c)
    (hi : c.threads[i]? = some (.request r)) :
    (handedTo i c₀ ls = [] ∨ ∃ q since pos, Accounted c₀ ls c i q since pos) ∧
      (∀ q pos, r.pc = .streaming q pos → ∃ since, Accounted c₀ ls c i q since pos) ∧
      (r.pc = .done .streamed → ∃ q since, Deserted c q ∧
        Accounted c₀ ls c i q since (c.shared.queueManager.log q).length) := by
  have hA := (accounting_exec h₀ hrun i).2 r hi
  refine ⟨hA.drop, fun q pos hpc => ?_, fun hpc => ?_⟩
  · rw [Request.Accounts, hpc] at hA
    exact hA
  · rw [Request.Accounts, hpc] at hA
    obtain ⟨q, since, hacc, hdes⟩ := hA
    exact ⟨q, since, hdes, hacc⟩

/-- On a queue that holds one event a stream misses the first of two. -/
def lagging : List (Label Thread Move) :=
  .arrive (streamTo "m1") :: List.replicate 5 (.run 0 (.tick noon)) ++
    [.run 1 (.emit (.statusUpdate ⟨"t1", "c1", ⟨.working, none, none⟩, none⟩)),
      .run 1 (.emit completedEvent)] ++ List.replicate 2 (.run 0 (.tick noon))

def laggingConfig : ServerConfig :=
  (server.exec ⟨narrowHandler, []⟩ lagging).getD ⟨narrowHandler, []⟩

example : handedTo 0 ⟨narrowHandler, []⟩ lagging =
    [.error (.other "Lagged by 1 events"), .ok completedEvent] := by decide

theorem streams_account_lagging : ∃ since, Accounted ⟨narrowHandler, []⟩ lagging laggingConfig 0 0
    since 2 :=
  (streams_account ⟨rfl, rfl, rfl, rfl⟩
    (show server.exec ⟨narrowHandler, []⟩ lagging = some laggingConfig from rfl)
    (show laggingConfig.threads[0]? = some (.request _) from rfl)).2.1 0 2 rfl

end Ra2a
