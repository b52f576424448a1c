import Ra2a.Grpc.Events
import Ra2a.Lib.Pipe
import Ra2a.Server.Handler.Delivery

/-!
# Streams forwarded over gRPC

`spawn_event_stream` of `grpc/server.rs` is a task of its own.  It polls the stream
the handler has returned, and sends what it makes of an item into a channel of 32,
out of which tonic reads for the client.  While the channel is full it polls
nothing, and meanwhile the queue goes on.

So the server, the task and the client run side by side.  The stream of call `i` is
polled by the task alone, and dropped once its loop is over; a client that leaves
drops the channel.  The task's own part of a run is a run of a pipe, fed with what
`spawnEventStream` makes of the items handed to it (`Conveys`).

A client whose stream has ended has the updates from its subscription on to the end
of the queue, for good, or the task fell further behind than the queue is long, and
the client has what came before and is not told (`forwarded_run`).
-/

namespace Ra2a

open Broadcast Forward Interleave Proto

/-! ### The task -/

section

variable [F64] [ProtoEnum Proto.Role] [ProtoEnum Proto.TaskState] [Chrono]

/-- A turn of the loop of `spawn_event_stream`, given what the stream yields. -/
def forwarded : Option (Except A2AError Event) → Turn (Except GrpcStatus StreamResponse)
  | none => .finish
  | some (.ok (.statusUpdate update)) => .value (.ok (convertStatusUpdateToResponse update))
  | some (.ok (.artifactUpdate update)) => .value (.ok (convertArtifactUpdateToResponse update))
  | some (.ok (.task _)) => .pass
  | some (.ok (.message _)) => .pass
  | some (.error _) => .finish

/-- The events of these entries that are sent, as they are sent. -/
def updatesOf (sents : List Sent) : List (Except GrpcStatus StreamResponse) :=
  spawnEventStream (sents.map fun s => .ok s.event)

theorem spawnEventStream_append {items : List (Except A2AError Event)}
    (h : ∀ item ∈ items, ∃ event, item = .ok event) (rest : List (Except A2AError Event)) :
    spawnEventStream (items ++ rest) = spawnEventStream items ++ spawnEventStream rest := by
  induction items with
  | nil => rfl
  | cons item items ih =>
    rw [List.forall_mem_cons] at h
    obtain ⟨⟨event, rfl⟩, hitems⟩ := h
    cases event with
    | task _ => exact ih hitems
    | message _ => exact ih hitems
    | statusUpdate update => exact congrArg (_ :: ·) (ih hitems)
    | artifactUpdate update => exact congrArg (_ :: ·) (ih hitems)

theorem spawnEventStream_singleton (item : Except A2AError Event) :
    spawnEventStream [item] = (forwarded (some item)).value?.toList := by
  rcases item with e | t | m | u | u <;> rfl

/-- No error is sent. -/
theorem ok_of_mem_spawnEventStream {items : List (Except A2AError Event)}
    {r : Except GrpcStatus StreamResponse} (h : r ∈ spawnEventStream items) :
    ∃ response, r = .ok response := by
  induction items with
  | nil => cases h
  | cons item items ih =>
    rcases item with e | t | m | u | u
    · cases h
    · exact ih h
    · exact ih h
    · rcases List.mem_cons.mp h with rfl | h
      · exact ⟨_, rfl⟩
      · exact ih h
    · rcases List.mem_cons.mp h with rfl | h
      · exact ⟨_, rfl⟩
      · exact ih h

/-- The loop goes on after an event only. -/
theorem goesOn_forwarded_iff {item : Option (Except A2AError Event)} :
    (forwarded item).goesOn = true ↔ ∃ event, item = some (.ok event) := by
  rcases item with _ | e | t | m | u | u <;> simp [forwarded, Turn.goesOn]

end

/-! ### The server, the task and the client -/

/-- A call over gRPC that is answered with a stream. -/
structure StreamedCall where
  config : ServerConfig
  pipe : Pipe (Except GrpcStatus StreamResponse)

/-- A step of the server, the task's `tx.send`, tonic's read, and the client's leave. -/
inductive StreamedAct
  | server (l : Label Thread Move)
  | send
  | take
  | leave

/-- The steps of the server. -/
def served (acts : List StreamedAct) : List (Label Thread Move) :=
  acts.filterMap fun
    | .server l => some l
    | _ => none

/-- Call `i` has returned its stream. -/
def isStreaming (c : ServerConfig) (i : ℕ) : Bool :=
  match c.threads[i]? with
  | some (.request r) =>
    match r.pc with
    | .streaming _ _ => true
    | _ => false
  | _ => false

/-- The step polls the stream of call `i`. -/
def polls (i : ℕ) (c : ServerConfig) : Label Thread Move → Bool
  | .run j (.tick _) => decide (j = i) && isStreaming c i
  | _ => false

/-- The step drops the stream of call `i`. -/
def dropsStream (i : ℕ) (c : ServerConfig) : Label Thread Move → Bool
  | .run j .drop => decide (j = i) && isStreaming c i
  | _ => false

namespace StreamedCall

variable [F64] [ProtoEnum Proto.Role] [ProtoEnum Proto.TaskState] [Chrono]

/-- A step of the server; the stream is the task's. -/
def serve (i : ℕ) (s : StreamedCall) (l : Label Thread Move) : Option StreamedCall :=
  (server.step s.config l).bind fun c =>
    if polls i s.config l then
      (s.pipe.turn (forwarded (itemsAt i s.config l).head?)).map fun p => ⟨c, p⟩
    else if dropsStream i s.config l && s.pipe.running then none
    else some ⟨c, s.pipe⟩

def step (i : ℕ) (s : StreamedCall) : StreamedAct → Option StreamedCall
  | .server l => s.serve i l
  | .send => s.pipe.send.map fun p => { s with pipe := p }
  | .take => s.pipe.take.map fun p => { s with pipe := p }
  | .leave => s.pipe.leave.map fun p => { s with pipe := p }

/-- A schedule of the three. -/
def exec (i : ℕ) : StreamedCall → List StreamedAct → Option StreamedCall
  | s, [] => some s
  | s, a :: acts => (s.step i a).bind fun s' => s'.exec i acts

/-- A server that has served nothing, and `mpsc::channel(32)`. -/
def new (c₀ : ServerConfig) : StreamedCall := ⟨c₀, .new 32⟩

end StreamedCall

/-! ### What a step of the server means to the task -/

section

variable {i : ℕ} {c c' c₀ : ServerConfig} {l : Label Thread Move}

theorem of_isStreaming (h : isStreaming c i = true) :
    ∃ r q pos, c.threads[i]? = some (.request r) ∧ r.pc = .streaming q pos := by
  rw [isStreaming] at h
  split at h
  · rename_i r hr
    split at h
    · rename_i q pos hpc
      exact ⟨r, q, pos, hr, hpc⟩
    · cases h
  · cases h

/-- A step that does not poll the stream is handed nothing of it. -/
theorem itemsAt_of_not_polls (h : ¬ polls i c l = true) : itemsAt i c l = [] := by
  rcases l with t | ⟨j, m⟩
  · rfl
  · by_cases hij : j = i
    · subst hij
      cases m with
      | tick tick =>
        cases ht : c.threads[j]? with
        | none => simp only [itemsAt, ht]
        | some t =>
          cases t with
          | request r =>
            refine itemsAt_eq_nil ht (fun q pos hpc => h ?_) _
            simp [polls, isStreaming, ht, hpc]
          | _ => simp only [itemsAt, ht]
      | _ => rfl
    · exact itemsAt_of_ne hij m

/-- A poll yields an event, or how many events it has missed, or the stream is at
its end. -/
theorem poll_cases (h : polls i c l = true) (hs : server.step c l = some c') :
    ∃ tick r q pos, l = .run i (.tick tick) ∧ c.threads[i]? = some (.request r) ∧
      r.pc = .streaming q pos ∧
      ((∃ event, itemsAt i c l = [.ok event]) ∨
        (∃ e n pos', itemsAt i c l = [.error e] ∧
          c.shared.recv c.threads q pos = some (.lagged n, pos')) ∨
        itemsAt i c l = [] ∧ ∃ r', c'.threads[i]? = some (.request r') ∧
          r'.pc = .done .streamed) := by
  rcases l with t | ⟨j, m⟩
  · cases h
  cases m with
  | tick tick =>
    obtain ⟨hij, hstreaming⟩ := Bool.and_eq_true_iff.mp h
    obtain rfl := of_decide_eq_true hij
    obtain ⟨r, q, pos, hr, hpc⟩ := of_isStreaming hstreaming
    refine ⟨tick, r, q, pos, rfl, hr, hpc, ?_⟩
    rcases Machine.step_cases hs with ⟨_, he, -⟩ | ⟨_, _, t, h', t', new, he, ht, ha, rfl⟩
    · cases he
    cases he
    obtain rfl := Option.some.inj (hr.symm.trans ht)
    obtain ⟨⟨h₁, r₁, n₁⟩, hadv, he⟩ := Option.map_eq_some_iff.mp ha
    cases he
    simp only [Request.advance, hpc] at hadv
    split at hadv
    · rename_i sent _ hrecv
      refine Or.inl ⟨sent.event, ?_⟩
      simp only [itemsAt, hr, hpc, hrecv, if_true]
      rfl
    · rename_i n pos' hrecv
      refine Or.inr (Or.inl ⟨.other s!"Lagged by {n} events", n, pos', ?_, hrecv⟩)
      simp only [itemsAt, hr, hpc, hrecv, if_true]
      rfl
    · rename_i hrecv
      cases hadv
      refine Or.inr (Or.inr ⟨?_, _, Machine.getElem?_self ht, rfl⟩)
      simp only [itemsAt, hr, hpc, hrecv, if_true]
      rfl
    · cases hadv
  | _ => cases h

/-- A call that is done stays done. -/
theorem done_step {r : Request} {o : Outcome} (hs : server.step c l = some c')
    (hr : c.threads[i]? = some (.request r)) (hpc : r.pc = .done o) :
    c'.threads[i]? = some (.request r) := by
  rcases Machine.step_cases hs with ⟨t, rfl, -, rfl⟩ | ⟨j, m, t, h', t', new, rfl, ht, ha, rfl⟩
  · exact Places.getElem?_append_of_some hr
  · by_cases hij : i = j
    · subst hij
      obtain rfl := Option.some.inj (hr.symm.trans ht)
      cases m with
      | tick tick =>
        obtain ⟨⟨h₁, r₁, n₁⟩, hadv, -⟩ := Option.map_eq_some_iff.mp ha
        simp only [Request.advance, hpc] at hadv
        cases hadv
      | drop =>
        obtain ⟨r₁, hgive, -⟩ := Option.map_eq_some_iff.mp ha
        simp only [Request.give, hpc] at hgive
        cases hgive
      | _ => cases ha
    · exact Machine.getElem?_of_ne hr hij

end

/-! ### What has gone through -/

/-- Nothing but events. -/
def AllEvents (items : List (Except A2AError Event)) : Prop :=
  ∀ item ∈ items, ∃ event, item = .ok event

/-- A poll of stream `i` was told how much it had missed, and it was the last. -/
def BrokenOff (c₀ : ServerConfig) (ls : List (Label Thread Move)) (i : ℕ) : Prop :=
  ∃ pre l rest c₁ c₂ e, ls = pre ++ l :: rest ∧ server.exec c₀ pre = some c₁ ∧
    polls i c₁ l = true ∧ server.step c₁ l = some c₂ ∧ itemsAt i c₁ l = [.error e] ∧
    handedTo i c₀ ls = handedTo i c₀ pre ++ [.error e] ∧ AllEvents (handedTo i c₀ pre)

section

variable [F64] [ProtoEnum Proto.Role] [ProtoEnum Proto.TaskState] [Chrono]
  {i : ℕ} {c c' c₀ : ServerConfig} {l : Label Thread Move} {ls : List (Label Thread Move)}
  {s s' : StreamedCall} {p' : Pipe (Except GrpcStatus StreamResponse)}

/-- What the task has made of the items handed to it is a run of the pipe; while its
loop goes on they were all events, and if it is over although the client is there,
the stream was at its end or had missed something. -/
structure Conveys (i : ℕ) (c₀ : ServerConfig) (ls : List (Label Thread Move))
    (s : StreamedCall) : Prop where
  run : server.exec c₀ ls = some s.config
  pipe : ∃ acts, (Pipe.new 32).exec acts = some s.pipe ∧
    fed acts = spawnEventStream (handedTo i c₀ ls)
  going : s.pipe.running = true → AllEvents (handedTo i c₀ ls)
  stopped : s.pipe.running = false → s.pipe.connected = true → BrokenOff c₀ ls i ∨
    AllEvents (handedTo i c₀ ls) ∧ ∃ r, s.config.threads[i]? = some (.request r) ∧
      r.pc = .done .streamed

omit [F64] [ProtoEnum Proto.Role] [ProtoEnum Proto.TaskState] [Chrono] in
theorem BrokenOff.concat (h : BrokenOff c₀ ls i)
    (hsame : handedTo i c₀ (ls ++ [l]) = handedTo i c₀ ls) : BrokenOff c₀ (ls ++ [l]) i := by
  obtain ⟨pre, l', rest, c₁, c₂, e, rfl, hpre, hpolls, hs, hitems, hhanded, hall⟩ := h
  exact ⟨pre, l', rest ++ [l], c₁, c₂, e, by simp, hpre, hpolls, hs, hitems,
    hsame.trans hhanded, hall⟩

theorem Conveys.new (c₀ : ServerConfig) : Conveys i c₀ [] (.new c₀) where
  run := rfl
  pipe := ⟨[], rfl, rfl⟩
  going _ item hitem := by cases hitem
  stopped hover := by cases hover

/-- A step of the server that is none of the task's. -/
theorem Conveys.quiet (h : Conveys i c₀ ls s) (hs : server.step s.config l = some c')
    (hpolls : ¬ polls i s.config l = true) : Conveys i c₀ (ls ++ [l]) ⟨c', s.pipe⟩ := by
  have hsame : handedTo i c₀ (ls ++ [l]) = handedTo i c₀ ls := by
    rw [handedTo_concat h.run, itemsAt_of_not_polls hpolls, List.append_nil]
  refine ⟨?_, ?_, fun hgoing => ?_, fun hover hthere => ?_⟩
  · rw [Machine.Reach.exec_concat, h.run]
    exact hs
  · rw [hsame]
    exact h.pipe
  · rw [hsame]
    exact h.going hgoing
  · rcases h.stopped hover hthere with hbroken | ⟨hall, r, hr, hpc⟩
    · exact Or.inl (hbroken.concat hsame)
    · rw [hsame]
      exact Or.inr ⟨hall, r, done_step hs hr hpc, hpc⟩

/-- The task polls, and its loop was not over. -/
theorem Conveys.poll (h : Conveys i c₀ ls s) (hs : server.step s.config l = some c')
    (hpolls : polls i s.config l = true)
    (ht : s.pipe.turn (forwarded (itemsAt i s.config l).head?) = some p') :
    Conveys i c₀ (ls ++ [l]) ⟨c', p'⟩ := by
  obtain ⟨hrunning, -, hp'⟩ := Pipe.of_turn ht
  have hall := h.going hrunning
  have hhanded : handedTo i c₀ (ls ++ [l]) = handedTo i c₀ ls ++ itemsAt i s.config l :=
    handedTo_concat h.run i l
  obtain ⟨acts, hacts, hfed⟩ := h.pipe
  have hpipe : (Pipe.new 32).exec
      (acts ++ [.turn (forwarded (itemsAt i s.config l).head?)]) = some p' := by
    rw [Pipe.exec_concat, hacts]
    exact ht
  have hfed' : fed (acts ++ [.turn (forwarded (itemsAt i s.config l).head?)]) =
      spawnEventStream (handedTo i c₀ ls) ++
        (forwarded (itemsAt i s.config l).head?).value?.toList := by
    rw [fed, List.flatMap_append, ← hfed]
    exact congrArg _ (List.append_nil _)
  have hrun : server.exec c₀ (ls ++ [l]) = some c' := by
    rw [Machine.Reach.exec_concat, h.run]
    exact hs
  have hgoes : p'.running = (forwarded (itemsAt i s.config l).head?).goesOn := by rw [hp']
  obtain ⟨tick, r, q, pos, rfl, hr, hpc, hcase⟩ := poll_cases hpolls hs
  rcases hcase with ⟨event, hitems⟩ | ⟨e, n, pos', hitems, hrecv⟩ | ⟨hitems, r', hr', hpc'⟩
  · have hall' : AllEvents (handedTo i c₀ ls ++ [.ok event]) := by
      intro item hitem
      rcases List.mem_append.mp hitem with hitem | hitem
      · exact hall item hitem
      · exact ⟨event, List.mem_singleton.mp hitem⟩
    rw [hitems] at hpipe hfed' hgoes hhanded
    refine ⟨hrun, ⟨_, hpipe, ?_⟩, fun _ => ?_, fun hover => ?_⟩
    · rw [hfed', hhanded, spawnEventStream_append hall, spawnEventStream_singleton]
      rfl
    · rw [hhanded]
      exact hall'
    · have hgoing : (forwarded (some (.ok event))).goesOn = true :=
        goesOn_forwarded_iff.mpr ⟨event, rfl⟩
      rw [show p'.running = true from hgoes.trans hgoing] at hover
      cases hover
  · -- at an error the loop ends, with nothing sent
    rw [hitems] at hpipe hfed' hgoes hhanded
    refine ⟨hrun, ⟨_, hpipe, ?_⟩, fun hgoing => ?_, fun _ _ => Or.inl ?_⟩
    · rw [hfed', hhanded, spawnEventStream_append hall, spawnEventStream_singleton]
      rfl
    · rw [show p'.running = false from hgoes] at hgoing
      cases hgoing
    · exact ⟨ls, _, [], s.config, c', e, rfl, h.run, hpolls, hs, hitems, hhanded, hall⟩
  · rw [hitems] at hpipe hfed' hgoes hhanded
    rw [List.append_nil] at hhanded
    refine ⟨hrun, ⟨_, hpipe, ?_⟩, fun _ => ?_, fun _ _ => Or.inr ⟨?_, r', hr', hpc'⟩⟩
    · rw [hfed', hhanded]
      exact List.append_nil _
    · rw [hhanded]
      exact hall
    · rw [hhanded]
      exact hall

/-- A step of the channel. -/
theorem Conveys.pipe_step (h : Conveys i c₀ ls s) {a : Act (Except GrpcStatus StreamResponse)}
    (hs : s.pipe.step a = some p') (hfed : fed [a] = [])
    (hrunning : p'.running = true → s.pipe.running = true)
    (hover : p'.running = false → p'.connected = true →
      s.pipe.running = false ∧ s.pipe.connected = true) :
    Conveys i c₀ ls { s with pipe := p' } where
  run := h.run
  pipe := by
    obtain ⟨acts, hacts, hsame⟩ := h.pipe
    refine ⟨acts ++ [a], ?_, ?_⟩
    · rw [Pipe.exec_concat, hacts]
      exact hs
    · rw [← hsame, fed, List.flatMap_append]
      exact (congrArg _ hfed).trans (List.append_nil _)
  going hgoing := h.going (hrunning hgoing)
  stopped hstopped hthere := h.stopped (hover hstopped hthere).1 (hover hstopped hthere).2

theorem Conveys.serve (h : Conveys i c₀ ls s) (hs : s.serve i l = some s') :
    Conveys i c₀ (ls ++ [l]) s' := by
  obtain ⟨c', hstep, hrest⟩ := Option.bind_eq_some_iff.mp hs
  split at hrest
  · rename_i hpolls
    obtain ⟨p', ht, rfl⟩ := Option.map_eq_some_iff.mp hrest
    exact h.poll hstep hpolls ht
  · rename_i hpolls
    split at hrest
    · cases hrest
    · obtain rfl := Option.some.inj hrest
      exact h.quiet hstep hpolls

theorem Conveys.step (h : Conveys i c₀ ls s) {a : StreamedAct} (hs : s.step i a = some s') :
    Conveys i c₀ (ls ++ served [a]) s' := by
  cases a with
  | server l => exact h.serve hs
  | send =>
    obtain ⟨p', hsend, rfl⟩ := Option.map_eq_some_iff.mp hs
    obtain ⟨b, -, hcase⟩ := Pipe.of_send hsend
    have hpipe := h.pipe_step (a := .send) hsend rfl
    change Conveys i c₀ (ls ++ []) _
    rw [List.append_nil]
    rcases hcase with ⟨hgone, rfl⟩ | ⟨-, -, rfl⟩
    · refine hpipe (fun hgoing => by cases hgoing) fun _ hthere => ?_
      rw [show s.pipe.connected = true from hthere] at hgone
      cases hgone
    · exact hpipe id fun hover hthere => ⟨hover, hthere⟩
  | take =>
    obtain ⟨p', htake, rfl⟩ := Option.map_eq_some_iff.mp hs
    obtain ⟨b, rest, -, rfl⟩ := Pipe.of_take htake
    change Conveys i c₀ (ls ++ []) _
    rw [List.append_nil]
    exact h.pipe_step (a := .take) htake rfl id fun hover hthere => ⟨hover, hthere⟩
  | leave =>
    obtain ⟨p', hleave, rfl⟩ := Option.map_eq_some_iff.mp hs
    obtain ⟨-, rfl⟩ := Pipe.of_leave hleave
    change Conveys i c₀ (ls ++ []) _
    rw [List.append_nil]
    exact h.pipe_step (a := .leave) hleave rfl id fun _ hthere => by cases hthere

theorem StreamedCall.exec_concat (acts : List StreamedAct) (a : StreamedAct) :
    s.exec i (acts ++ [a]) = (s.exec i acts).bind fun s' => s'.step i a := by
  induction acts generalizing s with
  | nil =>
    change (s.step i a).bind some = s.step i a
    exact Option.bind_fun_some _
  | cons a' acts ih =>
    rw [List.cons_append, StreamedCall.exec, StreamedCall.exec, Option.bind_assoc]
    congr 1
    funext s'
    exact ih

theorem conveys_exec {acts : List StreamedAct}
    (h : (StreamedCall.new c₀).exec i acts = some s) : Conveys i c₀ (served acts) s := by
  induction acts using List.reverseRecOn generalizing s with
  | nil =>
    rw [← Option.some.inj h]
    exact .new c₀
  | append_singleton acts a ih =>
    rw [StreamedCall.exec_concat] at h
    obtain ⟨s₁, h₁, hs⟩ := Option.bind_eq_some_iff.mp h
    have hserved : served (acts ++ [a]) = served acts ++ served [a] := List.filterMap_append
    rw [hserved]
    exact (ih h₁).step hs

end

/-! ### Every run -/

section

variable [F64] [ProtoEnum Proto.Role] [ProtoEnum Proto.TaskState] [Chrono]
  {i : ℕ} {c c₀ : ServerConfig} {ls : List (Label Thread Move)} {acts : List StreamedAct}
  {s : StreamedCall} {sent : List (Except GrpcStatus StreamResponse)}

/-- The stream was at its end: what was sent are the updates from its subscription
on, and there will be no more. -/
def Completed (c₀ : ServerConfig) (ls : List (Label Thread Move)) (c : ServerConfig) (i : ℕ)
    (sent : List (Except GrpcStatus StreamResponse)) : Prop :=
  ∃ q since, Deserted c q ∧
    Accounted c₀ ls c i q since (c.shared.queueManager.log q).length ∧
    sent = updatesOf ((c.shared.queueManager.log q).drop since)

/-- At a poll the queue had gone on further than it holds: what was sent are the
updates up to where the stream was then. -/
def CutOff (c₀ : ServerConfig) (ls : List (Label Thread Move)) (i : ℕ)
    (sent : List (Except GrpcStatus StreamResponse)) : Prop :=
  ∃ pre tick rest c q since pos ch, ls = pre ++ .run i (.tick tick) :: rest ∧
    server.exec c₀ pre = some c ∧ Accounted c₀ pre c i q since pos ∧
    c.shared.queueManager.channel q = some ch ∧ pos + ch.capacity < ch.log.length ∧
    sent = updatesOf ((ch.log.take pos).drop since)

omit [F64] [ProtoEnum Proto.Role] [ProtoEnum Proto.TaskState] [Chrono] in
/-- Items that are all events are the entries they stand for. -/
theorem eq_map_of_forall₂ {items : List (Except A2AError Event)} {parts : List (List Sent)}
    (h : List.Forall₂ StandsFor items parts) (hall : AllEvents items) :
    items = parts.flatten.map fun s => .ok s.event := by
  induction h with
  | nil => rfl
  | cons hitem _ ih =>
    obtain ⟨⟨event, rfl⟩, hitems⟩ := List.forall_mem_cons.mp hall
    cases hitem with
    | event s => exact congrArg (_ :: ·) (ih hitems)

omit [F64] [ProtoEnum Proto.Role] [ProtoEnum Proto.TaskState] [Chrono] in
theorem Accounted.eq_map {q since pos : ℕ} (h : Accounted c₀ ls c i q since pos)
    (hall : AllEvents (handedTo i c₀ ls)) : handedTo i c₀ ls =
      (((c.shared.queueManager.log q).take pos).drop since).map fun s => .ok s.event := by
  obtain ⟨parts, hparts, hflat⟩ := h.told.parts
  rw [← hflat]
  exact eq_map_of_forall₂ hparts hall

theorem completed_of_done (h₀ : Initial c₀) (hrun : server.exec c₀ ls = some c)
    (hall : AllEvents (handedTo i c₀ ls)) {r : Request} (hr : c.threads[i]? = some (.request r))
    (hpc : r.pc = .done .streamed) :
    Completed c₀ ls c i (spawnEventStream (handedTo i c₀ ls)) := by
  have hA := (accounting_exec h₀ hrun i).2 r hr
  rw [Request.Accounts, hpc] at hA
  obtain ⟨q, since, hacc, hdes⟩ := hA
  refine ⟨q, since, hdes, hacc, ?_⟩
  rw [updatesOf, hacc.eq_map hall, List.take_length]

/-- A stream that had missed something was further behind than the queue holds. -/
theorem cutOff_of_brokenOff (h₀ : Initial c₀) (h : BrokenOff c₀ ls i) :
    CutOff c₀ ls i (spawnEventStream (handedTo i c₀ ls)) := by
  obtain ⟨pre, l, rest, c₁, c₂, e, rfl, hpre, hpolls, hs, hitems, hhanded, hall⟩ := h
  obtain ⟨tick, r, q, pos, rfl, hr, hpc, hcase⟩ := poll_cases hpolls hs
  obtain ⟨n, pos', hrecv⟩ : ∃ n pos',
      c₁.shared.recv c₁.threads q pos = some (.lagged n, pos') := by
    rcases hcase with ⟨event, hevent⟩ | ⟨_, n, pos', -, hrecv⟩ | ⟨hnone, -⟩
    · rw [hitems] at hevent
      cases hevent
    · exact ⟨n, pos', hrecv⟩
    · rw [hitems] at hnone
      cases hnone
  have hA := (accounting_exec h₀ hpre i).2 r hr
  rw [Request.Accounts, hpc] at hA
  obtain ⟨since, hacc⟩ := hA
  obtain ⟨ch, hch, hlog, hr'⟩ := DefaultRequestHandler.of_recv hrecv
  refine ⟨pre, tick, rest, c₁, q, since, pos, ch, rfl, hpre, hacc, hch, ?_, ?_⟩
  · have hlt := (Channel.recv_lagged hr').1
    have hold : pos' = ch.log.length - ch.capacity := Channel.recv_lagged_oldest hr'
    omega
  · rw [hhanded, spawnEventStream_append hall, spawnEventStream_singleton, updatesOf, ← hlog,
      hacc.eq_map hall]
    exact List.append_nil _

/-- **A stream over gRPC, whatever the interleaving.**  The client receives, once and
in order, the updates among what the stream was handed, and the task is never
further ahead than the channel and one.  With nothing more to send or to read it
has them all.  When its stream ends, with no error in it, it has all updates from the
subscription on, or the task had fallen behind and the client has those before. -/
theorem forwarded_run (h₀ : Initial c₀) (hrun : (StreamedCall.new c₀).exec i acts = some s) :
    s.pipe.taken <+: spawnEventStream (handedTo i c₀ (served acts)) ∧
      (s.pipe.connected = true →
        (spawnEventStream (handedTo i c₀ (served acts))).length ≤ s.pipe.taken.length + 33) ∧
      (s.pipe.connected = true → s.pipe.send = none → s.pipe.take = none →
        s.pipe.taken = spawnEventStream (handedTo i c₀ (served acts))) ∧
      (s.pipe.ended = true → (∀ r ∈ s.pipe.taken, ∃ response, r = .ok response) ∧
        (Completed c₀ (served acts) s.config i s.pipe.taken ∨
          CutOff c₀ (served acts) i s.pipe.taken)) := by
  have hF := conveys_exec hrun
  obtain ⟨pacts, hpacts, hfed⟩ := hF.pipe
  obtain ⟨hcarries, hcap⟩ := Pipe.exec_new hpacts
  rw [hfed] at hcarries
  have hpos : 0 < s.pipe.capacity := by
    rw [hcap]
    decide
  refine ⟨hcarries.taken, fun hthere => ?_, hcarries.eq_of_stuck hpos, fun hended => ?_⟩
  · have hle := hcarries.length_le hthere
    rwa [hcap] at hle
  · obtain ⟨hthere, hover, -, -⟩ := Pipe.ended_iff.mp hended
    rw [hcarries.eq_of_ended hended]
    refine ⟨fun r hr => ok_of_mem_spawnEventStream hr, ?_⟩
    rcases hF.stopped hover hthere with hbroken | ⟨hall, r, hr, hpc⟩
    · exact Or.inr (cutOff_of_brokenOff h₀ hbroken)
    · exact Or.inl (completed_of_done h₀ hF.run hall hr hpc)

end

/-- The client reads an update, and before the task polls again two more events are
sent to a queue that holds one. -/
def outrunning : List StreamedAct :=
  let working : Event := .statusUpdate ⟨"t1", "c1", ⟨.working, none, none⟩, none⟩
  .server (.arrive (streamTo "m1")) :: List.replicate 5 (.server (.run 0 (.tick noon))) ++
    [.server (.run 1 (.emit working)), .server (.run 0 (.tick noon)), .send, .take,
      .server (.run 1 (.emit working)), .server (.run 1 (.emit completedEvent)),
      .server (.run 0 (.tick noon))]

def outrunCall : StreamedCall :=
  letI := oneFloat
  letI := roleNumbers
  letI := stateNumbers
  letI := twoDates
  ((StreamedCall.new ⟨narrowHandler, []⟩).exec 0 outrunning).getD (.new ⟨narrowHandler, []⟩)

/-- The client has the first update and the end, and is not told of the others. -/
theorem forwarded_run_outrunning :
    letI := oneFloat
    letI := roleNumbers
    letI := stateNumbers
    letI := twoDates
    outrunCall.pipe.taken.length = 1 ∧
      (Completed ⟨narrowHandler, []⟩ (served outrunning) outrunCall.config 0
          outrunCall.pipe.taken ∨
        CutOff ⟨narrowHandler, []⟩ (served outrunning) 0 outrunCall.pipe.taken) := by
  let := oneFloat
  let := roleNumbers
  let := stateNumbers
  let := twoDates
  have hrun : (StreamedCall.new ⟨narrowHandler, []⟩).exec 0 outrunning = some outrunCall := rfl
  have hended : outrunCall.pipe.ended = true := by decide +kernel
  refine ⟨by decide +kernel, ?_⟩
  exact ((forwarded_run ⟨rfl, rfl, rfl, rfl⟩ hrun).2.2.2 hended).2

end Ra2a
