import Ra2a.Server.Handler.Answer
import Ra2a.Server.Handler.Modes

/-!
# A send without a configuration

A configuration that says nothing has `return_immediately` false, as its field
says it has by default.  A request without a configuration is sent as if it were
true: `on_message_send` asks `is_none_or`.  So the collector of the one returns
on the first event with a task, and that of the other waits for one that ends
the task.

Both come to the same exactly when they stop at one event, or none of them
stops, or what comes between the two events they stop at makes no difference
(`omitted_configuration_iff`).
-/

namespace Ra2a

/-- `SendMessageConfiguration::default`. -/
def SendMessageConfiguration.default : SendMessageConfiguration := ⟨[], none, none, false⟩

/-- The request without a configuration. -/
def SendMessageRequest.unconfigured (p : SendMessageRequest) : SendMessageRequest :=
  { p with configuration := none }

/-- The request with the default configuration. -/
def SendMessageRequest.defaulted (p : SendMessageRequest) : SendMessageRequest :=
  { p with configuration := some .default }

/-- The events a collector has read and the one it stops at, if there is one. -/
def stopping (nb : Bool) : List (Event × Tick) → Option (List (Event × Tick) × Event × Tick)
  | [] => none
  | p :: rest =>
    if stopsAt nb p.1 then some ([], p) else (stopping nb rest).map fun s => (p :: s.1, s.2)

/-- What a collector receives while none of its events is lost. -/
def receiptsOf (events : List (Event × Tick)) : List Receipt := events.map fun p => .ok p.1 p.2

theorem eq_append_of_stopping {nb : Bool} {events pre : List (Event × Tick)} {p : Event × Tick}
    (h : stopping nb events = some (pre, p)) :
    stopsAt nb p.1 = true ∧ ∃ post, events = pre ++ p :: post := by
  induction events generalizing pre with
  | nil => cases h
  | cons d rest ih =>
    rw [stopping] at h
    by_cases hs : stopsAt nb d.1 = true
    · rw [if_pos hs] at h
      cases h
      exact ⟨hs, rest, rfl⟩
    · rw [if_neg hs] at h
      obtain ⟨⟨pre', p'⟩, hrest, he⟩ := Option.map_eq_some_iff.mp h
      cases he
      obtain ⟨hstop, post, rfl⟩ := ih hrest
      exact ⟨hstop, post, rfl⟩

namespace DefaultRequestHandler

variable {h : DefaultRequestHandler}

/-- `on_message_send` on what its collector receives: what it leaves, and what it answers
unless it waits for more. -/
def sendAnswered (h : DefaultRequestHandler) (params : SendMessageRequest)
    (serviceParams : Finmap fun _ : String => List String) (tick : Tick)
    (receipts : List Receipt) :
    DefaultRequestHandler × Option (Except A2AError SendMessageResponse) :=
  match h.buildRequestContext params serviceParams tick with
  | (h, .ready ctx _) => h.messageSend params ctx receipts
  | (h, .refused e) => (h, some (.error e))
  | (h, .panicked) => (h, none)

/-- A collector that loses nothing stops where `stopping` says, or waits. -/
theorem collectResult_receiptsOf (nb : Bool) (last : Option Event)
    (events : List (Event × Tick)) :
    collectResult nb h last (receiptsOf events) =
      match stopping nb events with
      | some (pre, p) => (h.persistAll (pre ++ [p]),
          some (.ok ((h.persistAll (pre ++ [p])).answer nb p.1 p.2.now)))
      | none => (h.persistAll events, none) := by
  induction events generalizing h last with
  | nil => rfl
  | cons p rest ih =>
    change collectResult nb h last (.ok p.1 p.2 :: receiptsOf rest) = _
    rw [collectResult_ok, stopping]
    by_cases hs : stopsAt nb p.1 = true
    · rw [if_pos hs, if_pos hs]
      rfl
    · rw [if_neg hs, if_neg hs, ih]
      cases stopping nb rest with
      | none => rfl
      | some s => rfl

/-- What a collector answers on an event it has persisted: a message for itself, and for any
other event the task there is. -/
def answerOn (h : DefaultRequestHandler) (event : Event) (now : String) : SendMessageResponse :=
  match event with
  | .message m => .message m
  | e => .task (h.taskOrFallback e.taskId now)

theorem answerOn_of_ne {event : Event} (hm : ∀ m, event ≠ .message m) (now : String) :
    h.answerOn event now = .task (h.taskOrFallback event.taskId now) := by
  cases event with
  | message m => exact absurd rfl (hm m)
  | _ => rfl

/-- Once it has persisted the event, it makes no difference why it stops at it. -/
theorem answer_persisted {nb : Bool} (event : Event) (pre : List (Event × Tick)) (tick : Tick) :
    (h.persistAll (pre ++ [(event, tick)])).answer nb event tick.now =
      (h.persistAll (pre ++ [(event, tick)])).answerOn event tick.now := by
  unfold answer answerOn
  cases hint : shouldInterruptNonStreaming nb event with
  | some p =>
    cases event with
    | message m => cases nb <;> cases hint
    | _ => rfl
  | none =>
    cases event with
    | task t =>
      simp only [Option.isSome_none, Bool.false_eq_true, if_false]
      rw [show (Event.task t).taskId = t.id from rfl, taskOrFallback_task]
    | _ => rfl

/-! ### Two collectors over one sequence of events -/

/-- Two events that collectors stop at come to the same, each with what is persisted before
it: both answer with the task of one id, and what one of them persists and the other does
not writes nothing new.  Where that task is not stored, the task made up for it is dated by
the clock. -/
def Indifferent (h : DefaultRequestHandler) (s s' : List (Event × Tick) × Event × Tick) : Prop :=
  (∀ m, s.2.1 ≠ .message m) ∧ (∀ m, s'.2.1 ≠ .message m) ∧ s.2.1.taskId = s'.2.1.taskId ∧
    (∀ k, (h.persistAll (s.1 ++ [s.2])).WritesNothingNew k
        ((s'.1 ++ [s'.2]).drop (s.1 ++ [s.2]).length) ∧
      (h.persistAll (s'.1 ++ [s'.2])).WritesNothingNew k
        ((s.1 ++ [s.2]).drop (s'.1 ++ [s'.2]).length)) ∧
    ((h.persistAll (s.1 ++ [s.2])).getTaskInternal s.2.1.taskId = none →
      s.2.2.now = s'.2.2.now)

/-- It makes no difference to these events whether a collector blocks. -/
def Alike (h : DefaultRequestHandler) (events : List (Event × Tick)) : Prop :=
  match stopping true events, stopping false events with
  | some s, some s' => s = s' ∨ h.Indifferent s s'
  | none, none => True
  | _, _ => False

theorem persistAll_append_list (xs ys : List (Event × Tick)) :
    h.persistAll (xs ++ ys) = (h.persistAll xs).persistAll ys := by
  rw [persistAll, List.foldl_append]
  rfl

/-- Where one sequence of events goes on from the other, the stores are the same if the rest
writes nothing new. -/
theorem sameStore_of_prefix {as bs : List (Event × Tick)} (hab : as <+: bs) (k : TaskId) :
    (h.persistAll as).getTaskInternal k = (h.persistAll bs).getTaskInternal k ↔
      (h.persistAll as).WritesNothingNew k (bs.drop as.length) ∧
        (h.persistAll bs).WritesNothingNew k (as.drop bs.length) := by
  obtain ⟨rest, rfl⟩ := hab
  have hnil : (h.persistAll (as ++ rest)).WritesNothingNew k (as.drop (as ++ rest).length) := by
    rw [List.drop_eq_nil_of_le (by rw [List.length_append]; omega),
      ← getTaskInternal_persistAll_eq_iff]
    rfl
  rw [and_iff_left hnil, List.drop_left, ← getTaskInternal_persistAll_eq_iff,
    persistAll_append_list, eq_comm]

theorem sameStore_iff {events as bs : List (Event × Tick)} (ha : as <+: events)
    (hb : bs <+: events) (k : TaskId) :
    (h.persistAll as).getTaskInternal k = (h.persistAll bs).getTaskInternal k ↔
      (h.persistAll as).WritesNothingNew k (bs.drop as.length) ∧
        (h.persistAll bs).WritesNothingNew k (as.drop bs.length) := by
  rcases List.prefix_or_prefix_of_prefix ha hb with hab | hba
  · exact sameStore_of_prefix hab k
  · rw [eq_comm, and_comm]
    exact sameStore_of_prefix hba k

/-- The task answered is the same if its id is, and what is stored there; a task made up has
the date of the clock besides. -/
theorem taskOrFallback_eq_iff {g : DefaultRequestHandler} {k l : TaskId} {now now' : String}
    (hsame : ∀ k, h.getTaskInternal k = g.getTaskInternal k) :
    h.taskOrFallback k now = g.taskOrFallback l now' ↔
      k = l ∧ (h.getTaskInternal k = none → now = now') := by
  have hid : ∀ (f : DefaultRequestHandler) (k : TaskId) (now : String),
      (f.taskOrFallback k now).id = k := by
    intro f k now
    unfold taskOrFallback
    cases hf : f.getTaskInternal k with
    | none => rfl
    | some t => exact id_of_getTaskInternal hf
  constructor
  · intro he
    obtain rfl : k = l := by rw [← hid h k now, he, hid]
    refine ⟨rfl, fun hnone => ?_⟩
    rw [taskOrFallback, taskOrFallback, ← hsame, hnone, Option.getD_none, Option.getD_none] at he
    have hstamp := congrArg (fun t => t.status.timestamp) he
    exact Option.some.inj hstamp
  · rintro ⟨rfl, hnow⟩
    rw [taskOrFallback, taskOrFallback, ← hsame]
    cases hf : h.getTaskInternal k with
    | none => rw [hnow hf]
    | some t => rfl

theorem append_prefix_of_stopping {nb : Bool} {events pre : List (Event × Tick)}
    {p : Event × Tick} (h : stopping nb events = some (pre, p)) : pre ++ [p] <+: events := by
  obtain ⟨-, post, rfl⟩ := eq_append_of_stopping h
  exact ⟨post, by rw [List.append_assoc, List.singleton_append]⟩

/-- Two collectors that both would stop where the other does stop at one event. -/
theorem stopping_eq {nb nb' : Bool} {events : List (Event × Tick)}
    {s s' : List (Event × Tick) × Event × Tick} (hs : stopping nb events = some s)
    (hs' : stopping nb' events = some s') (h₁ : stopsAt nb' s.2.1 = true)
    (h₂ : stopsAt nb s'.2.1 = true) : s = s' := by
  induction events generalizing s s' with
  | nil => cases hs
  | cons d rest ih =>
    rw [stopping] at hs hs'
    by_cases hd : stopsAt nb d.1 = true
    · rw [if_pos hd] at hs
      cases hs
      rw [if_pos h₁] at hs'
      exact Option.some.inj hs'
    · rw [if_neg hd] at hs
      obtain ⟨r, hr, rfl⟩ := Option.map_eq_some_iff.mp hs
      by_cases hd' : stopsAt nb' d.1 = true
      · rw [if_pos hd'] at hs'
        cases hs'
        exact absurd h₂ hd
      · rw [if_neg hd'] at hs'
        obtain ⟨r', hr', rfl⟩ := Option.map_eq_some_iff.mp hs'
        rw [ih hr hr' h₁ h₂]

theorem stopsAt_message (nb : Bool) (m : Message) : stopsAt nb (.message m) = true := by
  simp [stopsAt, Event.isTerminal]

/-- Two collectors that stop answer and store the same exactly if they stop at one event, or
at two that come to the same. -/
theorem stopped_alike_iff {events : List (Event × Tick)}
    {s s' : List (Event × Tick) × Event × Tick} (hs : stopping true events = some s)
    (hs' : stopping false events = some s') :
    ((h.persistAll (s.1 ++ [s.2])).answer true s.2.1 s.2.2.now =
          (h.persistAll (s'.1 ++ [s'.2])).answer false s'.2.1 s'.2.2.now ∧
        ∀ k, (h.persistAll (s.1 ++ [s.2])).getTaskInternal k =
          (h.persistAll (s'.1 ++ [s'.2])).getTaskInternal k) ↔
      s = s' ∨ h.Indifferent s s' := by
  have hstore := sameStore_iff (h := h) (append_prefix_of_stopping hs)
    (append_prefix_of_stopping hs')
  have hone := stopping_eq hs hs'
  obtain ⟨pre, event, tick⟩ := s
  obtain ⟨pre', event', tick'⟩ := s'
  simp only [answer_persisted, Indifferent, ← hstore]
  constructor
  · rintro ⟨hanswer, hsame⟩
    by_cases hm : ∀ m, event ≠ .message m
    · by_cases hm' : ∀ m, event' ≠ .message m
      · rw [answerOn_of_ne hm, answerOn_of_ne hm', SendMessageResponse.task.injEq,
          taskOrFallback_eq_iff hsame] at hanswer
        exact Or.inr ⟨hm, hm', hanswer.1, hsame, hanswer.2⟩
      · push Not at hm'
        obtain ⟨m, rfl⟩ := hm'
        rw [answerOn_of_ne hm] at hanswer
        cases hanswer
    · push Not at hm
      obtain ⟨m, rfl⟩ := hm
      by_cases hm' : ∀ m, event' ≠ .message m
      · rw [answerOn_of_ne hm'] at hanswer
        cases hanswer
      · -- a message stops both
        push Not at hm'
        obtain ⟨m', rfl⟩ := hm'
        exact Or.inl (hone (stopsAt_message _ _) (stopsAt_message _ _))
  · rintro (he | ⟨hm, hm', hk, hsame, hnow⟩)
    · cases he
      exact ⟨rfl, fun _ => rfl⟩
    · rw [answerOn_of_ne hm, answerOn_of_ne hm', SendMessageResponse.task.injEq,
        taskOrFallback_eq_iff hsame]
      exact ⟨⟨hk, hnow⟩, hsame⟩

/-- The last thing a send does to its answer changes nothing in these two. -/
theorem trim_unconfigured (p : SendMessageRequest) (r : SendMessageResponse) :
    p.unconfigured.trim r = r := by
  cases r <;> rfl

theorem trim_defaulted (p : SendMessageRequest) (r : SendMessageResponse) :
    p.defaulted.trim r = r := by
  cases r <;> rfl

/-- What a send answers that does nothing to its answer. -/
theorem messageSend_snd {params : SendMessageRequest} (htrim : ∀ r, params.trim r = r)
    (ctx : RequestContext) (receipts : List Receipt) :
    (h.messageSend params ctx receipts).2 =
      (collectResult params.isNonBlocking h none receipts).2 := by
  unfold messageSend
  split
  · rename_i h' result hc
    rw [hc, htrim]
  · rename_i h' r hn hc
    rw [hc]

theorem getTaskInternal_messageSend (params : SendMessageRequest) (ctx : RequestContext)
    (receipts : List Receipt) (k : TaskId) :
    (h.messageSend params ctx receipts).1.getTaskInternal k =
      (collectResult params.isNonBlocking h none receipts).1.getTaskInternal k := by
  rw [collectResult_fst]
  exact congrArg Prod.fst (effects_messageSend k params ctx receipts)

/-- The two modes of one collector agree exactly on events for which blocking makes no
difference. -/
theorem collectors_alike_iff (events : List (Event × Tick)) :
    ((collectResult true h none (receiptsOf events)).2 =
          (collectResult false h none (receiptsOf events)).2 ∧
        ∀ k, (collectResult true h none (receiptsOf events)).1.getTaskInternal k =
          (collectResult false h none (receiptsOf events)).1.getTaskInternal k) ↔
      h.Alike events := by
  simp only [collectResult_receiptsOf, Alike]
  cases hs : stopping true events with
  | none =>
    cases hs' : stopping false events with
    | none => simp
    | some s' => simp
  | some s =>
    cases hs' : stopping false events with
    | none => simp
    | some s' =>
      simp only [Option.some.injEq, Except.ok.injEq]
      exact stopped_alike_iff hs hs'

/-- **A send without a configuration comes to the same as one with the default configuration
exactly when it is not accepted, or blocking makes no difference to the events of its
execution.** -/
theorem omitted_configuration_iff (h : DefaultRequestHandler) (p : SendMessageRequest)
    (serviceParams : Finmap fun _ : String => List String) (tick : Tick)
    (events : List (Event × Tick)) :
    ((h.sendAnswered p.unconfigured serviceParams tick (receiptsOf events)).2 =
          (h.sendAnswered p.defaulted serviceParams tick (receiptsOf events)).2 ∧
        ∀ k, (h.sendAnswered p.unconfigured serviceParams tick
            (receiptsOf events)).1.getTaskInternal k =
          (h.sendAnswered p.defaulted serviceParams tick (receiptsOf events)).1.getTaskInternal k) ↔
      ∀ h' ctx q, h.buildRequestContext p.defaulted serviceParams tick = (h', .ready ctx q) →
        h'.Alike events := by
  have hbuild : h.buildRequestContext p.unconfigured serviceParams tick =
      h.buildRequestContext p.defaulted serviceParams tick := rfl
  unfold sendAnswered
  rw [hbuild]
  rcases hb : h.buildRequestContext p.defaulted serviceParams tick with ⟨h', e | _ | ⟨ctx, q⟩⟩
  · simp
  · simp
  · simp only [messageSend_snd (trim_unconfigured p), messageSend_snd (trim_defaulted p),
      getTaskInternal_messageSend]
    rw [show p.unconfigured.isNonBlocking = true from rfl,
      show p.defaulted.isNonBlocking = false from rfl, collectors_alike_iff]
    constructor
    · rintro halike h'' ctx' q' he
      cases he
      exact halike
    · intro hall
      exact hall h' ctx q rfl

/-- The executor of a send puts the task to work and completes it. -/
def twoStates : List (Event × Tick) :=
  [(.task ⟨"t1", "c1", ⟨.working, none, none⟩, [], [], none⟩, ⟨"12:01", "u1", "u2", "v1"⟩),
    (.task ⟨"t1", "c1", ⟨.completed, none, none⟩, [], [], none⟩, ⟨"12:02", "u1", "u2", "v1"⟩)]

/-- Without a configuration the answer is the task in work, with the default one the task
completed. -/
theorem twoStates_told_apart :
    (new.sendAnswered helloSend.unconfigured ∅ helloTick (receiptsOf twoStates)).2 =
        some (.ok (.task ⟨"t1", "c1", ⟨.working, none, none⟩, [], [], none⟩)) ∧
      (new.sendAnswered helloSend.defaulted ∅ helloTick (receiptsOf twoStates)).2 =
        some (.ok (.task ⟨"t1", "c1", ⟨.completed, none, none⟩, [], [], none⟩)) ∧
      (new.sendAnswered helloSend.unconfigured ∅ helloTick (receiptsOf twoStates)).2 ≠
        (new.sendAnswered helloSend.defaulted ∅ helloTick (receiptsOf twoStates)).2 := by
  decide

end DefaultRequestHandler

end Ra2a
