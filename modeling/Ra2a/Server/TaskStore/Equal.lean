import Ra2a.Server.TaskStore.Sql

/-!
# When a SQL store cannot be told from the in-memory one

The same calls go to a SQL store and to an in-memory store, both empty at first.
A client looks at what they reply, versions aside.

`list` of a SQL store does not read its request: asked for one context, for one
state or for a page, it lists the whole table.  Nor does its `save` read `prev`.
So the two stores do alike exactly as long as the calls restrict nothing
(`sql_equal_iff`): no save has a version that is not the one stored, and what a
list asks for is all there is.
-/

namespace Ra2a

open Session TaskStore

/-- Two replies that a client cannot tell apart, versions aside. -/
inductive SameObservation : Reply → Reply → Prop
  | saved (r r' : Except A2AError TaskVersion)
      (hres : (r.map fun _ => ()) = r'.map fun _ => ()) : SameObservation (.saved r) (.saved r')
  | got (r r' : Option (Task × TaskVersion)) (htask : r.map Prod.fst = r'.map Prod.fst) :
    SameObservation (.got r) (.got r')
  | deleted : SameObservation .deleted .deleted
  | listed (r r' : ListTasksResponse) (htasks : ∀ t, t ∈ r.tasks ↔ t ∈ r'.tasks) :
    SameObservation (.listed r) (.listed r')

/-- A refused save looks like one. -/
theorem SameObservation.refused_iff {r r' : Reply} (h : SameObservation r r') :
    r.Refused ↔ r'.Refused := by
  cases h with
  | saved r r' hres =>
    rw [Reply.Refused, Reply.Refused, Reply.saved.injEq, Reply.saved.injEq]
    cases r <;> cases r' <;> cases hres <;> simp
  | _ => simp [Reply.Refused]

/-! ### The calls that restrict nothing -/

/-- The save is not refused; what the list asks for is all there is, on one page. -/
def InMemoryTaskStore.Unrestricted (s : InMemoryTaskStore) : TraitCall → Prop
  | .save task prev => ¬ s.Conflicts task.id prev
  | .list req => (∀ t, s.task? t.id = some t → req.Matches t) ∧
      (s.matching req = ∅ ∨ req.offset = 0 ∧ (s.matching req).ncard ≤ req.limit)
  | _ => True

/-- None of the calls is restricted by what the in-memory store holds when it comes. -/
def Unrestricted (ops : List Op) : Prop :=
  ∀ past mem o after, InMemorySession past mem → ops = past.map Prod.fst ++ o :: after →
    mem.Unrestricted (o.call (past.map Prod.snd))

/-- A list has every task stored. -/
theorem InMemoryTaskStore.list_whole_iff {s : InMemoryTaskStore} (it : s.Iteration)
    (req : ListTasksRequest) :
    (∀ t, s.task? t.id = some t ↔ t ∈ (s.list it req).tasks) ↔ s.Unrestricted (.list req) := by
  have hpage := @Paging.subset_page_iff _ (it.matching req) req.limit req.offset
    (it.nodup_matching req)
  have hempty : it.matching req = [] ↔ s.matching req = ∅ := by
    rw [List.eq_nil_iff_forall_not_mem, Set.eq_empty_iff_forall_notMem]
    exact forall_congr' fun t => not_congr (it.mem_matching req)
  rw [hempty, ← it.ncard_matching] at hpage
  show _ ↔ (∀ t, s.task? t.id = some t → req.Matches t) ∧ _
  rw [← hpage, tasks_list]
  constructor
  · intro h
    refine ⟨fun t ht => ?_, fun t ht => ?_⟩
    · exact ((it.mem_matching req).mp (Paging.mem_of_mem_page ((h t).mp ht))).2
    · exact (h t).mp ((it.mem_matching req).mp ht).1
  · rintro ⟨hmatch, hall⟩ t
    constructor
    · exact fun ht => hall ((it.mem_matching req).mpr ⟨ht, hmatch t ht⟩)
    · exact fun ht => ((it.mem_matching req).mp (Paging.mem_of_mem_page ht)).1

/-! ### Every call is answered -/

theorem InMemoryTaskStore.exists_answers (s : InMemoryTaskStore) (call : TraitCall) :
    ∃ r s', s.Answers call r s' := by
  cases call with
  | save task prev => exact ⟨_, _, .save task prev⟩
  | get taskId => exact ⟨_, _, .get taskId⟩
  | delete taskId => exact ⟨_, _, .delete taskId⟩
  | list req =>
    obtain ⟨it⟩ := s.nonempty_iteration
    exact ⟨_, _, .list req it⟩

theorem SqlTaskStore.nonempty_selection (s : SqlTaskStore) : Nonempty s.Selection := by
  obtain ⟨rows, hnodup, hmem⟩ := Keyed.OwnKeys.exists_list s.keyed
  exact ⟨rows, hnodup, hmem⟩

section

variable [Base64] [JsonText]

theorem SqlTaskStore.exists_answers (s : SqlTaskStore) (call : TraitCall) :
    ∃ r s', s.Answers call r s' := by
  cases call with
  | save task prev => exact ⟨_, _, .save task prev⟩
  | get taskId => exact ⟨_, _, .get taskId ""⟩
  | delete taskId => exact ⟨_, _, .delete taskId⟩
  | list req =>
    obtain ⟨sel⟩ := s.nonempty_selection
    exact ⟨_, _, .list req sel id⟩

/-! ### The stores compared -/

/-- The two stores cannot be told apart by these calls. -/
def ObservationallyEqual (ops : List Op) : Prop :=
  ∀ past past' sql mem, SqlSession past sql → InMemorySession past' mem →
    past.map Prod.fst = ops → past'.map Prod.fst = ops →
    List.Forall₂ (fun x y => SameObservation x.2 y.2) past past'

/-- **One call** is answered alike exactly if it restricts nothing. -/
theorem Mirrors.sameObservation_iff {sql sql' : SqlTaskStore} {mem mem' : InMemoryTaskStore}
    {o : Op} {r r' : Reply} {past past' : List Reply} (h : Mirrors sql mem)
    (hsql : sql.Answers (o.call past) r sql') (hmem : mem.Answers (o.call past') r' mem') :
    SameObservation r r' ↔ mem.Unrestricted (o.call past') := by
  cases o with
  | save task prev =>
    cases hsql
    cases hmem
    show _ ↔ ¬ mem.Conflicts task.id (prev.value past')
    constructor
    · intro hsame hc
      have hrefused : (Reply.saved (mem.save task (prev.value past')).1).Refused := by
        rw [InMemoryTaskStore.save_of_conflicts hc]
        rfl
      cases hsame.refused_iff.mpr hrefused
    · intro hc
      rw [InMemoryTaskStore.save_of_not_conflicts hc]
      exact .saved _ _ rfl
  | get taskId =>
    cases hsql with
    | get _ now =>
      cases hmem
      exact iff_of_true (.got _ _ (h.get taskId now)) trivial
  | delete taskId =>
    cases hsql
    cases hmem
    exact iff_of_true .deleted trivial
  | list req =>
    cases hsql with
    | list _ sel now =>
      cases hmem with
      | list _ it =>
        have hall : ∀ t, t ∈ (SqlTaskStore.list sel now req).tasks ↔ mem.task? t.id = some t :=
          fun t => (h.list sel it now req).mem_iff.symm.trans it.mem_tasks
        refine Iff.trans ?_ (InMemoryTaskStore.list_whole_iff it req)
        constructor
        · rintro ⟨⟩
          rename_i htasks
          exact fun t => (hall t).symm.trans (htasks t)
        · exact fun hwhole => .listed _ _ fun t => (hall t).trans (hwhole t)

section

variable {past past' : List (Op × Reply)} {sql : SqlTaskStore} {mem : InMemoryTaskStore}

omit [Base64] [JsonText] in
/-- If nothing is refused by the one store, nor is it by the other. -/
theorem accepted_of_sameObservation
    (hsame : List.Forall₂ (fun x y : Op × Reply => SameObservation x.2 y.2) past past')
    (hok : ∀ x ∈ past, ¬ x.2.Refused) : ∀ y ∈ past', ¬ y.2.Refused := by
  induction hsame with
  | nil => exact hok
  | cons hxy _ ih =>
    rw [List.forall_mem_cons] at hok ⊢
    exact ⟨fun hy => hok.1 (hxy.refused_iff.mpr hy), ih hok.2⟩

/-- As long as the replies look alike, the stores hold the same. -/
theorem mirrors_of_sameObservation (h : SqlSession past sql) (h' : InMemorySession past' mem)
    (hops : past.map Prod.fst = past'.map Prod.fst) (hl : ∀ x ∈ past, x.1.Lossless)
    (hsame : List.Forall₂ (fun x y => SameObservation x.2 y.2) past past') : Mirrors sql mem := by
  have hmap := congrArg (List.map Op.unconditional) hops
  rw [List.map_map, List.map_map] at hmap
  have hok := accepted_of_sameObservation hsame h.accepted
  exact (mirrors_of_matched h h' (matched_of_map_eq hmap hl hok)).1

/-- As long as the calls restrict nothing, the replies look alike. -/
theorem sameObservation_of_unrestricted (h : SqlSession past sql) (h' : InMemorySession past' mem)
    (hops : past.map Prod.fst = past'.map Prod.fst) (hl : ∀ x ∈ past, x.1.Lossless)
    (hu : Unrestricted (past'.map Prod.fst)) :
    List.Forall₂ (fun x y => SameObservation x.2 y.2) past past' := by
  induction h generalizing past' mem with
  | nil =>
    rw [List.map_nil, eq_comm, List.map_eq_nil_iff] at hops
    subst hops
    exact List.Forall₂.nil
  | @snoc past _ _ o r prior hans ih =>
    cases h' with
    | nil => simp at hops
    | @snoc past' _ _ o' r' prior' hans' =>
      rw [List.map_append, List.map_append] at hops
      obtain ⟨hpast, ho⟩ := List.append_inj' hops rfl
      cases ho
      rw [List.map_append] at hu
      have hlpast : ∀ x ∈ past, x.1.Lossless := fun x hx => hl x (List.mem_append_left _ hx)
      have hsame := ih prior' hpast hlpast fun past mem o₁ after hrun hops =>
        hu past mem o₁ (after ++ [o]) hrun (by rw [hops, List.append_assoc]; rfl)
      have hrel := mirrors_of_sameObservation prior prior' hpast hlpast hsame
      refine forall₂_concat_iff.mpr ⟨hsame, (hrel.sameObservation_iff hans hans').mpr ?_⟩
      exact hu past' _ o [] prior' rfl

end

/-- **The two stores cannot be told apart exactly if the calls restrict nothing**:
each save is one the in-memory store does not refuse, and each list asks for all
that is stored. -/
theorem sql_equal_iff (ops : List Op) (hl : ∀ o ∈ ops, o.Lossless) :
    ObservationallyEqual ops ↔ Unrestricted ops := by
  have hlossless : ∀ {past : List (Op × Reply)}, past.map Prod.fst <+: ops →
      ∀ x ∈ past, x.1.Lossless := fun hpre x hx => hl x.1 (hpre.subset (List.mem_map_of_mem hx))
  constructor
  · intro hequal past' mem o after h' hops
    -- both stores are given the calls so far, this one and those after it
    obtain ⟨past, sql, h, hpast⟩ := Run.nil.exists_append SqlTaskStore.exists_answers
      (past'.map Prod.fst)
    rw [List.nil_append] at h
    obtain ⟨r, sql', hans⟩ := sql.exists_answers (o.call (past.map Prod.snd))
    obtain ⟨r', mem', hans'⟩ := mem.exists_answers (o.call (past'.map Prod.snd))
    obtain ⟨more, _, hmore, hafter⟩ := (h.snoc hans).exists_append
      SqlTaskStore.exists_answers after
    obtain ⟨more', _, hmore', hafter'⟩ := (h'.snoc hans').exists_append
      InMemoryTaskStore.exists_answers after
    have hall := hequal _ _ _ _ hmore hmore' (by simp [hops, hpast, hafter])
      (by simp [hops, hafter'])
    have hlen : (past ++ [(o, r)]).length = (past' ++ [(o, r')]).length := by
      rw [List.length_append, List.length_append, ← List.length_map, hpast, List.length_map]
      rfl
    have hsame := List.forall₂_take (past ++ [(o, r)]).length hall
    rw [List.take_left, hlen, List.take_left, forall₂_concat_iff] at hsame
    have hrel := mirrors_of_sameObservation h h' hpast
      (hlossless (by rw [hpast, hops]; exact List.prefix_append _ _)) hsame.1
    exact (hrel.sameObservation_iff hans hans').mp hsame.2
  · rintro hu past past' sql mem h h' rfl hops
    rw [← hops] at hu
    exact sameObservation_of_unrestricted h h' hops.symm (hlossless (List.prefix_refl _)) hu

theorem lossless_someTask : someTask.Lossless := by
  intro now
  rw [TaskRow.toTask_eq]
  rfl

end

/-! ### Calls that do not tell the two stores apart -/

/-- One call more. -/
theorem Unrestricted.concat {ops : List Op} {o : Op} (h : Unrestricted ops)
    (hlast : ∀ past mem, InMemorySession past mem → past.map Prod.fst = ops →
      mem.Unrestricted (o.call (past.map Prod.snd))) : Unrestricted (ops ++ [o]) := by
  intro past mem o₁ after hrun hops
  rcases List.eq_nil_or_concat after with rfl | ⟨after, o₂, rfl⟩
  · obtain ⟨hpast, ho⟩ := List.append_inj' hops rfl
    cases ho
    exact hlast past mem hrun hpast.symm
  · rw [List.concat_eq_append, ← List.cons_append, ← List.append_assoc] at hops
    obtain ⟨hpast, -⟩ := List.append_inj' hops rfl
    exact h past mem o₁ after hrun hpast

/-- A save with no version, or with the one the record has. -/
theorem unrestricted_save {s : InMemoryTaskStore} {task : Task} {prev : TaskVersion}
    (h : prev = .MISSING ∨ ∀ e, s.tasks.lookup task.id = some e → prev = e.version) :
    s.Unrestricted (.save task prev) := by
  rintro ⟨e, he, hne, hold⟩
  exact h.elim hne fun hcur => hold (hcur e he)

/-- A list of the one task there is. -/
theorem unrestricted_list {s : InMemoryTaskStore} (task : Task) {req : ListTasksRequest}
    (hone : ∀ t, s.task? t.id = some t → t = task) (hmatch : req.Matches task)
    (hoffset : req.offset = 0) (hlimit : 1 ≤ req.limit) : s.Unrestricted (.list req) := by
  refine ⟨fun t ht => ?_, Or.inr ⟨hoffset, le_trans ?_ hlimit⟩⟩
  · rw [hone t ht]
    exact hmatch
  · refine (Set.ncard_le_ncard (t := {task}) fun t ht => hone t ht.1).trans ?_
    rw [Set.ncard_singleton]

/-- The second save has the version the first returned.  The list asks for the
context of the one task, a task a page. -/
def savedListed : List Op :=
  [.save someTask (.version .MISSING), .save someTask (.returned 0),
    .list { InMemoryTaskStore.anyTask with contextId := some "c1", pageSize := some 1 }]

/-- The store after one save. -/
theorem session_saved {past : List (Op × Reply)} {mem : InMemoryTaskStore}
    (h : InMemorySession past mem)
    (hops : past.map Prod.fst = [.save someTask (.version .MISSING)]) :
    past.map Prod.snd = [.saved (.ok ⟨1⟩)] ∧
      mem = InMemoryTaskStore.new.drawVersion.2.put ⟨someTask, ⟨1⟩⟩ := by
  rw [← List.nil_append [_]] at hops
  obtain ⟨before, t, r, hrun, hbefore, rfl, hans⟩ := h.of_concat hops
  rw [List.map_eq_nil_iff] at hbefore
  subst hbefore
  obtain rfl := hrun.eq_of_nil
  cases hans
  have hsave := @InMemoryTaskStore.save_of_not_conflicts .new .MISSING someTask
    InMemoryTaskStore.not_conflicts_missing
  refine ⟨?_, congrArg Prod.snd hsave⟩
  show [Reply.saved (InMemoryTaskStore.new.save someTask .MISSING).1] = _
  rw [hsave]
  rfl

theorem unrestricted_savedListed : Unrestricted savedListed := by
  have h₀ : Unrestricted [] := by
    intro past mem o after hrun hops
    simp at hops
  have h₁ := h₀.concat (o := .save someTask (.version .MISSING)) fun past mem _ _ =>
    unrestricted_save (.inl rfl)
  have hsecond : ∀ past mem, InMemorySession past mem →
      past.map Prod.fst = [.save someTask (.version .MISSING)] →
      mem.Unrestricted (.save someTask (Prev.value (past.map Prod.snd) (.returned 0))) := by
    intro past mem hrun hops
    obtain ⟨hpast, rfl⟩ := session_saved hrun hops
    rw [hpast]
    refine unrestricted_save (.inr fun e he => ?_)
    rw [InMemoryTaskStore.lookup_put, if_pos rfl] at he
    cases he
    rfl
  have h₂ := h₁.concat (o := .save someTask (.returned 0)) hsecond
  refine h₂.concat fun past mem hrun hops => ?_
  obtain ⟨before, t, r, hbefore, hfirst, rfl, hans⟩ := hrun.of_concat hops
  have hfits : ¬ t.Conflicts _ _ := hsecond before t hbefore hfirst
  obtain ⟨-, rfl⟩ := session_saved hbefore hfirst
  cases hans
  rw [InMemoryTaskStore.save_of_not_conflicts hfits]
  refine unrestricted_list someTask (fun u hu => ?_) ⟨?_, ?_⟩ rfl (by decide)
  · rw [InMemoryTaskStore.task?_put] at hu
    split at hu
    · exact (Option.some.inj hu).symm
    · change InMemoryTaskStore.task? (InMemoryTaskStore.put _ _) _ = _ at hu
      rw [InMemoryTaskStore.task?_put, if_neg ‹_›] at hu
      cases hu
  · rintro ctx h
    cases h
    rfl
  · rintro state h
    cases h

theorem sql_equal_iff_savedListed :
    letI := byteChars
    letI := noteText 127 1
    ObservationallyEqual savedListed := by
  let := byteChars
  let := noteText 127 1
  refine (sql_equal_iff savedListed fun o ho => ?_).mpr unrestricted_savedListed
  rcases List.mem_cons.mp ho with rfl | ho
  · exact lossless_someTask
  rcases List.mem_cons.mp ho with rfl | ho
  · exact lossless_someTask
  obtain rfl := List.mem_singleton.mp ho
  exact trivial

/-! ### Calls that do -/

section

variable [Base64] [JsonText]

theorem SqlSession.save {past : List (Op × Reply)} {sql : SqlTaskStore} (h : SqlSession past sql)
    (task : Task) (prev : Prev) :
    SqlSession (past ++ [(.save task prev, .saved (.ok ⟨sql.nextVersion⟩))])
      (sql.save task (prev.value (past.map Prod.snd))).2 :=
  .snoc h (.save task _)

theorem SqlSession.list {past : List (Op × Reply)} {sql : SqlTaskStore} (h : SqlSession past sql)
    (req : ListTasksRequest) (sel : sql.Selection) (now : String → String) :
    SqlSession (past ++ [(.list req, .listed (SqlTaskStore.list sel now req))]) sql :=
  .snoc h (.list req sel now)

omit [Base64] [JsonText] in
theorem InMemorySession.list {past : List (Op × Reply)} {mem : InMemoryTaskStore}
    (h : InMemorySession past mem) (req : ListTasksRequest) (it : mem.Iteration) :
    InMemorySession (past ++ [(.list req, .listed (mem.list it req))]) mem :=
  .snoc h (.list req it)

omit [Base64] [JsonText] in
theorem InMemorySession.save {past : List (Op × Reply)} {mem : InMemoryTaskStore}
    (h : InMemorySession past mem) (task : Task) (prev : Prev)
    (hc : ¬ mem.Conflicts task.id (prev.value (past.map Prod.snd))) :
    InMemorySession (past ++ [(.save task prev, .saved (.ok ⟨mem.nextVersion⟩))])
      (mem.drawVersion.2.put ⟨task, ⟨mem.nextVersion⟩⟩) := by
  have hans := InMemoryTaskStore.Answers.save (s := mem) task (prev.value (past.map Prod.snd))
  rw [InMemoryTaskStore.save_of_not_conflicts hc] at hans
  exact .snoc h hans

omit [Base64] [JsonText] in
theorem InMemorySession.save_refused {past : List (Op × Reply)} {mem : InMemoryTaskStore}
    (h : InMemorySession past mem) (task : Task) (prev : Prev)
    (hc : mem.Conflicts task.id (prev.value (past.map Prod.snd))) :
    InMemorySession (past ++ [(.save task prev, .saved (.error .concurrentTaskModification))])
      mem.drawVersion.2 := by
  have hans := InMemoryTaskStore.Answers.save (s := mem) task (prev.value (past.map Prod.snd))
  rw [InMemoryTaskStore.save_of_conflicts hc] at hans
  exact .snoc h hans

/-- The third save is given the version of the first. -/
def staleSaves : List Op :=
  [.save someTask (.version .MISSING), .save someTask (.version .MISSING),
    .save someTask (.returned 0)]

def staleTranscript : List (Op × Reply) :=
  staleSaves.zip [.saved (.ok ⟨1⟩), .saved (.ok ⟨2⟩), .saved (.ok ⟨3⟩)]

theorem session_staleTranscript : ∃ sql, SqlSession staleTranscript sql := by
  have h₁ : SqlSession _ _ := SqlSession.save .nil someTask (.version .MISSING)
  have h₂ := h₁.save someTask (.version .MISSING)
  have h₃ := h₂.save someTask (.returned 0)
  exact ⟨_, h₃⟩

omit [Base64] [JsonText] in
/-- The in-memory store refuses the third save. -/
theorem session_refused : ∃ mem, InMemorySession (staleSaves.zip [.saved (.ok ⟨1⟩),
    .saved (.ok ⟨2⟩), .saved (.error .concurrentTaskModification)]) mem := by
  have h₁ : InMemorySession _ _ :=
    InMemorySession.save .nil someTask (.version .MISSING) InMemoryTaskStore.not_conflicts_missing
  have h₂ := h₁.save someTask (.version .MISSING) InMemoryTaskStore.not_conflicts_missing
  have h₃ := h₂.save_refused someTask (.returned 0)
    ⟨_, InMemoryTaskStore.lookup_put, by decide, by decide⟩
  exact ⟨_, h₃⟩

theorem not_equal_staleSaves : ¬ ObservationallyEqual staleSaves := by
  intro h
  obtain ⟨sql, hsql⟩ := session_staleTranscript
  obtain ⟨mem, hmem⟩ := session_refused
  have hall := h _ _ sql mem hsql hmem rfl rfl
  have hlast : SameObservation (.saved (.ok ⟨3⟩)) (.saved (.error .concurrentTaskModification)) :=
    (@forall₂_concat_iff _ _ _ [_, _] [_, _] _ _).mp hall |>.2
  cases hlast with
  | saved _ _ hres => cases hres

/-- A task is listed that is not in the context asked for. -/
def otherContext : ListTasksRequest := { InMemoryTaskStore.anyTask with contextId := some "c2" }

def listedSave : List Op := [.save someTask (.version .MISSING), .list otherContext]

/-- The table after the one save. -/
def savedSelection : (SqlTaskStore.new.save someTask .MISSING).2.Selection where
  rows := [TaskRow.fromTask someTask]
  nodup := List.nodup_singleton _
  mem_iff r := by
    rw [List.mem_singleton, SqlTaskStore.lookup_save]
    constructor
    · rintro rfl
      exact if_pos rfl
    · intro h
      split at h
      · exact (Option.some.inj h).symm
      · cases h

theorem not_equal_listedSave : ¬ ObservationallyEqual listedSave := by
  intro h
  have hsql : SqlSession _ _ := SqlSession.save .nil someTask (.version .MISSING)
  have hmem : InMemorySession _ _ :=
    InMemorySession.save .nil someTask (.version .MISSING) InMemoryTaskStore.not_conflicts_missing
  obtain ⟨it⟩ := InMemoryTaskStore.nonempty_iteration
    (InMemoryTaskStore.new.drawVersion.2.put ⟨someTask, ⟨1⟩⟩)
  have hall := h _ _ _ _ (hsql.list otherContext savedSelection id) (hmem.list otherContext it)
    rfl rfl
  have hlast : SameObservation (.listed (SqlTaskStore.list savedSelection id otherContext))
      (.listed (InMemoryTaskStore.list it otherContext)) := (forall₂_concat_iff.mp hall).2
  cases hlast with
  | listed _ _ htasks =>
    have hsome : someTask ∈ (InMemoryTaskStore.list it otherContext).tasks := by
      rw [← htasks]
      exact List.mem_map.mpr
        ⟨TaskRow.fromTask someTask, List.mem_singleton_self _, lossless_someTask _⟩
    rw [InMemoryTaskStore.tasks_list] at hsome
    have hmatch := (it.mem_matching otherContext).mp
      (List.mem_of_mem_drop (List.mem_of_mem_take hsome))
    exact absurd (hmatch.2.1 "c2" rfl) (by decide)

theorem lossless_staleSaves : ∀ o ∈ staleSaves, o.Lossless := by
  intro o ho
  rcases List.mem_cons.mp ho with rfl | ho
  · exact lossless_someTask
  rcases List.mem_cons.mp ho with rfl | ho
  · exact lossless_someTask
  obtain rfl := List.mem_singleton.mp ho
  exact lossless_someTask

theorem lossless_listedSave : ∀ o ∈ listedSave, o.Lossless := by
  intro o ho
  rcases List.mem_cons.mp ho with rfl | ho
  · exact lossless_someTask
  obtain rfl := List.mem_singleton.mp ho
  exact trivial

end

/-- The stores are told apart by a save with an old version, and by a list with a
filter. -/
theorem sql_told_apart :
    letI := byteChars
    letI := noteText 127 1
    ((∀ o ∈ staleSaves, o.Lossless) ∧ ¬ ObservationallyEqual staleSaves) ∧
      (∀ o ∈ listedSave, o.Lossless) ∧ ¬ ObservationallyEqual listedSave := by
  let := byteChars
  let := noteText 127 1
  exact ⟨⟨lossless_staleSaves, not_equal_staleSaves⟩, lossless_listedSave, not_equal_listedSave⟩

end Ra2a
