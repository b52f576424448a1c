import Ra2a.Server.Handler.Frames

/-!
# The status update as read, modify, write

For a status update `persist_event_snapshot` reads the record, changes its status
and saves it.  The store would notice a change in between: `get` hands out a
version and `save` takes one.  The handler throws the version away and saves with
`MISSING`, so a snapshot or the record of a failure that was saved in between is
overwritten.

An update in hand stays one of the stored record along every run in which no such
save comes between, but one that changes nothing else than the status itself
(`onlyStatus_reach`).  Two updates of one record do no harm to each other.
-/

namespace Ra2a

open Broadcast Interleave

/-- The task is the stored record with another status. -/
def OnlyStatus (h : DefaultRequestHandler) (t : Task) : Prop :=
  ∃ r, h.getTaskInternal t.id = some r ∧ t = r.withStatus t.status

/-- A step that leaves the updates in hand alone: while another thread has an
update of a task in hand, a snapshot or a failure of that task is saved only if
it too is the stored record with another status. -/
def KeepsPending (c : ServerConfig) : Label Thread Move → Prop
  | .run i (.tick _) =>
    ∀ (t : Thread) (task : Task), c.threads[i]? = some t → t.pendingSnapshot = some task →
      (∃ (j : ℕ) (u : Thread) (t' : Task), c.threads[j]? = some u ∧ u.pendingUpdate = some t' ∧
        t'.id = task.id) → OnlyStatus c.shared task
  | _ => True

/-- The update a thread has in hand changes only the status. -/
def UpdatesOnlyStatus (c : ServerConfig) (_ : ℕ) (t : Thread) : Prop :=
  ∀ task, t.pendingUpdate = some task → OnlyStatus c.shared task

/-- After a save that changed only the status, a task that was the record with
another status still is. -/
theorem OnlyStatus.after {h h' : DefaultRequestHandler} {t task : Task} (ht : OnlyStatus h t)
    (htask : t.id = task.id → OnlyStatus h task) (hs : Stores h h' task) : OnlyStatus h' t := by
  obtain ⟨r, hr, he⟩ := ht
  by_cases hid : t.id = task.id
  · obtain ⟨r', hr', he'⟩ := htask hid
    have hrr : r = r' := by
      rw [hid, hr'] at hr
      exact (Option.some.inj hr).symm
    subst hrr
    refine ⟨task, by rw [hs, if_pos hid], ?_⟩
    rw [he', Task.withStatus_withStatus]
    exact he
  · exact ⟨r, by rw [hs, if_neg hid, hr], he⟩

theorem OnlyStatus.of_same {h h' : DefaultRequestHandler} {t : Task} (ht : OnlyStatus h t)
    (hs : SameStore h h') : OnlyStatus h' t := by
  obtain ⟨r, hr, he⟩ := ht
  exact ⟨r, by rw [hs, hr], he⟩

section

variable {c : ServerConfig} {h' : DefaultRequestHandler} {new : List Thread} {i : ℕ} {m : Move}
  {t t' : Thread}

/-- An update in hand after a step: it was in hand before, or has just been read. -/
theorem pendingUpdate_step (ha : server.advance c.shared c.threads i m t = some (h', t', new))
    {task : Task} (hp : t'.pendingUpdate = some task) :
    OnlyStatus h' task := by
  rcases cases_of_step ha with ⟨r, r', rfl, rfl, hs, -⟩ | ⟨x, x', rfl, rfl, rfl, hs⟩ |
    ⟨g, rfl, -, rfl, rfl, rfl⟩
  · cases hs with
    | read removes col e r₀ tick hpc hr =>
      cases hp
      refine ⟨r₀, ?_, rfl⟩
      rw [Task.withStatus_id, DefaultRequestHandler.id_of_getTaskInternal hr, hr]
    | _ => cases hp
  · cases hp
  · cases hp

/-- What is spawned has no update in hand. -/
theorem pendingUpdate_new (ha : server.advance c.shared c.threads i m t = some (h', t', new))
    {u : Thread} (hu : u ∈ new) : u.pendingUpdate = none := by
  rcases spawned_step ha hu with ⟨r, x, -, rfl, -, -⟩ | ⟨g, rfl⟩
  · rfl
  · rfl

/-- An update in another thread's hand stays one of the stored record. -/
theorem pendingUpdate_other (hA : Machine.Reach.Each UpdatesOnlyStatus c)
    (hok : KeepsPending c (.run i m)) (ht : c.threads[i]? = some t)
    (ha : server.advance c.shared c.threads i m t = some (h', t', new)) {j : ℕ} {u : Thread}
    (hu : c.threads[j]? = some u) {task : Task} (hp : u.pendingUpdate = some task) :
    OnlyStatus h' task := by
  have hbefore := hA j u hu task hp
  rcases store_step ha with hsame | ⟨saved, tick, hsave, rfl, hstores⟩
  · exact hbefore.of_same hsame
  · refine hbefore.after (fun hid => ?_) hstores
    rcases Thread.pendingSave_cases hsave with hsnap | hupd
    · exact hok t saved ht hsnap ⟨j, u, task, hu, hp, hid⟩
    · exact hA i t ht saved hupd

end

/-- **An update in hand changes only the status of the stored record, along
every run whose steps leave the updates in hand alone.**  So the save it is in
hand for, whenever it comes, loses nothing that was committed. -/
theorem onlyStatus_reach {c₀ c : ServerConfig} (h₀ : Initial c₀)
    (h : server.Reach KeepsPending c₀ c) : Machine.Reach.Each UpdatesOnlyStatus c := by
  refine h.threads ?_ ?_ ?_ ?_ ?_
  · exact h₀.each
  · intro c t hA hok hf j u hu
    rcases Places.getElem?_concat_cases hu with hu | ⟨-, rfl⟩
    · exact hA j u hu
    · obtain ⟨r, rfl, hpc, -⟩ := Thread.of_isFresh hf
      intro task hp
      simp [Thread.pendingUpdate, hpc] at hp
  · intro c i m t s' t' new hA hok ht ha task hp
    exact pendingUpdate_step ha hp
  · intro c i m t s' t' new j u hA hok ht ha hlen hu task hp
    rw [pendingUpdate_new ha (List.mem_of_getElem? hu)] at hp
    cases hp
  · intro c i m t s' t' new j u hA hok ht ha hij hu task hp
    exact pendingUpdate_other hA hok ht ha hu hp

/-! ### A failure between the read and the save -/

/-- A task with the message that started it. -/
def startedTask : Task :=
  ⟨"t1", "c1", ⟨.working, none, none⟩, [], [Message.new "m1" .user [.text "hello"]], none⟩

/-- The execution of a blocking send sends the task and then a status.  The
collector stores the task and reads it for the update. -/
def readForUpdate : List (Label Thread Move) :=
  .arrive (sendTo "m1" false) :: List.replicate 5 (.run 0 (.tick ⟨"12:00", "u1", "u2", "v1"⟩)) ++
    .run 1 (.emit (.task startedTask)) ::
    .run 1 (.emit (.statusUpdate ⟨"t1", "c1", ⟨.working, none, none⟩, none⟩)) ::
    List.replicate 6 (.run 0 (.tick ⟨"12:01", "u1", "u2", "v1"⟩))

/-- The execution fails, and its record is saved. -/
def failBetween : List (Label Thread Move) :=
  [.run 1 (.fail (.other "boom") ⟨"12:02", "u3", "u4", "v1"⟩),
    .run 1 (.tick ⟨"12:02", "u3", "u4", "v1"⟩)]

/-- The update in hand has a history, and the record it will replace has none. -/
theorem failBetween_not_onlyStatus :
    ∃ c, Initial ⟨.new, []⟩ ∧ server.Reach Machine.Always ⟨.new, []⟩ c ∧
      ¬ Machine.Reach.Each UpdatesOnlyStatus c := by
  have hview : (server.exec ⟨.new, []⟩ (readForUpdate ++ failBetween)).map (fun c =>
      ((c.threads[0]?.bind Thread.pendingUpdate).map (fun t => (t.id, t.history.length)),
        (c.shared.getTaskInternal "t1").map (fun t => t.history.length))) =
      some (some ("t1", 1), some 0) := by decide
  obtain ⟨c, he, hc⟩ := Option.map_eq_some_iff.mp hview
  refine ⟨c, initial_new, .of_exec he, fun hupdates => ?_⟩
  obtain ⟨hp, hr⟩ := Prod.mk.inj hc
  obtain ⟨t, ht, hlen⟩ := Option.map_eq_some_iff.mp hp
  obtain ⟨u, hu, hpend⟩ := Option.bind_eq_some_iff.mp ht
  obtain ⟨hid, hlen⟩ := Prod.mk.inj hlen
  obtain ⟨r, hget, hwith⟩ := hupdates 0 u hu t hpend
  rw [hid] at hget
  rw [hget] at hr
  have hlen' : t.history.length = r.history.length := by
    rw [hwith]
    rfl
  rw [hlen] at hlen'
  rw [Option.map_some, ← hlen'] at hr
  cases hr

/-- The state in which the update is in hand. -/
def readConfig : ServerConfig := (server.exec ⟨.new, []⟩ readForUpdate).getD ⟨.new, []⟩

theorem readForUpdate_keepsPending : server.Along KeepsPending ⟨.new, []⟩ readForUpdate := by
  refine ⟨trivial, ?_, ?_, ?_, ?_, ?_, trivial, trivial, ?_, ?_, ?_, ?_, ?_, ?_, trivial⟩
  all_goals
    intro t task ht hsnap
    cases ht
    first
    | cases hsnap; done
    | -- the one snapshot: nobody has an update in hand yet
      rintro ⟨j, u, t', hu, hp, -⟩
      rcases j with _ | _ | _ | j <;> cases hu <;> cases hp

theorem onlyStatus_reach_readForUpdate : Machine.Reach.Each UpdatesOnlyStatus readConfig :=
  onlyStatus_reach initial_new (.of_along readForUpdate_keepsPending rfl)

end Ra2a
