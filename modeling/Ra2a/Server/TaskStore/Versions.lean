import Ra2a.Server.TaskStore.Calls

/-!
# What a version tells its holder

A save that passes the version it was given is meant to replace the very record
that version belongs to.  For a store made by `new` it does, although versions
are drawn outside the lock and records are put out of their order: no version is
given twice, so the record that carries it is the one its save put, and nobody
has changed the task since (`conditional_save`).

Three things are not so.  Two saves may commit in the other order than they
drew, and then a later `get` returns a smaller version than an earlier one
(`gets_decrease`).  A save with the version of a task that was deleted finds no
record to compare it with and puts the task back (`deleted_comes_back`).  And the
derived `default` starts its counter at zero, so that the first version it gives
is `MISSING` (`default_gives_missing`).
-/

namespace Ra2a

open Counter Interleave Interleave.Machine Ledger Places

/-- The public constructors. -/
inductive Constructor
  | new
  | default

def Constructor.make : Constructor → InMemoryTaskStore
  | new => .new
  | default => .default

theorem Constructor.tasks_make (k : Constructor) : k.make.tasks = ∅ := by
  cases k <;> rfl

/-- Save `i` takes the lock between `c` and `c'`, and `result` is what it
returns. -/
structure Locks (c c' : StoreConfig) (i : ℕ) (task : Task) (prev : TaskVersion)
    (result : Except A2AError TaskVersion) : Prop where
  drawn : ∃ version n, c.threads[i]? = some (.drawn task prev version n)
  step : taskStore.step c (.run i ()) = some c'
  saved : c'.threads[i]? = some (.saved task prev result)

/-- Call `i` of `get` reads the map between `c` and `c'`, and `result` is what
it returns. -/
structure Reads (c c' : StoreConfig) (i : ℕ) (taskId : String)
    (result : Option (Task × TaskVersion)) : Prop where
  get : c.threads[i]? = some (.get taskId)
  step : taskStore.step c (.run i ()) = some c'
  got : c'.threads[i]? = some (.got taskId result)

section

variable {c c' : StoreConfig} {i : ℕ} {task : Task} {prev version : TaskVersion} {n : ℕ}
  {result : Except A2AError TaskVersion} {taskId : String}

/-- What a save finds under the lock decides what it returns and leaves. -/
theorem Locks.cases (h : Locks c c' i task prev result) :
    (c.shared.store.Conflicts task.id prev ∧ result = .error .concurrentTaskModification ∧
      c'.shared = c.shared) ∨
    (¬ c.shared.store.Conflicts task.id prev ∧ ∃ version n,
      c.threads[i]? = some (.drawn task prev version n) ∧ result = .ok version ∧
      c'.shared = c.shared.commit i n ⟨task, version⟩ (c.shared.store.put ⟨task, version⟩)) := by
  obtain ⟨version, n, hi⟩ := h.drawn
  obtain ⟨t, s', t', ht, hstep, rfl⟩ := storeStep_run h.step
  rw [hi] at ht
  cases ht
  have hsaved := h.saved
  rw [show (c.threads.set i t')[i]? = some t' from
    List.getElem?_set_self (List.getElem?_eq_some_iff.mp hi).1] at hsaved
  cases hstep with
  | refuse _ _ _ _ hconf =>
    cases hsaved
    exact Or.inl ⟨hconf, rfl, rfl⟩
  | commit _ _ _ _ hconf =>
    cases hsaved
    exact Or.inr ⟨hconf, version, n, hi, rfl, rfl⟩

theorem Reads.result_eq {result : Option (Task × TaskVersion)}
    (h : Reads c c' i taskId result) :
    c.shared.store.get taskId = result ∧ c'.shared = c.shared := by
  obtain ⟨t, s', t', ht, hstep, rfl⟩ := storeStep_run h.step
  have hi := h.get
  rw [hi] at ht
  cases ht
  have hgot := h.got
  rw [show (c.threads.set i t')[i]? = some t' from
    List.getElem?_set_self (List.getElem?_eq_some_iff.mp hi).1] at hgot
  cases hstep
  exact ⟨(StoreCall.got.inj (Option.some.inj hgot)).2, rfl⟩

/-- A record a conditional save does not refuse carries the version it passed. -/
theorem version_of_not_conflicts {s : InMemoryTaskStore} {existing : VersionedTask}
    (h : ¬ s.Conflicts taskId prev) (hm : prev ≠ .MISSING)
    (hl : s.tasks.lookup taskId = some existing) : existing.version = prev := by
  by_contra hv
  exact h ⟨existing, hl, hm, fun e => hv e.symm⟩

end

/-! ### Conditional saves -/

/-- Save `j` put the record `e` under `k`, and nothing has changed there since. -/
def StoreConfig.Latest (c : StoreConfig) (k : String) (e : VersionedTask) (j : ℕ) : Prop :=
  ∃ (p : ℕ) (a : Commit), c.shared.log[p]? = some (.put k a) ∧ a.entry = e ∧ a.saver = j ∧
    ∀ (q : ℕ) (x : Change String Commit), p < q → c.shared.log[q]? = some x → x.key ≠ k

section

variable {first : Int64} {c c' c₁ c₁' : StoreConfig} {i j : ℕ} {k : String} {e : VersionedTask}
  {task task₁ : Task} {prev version₁ : TaskVersion} {result : Except A2AError TaskVersion}

/-- The record under an id was put by a save that returned its version, and with
fewer than `2 ^ 64` saves no other save returned that version. -/
theorem Consistent.latest (h : Consistent first c) (hb : c.saves < 2 ^ 64)
    (hl : c.shared.store.tasks.lookup k = some e) :
    ∃ j, c.Latest k e j ∧
      (∃ prev, c.threads[j]? = some (.saved e.task prev (.ok e.version))) ∧
      ∀ j' task' prev', c.threads[j']? = some (.saved task' prev' (.ok e.version)) → j' = j := by
  obtain ⟨a, ha, rfl⟩ := h.exists_of_lookup hl
  obtain ⟨p, hp, hlast⟩ := current_eq_some_iff.mp ha
  refine ⟨a.saver, ⟨p, a, hp, rfl, rfl, hlast⟩, (h.logged p k a hp).saver, ?_⟩
  intro j' task' prev' hj'
  obtain ⟨q, b, hq, rfl, hentry⟩ := h.saved j' task' prev' a.entry.version hj'
  have hnum : b.number = a.number := h.number_eq hb hq hp (by rw [hentry])
  obtain rfl := h.distinct q p _ _ b a hq hp hnum
  rw [hp] at hq
  cases hq
  rfl

/-- Once a save has replaced the record of a version, no record carries that
version again. -/
theorem version_gone (h₁ : Consistent first c₁) (h : Consistent first c) (hb : c.saves < 2 ^ 64)
    (hlog : c₁'.shared.log <+: c.shared.log)
    (hlock : Locks c₁ c₁' j task₁ prev (.ok version₁))
    (hrec : c₁.shared.store.tasks.lookup task₁.id = some e) (hv : e.version = prev)
    {e' : VersionedTask} (hrec' : c.shared.store.tasks.lookup task₁.id = some e') :
    e'.version ≠ prev := by
  intro hv'
  rcases hlock.cases with ⟨-, hr, -⟩ | ⟨-, version, n, -, -, hshared⟩
  · cases hr
  obtain ⟨a, ha, rfl⟩ := h₁.exists_of_lookup hrec
  obtain ⟨b, hb', rfl⟩ := h.exists_of_lookup hrec'
  obtain ⟨s, hs⟩ := exists_of_current ha
  have hlen : s < c₁.shared.log.length := (List.getElem?_eq_some_iff.mp hs).1
  rw [hshared] at hlog
  have hput : c.shared.log[c₁.shared.log.length]? =
      some (.put task₁.id ⟨j, n, ⟨task₁, version⟩⟩) :=
    getElem?_of_prefix hlog List.getElem?_concat_length
  have hold : c.shared.log[s]? = some (.put task₁.id a) :=
    getElem?_of_prefix hlog (getElem?_append_of_some hs)
  -- both carry `prev`, so they are one entry, and the new one was put after it
  obtain ⟨p, hp⟩ := exists_of_current hb'
  have hnum : a.number = b.number := h.number_eq hb hold hp (by rw [hv, hv'])
  obtain ⟨-, -, hlast⟩ := unchanged_of_tag h.distinct hold hb' hnum
  exact hlast _ _ hlen hput rfl

end

/-- **A conditional save replaces only the record its version belongs to.**  The
record was put by the one save that returned the version, and nothing has changed
there since.  Of the saves that pass the same version and find a record only the
first succeeds, and one that fails leaves the map as it is. -/
theorem conditional_save {c c' : StoreConfig} {i : ℕ} {task : Task} {prev : TaskVersion}
    {result : Except A2AError TaskVersion}
    (hr : taskStore.Reach Always (calling .new) c) (hb : c.saves < 2 ^ 63)
    (hlock : Locks c c' i task prev result) :
    (∀ existing version, prev ≠ .MISSING → c.shared.store.tasks.lookup task.id = some existing →
      result = .ok version →
      existing.version = prev ∧ ∃ j, c.Latest task.id existing j ∧
        (∃ prev', c.threads[j]? = some (.saved existing.task prev' (.ok prev))) ∧
        ∀ j' task' prev', c.threads[j']? = some (.saved task' prev' (.ok prev)) → j' = j) ∧
    (∀ c₁ c₁' j task₁ version₁ e₁ e, prev ≠ .MISSING →
      taskStore.Reach Always (calling .new) c₁ → Locks c₁ c₁' j task₁ prev (.ok version₁) →
      taskStore.Reach Always c₁' c → task₁.id = task.id →
      c₁.shared.store.tasks.lookup task.id = some e₁ →
      c.shared.store.tasks.lookup task.id = some e →
      result = .error .concurrentTaskModification) ∧
    (∀ e, result = .error e → c'.shared.store.tasks = c.shared.store.tasks) := by
  have h := consistent_reach rfl hr
  have hb' : c.saves < 2 ^ 64 := by omega
  refine ⟨fun existing version hm hl hok => ?_,
    fun c₁ c₁' j task₁ version₁ e₁ e hm hr₁ hlock₁ hr₂ hid hl₁ hl => ?_, fun e herr => ?_⟩
  · rcases hlock.cases with ⟨-, herr, -⟩ | ⟨hconf, -⟩
    · rw [hok] at herr
      cases herr
    · have hv := version_of_not_conflicts hconf hm hl
      obtain ⟨j, hlatest, hsaver, honly⟩ := h.latest hb' hl
      rw [hv] at hsaver honly
      exact ⟨hv, j, hlatest, hsaver, honly⟩
  · rcases hlock.cases with ⟨-, herr, -⟩ | ⟨hconf, -⟩
    · exact herr
    · rw [← hid] at hl₁ hl hconf
      rcases hlock₁.cases with ⟨-, herr, -⟩ | ⟨hconf₁, -⟩
      · cases herr
      · have hv₁ := version_of_not_conflicts hconf₁ hm hl₁
        have hv := version_of_not_conflicts hconf hm hl
        exact absurd hv
          (version_gone (consistent_reach rfl hr₁) h hb' (log_reach hr₂) hlock₁ hl₁ hv₁ hl)
  · rcases hlock.cases with ⟨-, -, hshared⟩ | ⟨-, version, n, -, hok, -⟩
    · rw [hshared]
    · rw [hok] at herr
      cases herr

/-- What a schedule of calls leads to. -/
def after (s : InMemoryTaskStore) (ls : List (Label StoreCall Unit)) : StoreConfig :=
  (taskStore.exec (calling s) ls).getD (calling s)

theorem reach_after {s : InMemoryTaskStore} {ls : List (Label StoreCall Unit)}
    (h : (taskStore.exec (calling s) ls).isSome = true) :
    taskStore.Reach Always (calling s) (after s ls) := by
  obtain ⟨c, hc⟩ := Option.isSome_iff_exists.mp h
  rw [after, hc]
  exact .of_exec hc

/-- A task is saved, and the version that save returned is passed to another. -/
def savedTwice : List (Label StoreCall Unit) :=
  [.arrive (.save someTask .MISSING), .run 0 (), .run 0 (), .arrive (.save someTask ⟨1⟩), .run 1 ()]

theorem conditional_save_savedTwice :
    ∃ j, (after .new savedTwice).Latest "t1" ⟨someTask, ⟨1⟩⟩ j := by
  have hreach : taskStore.Reach Always (calling .new) (after .new savedTwice) :=
    reach_after (by decide)
  have hlock : Locks (after .new savedTwice) (after .new (savedTwice ++ [.run 1 ()])) 1 someTask
      ⟨1⟩ (.ok ⟨2⟩) := ⟨⟨⟨2⟩, 1, rfl⟩, rfl, rfl⟩
  have hone := (conditional_save hreach (by decide) hlock).1
  obtain ⟨-, j, hlatest, -⟩ := hone ⟨someTask, ⟨1⟩⟩ ⟨2⟩ (by decide) rfl rfl
  exact ⟨j, hlatest⟩

/-! ### Two gets -/

/-- The step does not delete the task. -/
def KeepsRecord (taskId : String) (c : StoreConfig) : Label StoreCall Unit → Prop
  | .arrive _ => True
  | .run i _ => c.threads[i]? ≠ some (.delete taskId)

/-- Two successive gets of a task, with no deletion of it in between, do not
return a smaller version after a larger one. -/
def GetsNeverDecrease (ok : StoreConfig → Label StoreCall Unit → Prop) (s : InMemoryTaskStore) :
    Prop :=
  ∀ (c₁ c₁' c₂ c₂' : StoreConfig) (i j : ℕ) (taskId : String) (t₁ t₂ : Task)
    (v₁ v₂ : TaskVersion), taskStore.Reach ok (calling s) c₁ →
    Reads c₁ c₁' i taskId (some (t₁, v₁)) →
    taskStore.Reach (fun c l => ok c l ∧ KeepsRecord taskId c l) c₁' c₂ →
    Reads c₂ c₂' j taskId (some (t₂, v₂)) → v₁ ≤ v₂

/-- A save that replaces a record drew its version after the save that put the
record, and the counter has not wrapped in between. -/
def CommitsInOrder (first : Int64) (c : StoreConfig) : Label StoreCall Unit → Prop
  | .arrive _ => True
  | .run i _ => ∀ (task : Task) (prev version : TaskVersion) (n : ℕ) (a : Commit),
      c.threads[i]? = some (.drawn task prev version n) →
      ¬ c.shared.store.Conflicts task.id prev →
      Ledger.current c.shared.log task.id = some a →
      a.number < n ∧ wraps first a.number = wraps first n

section

variable {first : Int64} {c c' : StoreConfig} {l : Label StoreCall Unit} {k : String}
  {e : VersionedTask}

/-- A commit in the order of the draws raises the version of the record. -/
theorem version_step (h : Consistent first c) (hok : CommitsInOrder first c l)
    (hkeep : KeepsRecord k c l) (hs : taskStore.step c l = some c')
    (hl : c.shared.store.tasks.lookup k = some e) :
    ∃ e', c'.shared.store.tasks.lookup k = some e' ∧ e.version ≤ e'.version := by
  have hrefl : e.version ≤ e.version := Int64.le_refl _
  rcases storeStep_cases hs with ⟨t, rfl, -, rfl⟩ | ⟨i, t, s', t', rfl, hi, hstep, rfl⟩
  · exact ⟨e, hl, hrefl⟩
  · cases hstep with
    | draw => exact ⟨e, hl, hrefl⟩
    | refuse => exact ⟨e, hl, hrefl⟩
    | get => exact ⟨e, hl, hrefl⟩
    | delete taskId =>
      refine ⟨e, ?_, hrefl⟩
      have hne : taskId ≠ k := by
        rintro rfl
        exact hkeep hi
      show (c.shared.store.delete taskId).tasks.lookup k = some e
      rw [InMemoryTaskStore.lookup_delete, if_neg hne, hl]
    | commit task prev version n hconf =>
      show ∃ e', (c.shared.store.put ⟨task, version⟩).tasks.lookup k = some e' ∧ _
      rw [InMemoryTaskStore.lookup_put]
      by_cases hk : task.id = k
      · subst hk
        obtain ⟨a, ha, rfl⟩ := h.exists_of_lookup hl
        obtain ⟨p, hp⟩ := exists_of_current ha
        obtain ⟨hlt, hw⟩ := hok task prev version n a hi hconf ha
        refine ⟨⟨task, version⟩, if_pos rfl, ?_⟩
        rw [(h.logged p _ a hp).version, (h.pending i task prev version n hi).1]
        exact Int64.le_of_lt (ticket_lt hlt hw)
      · exact ⟨e, by rw [if_neg hk, hl], hrefl⟩

/-- A commit out of the order of the draws lowers it. -/
theorem version_lt_of_out_of_order {i n : ℕ} {task : Task} {prev version : TaskVersion} {a : Commit}
    (h : Consistent first c) (hi : c.threads[i]? = some (.drawn task prev version n))
    (hlock : Locks c c' i task prev (.ok version))
    (ha : Ledger.current c.shared.log task.id = some a) (hlt : n < a.number)
    (hw : wraps first n = wraps first a.number) :
    ∃ e', c'.shared.store.tasks.lookup task.id = some e' ∧ ¬ a.entry.version ≤ e'.version := by
  rcases hlock.cases with ⟨-, hr, -⟩ | ⟨-, version', n', hi', hr, hshared⟩
  · cases hr
  rw [hi] at hi'
  cases hi'
  obtain ⟨p, hp⟩ := exists_of_current ha
  refine ⟨⟨task, version⟩, ?_, ?_⟩
  · rw [hshared]
    show (c.shared.store.put ⟨task, version⟩).tasks.lookup task.id = _
    rw [InMemoryTaskStore.lookup_put, if_pos rfl]
  · rw [(h.logged p _ a hp).version, (h.pending i task prev version n hi).1]
    exact Int64.not_le.mpr (ticket_lt hlt hw)

theorem version_reach {s : InMemoryTaskStore} {c₁ : StoreConfig} (hs : s.tasks = ∅)
    (h₁ : taskStore.Reach (CommitsInOrder s.nextVersion) (calling s) c₁)
    (h : taskStore.Reach
      (fun c l => CommitsInOrder s.nextVersion c l ∧ KeepsRecord k c l) c₁ c)
    (hl : c₁.shared.store.tasks.lookup k = some e) :
    Consistent s.nextVersion c ∧
      ∃ e', c.shared.store.tasks.lookup k = some e' ∧ e.version ≤ e'.version := by
  induction h with
  | refl => exact ⟨consistent_reach hs h₁, e, hl, Int64.le_refl _⟩
  | tail _ hok hstep ih =>
    obtain ⟨hc, e₁, hl₁, hv₁⟩ := ih
    obtain ⟨e₂, hl₂, hv₂⟩ := version_step hc hok.1 hok.2 hstep hl₁
    exact ⟨consistent_step hc hstep, e₂, hl₂, Int64.le_trans hv₁ hv₂⟩

end

/-- **Where saves commit in the order of their draws, gets never decrease.** -/
theorem gets_never_decrease (k : Constructor) :
    GetsNeverDecrease (CommitsInOrder k.make.nextVersion) k.make := by
  intro c₁ c₁' c₂ c₂' i j taskId t₁ t₂ v₁ v₂ h₁ hr₁ h₂ hr₂
  obtain ⟨hget₁, hshared⟩ := hr₁.result_eq
  obtain ⟨hget₂, -⟩ := hr₂.result_eq
  have hl₁ : c₁'.shared.store.tasks.lookup taskId = some ⟨t₁, v₁⟩ := by
    rw [hshared]
    exact InMemoryTaskStore.get_eq_some_iff.mp hget₁
  have hmid : taskStore.Reach (CommitsInOrder k.make.nextVersion) (calling k.make) c₁' :=
    h₁.tail (l := .run i ()) (fun task prev version n a hi => by
      rw [hr₁.get] at hi
      cases hi) hr₁.step
  obtain ⟨-, e, he, hv⟩ := version_reach k.tasks_make hmid h₂ hl₁
  rw [InMemoryTaskStore.get_eq_some_iff, he] at hget₂
  cases hget₂
  exact hv

/-- Of two saves the one that drew last commits first; a get reads before the
other commits, and one after it. -/
def overtaken : List (Label StoreCall Unit) :=
  [.arrive (.save someTask .MISSING), .arrive (.save someTask .MISSING), .arrive (.get "t1"),
    .arrive (.get "t1"), .run 0 (), .run 1 (), .run 1 ()]

theorem gets_decrease : ¬ GetsNeverDecrease Always .new := by
  intro h
  have hle : (⟨2⟩ : TaskVersion) ≤ ⟨1⟩ :=
    h (after .new overtaken) (after .new (overtaken ++ [.run 2 ()]))
      (after .new (overtaken ++ [.run 2 (), .run 0 ()]))
      (after .new (overtaken ++ [.run 2 (), .run 0 (), .run 3 ()])) 2 3 "t1" someTask someTask _ _
      (reach_after (by decide)) ⟨rfl, rfl, rfl⟩
      (.tail (l := .run 0 ()) .refl ⟨trivial, fun e => by cases e⟩ rfl) ⟨rfl, rfl, rfl⟩
  exact absurd hle (by show ¬ (2 : Int64) ≤ 1; decide)

/-! ### Saves of deleted tasks -/

/-- The save is refused as a concurrent modification and leaves the map. -/
def Rejected (c c' : StoreConfig) (result : Except A2AError TaskVersion) : Prop :=
  result = .error .concurrentTaskModification ∧ c'.shared.store.tasks = c.shared.store.tasks

/-- A save of a task that was deleted after the commit of the version it passes
is rejected. -/
def StaleSavesRejected (s : InMemoryTaskStore) : Prop :=
  ∀ (c c' : StoreConfig) (i p q : ℕ) (task : Task) (prev : TaskVersion)
    (result : Except A2AError TaskVersion) (a : Commit),
    taskStore.Reach Always (calling s) c → c.shared.log[p]? = some (.put task.id a) →
    a.entry.version = prev → prev ≠ .MISSING → c.shared.log[q]? = some (.remove task.id) → p < q →
    Locks c c' i task prev result → Rejected c c' result

section

variable {first : Int64} {c c' : StoreConfig} {i p q : ℕ} {k : String} {task : Task}
  {prev : TaskVersion} {result : Except A2AError TaskVersion} {a : Commit}

theorem Locks.rejected_iff (h : Locks c c' i task prev result) :
    Rejected c c' result ↔ c.shared.store.Conflicts task.id prev := by
  rcases h.cases with ⟨hconf, hr, hshared⟩ | ⟨hconf, version, n, -, hr, -⟩
  · exact ⟨fun _ => hconf, fun _ => ⟨hr, by rw [hshared]⟩⟩
  · refine ⟨fun hrej => ?_, fun hc => absurd hc hconf⟩
    have := hrej.1
    rw [hr] at this
    cases this

/-- What a save that passes a version once given is compared with. -/
theorem Consistent.conflicts_iff (h : Consistent first c) (hp : c.shared.log[p]? = some (.put k a))
    (hv : a.entry.version = prev) (hm : prev ≠ .MISSING) :
    c.shared.store.Conflicts k prev ↔
      ∃ b, Ledger.current c.shared.log k = some b ∧ ¬ b.number ≡ a.number [MOD 2 ^ 64] := by
  have hprev : prev = ⟨ticket first a.number⟩ := by
    rw [← hv, (h.logged p k a hp).version]
  constructor
  · rintro ⟨existing, hl, -, hne⟩
    obtain ⟨b, hb, rfl⟩ := h.exists_of_lookup hl
    obtain ⟨r, hr⟩ := exists_of_current hb
    refine ⟨b, hb, fun hmod => hne ?_⟩
    rw [hprev, (h.logged r k b hr).version, ticket_eq_iff.mpr hmod]
  · rintro ⟨b, hb, hmod⟩
    obtain ⟨r, hr⟩ := exists_of_current hb
    refine ⟨b.entry, by rw [h.current, hb]; rfl, hm, fun he => hmod ?_⟩
    rw [hprev, (h.logged r k b hr).version] at he
    exact ticket_eq_iff.mp (TaskVersion.mk.inj he).symm

/-- What stands under an id after a deletion was put there later. -/
theorem current_after_remove {b : Commit} (hq : c.shared.log[q]? = some (.remove k))
    (hb : current c.shared.log k = some b) :
    ∃ r, q < r ∧ c.shared.log[r]? = some (.put k b) := by
  obtain ⟨r, hr, hlast⟩ := current_eq_some_iff.mp hb
  have hne : r ≠ q := by
    rintro rfl
    rw [hr] at hq
    cases hq
  have hle : ¬ r < q := fun hlt => hlast q _ hlt hq rfl
  exact ⟨r, by omega, hr⟩

end

/-- **A save of a task that was deleted is rejected exactly when the task is
there again**, put by a save whose draw is not a multiple of `2 ^ 64` away from
that of the version.  With fewer than `2 ^ 64` saves any record will do. -/
theorem stale_save_rejected_iff (k : Constructor) {c c' : StoreConfig} {i p q : ℕ} {task : Task}
    {prev : TaskVersion} {result : Except A2AError TaskVersion} {a : Commit}
    (hr : taskStore.Reach Always (calling k.make) c)
    (hp : c.shared.log[p]? = some (.put task.id a)) (hv : a.entry.version = prev)
    (hm : prev ≠ .MISSING) (hq : c.shared.log[q]? = some (.remove task.id)) (hpq : p < q)
    (hlock : Locks c c' i task prev result) :
    (Rejected c c' result ↔
      ∃ b, current c.shared.log task.id = some b ∧ ¬ b.number ≡ a.number [MOD 2 ^ 64]) ∧
    (c.saves < 2 ^ 64 →
      (Rejected c c' result ↔ (current c.shared.log task.id).isSome = true)) := by
  have h := consistent_reach k.tasks_make hr
  have hiff := hlock.rejected_iff.trans (h.conflicts_iff hp hv hm)
  refine ⟨hiff, fun hb => hiff.trans ⟨?_, fun hsome => ?_⟩⟩
  · rintro ⟨b, hcur, -⟩
    rw [hcur]
    rfl
  · obtain ⟨b, hcur⟩ := Option.isSome_iff_exists.mp hsome
    obtain ⟨r, hqr, hr'⟩ := current_after_remove hq hcur
    have hle := h.drawn_le_saves
    have hna := (h.logged p _ a hp).number
    have hnb := (h.logged r _ b hr').number
    refine ⟨b, hcur, fun hmod => ?_⟩
    -- equal numbers would make the two entries one, but one is before the deletion
    have hnum : b.number = a.number := Nat.ModEq.eq_of_lt_of_lt hmod (by omega) (by omega)
    have hrp : r = p := h.distinct r p _ _ b a hr' hp hnum
    omega

/-- A task is saved and deleted, and the version is passed to another save. -/
def savedDeleted : List (Label StoreCall Unit) :=
  [.arrive (.save someTask .MISSING), .run 0 (), .run 0 (), .arrive (.delete "t1"), .run 1 (),
    .arrive (.save someTask ⟨1⟩), .run 2 ()]

theorem deleted_comes_back : ¬ StaleSavesRejected .new := by
  intro h
  have hlock : Locks (after .new savedDeleted) (after .new (savedDeleted ++ [.run 2 ()])) 2 someTask
      ⟨1⟩ (.ok ⟨2⟩) := ⟨⟨⟨2⟩, 1, rfl⟩, rfl, rfl⟩
  have hrej := h _ _ 2 0 1 someTask ⟨1⟩ _ ⟨0, 0, ⟨someTask, ⟨1⟩⟩⟩ (reach_after (by decide)) rfl rfl
    (by decide) rfl (by decide) hlock
  cases hrej.1

/-- A task is saved, deleted and saved again before the version is passed. -/
def savedDeletedSaved : List (Label StoreCall Unit) :=
  [.arrive (.save someTask .MISSING), .run 0 (), .run 0 (), .arrive (.delete "t1"), .run 1 (),
    .arrive (.save someTask .MISSING), .run 2 (), .run 2 (), .arrive (.save someTask ⟨1⟩),
    .run 3 ()]

theorem stale_save_rejected_iff_savedDeletedSaved :
    Rejected (after .new savedDeletedSaved) (after .new (savedDeletedSaved ++ [.run 3 ()]))
      (.error .concurrentTaskModification) := by
  have hlock : Locks (after .new savedDeletedSaved)
      (after .new (savedDeletedSaved ++ [.run 3 ()])) 3 someTask ⟨1⟩
      (.error .concurrentTaskModification) := ⟨⟨⟨3⟩, 2, rfl⟩, rfl, rfl⟩
  refine ((stale_save_rejected_iff .new (p := 0) (q := 1) (a := ⟨0, 0, ⟨someTask, ⟨1⟩⟩⟩)
    (reach_after (by decide)) rfl rfl (by decide) rfl (by decide) hlock).2 ?_).mpr ?_
  · decide
  · rfl

/-! ### Versions and the missing version -/

/-- A version a caller has been given. -/
def StoreConfig.Received (c : StoreConfig) (v : TaskVersion) : Prop :=
  (∃ (i : ℕ) (task : Task) (prev : TaskVersion),
      c.threads[i]? = some (.saved task prev (.ok v))) ∨
    ∃ (i : ℕ) (taskId : String) (task : Task), c.threads[i]? = some (.got taskId (some (task, v)))

/-- No version a caller is given is `MISSING`, so that a save passing it back is
refused wherever a record carries another. -/
def NeverMissing (s : InMemoryTaskStore) : Prop :=
  ∀ c : StoreConfig, taskStore.Reach Always (calling s) c → c.saves < 2 ^ 63 → ∀ v, c.Received v →
    v ≠ .MISSING ∧ ∀ taskId existing, c.shared.store.tasks.lookup taskId = some existing →
      existing.version ≠ v → c.shared.store.Conflicts taskId v

/-- A version a caller has been given was drawn. -/
theorem Consistent.version_of_received {first : Int64} {c : StoreConfig} {v : TaskVersion}
    (h : Consistent first c) (hv : c.Received v) : ∃ n < c.shared.drawn, v = ⟨ticket first n⟩ := by
  have hlogged : ∃ (p : ℕ) (k : String) (a : Commit), c.shared.log[p]? = some (.put k a) ∧
      a.entry.version = v := by
    rcases hv with ⟨i, task, prev, hi⟩ | ⟨i, taskId, task, hi⟩
    · obtain ⟨p, a, hp, -, ha⟩ := h.saved i task prev v hi
      exact ⟨p, task.id, a, hp, by rw [ha]⟩
    · obtain ⟨p, a, hp, ha⟩ := h.got i taskId task v hi
      exact ⟨p, taskId, a, hp, by rw [ha]⟩
  obtain ⟨p, k, a, hp, rfl⟩ := hlogged
  exact ⟨a.number, (h.logged p k a hp).number, (h.logged p k a hp).version⟩

/-- The first save of a default store is given the number its counter stands at. -/
theorem not_neverMissing_default : ¬ NeverMissing .default := by
  intro h
  let ls : List (Label StoreCall Unit) := [.arrive (.save someTask .MISSING), .run 0 (), .run 0 ()]
  have hgiven := h (after .default ls) (reach_after (by decide)) (by decide) .MISSING
    (Or.inl ⟨0, someTask, .MISSING, rfl⟩)
  exact absurd rfl hgiven.1

/-- **Of the two constructors only `new` keeps the versions apart from
`MISSING`.** -/
theorem never_missing_iff (k : Constructor) : NeverMissing k.make ↔ k = .new := by
  constructor
  · intro h
    cases k with
    | new => rfl
    | default => exact absurd h not_neverMissing_default
  · rintro rfl c hr hb v hv
    have h := consistent_reach (s := .new) rfl hr
    obtain ⟨n, hn, rfl⟩ := h.version_of_received hv
    have hle := h.drawn_le_saves
    have hne : (⟨ticket InMemoryTaskStore.new.nextVersion n⟩ : TaskVersion) ≠ .MISSING := by
      intro he
      have hone : (InMemoryTaskStore.new.nextVersion).toInt = 1 := by decide
      have hval := congrArg Int64.toInt (TaskVersion.mk.inj he)
      rw [toInt_ticket_of_lt (by omega), hone] at hval
      have hzero : (0 : Int64).toInt = 0 := by decide
      omega
    exact ⟨hne, fun taskId existing hl hx => ⟨existing, hl, hne, fun e => hx e.symm⟩⟩

theorem default_gives_missing : ¬ ∀ k : Constructor, NeverMissing k.make := by
  intro h
  exact not_neverMissing_default (h .default)

end Ra2a
