import Ra2a.Lib.Counter
import Ra2a.Lib.Interleave
import Ra2a.Lib.Ledger
import Ra2a.Server.TaskStore

/-!
# Concurrent calls of the task store

Each call of `save`, `get` and `delete` on one `InMemoryTaskStore` is a thread.
A `get` and a `delete` are one access of the map under its lock.  A `save` is
two: it draws its version from the counter without any lock, and it takes the
write lock to check and insert.  Between the two it is `drawn`, and other calls
may come first.

Two things are kept for the proofs, and no call reads them: how many versions
have been drawn, which numbers the draws, and the ledger of the changes made to
the map.  `Consistent` says how the store, the calls and the ledger belong
together, and holds of every state a run reaches (`consistent_reach`).
-/

namespace Ra2a

open Counter Interleave Ledger Places

/-- What a save left in the map: the call, the number of its draw, the record. -/
structure Commit where
  saver : ℕ
  number : ℕ
  entry : VersionedTask
  deriving DecidableEq

structure SharedStore where
  store : InMemoryTaskStore
  drawn : ℕ
  log : List (Change String Commit)

/-- A call and where it is. -/
inductive StoreCall
  | save (task : Task) (prev : TaskVersion)
  | drawn (task : Task) (prev version : TaskVersion) (number : ℕ)
  | saved (task : Task) (prev : TaskVersion) (result : Except A2AError TaskVersion)
  | get (taskId : String)
  | got (taskId : String) (result : Option (Task × TaskVersion))
  | delete (taskId : String)
  | deleted (taskId : String)

namespace StoreCall

/-- The calls that have not begun. -/
def isFresh : StoreCall → Bool
  | save _ _ | get _ | delete _ => true
  | _ => false

def isSave : StoreCall → Bool
  | save _ _ | drawn _ _ _ _ | saved _ _ _ => true
  | _ => false

/-- The saves that have drawn their version. -/
def hasDrawn : StoreCall → Bool
  | drawn _ _ _ _ | saved _ _ _ => true
  | _ => false

end StoreCall

namespace SharedStore

variable (s : SharedStore)

/-- After a draw of a version. -/
def draw : SharedStore := { s with store := s.store.drawVersion.2, drawn := s.drawn + 1 }

/-- After the commit of save `i`, whose draw was the one numbered `n`. -/
def commit (i n : ℕ) (entry : VersionedTask) (store : InMemoryTaskStore) : SharedStore :=
  { s with store := store, log := s.log ++ [.put entry.task.id ⟨i, n, entry⟩] }

/-- After a deletion. -/
def delete (taskId : String) : SharedStore :=
  { s with store := s.store.delete taskId, log := s.log ++ [.remove taskId] }

end SharedStore

/-- One access of the store by call `i`. -/
def StoreCall.advance (s : SharedStore) (i : ℕ) : StoreCall → Option (SharedStore × StoreCall)
  | save task prev => some (s.draw, drawn task prev s.store.drawVersion.1 s.drawn)
  | drawn task prev version number =>
    match s.store.commit ⟨task, version⟩ prev with
    | (.ok ver, store) => some (s.commit i number ⟨task, version⟩ store, saved task prev (.ok ver))
    | (.error e, store) => some ({ s with store := store }, saved task prev (.error e))
  | get taskId => some (s, got taskId (s.store.get taskId))
  | delete taskId => some (s.delete taskId, deleted taskId)
  | _ => none

/-- The store under concurrent calls. -/
def taskStore : Machine SharedStore StoreCall Unit where
  fresh := StoreCall.isFresh
  advance s _ i _ t := (t.advance s i).map fun r => (r.1, r.2, [])

abbrev StoreConfig := Config SharedStore StoreCall

/-- A store that nobody has called yet. -/
def calling (s : InMemoryTaskStore) : StoreConfig := ⟨⟨s, 0, []⟩, []⟩

/-- How many calls of `save` there are. -/
def StoreConfig.saves (c : StoreConfig) : ℕ := c.threads.countP StoreCall.isSave

/-! ### Steps -/

/-- What a step of a call can be. -/
inductive StoreCall.Step (s : SharedStore) (i : ℕ) :
    StoreCall → SharedStore → StoreCall → Prop
  | draw (task : Task) (prev : TaskVersion) :
    Step s i (.save task prev) s.draw (.drawn task prev ⟨s.store.nextVersion⟩ s.drawn)
  | refuse (task : Task) (prev version : TaskVersion) (number : ℕ)
      (hconf : s.store.Conflicts task.id prev) :
    Step s i (.drawn task prev version number) s
      (.saved task prev (.error .concurrentTaskModification))
  | commit (task : Task) (prev version : TaskVersion) (number : ℕ)
      (hconf : ¬ s.store.Conflicts task.id prev) :
    Step s i (.drawn task prev version number)
      (s.commit i number ⟨task, version⟩ (s.store.put ⟨task, version⟩))
      (.saved task prev (.ok version))
  | get (taskId : String) : Step s i (.get taskId) s (.got taskId (s.store.get taskId))
  | delete (taskId : String) : Step s i (.delete taskId) (s.delete taskId) (.deleted taskId)

theorem StoreCall.step_of_advance {s s' : SharedStore} {i : ℕ} {t t' : StoreCall}
    (h : t.advance s i = some (s', t')) : StoreCall.Step s i t s' t' := by
  cases t with
  | save task prev =>
    cases h
    exact .draw task prev
  | drawn task prev version number =>
    rw [advance] at h
    by_cases hconf : s.store.Conflicts task.id prev
    · rw [@InMemoryTaskStore.commit_of_conflicts s.store ⟨task, version⟩ prev hconf] at h
      cases h
      exact .refuse task prev version number hconf
    · rw [@InMemoryTaskStore.commit_of_not_conflicts s.store ⟨task, version⟩ prev hconf] at h
      cases h
      exact .commit task prev version number hconf
  | get taskId =>
    cases h
    exact .get taskId
  | delete taskId =>
    cases h
    exact .delete taskId
  | saved task prev result => cases h
  | got taskId result => cases h
  | deleted taskId => cases h

variable {c c' : StoreConfig} {l : Label StoreCall Unit}

/-- What a step of the store under concurrent calls can be. -/
theorem storeStep_cases (h : taskStore.step c l = some c') :
    (∃ t, l = .arrive t ∧ t.isFresh = true ∧ c' = ⟨c.shared, c.threads ++ [t]⟩) ∨
      ∃ i t s' t', l = .run i () ∧ c.threads[i]? = some t ∧ StoreCall.Step c.shared i t s' t' ∧
        c' = ⟨s', c.threads.set i t'⟩ := by
  rcases Machine.step_cases h with ⟨t, hl, hf, hc⟩ | ⟨i, m, t, s', t', new, hl, ht, ha, hc⟩
  · exact Or.inl ⟨t, hl, hf, hc⟩
  · obtain ⟨r, hr, he⟩ := Option.map_eq_some_iff.mp ha
    cases he
    rw [List.append_nil] at hc
    exact Or.inr ⟨i, t, r.1, r.2, hl, ht, StoreCall.step_of_advance hr, hc⟩

/-- A step of call `i` by itself. -/
theorem storeStep_run {i : ℕ} (h : taskStore.step c (.run i ()) = some c') :
    ∃ t s' t', c.threads[i]? = some t ∧ StoreCall.Step c.shared i t s' t' ∧
      c' = ⟨s', c.threads.set i t'⟩ := by
  rcases storeStep_cases h with ⟨t, hl, -, -⟩ | ⟨j, t, s', t', hl, ht, ha, hc⟩
  · cases hl
  · cases hl
    exact ⟨t, s', t', ht, ha, hc⟩

/-! ### What holds of every state -/

/-- What the ledger says about an entry: its draw was made, the version is that
draw's, it stands under its own id, and its call has returned the version. -/
structure Commit.Logged (first : Int64) (c : StoreConfig) (k : String) (a : Commit) : Prop where
  number : a.number < c.shared.drawn
  version : a.entry.version = ⟨ticket first a.number⟩
  key : a.entry.task.id = k
  saver : ∃ prev, c.threads[a.saver]? = some (.saved a.entry.task prev (.ok a.entry.version))

/-- What holds of the store, the calls and the ledger together, for a counter
that stood at `first`. -/
structure Consistent (first : Int64) (c : StoreConfig) : Prop where
  next : c.shared.store.nextVersion = ticket first c.shared.drawn
  counted : c.shared.drawn = c.threads.countP StoreCall.hasDrawn
  current : ∀ k, c.shared.store.tasks.lookup k = (current c.shared.log k).map Commit.entry
  distinct : TagsDistinct Commit.number c.shared.log
  logged : ∀ (p : ℕ) (k : String) (a : Commit), c.shared.log[p]? = some (.put k a) →
    a.Logged first c k
  pending : ∀ (i : ℕ) (task : Task) (prev version : TaskVersion) (n : ℕ),
    c.threads[i]? = some (.drawn task prev version n) →
      version = ⟨ticket first n⟩ ∧ n < c.shared.drawn ∧
        ∀ (p : ℕ) (k : String) (a : Commit), c.shared.log[p]? = some (.put k a) → a.number ≠ n
  apart : ∀ (i j : ℕ) (task task' : Task) (prev prev' version version' : TaskVersion) (n : ℕ),
    c.threads[i]? = some (.drawn task prev version n) →
      c.threads[j]? = some (.drawn task' prev' version' n) → i = j
  saved : ∀ (i : ℕ) (task : Task) (prev version : TaskVersion),
    c.threads[i]? = some (.saved task prev (.ok version)) →
      ∃ (p : ℕ) (a : Commit), c.shared.log[p]? = some (.put task.id a) ∧ a.saver = i ∧
        a.entry = ⟨task, version⟩
  got : ∀ (i : ℕ) (k : String) (task : Task) (version : TaskVersion),
    c.threads[i]? = some (.got k (some (task, version))) →
      ∃ (p : ℕ) (a : Commit), c.shared.log[p]? = some (.put k a) ∧ a.entry = ⟨task, version⟩

section Keeping

variable {first : Int64} {i : ℕ} {t t' : StoreCall} {s' : SharedStore} {k : String} {a : Commit}
  {task : Task} {prev version : TaskVersion} {n : ℕ}

/-- A call that has returned does not move, so what it returned stays. -/
theorem Commit.Logged.moved (h : a.Logged first c k) (hd : c.shared.drawn ≤ s'.drawn)
    (hi : c.threads[i]? = some t) (hstep : StoreCall.Step c.shared i t s' t') :
    a.Logged first ⟨s', c.threads.set i t'⟩ k := by
  obtain ⟨prev, hsaver⟩ := h.saver
  have hne : a.saver ≠ i := by
    rintro rfl
    rw [hi] at hsaver
    cases hsaver
    cases hstep
  exact ⟨h.number.trans_le hd, h.version, h.key, prev, getElem?_set_of_ne hsaver hne⟩

theorem consistent_calling (s : InMemoryTaskStore) (h : s.tasks = ∅) :
    Consistent s.nextVersion (calling s) where
  next := ticket_zero.symm
  counted := rfl
  current k := by
    show s.tasks.lookup k = _
    rw [h]
    rfl
  distinct := tagsDistinct_nil
  logged p k a hp := by cases hp
  pending i task prev version n hi := by cases hi
  apart i j task task' prev prev' version version' n hi := by cases hi
  saved i task prev version hi := by cases hi
  got i k task version hi := by cases hi

theorem consistent_arrive (h : Consistent first c) (hf : t.isFresh = true) :
    Consistent first ⟨c.shared, c.threads ++ [t]⟩ where
  next := h.next
  counted := by
    have ht : t.hasDrawn = false := by cases t <;> first | rfl | cases hf
    show c.shared.drawn = (c.threads ++ [t]).countP StoreCall.hasDrawn
    rw [List.countP_append, List.countP_singleton, ht, ← h.counted]
    rfl
  current := h.current
  distinct := h.distinct
  logged p k a hp := by
    obtain ⟨hn, hv, hk, prev, hsaver⟩ := h.logged p k a hp
    refine ⟨hn, hv, hk, prev, ?_⟩
    show (c.threads ++ [t])[a.saver]? = _
    rw [List.getElem?_append_left (List.getElem?_eq_some_iff.mp hsaver).1, hsaver]
  pending i task prev version n hi := by
    rcases getElem?_concat_cases hi with hi | ⟨-, rfl⟩
    · exact h.pending i task prev version n hi
    · cases hf
  apart i j task task' prev prev' version version' n hi hj := by
    rcases getElem?_concat_cases hi with hi | ⟨-, rfl⟩
    · rcases getElem?_concat_cases hj with hj | ⟨-, rfl⟩
      · exact h.apart i j task task' prev prev' version version' n hi hj
      · cases hf
    · cases hf
  saved i task prev version hi := by
    rcases getElem?_concat_cases hi with hi | ⟨-, rfl⟩
    · exact h.saved i task prev version hi
    · cases hf
  got i k task version hi := by
    rcases getElem?_concat_cases hi with hi | ⟨-, rfl⟩
    · exact h.got i k task version hi
    · cases hf

/-- The number a save draws is a new one. -/
theorem consistent_draw (h : Consistent first c) (hi : c.threads[i]? = some (.save task prev)) :
    Consistent first ⟨c.shared.draw,
      c.threads.set i (.drawn task prev ⟨c.shared.store.nextVersion⟩ c.shared.drawn)⟩ where
  next := by
    show c.shared.store.nextVersion + 1 = ticket first (c.shared.drawn + 1)
    rw [h.next, ticket_succ]
  counted := by
    obtain ⟨hlen, hit⟩ := List.getElem?_eq_some_iff.mp hi
    show c.shared.drawn + 1 = List.countP _ _
    rw [List.countP_set hlen, hit, h.counted]
    rfl
  current := h.current
  distinct := h.distinct
  logged p k a hp :=
    (h.logged p k a hp).moved (Nat.le_succ _) hi (.draw task prev)
  pending j task' prev' version n hj := by
    rcases getElem?_set_cases hj with ⟨-, ht⟩ | ⟨-, hj⟩
    · cases ht
      refine ⟨by rw [h.next], Nat.lt_succ_self _, fun p k a hp => ?_⟩
      exact Nat.ne_of_lt (h.logged p k a hp).number
    · obtain ⟨hv, hn, hlog⟩ := h.pending j task' prev' version n hj
      exact ⟨hv, Nat.lt_succ_of_lt hn, hlog⟩
  apart j l task' task'' prev' prev'' version version' n hj hl := by
    rcases getElem?_set_cases hj with ⟨hji, hjt⟩ | ⟨-, hj⟩
    · rcases getElem?_set_cases hl with ⟨hli, -⟩ | ⟨-, hl⟩
      · rw [hji, hli]
      · cases hjt
        exact absurd (h.pending l _ _ _ _ hl).2.1 (Nat.lt_irrefl _)
    · rcases getElem?_set_cases hl with ⟨-, hlt⟩ | ⟨-, hl⟩
      · cases hlt
        exact absurd (h.pending j _ _ _ _ hj).2.1 (Nat.lt_irrefl _)
      · exact h.apart j l task' task'' prev' prev'' version version' n hj hl
  saved j task' prev' version hj := by
    rcases getElem?_set_cases hj with ⟨-, ht⟩ | ⟨-, hj⟩
    · cases ht
    · exact h.saved j task' prev' version hj
  got j k task' version hj := by
    rcases getElem?_set_cases hj with ⟨-, ht⟩ | ⟨-, hj⟩
    · cases ht
    · exact h.got j k task' version hj

/-- What a record read belongs to stands in the ledger. -/
theorem Consistent.exists_of_lookup (h : Consistent first c) {e : VersionedTask}
    (hl : c.shared.store.tasks.lookup k = some e) :
    ∃ a, Ledger.current c.shared.log k = some a ∧ a.entry = e := by
  rw [h.current, Option.map_eq_some_iff] at hl
  exact hl

/-- A call that is answered and leaves the store as it is. -/
theorem consistent_answered (h : Consistent first c) (hi : c.threads[i]? = some t)
    (hstep : StoreCall.Step c.shared i t c.shared t')
    (ht : (∃ task prev, t' = .saved task prev (.error .concurrentTaskModification) ∧
        t.hasDrawn = true) ∨
      ∃ k, t' = .got k (c.shared.store.get k) ∧ t.hasDrawn = false) :
    Consistent first ⟨c.shared, c.threads.set i t'⟩ where
  next := h.next
  counted := by
    have hsame : t'.hasDrawn = t.hasDrawn := by
      rcases ht with ⟨_, _, rfl, hd⟩ | ⟨_, rfl, hd⟩ <;> exact hd.symm
    exact h.counted.trans (countP_set_of_eq hi hsame).symm
  current := h.current
  distinct := h.distinct
  logged p k a hp := (h.logged p k a hp).moved (Nat.le_refl _) hi hstep
  pending j task' prev' version n hj := by
    rcases getElem?_set_cases hj with ⟨-, hjt⟩ | ⟨-, hj⟩
    · rcases ht with ⟨_, _, rfl, -⟩ | ⟨_, rfl, -⟩ <;> cases hjt
    · exact h.pending j task' prev' version n hj
  apart j l task' task'' prev' prev'' version version' n hj hl := by
    rcases getElem?_set_cases hj with ⟨-, hjt⟩ | ⟨-, hj⟩
    · rcases ht with ⟨_, _, rfl, -⟩ | ⟨_, rfl, -⟩ <;> cases hjt
    · rcases getElem?_set_cases hl with ⟨-, hlt⟩ | ⟨-, hl⟩
      · rcases ht with ⟨_, _, rfl, -⟩ | ⟨_, rfl, -⟩ <;> cases hlt
      · exact h.apart j l task' task'' prev' prev'' version version' n hj hl
  saved j task' prev' version hj := by
    rcases getElem?_set_cases hj with ⟨-, hjt⟩ | ⟨-, hj⟩
    · rcases ht with ⟨_, _, rfl, -⟩ | ⟨_, rfl, -⟩ <;> cases hjt
    · exact h.saved j task' prev' version hj
  got j k' task' version hj := by
    rcases getElem?_set_cases hj with ⟨-, hjt⟩ | ⟨-, hj⟩
    · rcases ht with ⟨_, _, rfl, -⟩ | ⟨_, rfl, -⟩
      · cases hjt
      · obtain ⟨rfl, hget⟩ := StoreCall.got.inj hjt
        obtain ⟨a, ha, he⟩ :=
          h.exists_of_lookup (InMemoryTaskStore.get_eq_some_iff.mp hget.symm)
        obtain ⟨p, hp⟩ := exists_of_current ha
        exact ⟨p, a, hp, he⟩
    · exact h.got j k' task' version hj

/-- A commit puts an entry with a number of its own. -/
theorem consistent_commit (h : Consistent first c)
    (hi : c.threads[i]? = some (.drawn task prev version n))
    (hconf : ¬ c.shared.store.Conflicts task.id prev) :
    Consistent first ⟨c.shared.commit i n ⟨task, version⟩ (c.shared.store.put ⟨task, version⟩),
      c.threads.set i (.saved task prev (.ok version))⟩ where
  next := h.next
  counted := h.counted.trans (countP_set_of_eq hi (by rfl)).symm
  current k := by
    show (c.shared.store.put ⟨task, version⟩).tasks.lookup k = (Ledger.current (_ ++ _) k).map _
    rw [InMemoryTaskStore.lookup_put, current_concat, Change.key_put, h.current]
    split <;> rfl
  distinct := tagsDistinct_put h.distinct (h.pending i task prev version n hi).2.2
  logged p k a hp := by
    rcases getElem?_concat_cases hp with hp | ⟨-, ha⟩
    · exact (h.logged p k a hp).moved (Nat.le_refl _) hi (.commit task prev version n hconf)
    · cases ha
      obtain ⟨hv, hn, -⟩ := h.pending i task prev version n hi
      exact ⟨hn, hv, rfl, prev, List.getElem?_set_self (List.getElem?_eq_some_iff.mp hi).1⟩
  pending j task' prev' version' n' hj := by
    rcases getElem?_set_cases hj with ⟨-, ht⟩ | ⟨hji, hj⟩
    · cases ht
    · obtain ⟨hv, hn, hlog⟩ := h.pending j task' prev' version' n' hj
      refine ⟨hv, hn, fun p k a hp => ?_⟩
      rcases getElem?_concat_cases hp with hp | ⟨-, ha⟩
      · exact hlog p k a hp
      · cases ha
        rintro rfl
        exact hji (h.apart j i _ _ _ _ _ _ _ hj hi)
  apart j l task' task'' prev' prev'' version' version'' n' hj hl := by
    rcases getElem?_set_cases hj with ⟨-, ht⟩ | ⟨-, hj⟩
    · cases ht
    · rcases getElem?_set_cases hl with ⟨-, ht⟩ | ⟨-, hl⟩
      · cases ht
      · exact h.apart j l task' task'' prev' prev'' version' version'' n' hj hl
  saved j task' prev' version' hj := by
    rcases getElem?_set_cases hj with ⟨rfl, ht⟩ | ⟨-, hj⟩
    · cases ht
      exact ⟨_, _, List.getElem?_concat_length, rfl, rfl⟩
    · obtain ⟨p, a, hp, ha⟩ := h.saved j task' prev' version' hj
      exact ⟨p, a, getElem?_append_of_some hp, ha⟩
  got j k task' version' hj := by
    rcases getElem?_set_cases hj with ⟨-, ht⟩ | ⟨-, hj⟩
    · cases ht
    · obtain ⟨p, a, hp, ha⟩ := h.got j k task' version' hj
      exact ⟨p, a, getElem?_append_of_some hp, ha⟩

theorem consistent_delete (h : Consistent first c) (hi : c.threads[i]? = some (.delete k)) :
    Consistent first ⟨c.shared.delete k, c.threads.set i (.deleted k)⟩ where
  next := h.next
  counted := h.counted.trans (countP_set_of_eq hi (by rfl)).symm
  current l := by
    show (c.shared.store.delete k).tasks.lookup l = (Ledger.current (_ ++ _) l).map _
    rw [InMemoryTaskStore.lookup_delete, current_concat, Change.key_remove, h.current]
    split <;> rfl
  distinct := tagsDistinct_remove h.distinct
  logged p l a hp := by
    rcases getElem?_concat_cases hp with hp | ⟨-, ha⟩
    · exact (h.logged p l a hp).moved (Nat.le_refl _) hi (.delete k)
    · cases ha
  pending j task prev version n hj := by
    rcases getElem?_set_cases hj with ⟨-, ht⟩ | ⟨-, hj⟩
    · cases ht
    · obtain ⟨hv, hn, hlog⟩ := h.pending j task prev version n hj
      refine ⟨hv, hn, fun p l a hp => ?_⟩
      rcases getElem?_concat_cases hp with hp | ⟨-, ha⟩
      · exact hlog p l a hp
      · cases ha
  apart j l task task' prev prev' version version' n hj hl := by
    rcases getElem?_set_cases hj with ⟨-, ht⟩ | ⟨-, hj⟩
    · cases ht
    · rcases getElem?_set_cases hl with ⟨-, ht⟩ | ⟨-, hl⟩
      · cases ht
      · exact h.apart j l task task' prev prev' version version' n hj hl
  saved j task prev version hj := by
    rcases getElem?_set_cases hj with ⟨-, ht⟩ | ⟨-, hj⟩
    · cases ht
    · obtain ⟨p, a, hp, ha⟩ := h.saved j task prev version hj
      exact ⟨p, a, getElem?_append_of_some hp, ha⟩
  got j l task version hj := by
    rcases getElem?_set_cases hj with ⟨-, ht⟩ | ⟨-, hj⟩
    · cases ht
    · obtain ⟨p, a, hp, ha⟩ := h.got j l task version hj
      exact ⟨p, a, getElem?_append_of_some hp, ha⟩

theorem consistent_step (h : Consistent first c) (hs : taskStore.step c l = some c') :
    Consistent first c' := by
  rcases storeStep_cases hs with ⟨t, -, hf, rfl⟩ | ⟨i, t, s', t', -, hi, hstep, rfl⟩
  · exact consistent_arrive h hf
  · cases hstep with
    | draw task prev => exact consistent_draw h hi
    | refuse task prev version n hconf =>
      exact consistent_answered h hi (.refuse task prev version n hconf)
        (Or.inl ⟨task, prev, rfl, rfl⟩)
    | commit task prev version n hconf => exact consistent_commit h hi hconf
    | get taskId =>
      exact consistent_answered h hi (.get taskId) (Or.inr ⟨taskId, rfl, rfl⟩)
    | delete taskId => exact consistent_delete h hi

/-- **Store, calls and ledger belong together in every state reached.** -/
theorem consistent_reach {ok : StoreConfig → Label StoreCall Unit → Prop} {s : InMemoryTaskStore}
    (hs : s.tasks = ∅) (h : taskStore.Reach ok (calling s) c) : Consistent s.nextVersion c :=
  h.invariant (consistent_calling s hs) fun _ _ _ hc _ hstep => consistent_step hc hstep

end Keeping

/-! ### Consequences -/

section

variable {first : Int64} (h : Consistent first c)

include h

theorem Consistent.drawn_le_saves : c.shared.drawn ≤ c.saves := by
  rw [h.counted]
  refine List.countP_mono_left fun t _ ht => ?_
  cases t <;> first | rfl | cases ht

/-- With fewer than `2 ^ 64` saves a version is only ever given once. -/
theorem Consistent.number_eq (hb : c.saves < 2 ^ 64) {p q : ℕ} {k l : String} {a b : Commit}
    (hp : c.shared.log[p]? = some (.put k a)) (hq : c.shared.log[q]? = some (.put l b))
    (hv : a.entry.version = b.entry.version) : a.number = b.number := by
  have hle := h.drawn_le_saves
  obtain ⟨ha, hva, -, -⟩ := h.logged p k a hp
  obtain ⟨hb', hvb, -, -⟩ := h.logged q l b hq
  rw [hva, hvb] at hv
  exact ticket_inj (TaskVersion.mk.inj hv) (by omega) (by omega)

end

/-- The ledger only grows. -/
theorem ledger_step (h : taskStore.step c l = some c') : c.shared.log <+: c'.shared.log := by
  rcases storeStep_cases h with ⟨t, -, -, rfl⟩ | ⟨i, t, s', t', -, -, hstep, rfl⟩
  · exact List.prefix_refl _
  · cases hstep with
    | draw => exact List.prefix_refl _
    | refuse => exact List.prefix_refl _
    | commit => exact List.prefix_append _ _
    | get => exact List.prefix_refl _
    | delete => exact List.prefix_append _ _

theorem log_reach {ok : StoreConfig → Label StoreCall Unit → Prop}
    (h : taskStore.Reach ok c c') : c.shared.log <+: c'.shared.log := by
  induction h with
  | refl => exact List.prefix_refl _
  | tail _ _ hs ih => exact ih.trans (ledger_step hs)

end Ra2a
