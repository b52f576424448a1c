import Mathlib.Data.Set.Card
import Ra2a.Lib.Paging
import Ra2a.Server.TaskStore
import Ra2a.Types.Request

/-!
# Listing the tasks of a store

`InMemoryTaskStore::list`: the values of the map, filtered by context and by
state, a page at a time.  The page token is the offset of the next page in
decimal.

A `HashMap` is iterated in an order of its own, which stays the same as long as
the map does.  It is an argument here: an `Iteration` of a store lists every
value once, in some order.

The walk that follows the tokens is offset paging over the tasks that match
(`walk_tasks`).  It gives every matching task once, except that a page size of
zero is neither refused nor replaced by the default, and then the walk stays at
offset zero for ever (`walk_complete_iff`).
-/

namespace Ra2a

/-! ### The request -/

/-- `str::parse::<usize>`: decimal digits, perhaps after a plus sign, that fit. -/
def parseUsize (s : String) : Option ℕ :=
  let digits := match s.toList with
    | '+' :: rest => rest
    | cs => cs
  let n := Nat.ofDigitChars 10 digits 0
  if digits ≠ [] ∧ digits.all Char.isDigit ∧ n < 2 ^ 64 then some n else none

/-- `i32::try_from(n).unwrap_or(i32::MAX)`. -/
def saturateI32 (n : ℕ) : Int32 := if n < 2 ^ 31 then Int32.ofNat n else Int32.maxValue

namespace ListTasksRequest

variable (req : ListTasksRequest)

/-- The page size used: at most 100, and 50 for a negative one. -/
def limit : ℕ :=
  let n := min (req.pageSize.getD 50) 100
  if n < 0 then 50 else n.toNatClampNeg

/-- The offset the page token stands for. -/
def offset : ℕ := (req.pageToken.bind parseUsize).getD 0

/-- The filters for the context and for the state. -/
def retain (tasks : List Task) : List Task :=
  let tasks := match req.contextId with
    | some ctx => tasks.filter fun t => t.contextId = ctx
    | none => tasks
  match req.status with
  | some state => tasks.filter fun t => t.status.state = state
  | none => tasks

/-- The task has the context and the state asked for. -/
def Matches (t : Task) : Prop :=
  (∀ ctx, req.contextId = some ctx → t.contextId = ctx) ∧
    ∀ state, req.status = some state → t.status.state = state

end ListTasksRequest

/-! ### The store -/

namespace InMemoryTaskStore

/-- An order in which the map is iterated. -/
structure Iteration (s : InMemoryTaskStore) where
  values : List VersionedTask
  nodup : values.Nodup
  mem_iff : ∀ v, v ∈ values ↔ s.tasks.lookup v.task.id = some v

variable {s : InMemoryTaskStore}

/-- `TaskStore::list`. -/
def list (it : s.Iteration) (req : ListTasksRequest) : ListTasksResponse :=
  let result := req.retain (it.values.map VersionedTask.task)
  let totalSize := saturateI32 result.length
  let paged := (result.drop req.offset).take req.limit
  let nextOffset := req.offset + paged.length
  let nextPageToken :=
    if saturateI32 nextOffset < totalSize then some (toString nextOffset) else none
  { tasks := paged
    totalSize := totalSize
    pageSize := saturateI32 req.limit
    nextPageToken := nextPageToken.getD "" }

/-- The walk that follows the page tokens, with at most `fuel` calls. -/
def walk (it : s.Iteration) : ℕ → ListTasksRequest → Option (List ListTasksResponse)
  | 0, _ => none
  | fuel + 1, req =>
    let r := s.list it req
    if r.nextPageToken = "" then some [r]
    else (walk it fuel { req with pageToken := some r.nextPageToken }).map (r :: ·)

/-- The tasks stored that match a request. -/
def matching (s : InMemoryTaskStore) (req : ListTasksRequest) : Set Task :=
  {t | s.task? t.id = some t ∧ req.Matches t}

/-- The walk without a token ends, its pages laid end to end have every matching
task once, and every page reports how many there are. -/
def WalkComplete (it : s.Iteration) (req : ListTasksRequest) : Prop :=
  ∃ fuel pages, s.walk it fuel { req with pageToken := none } = some pages ∧
    (pages.flatMap ListTasksResponse.tasks).Nodup ∧
    (∀ t, t ∈ pages.flatMap ListTasksResponse.tasks ↔ t ∈ s.matching req) ∧
    ∀ r ∈ pages, r.totalSize.toInt = (s.matching req).ncard

end InMemoryTaskStore

/-! ### Numbers and tokens -/

theorem parseUsize_toString {n : ℕ} (h : n < 2 ^ 64) : parseUsize (toString n) = some n := by
  have hlist : (toString n).toList = Nat.toDigits 10 n := by
    rw [Nat.toString_eq_repr, Nat.toList_repr]
  have hdigits : ∀ c ∈ Nat.toDigits 10 n, c.isDigit = true :=
    fun c hc => Nat.isDigit_of_mem_toDigits (by omega) (by omega) hc
  have hnoplus : (match Nat.toDigits 10 n with
      | '+' :: rest => rest
      | cs => cs) = Nat.toDigits 10 n := by
    split
    · rename_i rest heq
      have hplus := hdigits '+' (by rw [heq]; exact List.mem_cons_self)
      cases hplus
    · rfl
  simp only [parseUsize, hlist, hnoplus, Nat.ofDigitChars_ten_toDigits]
  rw [if_pos ⟨Nat.toDigits_ne_nil, List.all_eq_true.mpr hdigits, h⟩]

theorem toString_ne_empty (n : ℕ) : toString n ≠ "" := by
  intro h
  have hlist := congrArg String.toList h
  rw [Nat.toString_eq_repr, Nat.toList_repr] at hlist
  exact Nat.toDigits_ne_nil hlist

theorem toInt_saturateI32 {n : ℕ} (h : n < 2 ^ 31) : (saturateI32 n).toInt = n := by
  rw [saturateI32, if_pos h, Int32.toInt_ofNat_of_lt h]

/-- Saturating does not disturb the comparison with a number that fits. -/
theorem saturateI32_lt_iff {m n : ℕ} (hn : n < 2 ^ 31) : saturateI32 m < saturateI32 n ↔ m < n := by
  rw [Int32.lt_iff_toInt_lt, toInt_saturateI32 hn]
  by_cases hm : m < 2 ^ 31
  · rw [toInt_saturateI32 hm]
    omega
  · have hmax : (saturateI32 m).toInt = 2 ^ 31 - 1 := by
      rw [saturateI32, if_neg hm]
      rfl
    rw [hmax]
    omega

namespace ListTasksRequest

variable (req : ListTasksRequest) (token : Option String) {t : Task} {ts : List Task}

theorem mem_retain : t ∈ req.retain ts ↔ t ∈ ts ∧ req.Matches t := by
  rw [retain, Matches]
  cases req.contextId <;> cases req.status <;> simp [and_assoc, and_comm]

theorem nodup_retain (h : ts.Nodup) : (req.retain ts).Nodup := by
  rw [retain]
  cases req.contextId <;> cases req.status
  · exact h
  · exact h.filter _
  · exact h.filter _
  · exact (h.filter _).filter _

/-- The page size used is zero exactly when zero was asked for. -/
theorem limit_eq_zero_iff : req.limit = 0 ↔ req.pageSize = some 0 := by
  rw [limit]
  cases hp : req.pageSize with
  | none => decide
  | some n =>
    rw [Option.getD_some, Option.some.injEq]
    have hmin : min n 100 = if n ≤ 100 then n else 100 := rfl
    by_cases hle : n ≤ 100
    · rw [hmin, if_pos hle]
      by_cases hneg : n < 0
      · rw [if_pos hneg]
        have hne : n ≠ 0 := by
          rintro rfl
          exact absurd hneg (by decide)
        simp [hne]
      · rw [if_neg hneg, Int32.toNatClampNeg_eq_zero_iff]
        exact ⟨fun h => Int32.le_antisymm h (Int32.not_lt.mp hneg), fun h => by rw [h]; decide⟩
    · rw [hmin, if_neg hle]
      have hne : n ≠ 0 := by
        rintro rfl
        exact hle (by decide)
      exact ⟨fun h => absurd h (by decide), fun h => absurd h hne⟩

end ListTasksRequest

namespace InMemoryTaskStore

variable {s : InMemoryTaskStore}

/-! ### What the pages are made of -/

/-- The tasks `list` cuts its pages from. -/
def Iteration.matching (it : s.Iteration) (req : ListTasksRequest) : List Task :=
  req.retain (it.values.map VersionedTask.task)

section

variable (it : s.Iteration) (req : ListTasksRequest)

omit req in
/-- The values are those of the tasks stored. -/
theorem Iteration.mem_tasks {t : Task} :
    t ∈ it.values.map VersionedTask.task ↔ s.task? t.id = some t := by
  rw [List.mem_map]
  constructor
  · rintro ⟨v, hv, rfl⟩
    rw [task?_eq, (it.mem_iff v).mp hv]
    rfl
  · intro ht
    rw [task?_eq, Option.map_eq_some_iff] at ht
    obtain ⟨v, hv, rfl⟩ := ht
    exact ⟨v, (it.mem_iff v).mpr hv, rfl⟩

omit req in
theorem Iteration.nodup_tasks : (it.values.map VersionedTask.task).Nodup := by
  refine List.Nodup.map_on ?_ it.nodup
  intro v hv w hw h
  have hlv := (it.mem_iff v).mp hv
  have hlw := (it.mem_iff w).mp hw
  rw [h, hlw] at hlv
  exact (Option.some.inj hlv).symm

theorem Iteration.mem_matching {t : Task} : t ∈ it.matching req ↔ t ∈ s.matching req := by
  rw [Iteration.matching, ListTasksRequest.mem_retain, it.mem_tasks]
  rfl

theorem Iteration.nodup_matching : (it.matching req).Nodup := req.nodup_retain it.nodup_tasks

theorem Iteration.length_matching_le : (it.matching req).length ≤ it.values.length := by
  have hsub : (it.matching req).Subperm (it.values.map VersionedTask.task) :=
    List.subperm_of_subset (it.nodup_matching req) fun t ht =>
      (ListTasksRequest.mem_retain req).mp ht |>.1
  have hle := hsub.length_le
  rwa [List.length_map] at hle

theorem Iteration.ncard_matching : (s.matching req).ncard = (it.matching req).length := by
  have hset : s.matching req = ((it.matching req).toFinset : Set Task) := by
    ext t
    rw [List.coe_toFinset, Set.mem_ofPred_eq, it.mem_matching]
  rw [hset, Set.ncard_coe_finset, List.toFinset_card_of_nodup (it.nodup_matching req)]

theorem tasks_list : (s.list it req).tasks = Paging.page (it.matching req) req.limit req.offset :=
  rfl

theorem totalSize_list (h : it.values.length < 2 ^ 31) :
    (s.list it req).totalSize.toInt = (s.matching req).ncard := by
  rw [it.ncard_matching]
  exact toInt_saturateI32 ((it.length_matching_le req).trans_lt h)

end

/-- **The walk is offset paging over the tasks that match.** -/
theorem walk_tasks {it : s.Iteration} (hsize : it.values.length < 2 ^ 31) (fuel : ℕ)
    (req : ListTasksRequest) :
    (s.walk it fuel req).map (List.map ListTasksResponse.tasks) =
      Paging.walk (it.matching req) req.limit fuel req.offset := by
  induction fuel generalizing req with
  | zero => rfl
  | succ fuel ih =>
    have hlen : (it.matching req).length < 2 ^ 31 := (it.length_matching_le req).trans_lt hsize
    let next := req.offset + (s.list it req).tasks.length
    have htoken : (s.list it req).nextPageToken =
        (if saturateI32 next < saturateI32 (it.matching req).length then some (toString next)
          else none).getD "" := rfl
    rw [walk, Paging.walk, ← tasks_list]
    by_cases hlt : next < (it.matching req).length
    · rw [if_pos ((saturateI32_lt_iff hlen).mpr hlt), Option.getD_some] at htoken
      rw [if_pos hlt, if_neg (by rw [htoken]; exact toString_ne_empty next), htoken]
      have hnext := ih { req with pageToken := some (toString next) }
      have hoffset :
          ({ req with pageToken := some (toString next) } : ListTasksRequest).offset = next := by
        rw [ListTasksRequest.offset, Option.bind_some, parseUsize_toString (by omega)]
        rfl
      rw [hoffset] at hnext
      rw [show it.matching req =
          it.matching { req with pageToken := some (toString next) } from rfl,
        show req.limit =
          ({ req with pageToken := some (toString next) } : ListTasksRequest).limit from rfl,
        ← hnext, Option.map_map, Option.map_map]
      rfl
    · rw [if_neg (by rwa [saturateI32_lt_iff hlen]), Option.getD_none] at htoken
      rw [if_neg hlt, if_pos htoken]
      rfl

/-- Every page of a walk is a page of one list. -/
theorem mem_walk {it : s.Iteration} (fuel : ℕ) (req : ListTasksRequest)
    (pages : List ListTasksResponse) {r : ListTasksResponse} (h : s.walk it fuel req = some pages)
    (hr : r ∈ pages) : ∃ token, r = s.list it { req with pageToken := token } := by
  induction fuel generalizing req pages with
  | zero => cases h
  | succ fuel ih =>
    rw [walk] at h
    split at h
    · cases h
      obtain rfl := List.mem_singleton.mp hr
      exact ⟨req.pageToken, rfl⟩
    · obtain ⟨rest, hrest, rfl⟩ := Option.map_eq_some_iff.mp h
      rcases List.mem_cons.mp hr with rfl | hr
      · exact ⟨req.pageToken, rfl⟩
      · exact ih { req with pageToken := some (s.list it req).nextPageToken } rest hrest hr

/-- With a page size of zero the offset never moves. -/
theorem not_walkComplete_of_zero {it : s.Iteration} {req : ListTasksRequest} {t : Task}
    (hsize : it.values.length < 2 ^ 31) (hzero : req.pageSize = some 0)
    (ht : t ∈ s.matching req) : ¬ WalkComplete it req := by
  rintro ⟨fuel, pages, hw, -, -, -⟩
  let first : ListTasksRequest := { req with pageToken := none }
  have hmem : t ∈ it.matching first := (it.mem_matching first).mpr ht
  have hnone := Paging.walk_zero (List.length_pos_of_mem hmem) fuel
  have hlimit : first.limit = 0 := first.limit_eq_zero_iff.mpr hzero
  have hmap := walk_tasks hsize fuel first
  rw [hlimit, show first.offset = 0 from rfl, hnone, hw] at hmap
  cases hmap

/-- **The walk is complete unless the page size is zero** and there is a task to
list. -/
theorem walk_complete_iff (it : s.Iteration) (req : ListTasksRequest)
    (hsize : it.values.length < 2 ^ 31) :
    WalkComplete it req ↔ req.pageSize ≠ some 0 ∨ s.matching req = ∅ := by
  let first : ListTasksRequest := { req with pageToken := none }
  have hwalk := @walk_tasks s it hsize
  constructor
  · intro hcomplete
    by_contra hcon
    rw [not_or, not_ne_iff] at hcon
    obtain ⟨hzero, hne⟩ := hcon
    obtain ⟨t, ht⟩ := Set.nonempty_iff_ne_empty.mpr hne
    exact not_walkComplete_of_zero hsize hzero ht hcomplete
  · intro h
    have hps : ∃ fuel ps, Paging.walk (it.matching first) first.limit fuel first.offset = some ps ∧
        ps.flatten = it.matching first := by
      by_cases hzero : req.pageSize = some 0
      · have hempty : it.matching first = [] := by
          refine List.eq_nil_iff_forall_not_mem.mpr fun t ht => ?_
          have hmem : t ∈ s.matching req := (it.mem_matching first).mp ht
          rw [h.resolve_left fun hne => hne hzero] at hmem
          exact hmem
        rw [hempty]
        exact ⟨1, [[]], Paging.walk_nil 0, rfl⟩
      · have hpos : 0 < first.limit :=
          Nat.pos_of_ne_zero fun hl => hzero (first.limit_eq_zero_iff.mp hl)
        exact Paging.walk_of_pos hpos (Nat.zero_le _)
    obtain ⟨fuel, ps, hps, hflat⟩ := hps
    rw [← hwalk fuel first, Option.map_eq_some_iff] at hps
    obtain ⟨pages, hpages, rfl⟩ := hps
    have hall : pages.flatMap ListTasksResponse.tasks = it.matching first := by
      rw [← hflat]
      rfl
    refine ⟨fuel, pages, hpages, ?_, fun t => ?_, fun r hr => ?_⟩
    · rw [hall]
      exact it.nodup_matching first
    · rw [hall]
      exact it.mem_matching first
    · obtain ⟨token, rfl⟩ := mem_walk fuel first pages hpages hr
      exact totalSize_list it _ hsize

/-! ### Orders of iteration -/

/-- Listing the values in another order is another iteration. -/
def Iteration.perm (it : s.Iteration) {values : List VersionedTask}
    (h : values.Perm it.values) : s.Iteration where
  values := values
  nodup := h.nodup_iff.mpr it.nodup
  mem_iff v := h.mem_iff.trans (it.mem_iff v)

/-- An entry under a new id may come first. -/
def Iteration.put (it : s.Iteration) (entry : VersionedTask)
    (hnew : s.tasks.lookup entry.task.id = none) : (s.put entry).Iteration where
  values := entry :: it.values
  nodup := by
    refine List.nodup_cons.mpr ⟨fun hmem => ?_, it.nodup⟩
    rw [it.mem_iff, hnew] at hmem
    cases hmem
  mem_iff v := by
    rw [List.mem_cons, it.mem_iff, lookup_put]
    by_cases hid : entry.task.id = v.task.id
    · rw [if_pos hid, ← hid, hnew]
      simp [eq_comm]
    · rw [if_neg hid]
      refine ⟨fun h => h.resolve_left ?_, Or.inr⟩
      rintro rfl
      exact hid rfl

/-- Every map can be iterated. -/
theorem nonempty_iteration (s : InMemoryTaskStore) : Nonempty s.Iteration := by
  obtain ⟨l, hnodup, hmem⟩ := Keyed.OwnKeys.exists_list s.keyed
  exact ⟨l, hnodup, hmem⟩

/-- The filters in one. -/
theorem retain_eq_filter (req : ListTasksRequest) (ts : List Task) [DecidablePred req.Matches] :
    req.retain ts = ts.filter fun t => req.Matches t := by
  rw [ListTasksRequest.retain]
  cases hctx : req.contextId <;> cases hstate : req.status <;>
    simp [ListTasksRequest.Matches, hctx, hstate, List.filter_filter, Bool.and_comm]

/-- **Any matching task can come at any place** in some order of iteration. -/
theorem exists_iteration_at {req : ListTasksRequest} {t : Task} {i : ℕ} (ht : t ∈ s.matching req)
    (hi : i < (s.matching req).ncard) : ∃ it : s.Iteration, (it.matching req)[i]? = some t := by
  classical
  obtain ⟨it⟩ := nonempty_iteration s
  obtain ⟨v, hv, rfl⟩ : ∃ v, s.tasks.lookup v.task.id = some v ∧ v.task = t := by
    obtain ⟨hst, -⟩ := ht
    rw [task?_eq, Option.map_eq_some_iff] at hst
    obtain ⟨v, hv, rfl⟩ := hst
    exact ⟨v, hv, rfl⟩
  -- the matching values first, with `v` moved to place `i`, then the others
  let p : VersionedTask → Bool := fun w => req.Matches w.task
  let M := it.values.filter p
  have hvM : v ∈ M := List.mem_filter.mpr ⟨(it.mem_iff v).mpr hv, by simpa [p] using ht.2⟩
  have hcount : (it.matching req).length = M.length := by
    rw [Iteration.matching, retain_eq_filter, List.filter_map, List.length_map]
    rfl
  have hlen : i ≤ (M.erase v).length := by
    rw [it.ncard_matching, hcount] at hi
    rw [List.length_erase_of_mem hvM]
    omega
  have hfront : ((M.erase v).insertIdx i v).Perm M :=
    (List.perm_insertIdx v (M.erase v) hlen).trans (List.perm_cons_erase hvM).symm
  let order := (M.erase v).insertIdx i v ++ it.values.filter fun w => !p w
  have hperm : order.Perm it.values :=
    (hfront.append_right _).trans (List.filter_append_perm p it.values)
  refine ⟨it.perm hperm, ?_⟩
  have hall : (it.perm hperm).matching req =
      ((M.erase v).insertIdx i v).map VersionedTask.task := by
    show req.retain (order.map VersionedTask.task) = _
    rw [retain_eq_filter, List.filter_map, List.filter_append, List.filter_filter,
      List.filter_eq_self.mpr fun w hw => ?_, List.filter_eq_nil_iff.mpr fun w _ => ?_,
      List.append_nil]
    · simp [p]
    · exact (List.mem_filter.mp (hfront.mem_iff.mp hw)).2
  rw [hall, List.getElem?_map, List.getElem?_insertIdx_self, if_pos hlen]
  rfl

/-! ### A page size of zero -/

/-- A store with one task. -/
def holding (task : Task) : InMemoryTaskStore := new.put ⟨task, ⟨1⟩⟩

def holdingIteration (task : Task) : (holding task).Iteration where
  values := [⟨task, ⟨1⟩⟩]
  nodup := List.nodup_singleton _
  mem_iff v := by
    rw [List.mem_singleton, holding, lookup_put]
    constructor
    · rintro rfl
      exact if_pos rfl
    · intro h
      split at h
      · exact (Option.some.inj h).symm
      · cases h

def anyTask : ListTasksRequest := ⟨none, none, none, none, none, none, none, none⟩

/-- A store with four tasks, three of them in one context. -/
def severalIteration :
    ((((holding someTask).put ⟨.new "t2" "c2" "12:01", ⟨2⟩⟩).put
      ⟨.new "t3" "c1" "12:02", ⟨3⟩⟩).put ⟨.new "t4" "c1" "12:03", ⟨4⟩⟩).Iteration :=
  (((holdingIteration someTask).put _ (by decide)).put _ (by decide)).put _ (by decide)

/-- Two tasks a page, of one context. -/
def twoAPage : ListTasksRequest := { anyTask with contextId := some "c1", pageSize := some 2 }

theorem walk_complete_iff_twoAPage :
    (walk severalIteration 2 twoAPage).map (·.map fun r => r.tasks.map (·.id)) =
        some [["t4", "t3"], ["t1"]] ∧
      WalkComplete severalIteration twoAPage :=
  ⟨by decide, (walk_complete_iff severalIteration twoAPage (by decide)).mpr (Or.inl (by decide))⟩

theorem zeroPage_not_complete :
    ¬ WalkComplete (holdingIteration someTask) { anyTask with pageSize := some 0 } := by
  have ht : someTask ∈ (holding someTask).matching { anyTask with pageSize := some 0 } := by
    refine ⟨rfl, fun ctx h => ?_, fun state h => ?_⟩
    · cases h
    · cases h
  exact not_walkComplete_of_zero (by decide) rfl ht

end InMemoryTaskStore

end Ra2a
