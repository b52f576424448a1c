import Ra2a.Server.Handler.Default
import Ra2a.Server.TaskStore.List

/-!
# Tasks listed by the handler

`on_list_tasks` hands the request to the store, and the store's `list` reads the
context, the state and the page.  The timestamp, the history length and the
choice about artifacts are read by nobody: a task is listed as it is stored.

So the tasks listed meet what the request states, in whatever order the map is
iterated, exactly when the page is empty or every matching task meets it already
(`list_honors_iff`).

The source has no comparison of timestamps, so `after` is any relation between
the timestamp of a status and the one of the request.
-/

namespace Ra2a

/-- `on_list_tasks`. -/
def DefaultRequestHandler.onListTasks (h : DefaultRequestHandler) (it : h.taskStore.Iteration)
    (params : ListTasksRequest) : ListTasksResponse :=
  h.taskStore.list it params

namespace ListTasksRequest

variable (req : ListTasksRequest) (after : String → String → Prop)

/-- The status is from after the timestamp of the request. -/
def Recent (t : Task) : Prop :=
  ∀ bound, req.statusTimestampAfter = some bound →
    ∃ stamp, t.status.timestamp = some stamp ∧ after stamp bound

/-- A listed task is what the request says of a task of the store. -/
structure Honored (s : InMemoryTaskStore) (t : Task) : Prop where
  restricts : req.Matches t
  recent : req.Recent after t
  history : ∃ stored, s.task? t.id = some stored ∧
    t.history = (applyHistoryLength stored req.historyLength).history
  artifacts : req.includeArtifacts = some false → t.artifacts = []

/-- A stored task that need not be changed or left out. -/
structure Meets (t : Task) : Prop where
  recent : req.Recent after t
  short : ∀ n, req.historyLength = some n → t.history.length ≤ n.toNatClampNeg
  bare : req.includeArtifacts = some false → t.artifacts = []

end ListTasksRequest

/-- Cutting a history leaves it exactly when it is no longer than allowed. -/
theorem history_applyHistoryLength_iff {t : Task} {len : Option Int32} :
    t.history = (applyHistoryLength t len).history ↔
      ∀ n, len = some n → t.history.length ≤ n.toNatClampNeg := by
  cases len with
  | none => simp [applyHistoryLength]
  | some n =>
    have hforall : (∀ m, some n = some m → t.history.length ≤ m.toNatClampNeg) ↔
        t.history.length ≤ n.toNatClampNeg :=
      ⟨fun h => h n rfl, fun h m hm => Option.some.inj hm ▸ h⟩
    rw [hforall]
    simp only [applyHistoryLength]
    by_cases hneg : n ≤ 0
    · rw [if_pos hneg, Int32.toNatClampNeg_eq_zero_iff.mpr hneg, Nat.le_zero,
        List.length_eq_zero_iff]
    · rw [if_neg hneg]
      by_cases hlong : n.toNatClampNeg < t.history.length
      · rw [if_pos hlong]
        refine ⟨fun h => ?_, fun h => by omega⟩
        have hlen := congrArg List.length h
        have hpos : 0 < n.toNatClampNeg :=
          (Int32.toNatClampNeg_pos_iff n).mpr (Int32.not_le.mp hneg)
        rw [List.length_drop] at hlen
        omega
      · rw [if_neg hlong]
        exact ⟨fun _ => by omega, fun _ => rfl⟩

namespace DefaultRequestHandler

variable {h : DefaultRequestHandler} {req : ListTasksRequest} {after : String → String → Prop}
  {t : Task}

/-- A matching task is listed as it is stored. -/
theorem honored_iff_meets (ht : t ∈ h.taskStore.matching req) :
    req.Honored after h.taskStore t ↔ req.Meets after t := by
  obtain ⟨hst, hm⟩ := ht
  constructor
  · rintro ⟨-, hrecent, ⟨stored, hs, hhist⟩, hart⟩
    rw [hst] at hs
    cases hs
    exact ⟨hrecent, history_applyHistoryLength_iff.mp hhist, hart⟩
  · rintro ⟨hrecent, hshort, hbare⟩
    exact ⟨hm, hrecent, ⟨t, hst, history_applyHistoryLength_iff.mpr hshort⟩, hbare⟩

/-- **The tasks listed meet what the request states exactly when nothing had to
be done for it**: the page is empty, or every matching task meets it already. -/
theorem list_honors_iff (h : DefaultRequestHandler) (req : ListTasksRequest)
    (after : String → String → Prop) :
    (∀ it t, t ∈ (h.onListTasks it req).tasks → req.Honored after h.taskStore t) ↔
      req.pageSize = some 0 ∨ (h.taskStore.matching req).ncard ≤ req.offset ∨
        ∀ t ∈ h.taskStore.matching req, req.Meets after t := by
  constructor
  · intro hall
    by_contra hcon
    rw [not_or, not_or] at hcon
    obtain ⟨hsize, hoffset, hmeets⟩ := hcon
    apply hmeets
    intro t ht
    -- the map may be iterated so that this task comes first on the page
    obtain ⟨it, hit⟩ := InMemoryTaskStore.exists_iteration_at ht (Nat.not_le.mp hoffset)
    have hlimit : req.limit ≠ 0 := fun hl => hsize (req.limit_eq_zero_iff.mp hl)
    refine (honored_iff_meets ht).mp (hall it t ?_)
    show t ∈ ((it.matching req).drop req.offset).take req.limit
    have hhead : ((it.matching req).drop req.offset)[0]? = some t := by
      rw [List.getElem?_drop, Nat.add_zero, hit]
    have hfirst : (((it.matching req).drop req.offset).take req.limit)[0]? = some t := by
      rw [List.getElem?_take_of_lt (Nat.pos_of_ne_zero hlimit), hhead]
    exact List.mem_of_getElem? hfirst
  · intro hcon it t ht
    have hmem : t ∈ ((it.matching req).drop req.offset).take req.limit := ht
    have hmatch : t ∈ h.taskStore.matching req :=
      (it.mem_matching req).mp (List.mem_of_mem_drop (List.mem_of_mem_take hmem))
    rcases hcon with hsize | hoffset | hmeets
    · rw [req.limit_eq_zero_iff.mpr hsize, List.take_zero] at hmem
      cases hmem
    · rw [it.ncard_matching] at hoffset
      rw [List.drop_eq_nil_of_le hoffset, List.take_nil] at hmem
      cases hmem
    · exact (honored_iff_meets hmatch).mpr (hmeets t hmatch)

/-- A task with an artifact. -/
def reportTask : Task :=
  { someTask with artifacts := [⟨"a1", none, none, [.text "report"], none, []⟩] }

def reporting : DefaultRequestHandler := { new with taskStore := .holding reportTask }

/-- A client that asks for no artifacts is sent the artifact. -/
theorem artifacts_listed :
    ¬ ∀ it t, t ∈ (reporting.onListTasks it
        { InMemoryTaskStore.anyTask with includeArtifacts := some false }).tasks →
      ({ InMemoryTaskStore.anyTask with includeArtifacts := some false } : ListTasksRequest).Honored
        (fun stamp bound => bound < stamp) reporting.taskStore t := by
  intro h
  have hlisted := h (InMemoryTaskStore.holdingIteration reportTask) reportTask (by decide)
  have hnone : reportTask.artifacts = [] := hlisted.artifacts rfl
  cases hnone

end DefaultRequestHandler

end Ra2a
