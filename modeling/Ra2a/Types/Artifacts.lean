import Mathlib.Data.List.DropRight
import Ra2a.Lib.KeyedList
import Ra2a.Types.Event

/-!
# Artifacts along a run of updates

The artifacts of a task are a list under the updates of `KeyedList`, the id of an
artifact being its key.  So what becomes of an artifact is fixed by the events
with its id (`artifactAfter`): the last one that replaces it, and the ones after
it, which append.
-/

namespace Ra2a

open KeyedList

/-- What an event does to the artifacts of a task. -/
def TaskArtifactUpdateEvent.update (e : TaskArtifactUpdateEvent) : Update Artifact.artifactId where
  target := e.artifact.artifactId
  edit a := if e.append then { a with parts := a.parts ++ e.artifact.parts } else e.artifact
  fresh := if e.append then none else some e.artifact
  key_edit a ha := by
    split
    · exact ha
    · rfl
  key_fresh a ha := by
    split at ha
    · cases ha
    · cases ha
      rfl

/-- What the events with its id make of an artifact. -/
def artifactAfter (initial : Option Artifact) (events : List TaskArtifactUpdateEvent) :
    Option Artifact :=
  let base := match (events.rdropWhile (·.append)).getLast? with
    | some e => some e.artifact
    | none => initial
  base.map fun a =>
    { a with parts := a.parts ++ (events.rtakeWhile (·.append)).flatMap (·.artifact.parts) }

/-- The ids of a task's artifacts, in order. -/
def Task.artifactIds (t : Task) : List ArtifactId := t.artifacts.map (·.artifactId)

/-- The artifact of a task with this id. -/
def Task.artifact? (t : Task) (id : ArtifactId) : Option Artifact :=
  t.artifacts.find? fun a => decide (a.artifactId = id)

/-- **The artifacts of a task are a list under updates.** -/
theorem Task.applyArtifactUpdate_eq_apply (t : Task) (e : TaskArtifactUpdateEvent) :
    t.applyArtifactUpdate e = { t with artifacts := e.update.apply t.artifacts } := by
  rw [Task.applyArtifactUpdate, e.update.apply_eq_findIdx?]
  cases hi : t.artifacts.findIdx? fun a => decide (a.artifactId = e.artifact.artifactId) with
  | some i =>
    cases happ : e.append with
    | false => simp [TaskArtifactUpdateEvent.update, hi, happ, List.set_eq_modify]
    | true => simp [TaskArtifactUpdateEvent.update, hi, happ]
  | none => cases happ : e.append <;> simp [TaskArtifactUpdateEvent.update, hi, happ]

theorem Task.foldl_applyArtifactUpdate (t : Task) (events : List TaskArtifactUpdateEvent) :
    events.foldl Task.applyArtifactUpdate t =
      { t with
        artifacts := applyAll (events.map TaskArtifactUpdateEvent.update) t.artifacts } := by
  induction events generalizing t with
  | nil => rfl
  | cons e events ih => rw [List.foldl_cons, ih, t.applyArtifactUpdate_eq_apply]; rfl

/-- The history of one artifact. -/
theorem foldl_entry_eq_artifactAfter (initial : Option Artifact)
    (events : List TaskArtifactUpdateEvent) :
    (events.map TaskArtifactUpdateEvent.update).foldl (fun o u => u.entry o) initial =
      artifactAfter initial events := by
  induction events using List.reverseRecOn with
  | nil => cases initial <;> simp [artifactAfter]
  | append_singleton events e ih =>
    rw [List.map_append, List.foldl_append, ih]
    cases happ : e.append with
    | false =>
      have hneg : ¬ e.append = true := by rw [happ]; exact Bool.false_ne_true
      rw [artifactAfter, artifactAfter, List.rdropWhile_concat_neg _ _ _ hneg,
        List.rtakeWhile_concat_neg _ _ _ hneg]
      cases Option.map _ _ <;> simp [Update.entry, TaskArtifactUpdateEvent.update, happ]
    | true =>
      rw [artifactAfter, artifactAfter, List.rdropWhile_concat_pos _ _ _ happ,
        List.rtakeWhile_concat_pos _ _ _ happ]
      cases (match (events.rdropWhile (·.append)).getLast? with
        | some e => some e.artifact
        | none => initial) with
      | none => simp [Update.entry, TaskArtifactUpdateEvent.update, happ]
      | some a => simp [Update.entry, TaskArtifactUpdateEvent.update, happ]

/-- Events for artifacts that are there may come in any order that keeps, for each artifact,
the order of its own. -/
theorem Task.foldl_applyArtifactUpdate_congr {t : Task} (h : t.artifactIds.Nodup)
    {events events' : List TaskArtifactUpdateEvent}
    (hin : ∀ e ∈ events, e.artifact.artifactId ∈ t.artifactIds)
    (hsame : ∀ id, events.filter (·.artifact.artifactId = id) =
      events'.filter (·.artifact.artifactId = id)) :
    events.foldl Task.applyArtifactUpdate t = events'.foldl Task.applyArtifactUpdate t := by
  have hin' : ∀ e ∈ events', e.artifact.artifactId ∈ t.artifactIds := by
    intro e he
    have hmem : e ∈ events'.filter (·.artifact.artifactId = e.artifact.artifactId) :=
      List.mem_filter.mpr ⟨he, decide_eq_true rfl⟩
    rw [← hsame] at hmem
    exact hin e (List.mem_of_mem_filter hmem)
  have hkeys : ∀ {es : List TaskArtifactUpdateEvent},
      (∀ e ∈ es, e.artifact.artifactId ∈ t.artifactIds) →
      (applyAll (es.map TaskArtifactUpdateEvent.update) t.artifacts).map Artifact.artifactId =
        t.artifactIds := by
    intro es hes
    refine map_applyAll_of_mem _ fun u hu => ?_
    obtain ⟨e, he, rfl⟩ := List.mem_map.mp hu
    exact hes e he
  rw [foldl_applyArtifactUpdate, foldl_applyArtifactUpdate,
    eq_of_find? (by rw [hkeys hin]; exact h) ((hkeys hin).trans (hkeys hin').symm) fun id => ?_]
  rw [find?_applyAll, find?_applyAll, List.filter_map, List.filter_map]
  congr 2
  exact hsame id

/-- **Artifacts along a run of updates**, for a task whose artifact ids are distinct. -/
theorem Task.artifacts_of_updates {t : Task} (h : t.artifactIds.Nodup)
    (events : List TaskArtifactUpdateEvent) :
    let t' := events.foldl Task.applyArtifactUpdate t
    t'.artifactIds.Nodup ∧
      t'.artifactIds = (t.artifactIds ++
        (events.filter (!·.append)).map (·.artifact.artifactId)).eraseDups ∧
      (∀ id, t'.artifact? id =
        artifactAfter (t.artifact? id) (events.filter (·.artifact.artifactId = id))) ∧
      (∀ e, e.append = true → e.artifact.artifactId ∉ t'.artifactIds →
        t'.applyArtifactUpdate e = t') ∧
      (∀ e e', e.artifact.artifactId ≠ e'.artifact.artifactId →
        e.artifact.artifactId ∈ t'.artifactIds → e'.artifact.artifactId ∈ t'.artifactIds →
        (t'.applyArtifactUpdate e).applyArtifactUpdate e' =
          (t'.applyArtifactUpdate e').applyArtifactUpdate e) ∧
      t' = { t with artifacts := t'.artifacts } := by
  intro t'
  have ht' : t' = _ := t.foldl_applyArtifactUpdate events
  have hids : t'.artifactIds = (t.artifactIds ++
      (events.filter (!·.append)).map (·.artifact.artifactId)).eraseDups := by
    rw [ht', artifactIds, map_applyAll _ h, List.filter_map, List.map_map]
    congr 3
    refine List.filter_congr fun e _ => ?_
    cases happ : e.append <;> simp [TaskArtifactUpdateEvent.update, happ]
  refine ⟨?_, hids, fun id => ?_, fun e happ hid => ?_, fun e e' hne he he' => ?_, ?_⟩
  · rw [hids]
    exact nodup_eraseDups
  · rw [ht', artifact?, find?_applyAll, List.filter_map, foldl_entry_eq_artifactAfter]
    rfl
  · rw [applyArtifactUpdate_eq_apply, e.update.apply_of_notMem hid]
    simp [TaskArtifactUpdateEvent.update, happ]
  · have hcomm := e.update.apply_comm (w := e'.update) hne he
    simp only [applyArtifactUpdate_eq_apply]
    rw [hcomm]
  · rw [ht']

/-- A chunk for an artifact that is not there, and two for one that is. -/
def threeChunks : List TaskArtifactUpdateEvent :=
  [(true, "b", "lost"), (false, "a", "x"), (true, "a", "y")].map fun (append, id, text) =>
    ⟨"t", "c", ⟨id, none, none, [.text text], none, []⟩, append, false, none⟩

theorem artifacts_of_threeChunks :
    ((threeChunks.foldl Task.applyArtifactUpdate (.new "t" "c" "")).artifact? "a").map (·.parts) =
      some [.text "x", .text "y"] := by
  have hfind := (Task.artifacts_of_updates (t := .new "t" "c" "") List.nodup_nil threeChunks).2.2.1
  rw [hfind]
  decide

end Ra2a
