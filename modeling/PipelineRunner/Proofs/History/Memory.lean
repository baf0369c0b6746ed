import PipelineRunner.History.Memory
import PipelineRunner.Proofs.Dict
import PipelineRunner.Proofs.History.Versions

/-!
# What a history in memory answers

The history finds the last summary saved under an id, but lists it for the pipeline that its
execution was first saved for. It answers with the last versions exactly if no execution has come to
another name since.
-/

namespace PipelineRunner.MemoryHistory

/-! ### One save -/

def idsOf (h : MemoryHistory) (pipeline : String) : List Uuid :=
  (h.idsByPipeline.get? pipeline).getD []

theorem load_save (h : MemoryHistory) (s : Summary) (id : Uuid) :
    (h.save s).load id = if s.executionId = id then some s else h.load id := by
  unfold load save
  dsimp only
  rw [List.find?_cons]
  by_cases hid : s.executionId = id
  · simp [hid]
  · have hkeeps : ∀ e : Uuid × Summary, (e.1 == id) = true → (e.1 != s.executionId) = true := by
      intro e he
      rw [beq_iff_eq] at he
      rw [he]
      simpa using Ne.symm hid
    rw [beq_eq_false_iff_ne.mpr hid, if_neg hid]
    dsimp only
    rw [find?_filter_of_imp hkeeps]

theorem idsByPipeline_save_of_known {h : MemoryHistory} {s : Summary}
    (hs : (h.load s.executionId).isSome = true) : (h.save s).idsByPipeline = h.idsByPipeline :=
  if_pos hs

theorem idsByPipeline_save_of_new {h : MemoryHistory} {s : Summary}
    (hs : h.load s.executionId = none) :
    (h.save s).idsByPipeline =
      h.idsByPipeline.insert s.pipelineName (h.idsOf s.pipelineName ++ [s.executionId]) :=
  if_neg (by simp [hs])

theorem idsOf_save_of_new {h : MemoryHistory} {s : Summary} (hs : h.load s.executionId = none)
    (p : String) :
    (h.save s).idsOf p =
      if p = s.pipelineName then h.idsOf p ++ [s.executionId] else h.idsOf p := by
  unfold idsOf
  rw [idsByPipeline_save_of_new hs, Dict.get?_insert]
  split
  · rename_i hp
    rw [Option.getD_some, hp]
    rfl
  · rfl

/-! ### Many saves -/

/-- The two indexes of a history after some saves: the last version of each execution, and for each
pipeline the executions first saved under its name, each once. -/
structure Tracks (h : MemoryHistory) (saves : List Summary) : Prop where
  load_eq : ∀ id, h.load id = lastVersion saves id
  mem_idsOf : ∀ p id, id ∈ h.idsOf p ↔ firstName saves id = some p
  nodup_idsOf : ∀ p, (h.idsOf p).Nodup
  contains_iff : ∀ p, h.idsByPipeline.contains p = true ↔ h.idsOf p ≠ []

theorem tracks_empty : Tracks empty [] where
  load_eq _ := rfl
  mem_idsOf _ _ := by simp [idsOf, empty]
  nodup_idsOf _ := List.nodup_nil
  contains_iff _ := by simp [idsOf, empty]

theorem Tracks.save {h : MemoryHistory} {saves : List Summary} (ht : h.Tracks saves)
    (s : Summary) : (h.save s).Tracks (saves ++ [s]) := by
  have hload : ∀ id, (h.save s).load id = lastVersion (saves ++ [s]) id := by
    intro id
    rw [load_save, lastVersion_concat, ht.load_eq]
  cases hs : h.load s.executionId with
  | some v =>
    -- the id is known: its first name stays, and so do the lists of ids
    have hids : (h.save s).idsByPipeline = h.idsByPipeline :=
      idsByPipeline_save_of_known (by rw [hs]; rfl)
    have hfirst : ∀ id, firstName (saves ++ [s]) id = firstName saves id := by
      intro id
      rw [firstName_concat]
      by_cases hid : s.executionId = id
      · have hv : lastVersion saves id = some v := by rw [← hid, ← ht.load_eq, hs]
        obtain ⟨name, hname⟩ := exists_firstName hv
        rw [hname, Option.some_or]
      · rw [if_neg hid, Option.or_none]
    refine ⟨hload, fun p id => ?_, fun p => ?_, fun p => ?_⟩
    · rw [hfirst, idsOf, hids]
      exact ht.mem_idsOf p id
    · rw [idsOf, hids]
      exact ht.nodup_idsOf p
    · rw [idsOf, hids]
      exact ht.contains_iff p
  | none =>
    have hnew : firstName saves s.executionId = none := by
      rw [firstName_eq_none_iff, ← ht.load_eq, hs]
    refine ⟨hload, fun p id => ?_, fun p => ?_, fun p => ?_⟩
    · rw [idsOf_save_of_new hs, firstName_concat]
      by_cases hid : s.executionId = id
      · subst hid
        rw [hnew, if_pos rfl, Option.none_or, Option.some.injEq]
        have hnot : s.executionId ∉ h.idsOf p := by
          rw [ht.mem_idsOf, hnew]
          simp
        split
        · rename_i hp
          simp [hp]
        · rename_i hp
          simp [hnot, Ne.symm hp]
      · rw [if_neg hid, Option.or_none, ← ht.mem_idsOf]
        split
        · simp [Ne.symm hid]
        · rfl
    · rw [idsOf_save_of_new hs]
      split
      · refine List.nodup_append.mpr ⟨ht.nodup_idsOf p, by simp, fun a ha b hb hab => ?_⟩
        rw [List.mem_singleton] at hb
        rw [hab, hb, ht.mem_idsOf, hnew] at ha
        cases ha
      · exact ht.nodup_idsOf p
    · rw [idsOf_save_of_new hs, idsByPipeline_save_of_new hs, Dict.contains_insert]
      split
      · rename_i hp
        simp [hp]
      · rename_i hp
        rw [← ht.contains_iff]
        simp [hp]

def ofSaves (saves : List Summary) : MemoryHistory := saves.foldl save empty

theorem ofSaves_concat (saves : List Summary) (s : Summary) :
    ofSaves (saves ++ [s]) = (ofSaves saves).save s := by
  rw [ofSaves, List.foldl_append]
  rfl

theorem tracks_ofSaves (saves : List Summary) : (ofSaves saves).Tracks saves := by
  induction saves using List.reverseRecOn with
  | nil => exact tracks_empty
  | append_singleton saves s ih =>
    rw [ofSaves_concat]
    exact ih.save s

theorem replay_eq (saves : List Summary) :
    (HistoryStore.replay saves : Except SaveError MemoryHistory) = .ok (ofSaves saves) := by
  induction saves using List.reverseRecOn with
  | nil => rfl
  | append_singleton saves s ih =>
    rw [HistoryStore.replay_concat, ih, ofSaves_concat]
    rfl

/-! ### Lists of summaries -/

theorem list_perm (h : MemoryHistory) (p : String) :
    (h.list p).Perm ((h.idsOf p).filterMap h.load) :=
  List.mergeSort_perm ..

theorem list_newest_first (h : MemoryHistory) (p : String) :
    (h.list p).Pairwise fun a b => a.startedAt.before b.startedAt = false :=
  HistoryStore.newest_first_mergeSort _

section
variable {h : MemoryHistory} {saves : List Summary}

theorem Tracks.mem_list (ht : h.Tracks saves) (p : String) (s : Summary) :
    s ∈ h.list p ↔
      lastVersion saves s.executionId = some s ∧ firstName saves s.executionId = some p := by
  rw [(h.list_perm p).mem_iff, List.mem_filterMap]
  constructor
  · rintro ⟨id, hid, hs⟩
    rw [ht.load_eq] at hs
    have heq := executionId_of_lastVersion hs
    subst heq
    exact ⟨hs, (ht.mem_idsOf p s.executionId).mp hid⟩
  · rintro ⟨hs, hp⟩
    exact ⟨s.executionId, (ht.mem_idsOf p s.executionId).mpr hp, by rw [ht.load_eq, hs]⟩

theorem Tracks.nodup_list (ht : h.Tracks saves) (p : String) :
    ((h.list p).map (·.executionId)).Nodup := by
  rw [((h.list_perm p).map _).nodup_iff, List.Nodup, List.pairwise_map, List.pairwise_filterMap]
  refine (ht.nodup_idsOf p).imp fun {a b} hab s hs t ht' heq => hab ?_
  rw [ht.load_eq] at hs ht'
  rw [← executionId_of_lastVersion hs, ← executionId_of_lastVersion ht', heq]

theorem Tracks.mem_pipelines (ht : h.Tracks saves) (p : String) :
    p ∈ h.pipelines ↔ h.list p ≠ [] := by
  rw [pipelines, Dict.mem_keys_iff, ht.contains_iff]
  constructor
  · intro hne
    obtain ⟨id, hid⟩ := List.exists_mem_of_ne_nil _ hne
    have hfirst := (ht.mem_idsOf p id).mp hid
    have hsome : lastVersion saves id ≠ none := by
      rw [Ne, ← firstName_eq_none_iff, hfirst]
      simp
    obtain ⟨s, hs⟩ := Option.ne_none_iff_exists'.mp hsome
    have heq := executionId_of_lastVersion hs
    subst heq
    exact List.ne_nil_of_mem ((ht.mem_list p s).mpr ⟨hs, hfirst⟩)
  · intro hne
    obtain ⟨s, hs⟩ := List.exists_mem_of_ne_nil _ hne
    exact List.ne_nil_of_mem ((ht.mem_idsOf p _).mpr ((ht.mem_list p s).mp hs).2)

/-- The history answers with the last versions exactly if every execution was first saved under the
name that its last version has. -/
theorem Tracks.records_iff (ht : h.Tracks saves) :
    HistoryStore.Records h saves ↔
      ∀ id s, lastVersion saves id = some s → firstName saves id = some s.pipelineName := by
  constructor
  · intro hr id s hs
    have heq := executionId_of_lastVersion hs
    subst heq
    exact ((ht.mem_list s.pipelineName s).mp ((hr.mem_list s.pipelineName s).mpr ⟨hs, rfl⟩)).2
  · intro hnames
    refine ⟨ht.load_eq, fun p s => ?_, ht.nodup_list, h.list_newest_first,
      h.idsByPipeline.keys_ascending, ht.mem_pipelines⟩
    refine (ht.mem_list p s).trans (and_congr_right fun hs => ?_)
    rw [hnames _ s hs, Option.some.injEq]

end

/-- After any saves the history finds the last version of each execution. For a pipeline it lists,
newest first, the last versions of the executions first saved under its name, each once, and it
names the pipelines for which it lists something. These are the answers of the last versions exactly
if no execution is now under another name than at first. -/
theorem replay_lists_first_names (saves : List Summary) :
    ∃ h : MemoryHistory, HistoryStore.replay saves = .ok h ∧
      (∀ id, h.load id = lastVersion saves id) ∧
      (∀ p s, s ∈ h.list p ↔
        lastVersion saves s.executionId = some s ∧ firstName saves s.executionId = some p) ∧
      (∀ p, ((h.list p).map (·.executionId)).Nodup) ∧
      (∀ p, (h.list p).Pairwise fun a b => a.startedAt.before b.startedAt = false) ∧
      h.pipelines.Pairwise (· < ·) ∧ (∀ p, p ∈ h.pipelines ↔ h.list p ≠ []) ∧
      (HistoryStore.Records h saves ↔
        ∀ id s, lastVersion saves id = some s → firstName saves id = some s.pipelineName) := by
  have ht := tracks_ofSaves saves
  exact ⟨ofSaves saves, replay_eq saves, ht.load_eq, ht.mem_list, ht.nodup_list,
    list_newest_first _, Dict.keys_ascending _, ht.mem_pipelines, ht.records_iff⟩

def nightlyRun : Summary :=
  { executionId := .nil, pipelineName := "nightly", branch := none, status := .completed,
    startedAt := ⟨0, 0⟩, completedAt := none, progress := 1.0, completedSteps := 0,
    totalSteps := 0, failedStep := none, error := none, artifacts := [], steps := [] }

def weeklyRun : Summary := { nightlyRun with pipelineName := "weekly" }

/-- The run is still listed for `nightly`, and `weekly` is not known. -/
theorem weekly_listed_as_nightly :
    ∃ h : MemoryHistory, HistoryStore.replay [nightlyRun, weeklyRun] = .ok h ∧
      h.load .nil = some weeklyRun ∧ h.list "nightly" = [weeklyRun] ∧ h.list "weekly" = [] ∧
      h.pipelines = ["nightly"] ∧ ¬ HistoryStore.Records h [nightlyRun, weeklyRun] := by
  let h := ofSaves [nightlyRun, weeklyRun]
  have hnightly : h.list "nightly" = [weeklyRun] := by
    have hids : h.idsOf "nightly" = [.nil] := by decide +kernel
    have hperm := h.list_perm "nightly"
    rw [hids] at hperm
    exact List.perm_singleton.mp hperm
  have hweekly : h.list "weekly" = [] := by
    have hids : h.idsOf "weekly" = [] := by decide +kernel
    have hperm := h.list_perm "weekly"
    rw [hids] at hperm
    exact List.perm_nil.mp hperm
  refine ⟨h, replay_eq _, rfl, hnightly, hweekly, by decide +kernel, fun hr => ?_⟩
  have hlisted : weeklyRun ∈ h.list "weekly" :=
    (hr.mem_list "weekly" weeklyRun).mpr ⟨rfl, rfl⟩
  rw [hweekly] at hlisted
  cases hlisted

end PipelineRunner.MemoryHistory
