import PipelineRunner.Proofs.History.Memory
import PipelineRunner.Proofs.History.Tables

/-!
# The histories agree

As long as no execution changes its pipeline, a history in memory answers with the last versions of
all executions. So do the tables, for summaries that come back from them as they were saved. Each
history follows the list of versions through the saves on its own, and they are compared by what
they answer.
-/

namespace PipelineRunner

/-- A summary that tables give back as it was saved. -/
structure Summary.Storable (s : Summary) : Prop where
  fits : s.Fits
  progress : s.progress.isNaN = false
  ascending : s.steps.Pairwise fun a b => a.index < b.index
  index_lt : ∀ st ∈ s.steps, st.index < Word.half64
  startedAt : s.startedAt.Recordable

theorem Summary.Storable.signed_ascending {s : Summary} (hs : s.Storable) :
    s.steps.Pairwise fun a b => Word.signed64 a.index < Word.signed64 b.index :=
  Summary.signed_ascending hs.ascending hs.index_lt

theorem Summary.Storable.keysApart {s : Summary} (hs : s.Storable) : s.KeysApart :=
  Summary.keysApart_of_ascending hs.signed_ascending

/-! ### Tables that follow the saves -/

namespace TableHistory

/-- The tables after some saves: a row for the version of each execution, in the order of the
saves, and the step rows of these versions. -/
structure Tracks (h : TableHistory) (saves : List Summary) : Prop where
  executions : h.executions = (versions saves).map .ofSummary
  rowsOf_eq : ∀ id, h.rowsOf id = ((lastVersion saves id).map Summary.rows).getD []

theorem tracks_empty : Tracks empty [] := ⟨rfl, fun _ => rfl⟩

theorem Tracks.withSaved {h : TableHistory} {saves : List Summary} (ht : h.Tracks saves)
    (s : Summary) : (h.withSaved s).Tracks (saves ++ [s]) where
  executions := by
    rw [versions_concat, supersede, List.map_append, List.map_singleton, TableHistory.withSaved,
      replaceExecution, ht.executions, List.filter_map]
    rfl
  rowsOf_eq id := by
    rw [rowsOf_withSaved, lastVersion_concat, ht.rowsOf_eq]
    split <;> rfl

theorem exists_replay {saves : List Summary} (hkeys : ∀ s ∈ saves, s.KeysApart) :
    ∃ h : TableHistory, HistoryStore.replay saves = .ok h ∧ h.Tracks saves := by
  induction saves using List.reverseRecOn with
  | nil => exact ⟨empty, rfl, tracks_empty⟩
  | append_singleton saves s ih =>
    obtain ⟨h, hreplay, ht⟩ := ih fun v hv => hkeys v (List.mem_append_left [s] hv)
    have hsave : h.save s = .ok (h.withSaved s) := by
      rw [save_eq, if_pos (hkeys s (by simp))]
    refine ⟨h.withSaved s, ?_, ht.withSaved s⟩
    rw [HistoryStore.replay_concat, hreplay]
    exact hsave

/-- Whatever summaries were saved, the tables follow the saves. -/
theorem tracks_of_replay {h : TableHistory} {saves : List Summary}
    (hreplay : HistoryStore.replay saves = .ok h) : h.Tracks saves := by
  induction saves using List.reverseRecOn generalizing h with
  | nil =>
    cases hreplay
    exact tracks_empty
  | append_singleton saves s ih =>
    rw [HistoryStore.replay_concat] at hreplay
    cases hbefore : (HistoryStore.replay saves : Except SaveError TableHistory) with
    | error e =>
      rw [hbefore] at hreplay
      cases hreplay
    | ok g =>
      rw [hbefore] at hreplay
      have hsave : g.save s = .ok h := hreplay
      rw [save_eq] at hsave
      split at hsave
      · cases hsave
        exact (ih hbefore).withSaved s
      · cases hsave

section
variable {h : TableHistory} {saves : List Summary}

theorem Tracks.summaryOf_readBack (ht : h.Tracks saves) {v : Summary}
    (hv : lastVersion saves v.executionId = some v) :
    h.summaryOf (.ofSummary v) = readBack v := by
  have hid : (ExecutionRow.ofSummary v).id = v.executionId := rfl
  rw [summaryOf, stepsOf_eq, hid, ht.rowsOf_eq, hv, Option.map_some, Option.getD_some, readBack]

theorem Tracks.summaryOf_eq (ht : h.Tracks saves) (hsaves : ∀ s ∈ saves, s.Storable) {v : Summary}
    (hv : lastVersion saves v.executionId = some v) : h.summaryOf (.ofSummary v) = v := by
  have hs := hsaves v (mem_of_lastVersion hv)
  rw [ht.summaryOf_readBack hv, readBack_eq_self hs.fits hs.progress hs.signed_ascending]

theorem Tracks.load_eq (ht : h.Tracks saves) (hsaves : ∀ s ∈ saves, s.Storable) (id : Uuid) :
    h.load id = lastVersion saves id := by
  have hfound : h.executions.find? (fun r => r.id == id) =
      (lastVersion saves id).map .ofSummary := by
    rw [ht.executions, List.find?_map, ← find?_versions]
    rfl
  rw [TableHistory.load_eq, hfound, Option.map_map]
  cases hv : lastVersion saves id with
  | none => rfl
  | some v =>
    have hid := executionId_of_lastVersion hv
    subst hid
    exact congrArg some (ht.summaryOf_eq hsaves hv)

theorem Tracks.list_perm_readBack (ht : h.Tracks saves) (p : String) :
    (h.list p).Perm (((versions saves).filter fun v => v.pipelineName == p).map readBack) := by
  have hrows : (h.executions.filter fun r => r.pipelineName == p).map h.summaryOf =
      ((versions saves).filter fun v => v.pipelineName == p).map readBack := by
    rw [ht.executions, List.filter_map, List.map_map]
    refine List.map_congr_left fun v hv => ?_
    exact ht.summaryOf_readBack (mem_versions_iff.mp (List.mem_filter.mp hv).1)
  rw [← hrows]
  exact (List.mergeSort_perm _ _).map _

theorem Tracks.list_perm (ht : h.Tracks saves) (hsaves : ∀ s ∈ saves, s.Storable) (p : String) :
    (h.list p).Perm ((versions saves).filter fun v => v.pipelineName == p) := by
  have hread : ((versions saves).filter fun v => v.pipelineName == p).map readBack =
      (versions saves).filter fun v => v.pipelineName == p := by
    refine (List.map_congr_left fun v hv => ?_).trans (List.map_id _)
    have hlast := mem_versions_iff.mp (List.mem_filter.mp hv).1
    exact (ht.summaryOf_readBack hlast).symm.trans (ht.summaryOf_eq hsaves hlast)
  rw [← hread]
  exact ht.list_perm_readBack p

/-- The texts by which rows are sorted are ordered as the starts of the versions. -/
theorem Tracks.newest_first (ht : h.Tracks saves) (hsaves : ∀ s ∈ saves, s.Storable) (p : String) :
    (h.list p).Pairwise fun a b => a.startedAt.before b.startedAt = false := by
  have hrecordable : ∀ r ∈ h.executions, r.startedAt.Recordable := by
    intro r hr
    rw [ht.executions] at hr
    obtain ⟨v, hv, rfl⟩ := List.mem_map.mp hr
    exact (hsaves v (mem_of_lastVersion (mem_versions_iff.mp hv))).startedAt
  have hmem : ∀ r ∈ (h.executions.filter fun r => r.pipelineName == p).mergeSort
      ExecutionRow.notEarlier, r ∈ h.executions := fun r hr =>
    (List.mem_filter.mp (List.mem_mergeSort.mp hr)).1
  have hsorted := List.pairwise_mergeSort ExecutionRow.notEarlier_trans
    ExecutionRow.notEarlier_total (h.executions.filter fun r => r.pipelineName == p)
  refine List.pairwise_map.mpr (hsorted.imp_of_mem fun {a b} ha hb hab => ?_)
  have hiff := Instant.toTableText_lt_iff (hrecordable a (hmem a ha)) (hrecordable b (hmem b hb))
  rw [ExecutionRow.notEarlier, Bool.not_eq_true', decide_eq_false_iff_not, hiff,
    Bool.not_eq_true] at hab
  exact hab

theorem mem_pipelines (h : TableHistory) (p : String) : p ∈ h.pipelines ↔ h.list p ≠ [] := by
  have hnames : p ∈ h.pipelines ↔ ∃ r ∈ h.executions, r.pipelineName = p := by
    rw [pipelines, Dict.mem_keys_iff, Dict.ofList, Dict.contains_foldl_insert]
    simp
  rw [hnames, list, Ne, List.map_eq_nil_iff, ← List.length_eq_zero_iff, List.length_mergeSort,
    List.length_eq_zero_iff, List.filter_eq_nil_iff]
  simp

theorem Tracks.records (ht : h.Tracks saves) (hsaves : ∀ s ∈ saves, s.Storable) :
    HistoryStore.Records h saves where
  load_eq := ht.load_eq hsaves
  mem_list p s := by
    refine (ht.list_perm hsaves p).mem_iff.trans ?_
    rw [List.mem_filter, mem_versions_iff, beq_iff_eq]
  nodup p := by
    refine ((ht.list_perm hsaves p).map _).nodup_iff.mpr ?_
    exact versions_nodup.sublist (List.filter_sublist.map _)
  newest_first := ht.newest_first hsaves
  ascending := Dict.keys_ascending _
  mem_pipelines := h.mem_pipelines

end

end TableHistory

/-! ### Agreement -/

/-- Saves after which the two histories can be compared: the summaries are storable, no execution
changes its pipeline, and at no time have two executions of a pipeline started together. -/
structure Comparable (saves : List Summary) : Prop where
  storable : ∀ s ∈ saves, s.Storable
  same_name : ∀ s ∈ saves, ∀ t ∈ saves, s.executionId = t.executionId →
    s.pipelineName = t.pipelineName
  apart : ∀ past, past <+: saves → HistoryStore.StartsApart past

theorem firstName_of_same_name {saves : List Summary}
    (h : ∀ s ∈ saves, ∀ t ∈ saves, s.executionId = t.executionId →
      s.pipelineName = t.pipelineName) {id : Uuid} {v : Summary}
    (hv : lastVersion saves id = some v) : firstName saves id = some v.pipelineName := by
  obtain ⟨name, hname⟩ := exists_firstName hv
  obtain ⟨s, hs, rfl⟩ := Option.map_eq_some_iff.mp hname
  have hid : s.executionId = v.executionId := by
    rw [executionId_of_lastVersion hv]
    simpa using List.find?_some hs
  rw [hname, h s (List.mem_of_find?_eq_some hs) v (mem_of_lastVersion hv) hid]

/-- After each of a sequence of comparable saves, the history in memory and the tables give the same
answers, which are those of the last versions. -/
theorem histories_agree {saves : List Summary} (h : Comparable saves) {past : List Summary}
    (hpast : past <+: saves) :
    ∃ (m : MemoryHistory) (t : TableHistory),
      HistoryStore.replay past = .ok m ∧ HistoryStore.replay past = .ok t ∧
      HistoryStore.SameAnswers m t ∧ HistoryStore.Records m past ∧
      HistoryStore.Records t past := by
  have hmem : ∀ s ∈ past, s ∈ saves := fun s hs => hpast.subset hs
  have hstorable : ∀ s ∈ past, s.Storable := fun s hs => h.storable s (hmem s hs)
  -- in memory
  have hm : HistoryStore.Records (MemoryHistory.ofSaves past) past := by
    refine (MemoryHistory.tracks_ofSaves past).records_iff.mpr fun id v hv => ?_
    exact firstName_of_same_name
      (fun s hs t ht => h.same_name s (hmem s hs) t (hmem t ht)) hv
  -- in tables
  obtain ⟨t, hreplay, htracks⟩ := TableHistory.exists_replay fun s hs => (hstorable s hs).keysApart
  have ht := htracks.records hstorable
  exact ⟨.ofSaves past, t, MemoryHistory.replay_eq past, hreplay,
    hm.sameAnswers ht (h.apart past hpast), hm, ht⟩

def firstBuild : Summary :=
  { executionId := ⟨1⟩, pipelineName := "build", branch := some "main", status := .running,
    startedAt := ⟨0, 0⟩, completedAt := none, progress := 0.5, completedSteps := 2,
    totalSteps := 4, failedStep := none, error := none, artifacts := [],
    steps := [⟨0, "compile", "completed", some 0, 5⟩, ⟨1, "link", "running", none, 7⟩] }

def secondBuild : Summary :=
  { firstBuild with executionId := ⟨2⟩, startedAt := ⟨0, 500000000⟩, steps := [] }

def firstBuildAgain : Summary :=
  { firstBuild with
    status := .failed
    failedStep := some 1
    steps := [⟨0, "compile", "completed", some 0, 5⟩] }

theorem comparable_builds : Comparable [firstBuild, secondBuild, firstBuildAgain] := by
  have hapart : ∀ s ∈ [firstBuild, secondBuild, firstBuildAgain],
      ∀ t ∈ [firstBuild, secondBuild, firstBuildAgain],
        s.startedAt = t.startedAt → s.executionId = t.executionId := by decide
  refine ⟨fun s hs => ?_, by decide, fun past hpast s t hs ht _ hstart => ?_⟩
  · have hs : s = firstBuild ∨ s = secondBuild ∨ s = firstBuildAgain := by simpa using hs
    rcases hs with rfl | rfl | rfl
    all_goals
      exact ⟨⟨by decide, by decide, by decide, by decide⟩, by decide, by decide, by decide,
        by decide +kernel⟩
  · exact hapart s (hpast.subset (mem_of_lastVersion hs)) t (hpast.subset (mem_of_lastVersion ht))
      hstart

/-- Both histories have the later version of the first run. -/
theorem builds_agree :
    Comparable [firstBuild, secondBuild, firstBuildAgain] ∧
    ∃ (m : MemoryHistory) (t : TableHistory),
      HistoryStore.replay [firstBuild, secondBuild, firstBuildAgain] = .ok m ∧
      HistoryStore.replay [firstBuild, secondBuild, firstBuildAgain] = .ok t ∧
      m.load ⟨1⟩ = some firstBuildAgain ∧ t.load ⟨1⟩ = some firstBuildAgain ∧
      m.list "build" = t.list "build" ∧ secondBuild ∈ t.list "build" := by
  obtain ⟨m, t, hm, ht, hsame, hrm, hrt⟩ :=
    histories_agree comparable_builds (List.prefix_refl _)
  exact ⟨comparable_builds, m, t, hm, ht, hrm.load_eq ⟨1⟩, hrt.load_eq ⟨1⟩, hsame.list "build",
    (hrt.mem_list "build" secondBuild).mpr ⟨rfl, rfl⟩⟩

end PipelineRunner
