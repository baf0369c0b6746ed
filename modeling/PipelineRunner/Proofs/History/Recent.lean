import Mathlib.Data.List.Perm.Basic
import PipelineRunner.Proofs.History.Agreement
import PipelineRunner.Proofs.Report.Runs
import PipelineRunner.Session.Queries

/-!
# The newest runs of a history

A history without a filter is put together from the lists of its pipelines. As every execution is in
one pipeline, these lists hold each execution once, and the newest of all of them are the newest of
the history. `TableHistory.ShowsNewest` says which runs are shown, in terms of the saves, and
`Report.Shows` how they are printed.
-/

namespace PipelineRunner

/-! ### Groups by name -/

/-- A list taken apart by the names of its members, each name once, is put together again from its
groups. -/
theorem flatMap_filter_perm {α : Type} (nameOf : α → String) {names : List String}
    (hnodup : names.Nodup) (l : List α) (hmem : ∀ a ∈ l, nameOf a ∈ names) :
    (names.flatMap fun n => l.filter fun a => nameOf a == n).Perm l := by
  induction names generalizing l with
  | nil =>
    have hnil : l = [] := List.eq_nil_iff_forall_not_mem.mpr fun a ha => by simpa using hmem a ha
    rw [hnil]
    exact List.Perm.refl []
  | cons n rest ih =>
    obtain ⟨hn, hrest⟩ := List.nodup_cons.mp hnodup
    -- the other groups take nothing that has the name `n`
    have hothers : (rest.flatMap fun m => l.filter fun a => nameOf a == m) =
        rest.flatMap fun m => (l.filter fun a => !(nameOf a == n)).filter fun a =>
          nameOf a == m := by
      refine List.flatMap_congr fun m hm => ?_
      rw [List.filter_filter]
      refine List.filter_congr fun a _ => ?_
      have hne : m ≠ n := fun heq => hn (heq ▸ hm)
      by_cases ha : nameOf a = m
      · simp [ha, hne]
      · simp [ha]
    rw [List.flatMap_cons, hothers]
    refine ((ih hrest _ fun a ha => ?_).append_left _).trans (List.filter_append_perm _ l)
    obtain ⟨hal, hname⟩ := List.mem_filter.mp ha
    rcases List.mem_cons.mp (hmem a hal) with heq | hin
    · simp [heq] at hname
    · exact hin

namespace TableHistory

def selectedVersions (saves : List Summary) (pipeline : Option String) : List Summary :=
  (versions saves).filter fun v => pipeline.all fun p => v.pipelineName == p

/-- A list shows the newest executions of a selection, as many as there are up to a limit: each in
its last version, none twice and the newest first. No selected execution that is left out is newer
than one that is shown. -/
structure ShowsNewest (saves : List Summary) (pipeline : Option String) (limit : Nat)
    (shown : List Summary) : Prop where
  length_eq : shown.length = min limit (selectedVersions saves pipeline).length
  version : ∀ v ∈ shown, ∃ s ∈ selectedVersions saves pipeline,
    lastVersion saves v.executionId = some s ∧ v = readBack s
  nodup : (shown.map (·.executionId)).Nodup
  newest_first : shown.Pairwise fun a b => a.startedAt.before b.startedAt = false
  omitted : ∀ s ∈ selectedVersions saves pipeline, s.executionId ∉ shown.map (·.executionId) →
    ∀ v ∈ shown, v.startedAt.before s.startedAt = false

section
variable {h : TableHistory} {saves : List Summary}

/-- What is selected are the last versions, each once. -/
theorem Tracks.selection_perm (ht : h.Tracks saves) (pipeline : Option String) :
    (HistoryStore.selection h pipeline).Perm
      ((selectedVersions saves pipeline).map readBack) := by
  cases pipeline with
  | some p => exact ht.list_perm_readBack p
  | none =>
    have hall : selectedVersions saves none = versions saves :=
      List.filter_eq_self.mpr fun _ _ => rfl
    have hnames : ∀ v ∈ versions saves, v.pipelineName ∈ h.pipelines := by
      intro v hv
      rw [mem_pipelines]
      have hread : readBack v ∈ h.list v.pipelineName := by
        rw [(ht.list_perm_readBack v.pipelineName).mem_iff]
        exact List.mem_map_of_mem (List.mem_filter.mpr ⟨hv, beq_self_eq_true _⟩)
      exact List.ne_nil_of_mem hread
    have hnodup : h.pipelines.Nodup :=
      HistoryStore.nodup_of_ascending (Dict.keys_ascending _)
    rw [hall]
    have hlists : (HistoryStore.selection h none).Perm (h.pipelines.flatMap fun p =>
        ((versions saves).filter fun v => v.pipelineName == p).map readBack) :=
      List.Perm.flatMap_left _ fun p _ => ht.list_perm_readBack p
    have hwhole := (flatMap_filter_perm (·.pipelineName) hnodup _ hnames).map readBack
    rw [List.map_flatMap] at hwhole
    exact hlists.trans hwhole

theorem Tracks.showsNewest (ht : h.Tracks saves) (pipeline : Option String) (limit : Nat) :
    ShowsNewest saves pipeline limit (HistoryStore.recent h pipeline limit) := by
  let sorted := (HistoryStore.selection h pipeline).mergeSort Summary.notOlder
  have hperm : sorted.Perm ((selectedVersions saves pipeline).map readBack) :=
    (List.mergeSort_perm ..).trans (ht.selection_perm pipeline)
  have hsorted : sorted.Pairwise fun a b => a.startedAt.before b.startedAt = false :=
    HistoryStore.newest_first_mergeSort _
  have hids : (sorted.map (·.executionId)).Nodup := by
    rw [(hperm.map _).nodup_iff, List.map_map]
    exact versions_nodup.sublist (List.filter_sublist.map _)
  have htake : (sorted.take limit).Sublist sorted := List.take_sublist limit sorted
  refine ⟨?_, fun v hv => ?_, hids.sublist (htake.map _), hsorted.sublist htake,
    fun s hs hout v hv => ?_⟩
  · show (sorted.take limit).length = _
    rw [List.length_take, hperm.length_eq, List.length_map]
  · obtain ⟨s, hs, rfl⟩ := List.mem_map.mp (hperm.mem_iff.mp (htake.mem hv))
    exact ⟨s, hs, mem_versions_iff.mp (List.mem_filter.mp hs).1, rfl⟩
  · -- what is left out stands behind what is shown
    have hin : readBack s ∈ sorted.take limit ++ sorted.drop limit := by
      rw [List.take_append_drop, hperm.mem_iff]
      exact List.mem_map_of_mem hs
    rcases List.mem_append.mp hin with hshown | hbehind
    · exact absurd (List.mem_map.mpr ⟨readBack s, hshown, rfl⟩) hout
    · rw [← List.take_append_drop limit sorted, List.pairwise_append] at hsorted
      exact hsorted.2.2 v hv (readBack s) hbehind

end

/-- After any saves, a history that is asked for its runs succeeds and prints the newest of them, as
JSON or line by line, each as the tables read its last version. A version whose counters are words,
whose progress is a number and whose steps are in order is read as it was saved. -/
theorem history_shows_newest {saves : List Summary} (s : Session)
    (hreplay : HistoryStore.replay saves = .ok s.history) (pipeline : Option String) (limit : Nat)
    (json : Bool) :
    let shown := HistoryStore.recent s.history pipeline limit
    let reply := s.answerHistory ⟨pipeline, limit, json, none⟩
    (reply.code = 0 ∧ reply.errors = [] ∧ Report.Shows s.terminal json shown reply.output) ∧
      ShowsNewest saves pipeline limit shown ∧
      ∀ v, v.Fits → v.progress.isNaN = false →
        (v.steps.Pairwise fun a b => Word.signed64 a.index < Word.signed64 b.index) →
        readBack v = v := by
  intro shown reply
  refine ⟨⟨rfl, rfl, ?_⟩, (tracks_of_replay hreplay).showsNewest pipeline limit,
    fun v => readBack_eq_self⟩
  cases json with
  | true => exact Report.shows_runsJson s.terminal shown
  | false => exact Report.shows_runs s.terminal shown

def movedBuild : Summary := { firstBuild with pipelineName := "release" }

def movedHistory : TableHistory :=
  ((empty.withSaved firstBuild).withSaved secondBuild).withSaved movedBuild

/-- The newer of two builds is shown, though the other was saved after it. -/
theorem movedHistory_shows_newest :
    let s : Session := ⟨Dict.empty, Host.Files.ofList [], movedHistory⟩
    HistoryStore.replay [firstBuild, secondBuild, movedBuild] = .ok movedHistory ∧
      (selectedVersions [firstBuild, secondBuild, movedBuild] none).map (·.pipelineName) =
        ["build", "release"] ∧
      HistoryStore.recent movedHistory none 1 = [readBack secondBuild] ∧
      (∃ line, (s.answerHistory ⟨none, 1, false, none⟩).output =
          [Report.heading s.terminal 1, line] ∧ Report.Names line (readBack secondBuild)) ∧
      ShowsNewest [firstBuild, secondBuild, movedBuild] none 1 [readBack secondBuild] := by
  intro s
  have hreplay : HistoryStore.replay [firstBuild, secondBuild, movedBuild] = .ok movedHistory := by
    with_unfolding_all rfl
  have hselected : HistoryStore.selection movedHistory none =
      [readBack secondBuild, readBack movedBuild] := by
    with_unfolding_all rfl
  have hrecent : HistoryStore.recent movedHistory none 1 = [readBack secondBuild] := by
    rw [HistoryStore.recent, hselected, List.mergeSort_of_pairwise (by decide +kernel)]
    rfl
  obtain ⟨⟨-, -, hprinted⟩, hshown, -⟩ := history_shows_newest s hreplay none 1 false
  rw [show HistoryStore.recent s.history none 1 = _ from hrecent] at hprinted hshown
  refine ⟨hreplay, by decide +kernel, hrecent, ?_, hshown⟩
  generalize (s.answerHistory ⟨none, 1, false, none⟩).output = printed at *
  cases hprinted with
  | lines _ hbody =>
    obtain ⟨line, _, hline, hnil, rfl⟩ := List.forall₂_cons_right_iff.mp hbody
    rw [List.forall₂_nil_right_iff.mp hnil]
    exact ⟨line, rfl, hline⟩

end TableHistory

end PipelineRunner
