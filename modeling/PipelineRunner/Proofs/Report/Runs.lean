import Mathlib.Data.List.Forall2
import PipelineRunner.Proofs.Json.Fields
import PipelineRunner.Report.History

/-!
# Lists of runs

What is printed for some runs, said of the printed text alone: a JSON object with one array that
describes the runs one by one, or a heading with their number and under it a line for each of them.
Runs are shown in the order in which they are given, and every one of them is.
-/

namespace PipelineRunner

/-! ### JSON -/

namespace Json

structure DescribesStep (j : Json) (s : StepSummary) : Prop where
  index : j.get? "index" = some (.ofNat s.index)
  stepId : j.get? "step_id" = some (.str s.stepId)
  state : j.get? "state" = some (.str s.state)
  exitCode : j.get? "exit_code" = some (.ofOption .int s.exitCode)
  durationMs : j.get? "duration_ms" = some (.int s.durationMs)

/-- A value describes a run. -/
structure Describes (j : Json) (s : Summary) : Prop where
  executionId : j.get? "execution_id" = some (.str s.executionId.toText)
  pipelineName : j.get? "pipeline_name" = some (.str s.pipelineName)
  branch : j.get? "branch" = some (.ofOption .str s.branch)
  status : j.get? "status" = some (.str s.status.name)
  startedAt : j.get? "started_at" = some (.str s.startedAt.toText)
  completedAt : j.get? "completed_at" = some (.ofOption (fun t => .str t.toText) s.completedAt)
  progress : j.get? "progress" = some (.float s.progress)
  completedSteps : j.get? "completed_steps" = some (.ofNat s.completedSteps)
  totalSteps : j.get? "total_steps" = some (.ofNat s.totalSteps)
  failedStep : j.get? "failed_step" = some (.ofOption .ofNat s.failedStep)
  error : j.get? "error" = some (.ofOption .str s.error)
  artifacts : j.get? "artifacts" = some (.arr (s.artifacts.map .str))
  steps : ∃ items, j.get? "steps" = some (.arr items) ∧ List.Forall₂ DescribesStep items s.steps

theorem describesStep_sorted (s : StepSummary) : s.toJson.sorted.DescribesStep s := by
  have hget (name : String) : s.toJson.sorted.get? name = _ := get?_sorted (by simp) name
  exact
    { index := hget "index"
      stepId := hget "step_id"
      state := hget "state"
      exitCode := (hget "exit_code").trans (congrArg some (sorted_ofOption sorted_int _))
      durationMs := hget "duration_ms" }

theorem describes_sorted (s : Summary) : s.toJson.sorted.Describes s := by
  have hget (name : String) : s.toJson.sorted.get? name = _ := get?_sorted (by simp) name
  have hartifacts : (arr (s.artifacts.map str)).sorted = arr (s.artifacts.map str) := by
    rw [sorted_arr, List.map_map]
    rfl
  have hsteps : (arr (s.steps.map StepSummary.toJson)).sorted =
      arr (s.steps.map fun x => x.toJson.sorted) := by
    rw [sorted_arr, List.map_map]
    rfl
  exact
    { executionId := hget "execution_id"
      pipelineName := hget "pipeline_name"
      branch := (hget "branch").trans (congrArg some (sorted_ofOption sorted_str _))
      status := hget "status"
      startedAt := hget "started_at"
      completedAt := (hget "completed_at").trans
        (congrArg some (sorted_ofOption (fun t => sorted_str t.toText) _))
      progress := hget "progress"
      completedSteps := hget "completed_steps"
      totalSteps := hget "total_steps"
      failedStep := (hget "failed_step").trans (congrArg some (sorted_ofOption sorted_ofNat _))
      error := (hget "error").trans (congrArg some (sorted_ofOption sorted_str _))
      artifacts := (hget "artifacts").trans (congrArg some hartifacts)
      steps := ⟨_, (hget "steps").trans (congrArg some hsteps), by
        rw [List.forall₂_map_left_iff, List.forall₂_same]
        exact fun x _ => describesStep_sorted x⟩ }

end Json

/-! ### Lines -/

/-- Parts stand in a text one after the other. -/
inductive Text.InOrder : List String → String → Prop
  | nil (rest : String) : InOrder [] rest
  | cons (before part : String) {parts : List String} {rest : String} :
    InOrder parts rest → InOrder (part :: parts) (before ++ part ++ rest)

namespace Report

def word : RunStatus → String
  | .pending => "PENDING"
  | .running => "RUNNING"
  | .completed => "COMPLETED"
  | .failed => "FAILED"
  | .notTriggered => "NOT TRIGGERED"

/-- A line names a run: by the start of its id, its pipeline and its branch, with its status and its
counters. -/
def Names (line : String) (s : Summary) : Prop :=
  Text.InOrder [s.executionId.shortText, s.pipelineName, s.branch.getD "manual", word s.status,
    toString s.completedSteps, toString s.totalSteps] line

def heading (t : Terminal) (n : Nat) : String :=
  t.icon .info ++ " Execution history (showing latest " ++ toString n ++ "):"

/-- What is printed for some runs, as JSON or as lines. -/
inductive Shows (t : Terminal) : Bool → List Summary → List String → Prop
  | json {shown : List Summary} {items : List Json} :
    List.Forall₂ Json.Describes items shown →
      Shows t true shown [(Json.obj [("executions", .arr items)]).toText]
  | nothing : Shows t false [] [t.icon .info ++ " No executions found"]
  | lines {shown : List Summary} {body : List String} :
    shown ≠ [] → List.Forall₂ Names body shown →
      Shows t false shown (heading t shown.length :: body)

theorem exists_style_eq (t : Terminal) (s : TextStyle) (text : String) :
    ∃ before after, t.style s text = before ++ text ++ after := by
  unfold Terminal.style
  split
  · exact ⟨_, _, rfl⟩
  · exact ⟨"", "", by simp⟩

theorem exists_status_eq (t : Terminal) (st : RunStatus) :
    ∃ before after, status t st = before ++ word st ++ after := by
  cases st with
  | pending => exact exists_style_eq t .dim _
  | running => exact exists_style_eq t .yellow _
  | completed => exact exists_style_eq t .green _
  | failed => exact exists_style_eq t .red _
  | notTriggered => exact exists_style_eq t .dim _

theorem names_summary (t : Terminal) (s : Summary) : Names ("  " ++ summary t s) s := by
  obtain ⟨a, a', hid⟩ := exists_style_eq t .dim s.executionId.shortText
  obtain ⟨b, b', hname⟩ := exists_style_eq t .bold s.pipelineName
  obtain ⟨c, c', hstatus⟩ := exists_status_eq t s.status
  have hline : "  " ++ summary t s =
      ("  " ++ t.icon (statusIcon s.status) ++ " " ++ a) ++ s.executionId.shortText ++
        ((a' ++ " - " ++ b) ++ s.pipelineName ++ ((b' ++ " [") ++ s.branch.getD "manual" ++
          (("] - " ++ c) ++ word s.status ++ ((c' ++ " (") ++ toString s.completedSteps ++
            ("/" ++ toString s.totalSteps ++ ")"))))) := by
    simp only [summary, hid, hname, hstatus, String.append_assoc, toString]
  rw [hline]
  exact .cons _ _ (.cons _ _ (.cons _ _ (.cons _ _ (.cons _ _ (.cons _ _ (.nil _))))))

/-! ### What is printed -/

theorem shows_runsJson (t : Terminal) (shown : List Summary) :
    Shows t true shown [(runsJson shown).sorted.toText] := by
  have hsorted : (runsJson shown).sorted =
      .obj [("executions", .arr (shown.map fun s => s.toJson.sorted))] := by
    rw [runsJson, Json.sorted, Json.sortedFields_eq, List.map_singleton, Json.sorted_arr,
      List.map_map, Json.sortFields, List.mergeSort_singleton]
    rfl
  rw [hsorted]
  refine .json ?_
  rw [List.forall₂_map_left_iff, List.forall₂_same]
  exact fun s _ => Json.describes_sorted s

theorem runs_nil (t : Terminal) : runs t [] = [t.icon .info ++ " No executions found"] := by
  have hword : " No executions found" = " " ++ "No executions found" := rfl
  rw [hword, ← String.append_assoc]
  rfl

theorem runs_of_ne_nil (t : Terminal) {shown : List Summary} (h : shown ≠ []) :
    runs t shown = heading t shown.length :: shown.map fun s => "  " ++ summary t s := by
  have hword : " Execution history (showing latest " =
      " " ++ "Execution history (showing latest " := rfl
  rw [runs, if_neg (by simpa using h), marked, heading, hword]
  simp only [String.append_assoc, toString]

theorem shows_runs (t : Terminal) (shown : List Summary) :
    Shows t false shown (runs t shown) := by
  by_cases h : shown = []
  · rw [h, runs_nil]
    exact .nothing
  · rw [runs_of_ne_nil t h]
    refine .lines h ?_
    rw [List.forall₂_map_left_iff, List.forall₂_same]
    exact fun s _ => names_summary t s

end Report

end PipelineRunner
