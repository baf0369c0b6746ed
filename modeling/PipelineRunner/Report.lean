import PipelineRunner.History.Summary
import PipelineRunner.Terminal
import PipelineRunner.Text.Lines

/-!
# Reports

The lines in which runs, steps and summaries are shown. Long outputs are cut to their last lines,
with a count of the hidden ones (`output`), and durations are given in the two or three units that
matter (`duration`).
-/

namespace PipelineRunner.Report

def rule : String := String.ofList (List.replicate 80 '─')

def column2 (n : Nat) : String :=
  let s := toString n
  if s.length < 2 then " " ++ s else s

def duration (ms : Nat) : String :=
  let secs := ms / 1000
  if secs = 0 then s!"{ms}ms"
  else if secs < 60 then s!"{secs}s"
  else if secs < 3600 then s!"{secs / 60}m {secs % 60}s"
  else s!"{secs / 3600}h {secs % 3600 / 60}m {secs % 60}s"

def output (t : Terminal) (text : String) (maxLines : Nat) : String :=
  let lines := Text.lines text
  if lines.length ≤ maxLines then text
  else
    let hidden := lines.length - maxLines
    t.style .dim "[truncated]" ++ s!"... ({hidden} earlier lines)\n" ++
      String.intercalate "\n" (lines.drop hidden)

def status (t : Terminal) : RunStatus → String
  | .pending => t.style .dim "PENDING"
  | .running => t.style .yellow "RUNNING"
  | .completed => t.style .green "COMPLETED"
  | .failed => t.style .red "FAILED"
  | .notTriggered => t.style .dim "NOT TRIGGERED"

def step (t : Terminal) (s : StepSummary) : String :=
  let icon := t.icon (if s.state == "Succeeded" then .check else .cross)
  let exit := match s.exitCode with
    | some c => toString c
    | none => "-"
  icon ++ column2 (s.index + 1) ++ ". " ++ t.style .bold s.stepId ++ s!" (exit {exit}, " ++
    t.style .dim (duration s.durationMs.toNat) ++ ")"

def statusIcon : RunStatus → Icon
  | .completed => .check
  | .failed => .cross
  | .running => .spinner
  | .pending | .notTriggered => .info

def summary (t : Terminal) (s : Summary) : String :=
  t.icon (statusIcon s.status) ++ " " ++ t.style .dim s.executionId.shortText ++ " - " ++
    t.style .bold s.pipelineName ++ " [" ++ s.branch.getD "manual" ++ "] - " ++
    status t s.status ++ s!" ({s.completedSteps}/{s.totalSteps})"

def ending (t : Terminal) : RunStatus → String
  | .completed => t.style .green "successfully" ++ " completed"
  | .failed => t.style .red "failed"
  | other => status t other

def shownLines : Nat := 20

def event (t : Terminal) : RunEvent → String
  | .pipelineStarted id name total =>
    t.icon .rocket ++ " Starting pipeline " ++ t.style .bold name ++ " (" ++
      t.style .dim id.shortText ++ s!", {total} steps)"
  | .notTriggered name branch =>
    t.icon .info ++ " " ++ t.style .bold name ++ " is not triggered by " ++
      t.style .cyan (branch.getD "a manual run")
  | .stepStarted index id command =>
    t.icon .spinner ++ s!" [{index + 1}] " ++ t.style .cyan id ++ " " ++
      t.style .dim ("$ " ++ command)
  | .stepSucceeded _ id _ => t.icon .check ++ " " ++ t.style .green id
  | .stepFailed _ id error text =>
    let line := t.icon .cross ++ " " ++ t.style .red id ++ ": " ++ t.style .dim error
    if Text.isBlankText text then line
    else line ++ "\n" ++ output t (Text.trimEnd text) shownLines
  | .stepSkipped _ id => t.icon .skip ++ " " ++ t.style .dim id ++ " (skipped)"
  | .artifactPublished _ file key =>
    t.icon .package ++ " " ++ t.style .dim file ++ " → " ++ t.style .cyan key
  | .pipelineCompleted id st =>
    t.icon .info ++ " Pipeline (" ++ t.style .dim id.shortText ++ ") " ++ ending t st

end PipelineRunner.Report
