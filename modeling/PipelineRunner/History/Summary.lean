import PipelineRunner.Run

/-!
# Summaries of runs

What history keeps of a run, and its JSON form.
-/

namespace PipelineRunner

structure StepSummary where
  index : Nat
  stepId : String
  /-- The label of the state the step ended in. -/
  state : String
  exitCode : Option Int
  durationMs : Int
  deriving DecidableEq, Repr

structure Summary where
  executionId : Uuid
  pipelineName : String
  branch : Option String
  status : RunStatus
  startedAt : Instant
  completedAt : Option Instant
  /-- From 0 to 1. -/
  progress : Float
  completedSteps : Nat
  totalSteps : Nat
  failedStep : Option Nat
  error : Option String
  artifacts : List String
  steps : List StepSummary

namespace StepSummary

def ofResult (r : RunResult) : StepSummary :=
  { index := r.index, stepId := r.stepId, state := r.state.label, exitCode := r.exitCode,
    durationMs := r.durationMs }

def fieldNames : List String := ["index", "step_id", "state", "exit_code", "duration_ms"]

def toJson (s : StepSummary) : Json :=
  .obj [("index", .ofNat s.index), ("step_id", .str s.stepId), ("state", .str s.state),
    ("exit_code", .ofOption .int s.exitCode), ("duration_ms", .int s.durationMs)]

def ofJson? (j : Json) : Option StepSummary := do
  let fields ← Json.asFields? fieldNames j
  let index ← Json.require? fields "index" Json.asNat64?
  let stepId ← Json.require? fields "step_id" Json.asText?
  let state ← Json.require? fields "state" Json.asText?
  let exitCode ← Json.optional? fields "exit_code" Json.asInt32?
  let durationMs ← Json.require? fields "duration_ms" Json.asInt64?
  some { index, stepId, state, exitCode, durationMs }

end StepSummary

namespace Summary

def ofOutcome (o : RunOutcome) : Summary :=
  { executionId := o.state.executionId
    pipelineName := o.pipelineName
    branch := o.branch
    status := o.state.status
    startedAt := o.state.startedAt.getD default
    completedAt := o.state.completedAt
    progress := o.state.progress
    completedSteps := o.state.completedSteps
    totalSteps := o.state.totalSteps
    failedStep := o.state.failedStep
    error := o.failure.map fun f => f.error.message
    artifacts := o.artifacts.map (·.key)
    steps := o.runLog.results.map StepSummary.ofResult }

def toJson (s : Summary) : Json :=
  .obj [("execution_id", .str s.executionId.toText), ("pipeline_name", .str s.pipelineName),
    ("branch", .ofOption .str s.branch), ("status", .str s.status.name),
    ("started_at", StepState.instantJson s.startedAt),
    ("completed_at", .ofOption StepState.instantJson s.completedAt),
    ("progress", .float s.progress), ("completed_steps", .ofNat s.completedSteps),
    ("total_steps", .ofNat s.totalSteps), ("failed_step", .ofOption .ofNat s.failedStep),
    ("error", .ofOption .str s.error), ("artifacts", .arr (s.artifacts.map .str)),
    ("steps", .arr (s.steps.map StepSummary.toJson))]

def idOfJson? (j : Json) : Option Uuid := j.asText?.bind fun s => (Uuid.parse s).toOption

def statusOfJson? (j : Json) : Option RunStatus := j.asText?.bind RunStatus.ofName?

def progressOfJson? : Json → Option Float
  | .float x => some x
  | .int n => some (Float.ofInt n)
  | _ => none

def ofJson? : Json → Option Summary
  | .obj fields => do
    let executionId ← Json.require? fields "execution_id" idOfJson?
    let pipelineName ← Json.require? fields "pipeline_name" Json.asText?
    let branch ← Json.optional? fields "branch" Json.asText?
    let status ← Json.require? fields "status" statusOfJson?
    let startedAt ← Json.require? fields "started_at" StepState.instantOfJson?
    let completedAt ← Json.optional? fields "completed_at" StepState.instantOfJson?
    let progress ← Json.require? fields "progress" progressOfJson?
    let completedSteps ← Json.require? fields "completed_steps" Json.asNat64?
    let totalSteps ← Json.require? fields "total_steps" Json.asNat64?
    let failedStep ← Json.optional? fields "failed_step" Json.asNat64?
    let error ← Json.optional? fields "error" Json.asText?
    let artifacts ← Json.require? fields "artifacts" (Json.asList? Json.asText?)
    let steps ← Json.require? fields "steps" (Json.asList? StepSummary.ofJson?)
    some { executionId, pipelineName, branch, status, startedAt, completedAt, progress,
           completedSteps, totalSteps, failedStep, error, artifacts, steps }
  | _ => none

end Summary

end PipelineRunner
