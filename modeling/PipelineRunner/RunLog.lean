import PipelineRunner.Json.Reading
import PipelineRunner.Json.Text
import PipelineRunner.Status

/-!
# The log of a run

One entry for every step whose process was started, in the order of execution. Entries are only
ever appended.
-/

namespace PipelineRunner

/-- What became of one step. Its output is recorded with secrets redacted. -/
structure RunResult where
  index : Nat
  stepId : String
  stepName : String
  state : StepState
  exitCode : Option Int
  stdout : String
  stderr : String
  startedAt : Instant
  finishedAt : Instant
  deriving DecidableEq, Repr

namespace RunResult

def succeeded (r : RunResult) : Bool :=
  match r.state with
  | .succeeded .. => true
  | _ => false

def durationMs (r : RunResult) : Int := r.finishedAt.millisSince r.startedAt

def fieldNames : List String :=
  ["index", "step_id", "step_name", "state", "exit_code", "stdout", "stderr", "started_at",
    "finished_at"]

def toJson (r : RunResult) : Json :=
  .obj [("index", .ofNat r.index), ("step_id", .str r.stepId), ("step_name", .str r.stepName),
    ("state", r.state.toJson), ("exit_code", .ofOption .int r.exitCode),
    ("stdout", .str r.stdout), ("stderr", .str r.stderr),
    ("started_at", StepState.instantJson r.startedAt),
    ("finished_at", StepState.instantJson r.finishedAt)]

def ofJson? (j : Json) : Option RunResult := do
  let fields ← Json.asFields? fieldNames j
  let index ← Json.require? fields "index" Json.asNat64?
  let stepId ← Json.require? fields "step_id" Json.asText?
  let stepName ← Json.require? fields "step_name" Json.asText?
  let state ← Json.require? fields "state" StepState.ofJson?
  let exitCode ← Json.optional? fields "exit_code" Json.asInt32?
  let stdout ← Json.require? fields "stdout" Json.asText?
  let stderr ← Json.require? fields "stderr" Json.asText?
  let startedAt ← Json.require? fields "started_at" StepState.instantOfJson?
  let finishedAt ← Json.require? fields "finished_at" StepState.instantOfJson?
  some { index, stepId, stepName, state, exitCode, stdout, stderr, startedAt, finishedAt }

end RunResult

structure RunLog where
  results : List RunResult
  deriving DecidableEq, Repr

namespace RunLog

def empty : RunLog := ⟨[]⟩

def append (l : RunLog) (r : RunResult) : RunLog := ⟨l.results ++ [r]⟩

def get? (l : RunLog) (stepId : String) : Option RunResult :=
  l.results.find? fun r => r.stepId == stepId

def size (l : RunLog) : Nat := l.results.length

def isEmpty (l : RunLog) : Bool := l.results.isEmpty

def executedSteps (l : RunLog) : List String := l.results.map (·.stepId)

def exitCodes (l : RunLog) : List (Option Int) := l.results.map (·.exitCode)

def toJson (l : RunLog) : Json := .obj [("results", .arr (l.results.map RunResult.toJson))]

def ofJson? (j : Json) : Option RunLog := do
  let fields ← Json.asFields? ["results"] j
  let results ← Json.require? fields "results" (Json.asList? RunResult.ofJson?)
  some ⟨results⟩

def toText (l : RunLog) : String := l.toJson.toText

def ofText? (s : String) : Option RunLog := (Json.ofText? s).bind ofJson?

end RunLog

end PipelineRunner
