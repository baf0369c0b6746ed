import PipelineRunner.Json.Value
import PipelineRunner.Time.Instant
import PipelineRunner.Uuid

/-!
# States of runs and steps

A run is pending, running, completed, failed or not triggered; a step goes from pending through
running to one of three terminal states.
-/

namespace PipelineRunner

/-! ### Runs -/

inductive RunStatus
  | pending
  | running
  | completed
  | failed
  | notTriggered
  deriving DecidableEq, Repr, Inhabited

namespace RunStatus

def all : List RunStatus := [pending, running, completed, failed, notTriggered]

def name : RunStatus → String
  | pending => "Pending"
  | running => "Running"
  | completed => "Completed"
  | failed => "Failed"
  | notTriggered => "NotTriggered"

def ofName? (s : String) : Option RunStatus := all.find? fun st => st.name == s

theorem ofName?_name (s : RunStatus) : ofName? s.name = some s := by
  cases s <;> decide

end RunStatus

structure RunState where
  executionId : Uuid
  status : RunStatus
  startedAt : Option Instant
  completedAt : Option Instant
  totalSteps : Nat
  completedSteps : Nat
  failedStep : Option Nat
  deriving DecidableEq, Repr

namespace RunState

def fresh (id : Uuid) : RunState :=
  { executionId := id, status := .pending, startedAt := none, completedAt := none,
    totalSteps := 0, completedSteps := 0, failedStep := none }

def start (s : RunState) (now : Instant) (steps : Nat) : RunState :=
  { s with status := .running, startedAt := some now, totalSteps := steps }

def started (id : Uuid) (now : Instant) (steps : Nat) : RunState := (fresh id).start now steps

def stepSucceeded (s : RunState) : RunState := { s with completedSteps := s.completedSteps + 1 }

def complete (s : RunState) (now : Instant) : RunState :=
  { s with status := .completed, completedAt := some now }

def fail (s : RunState) (now : Instant) (index : Nat) : RunState :=
  { s with status := .failed, failedStep := some index, completedAt := some now }

def notTriggered (s : RunState) (now : Instant) : RunState :=
  { s with status := .notTriggered, startedAt := some now, completedAt := some now }

def progress (s : RunState) : Float :=
  if s.totalSteps = 0 then 0.0
  else (UInt64.ofNat s.completedSteps).toFloat / (UInt64.ofNat s.totalSteps).toFloat

end RunState

/-! ### Steps -/

inductive StepState
  | pending
  | running (startedAt : Instant)
  | succeeded (exitCode : Int) (startedAt finishedAt : Instant)
  | failed (error : String) (exitCode : Option Int) (startedAt finishedAt : Instant)
  | timedOut (timeoutSecs : Nat) (startedAt finishedAt : Instant)
  deriving DecidableEq, Repr, Inhabited

namespace StepState

def isTerminal : StepState → Bool
  | succeeded .. | failed .. | timedOut .. => true
  | pending | running _ => false

/-- The step fails now; a running one keeps its start. -/
def fail (s : StepState) (now : Instant) (error : String) (exitCode : Option Int) : StepState :=
  match s with
  | running startedAt => failed error exitCode startedAt now
  | _ => failed error exitCode now now

def label : StepState → String
  | pending => "Pending"
  | running _ => "Running"
  | succeeded .. => "Succeeded"
  | failed .. => "Failed"
  | timedOut .. => "TimedOut"

/-! ### JSON -/

def instantJson (t : Instant) : Json := .str t.toText

def instantOfJson? (j : Json) : Option Instant := j.asText?.bind Instant.ofText?

/-- A state as JSON: the bare name, or the name with the details under it. -/
def toJson : StepState → Json
  | pending => .str "Pending"
  | running t => .obj [("Running", .obj [("started_at", instantJson t)])]
  | succeeded code s f =>
    .obj [("Succeeded", .obj [("exit_code", .int code), ("started_at", instantJson s),
      ("finished_at", instantJson f)])]
  | failed error code s f =>
    .obj [("Failed", .obj [("error", .str error), ("exit_code", .ofOption .int code),
      ("started_at", instantJson s), ("finished_at", instantJson f)])]
  | timedOut secs s f =>
    .obj [("TimedOut", .obj [("timeout_secs", .ofNat secs), ("started_at", instantJson s),
      ("finished_at", instantJson f)])]

def ofDetails? (name : String) (details : List (String × Json)) : Option StepState :=
  match name with
  | "Running" => do
    let s ← Json.require? details "started_at" instantOfJson?
    some (running s)
  | "Succeeded" => do
    let code ← Json.require? details "exit_code" Json.asInt32?
    let s ← Json.require? details "started_at" instantOfJson?
    let f ← Json.require? details "finished_at" instantOfJson?
    some (succeeded code s f)
  | "Failed" => do
    let error ← Json.require? details "error" Json.asText?
    let code ← Json.optional? details "exit_code" Json.asInt32?
    let s ← Json.require? details "started_at" instantOfJson?
    let f ← Json.require? details "finished_at" instantOfJson?
    some (failed error code s f)
  | "TimedOut" => do
    let secs ← Json.require? details "timeout_secs" Json.asNat64?
    let s ← Json.require? details "started_at" instantOfJson?
    let f ← Json.require? details "finished_at" instantOfJson?
    some (timedOut secs s f)
  | _ => none

def ofJson? : Json → Option StepState
  | .str "Pending" => some pending
  | .obj [("Pending", .null)] => some pending
  | .obj [(name, .obj details)] => ofDetails? name details
  | _ => none

end StepState

end PipelineRunner
