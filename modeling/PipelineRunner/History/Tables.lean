import PipelineRunner.History.Store
import PipelineRunner.Word

/-!
# History in tables

Two tables: one row for an execution, one row for each of its steps. Counters are stored as signed
64-bit numbers, and points in time as text, by which rows are sorted. A save is a transaction: it
replaces the row of the execution, drops the step rows of its earlier version and adds the new ones.
A step row whose execution and index are taken makes the whole save fail, and the tables stay as
they were.
-/

namespace PipelineRunner

structure ExecutionRow where
  id : Uuid
  pipelineName : String
  branch : Option String
  status : RunStatus
  startedAt : Instant
  completedAt : Option Instant
  progress : Float
  completedSteps : Int
  totalSteps : Int
  failedStep : Option Int
  error : Option String
  artifacts : List String

structure StepRow where
  executionId : Uuid
  index : Int
  stepId : String
  state : String
  exitCode : Option Int
  durationMs : Int
  deriving DecidableEq, Repr

namespace ExecutionRow

/-- The row of a summary. A progress that is no number is no value for its column, which then takes
its default. -/
def ofSummary (s : Summary) : ExecutionRow :=
  { id := s.executionId, pipelineName := s.pipelineName, branch := s.branch, status := s.status,
    startedAt := s.startedAt, completedAt := s.completedAt,
    progress := if s.progress.isNaN then 0.0 else s.progress,
    completedSteps := Word.signed64 s.completedSteps, totalSteps := Word.signed64 s.totalSteps,
    failedStep := s.failedStep.map fun n => Word.signed64 n, error := s.error
    artifacts := s.artifacts }

def toSummary (r : ExecutionRow) (steps : List StepSummary) : Summary :=
  { executionId := r.id, pipelineName := r.pipelineName, branch := r.branch, status := r.status,
    startedAt := r.startedAt, completedAt := r.completedAt, progress := r.progress,
    completedSteps := Word.unsigned64 r.completedSteps, totalSteps := Word.unsigned64 r.totalSteps,
    failedStep := r.failedStep.map Word.unsigned64, error := r.error, artifacts := r.artifacts
    steps }

/-- Whether the first row is listed before the second or beside it, by the text of its start. -/
def notEarlier (a b : ExecutionRow) : Bool :=
  !decide (a.startedAt.toTableText < b.startedAt.toTableText)

end ExecutionRow

namespace StepRow

def ofStep (id : Uuid) (s : StepSummary) : StepRow :=
  { executionId := id, index := Word.signed64 s.index, stepId := s.stepId, state := s.state,
    exitCode := s.exitCode, durationMs := s.durationMs }

def toStep (r : StepRow) : StepSummary :=
  { index := Word.unsigned64 r.index, stepId := r.stepId, state := r.state, exitCode := r.exitCode,
    durationMs := r.durationMs }

end StepRow

def Summary.rows (s : Summary) : List StepRow := s.steps.map (StepRow.ofStep s.executionId)

structure TableHistory where
  executions : List ExecutionRow
  stepResults : List StepRow

namespace TableHistory

def empty : TableHistory := ⟨[], []⟩

/-- Writes the row of an execution in place of an earlier one, which takes its step rows with
it. -/
def replaceExecution (h : TableHistory) (s : Summary) : TableHistory :=
  { executions := (h.executions.filter fun r => r.id != s.executionId) ++ [.ofSummary s]
    stepResults := h.stepResults.filter fun r => r.executionId != s.executionId }

def insertStep (h : TableHistory) (r : StepRow) : Except SaveError TableHistory :=
  if h.stepResults.any fun t => t.executionId == r.executionId && t.index == r.index then
    .error .stepResult
  else .ok { h with stepResults := h.stepResults ++ [r] }

def insertSteps (h : TableHistory) : List StepRow → Except SaveError TableHistory
  | [] => .ok h
  | r :: rest =>
    match h.insertStep r with
    | .error e => .error e
    | .ok h' => h'.insertSteps rest

def save (h : TableHistory) (s : Summary) : Except SaveError TableHistory :=
  (h.replaceExecution s).insertSteps s.rows

/-! ### Transactions -/

inductive Statement
  | replaceExecution (s : Summary)
  | deleteSteps (id : Uuid)
  | insertStep (r : StepRow)

def Statement.run (h : TableHistory) : Statement → Except SaveError TableHistory
  | replaceExecution s => .ok (h.replaceExecution s)
  | deleteSteps id =>
    .ok { h with stepResults := h.stepResults.filter fun r => r.executionId != id }
  | insertStep r => h.insertStep r

def statements (s : Summary) : List Statement :=
  .replaceExecution s :: .deleteSteps s.executionId :: s.rows.map .insertStep

/-- Runs statements on the tables in place and then commits. The first statement that is refused
rolls the tables back to where the transaction started. -/
def transact (start : TableHistory) :
    TableHistory → List Statement → TableHistory × Option SaveError
  | h, [] => (h, none)
  | h, st :: rest =>
    match st.run h with
    | .error e => (start, some e)
    | .ok h' => transact start h' rest

def attempt (h : TableHistory) (s : Summary) : TableHistory × Option SaveError :=
  transact h h (statements s)

def afterAll (saves : List Summary) : TableHistory :=
  saves.foldl (fun h s => (h.attempt s).1) empty

/-! ### Reading -/

def stepsOf (h : TableHistory) (id : Uuid) : List StepSummary :=
  ((h.stepResults.filter fun r => r.executionId == id).mergeSort
    fun a b => decide (a.index ≤ b.index)).map StepRow.toStep

def summaryOf (h : TableHistory) (r : ExecutionRow) : Summary := r.toSummary (h.stepsOf r.id)

def load (h : TableHistory) (id : Uuid) : Option Summary :=
  (h.executions.find? fun r => r.id == id).map h.summaryOf

def list (h : TableHistory) (pipeline : String) : List Summary :=
  ((h.executions.filter fun r => r.pipelineName == pipeline).mergeSort
    ExecutionRow.notEarlier).map h.summaryOf

def pipelines (h : TableHistory) : List String :=
  (Dict.ofList (h.executions.map fun r => (r.pipelineName, ()))).keys

instance : HistoryStore TableHistory where
  empty := empty
  save := save
  load := load
  list := list
  pipelines := pipelines

end TableHistory

end PipelineRunner
