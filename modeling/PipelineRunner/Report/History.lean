import PipelineRunner.Decimal.Rounded
import PipelineRunner.History.Recent
import PipelineRunner.Report.Pipeline

/-!
# Reports on past runs

The pipelines that a history knows, with counts or without, lists of their runs, and single runs in
detail.
-/

namespace PipelineRunner.Report

/-! ### Pipelines -/

def countOf (summaries : List Summary) (status : RunStatus) : Nat :=
  summaries.countP fun s => s.status == status

def counts (t : Terminal) (name : String) (summaries : List Summary) : String :=
  let number (style : TextStyle) (n : Nat) := t.style style (toString n)
  "  " ++ t.style .bold name ++ " (" ++ number .cyan summaries.length ++ " runs: " ++
    number .green (countOf summaries .completed) ++ " succeeded, " ++
    number .red (countOf summaries .failed) ++ " failed, " ++
    number .dim (countOf summaries .notTriggered) ++ " not triggered)"

def pipelines (t : Terminal) {σ : Type} [HistoryStore σ] (h : σ) (withCounts : Bool) :
    List String :=
  match HistoryStore.pipelines h with
  | [] => [marked t .info "No pipelines found in history"]
  | names =>
    marked t .info "Pipelines in history:" ::
      names.map fun n =>
        if withCounts then counts t n (HistoryStore.list h n) else "  " ++ t.style .bold n

def pipelinesJson {σ : Type} [HistoryStore σ] (h : σ) : Json :=
  let one (name : String) : Json :=
    .obj [("name", .str name), ("execution_count", .ofNat (HistoryStore.list h name).length)]
  .obj [("pipelines", .arr ((HistoryStore.pipelines h).map one))]

/-! ### Runs -/

def runs (t : Terminal) (summaries : List Summary) : List String :=
  if summaries.isEmpty then [marked t .info "No executions found"]
  else
    marked t .info s!"Execution history (showing latest {summaries.length}):" ::
      summaries.map fun s => "  " ++ summary t s

def runsJson (summaries : List Summary) : Json :=
  .obj [("executions", .arr (summaries.map Summary.toJson))]

/-- The end of a run and how long it took, if it did not end before it started. -/
def completion (t : Terminal) (startedAt completedAt : Instant) : List String :=
  let nanos := completedAt.nanosSince startedAt
  ("  Completed: " ++ t.style .dim completedAt.toOffsetText) ::
    if nanos < 0 then []
    else ["  Duration: " ++ t.style .dim (duration (nanos.toNat / 1000000))]

def percent (progress : Float) : String := Decimal.whole (progress * 100.0) ++ "%"

def details (t : Terminal) (s : Summary) : List String :=
  [marked t .info "Execution Details",
    "  ID: " ++ t.style .cyan s.executionId.toText,
    "  Pipeline: " ++ t.style .bold s.pipelineName,
    "  Branch: " ++ s.branch.getD "(manual)",
    "  Status: " ++ status t s.status,
    "  Started: " ++ t.style .dim s.startedAt.toOffsetText] ++
    (s.completedAt.toList.flatMap (completion t s.startedAt)) ++
    ["  Progress: " ++ t.style .cyan (percent s.progress) ++
      s!" ({s.completedSteps}/{s.totalSteps})"] ++
    (s.error.toList.map fun e => "  Error: " ++ t.style .red e) ++
    (s.artifacts.map fun key => "  Artifact: " ++ t.style .cyan key) ++
    if s.steps.isEmpty then []
    else "" :: ("  " ++ t.style .bold "Steps:") :: s.steps.map fun x => "    " ++ step t x

def saved (t : Terminal) (id : Uuid) : String :=
  marked t .info "Execution saved to history (ID: " ++ t.style .dim id.shortText ++ ")"

def notFound (t : Terminal) : String := marked t .warning "Execution not found"

end PipelineRunner.Report
