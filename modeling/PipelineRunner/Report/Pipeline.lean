import PipelineRunner.Config.Load
import PipelineRunner.Report

/-!
# Reports on pipelines

What is shown of a pipeline before it runs: the verdict on its file, the branches it is for, and
the commands that a run would invoke.
-/

namespace PipelineRunner.Report

def marked (t : Terminal) (i : Icon) (text : String) : String := t.icon i ++ " " ++ text

def row (names : List String) : String := String.intercalate ", " names

/-! ### Verdicts -/

def unresolved (t : Terminal) (names : List String) : List String :=
  if names.isEmpty then []
  else
    [marked t .warning "Not bound by the pipeline (pass with --var or the environment): " ++
      t.style .yellow (row names)]

def accepted (t : Terminal) (c : PipelineConfig) : List String :=
  let count (n : Nat) := t.style .cyan (toString n)
  let branches := match c.trigger with
    | some trigger => t.style .cyan (row trigger.patterns)
    | none => t.style .dim "every branch"
  [marked t .check "Pipeline configuration is valid!",
    "  Name: " ++ t.style .bold c.name,
    "  Triggers: " ++ branches,
    "  Steps: " ++ count c.steps.length,
    "  Variables: " ++ count c.declared.entries.length,
    "  Secrets: " ++ count c.secrets.length] ++
    unresolved t c.toPipeline.unresolvedNames

def refused (t : Terminal) (e : ConfigError) : List String :=
  [marked t .cross "Validation failed:", "  " ++ t.style .red e.message]

/-! ### Triggers -/

def triggered (t : Terminal) (p : Pipeline) (branch : String) (yes : Bool) : List String :=
  let patterns := match p.trigger with
    | some trigger => [marked t .info "Patterns: " ++ t.style .dim (row trigger.patterns)]
    | none => []
  let verdict := if yes then " triggers " else " does not trigger "
  patterns ++
    [marked t (if yes then .check else .cross) (t.style .cyan branch) ++ verdict ++
      t.style .bold p.name]

/-! ### Runs ahead -/

def loaded (t : Terminal) (p : Pipeline) : String :=
  marked t .info "Loaded pipeline: " ++ t.style .bold p.name

def override (t : Terminal) (key value : String) : String :=
  marked t .info "Variable override: " ++ t.style .cyan key ++ " = " ++ t.style .dim value

def wouldNotRun (t : Terminal) (p : Pipeline) (event : TriggerEvent) : String :=
  marked t .info (t.style .bold p.name) ++ " would not run for " ++
    t.style .cyan (event.branch.getD "a manual run")

def planned (t : Terminal) (context : Context) (s : Binding.Planned) : List String :=
  let line (style : TextStyle) (text : String) :=
    "  " ++ column2 (s.index + 1) ++ ". " ++ t.style style s.stepId ++ " " ++ text
  match s.bound with
  | .error e => [line .red (t.style .red e.message)]
  | .ok b =>
    line .cyan (t.style .dim ("$ " ++ context.redact b.command.displayLine)) ::
      b.publish.toList.map fun a =>
        "      " ++ marked t .package a.file ++ " → " ++ t.style .cyan a.key

def plan (t : Terminal) (context : Context) (steps : List Binding.Planned) : List String :=
  marked t .info "Dry run, nothing will be executed" :: steps.flatMap (planned t context)

def conclusion (t : Terminal) (o : RunOutcome) : List String :=
  let name := t.style .bold o.pipelineName
  match o.state.status with
  | .completed =>
    (o.artifacts.map fun a => marked t .package "Published " ++ t.style .cyan a.key) ++
      ["", marked t .check name ++ " completed " ++ t.style .green "successfully"]
  | .notTriggered => ["", marked t .info name ++ " has nothing to do for this branch"]
  | .pending | .running | .failed => ["", marked t .cross name ++ " " ++ t.style .red "failed"]

end PipelineRunner.Report
