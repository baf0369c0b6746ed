import PipelineRunner.Context
import PipelineRunner.Step

/-!
# Pipelines

A pipeline is a list of steps with the trigger that gates it, the variables it declares and the
secrets it reads. `Pipeline.initialContext` builds what its first step can refer to, and
`Pipeline.unresolvedNames` lists what no part of the pipeline provides.
-/

namespace PipelineRunner

abbrev ProcessEnv := Dict String

inductive VariableSource
  | literal (value : String)
  /-- An environment variable, read when a run starts. -/
  | env (name : String)
  | file (path : String) (mustExist : Bool)
  deriving DecidableEq, Repr

def VariableSource.resolve (source : VariableSource) (env : ProcessEnv) : Option String :=
  match source with
  | .literal value => some value
  | .env name => env.get? name
  | .file path _ => some path

structure Pipeline where
  name : String
  /-- What gates the pipeline; without it every event starts a run. -/
  trigger : Option Trigger
  declared : Dict VariableSource
  secrets : List String
  steps : List Step

namespace Pipeline

/-- The step with an id; the first of several. -/
def step? (p : Pipeline) (id : String) : Option Step := p.steps.find? fun s => s.id == id

def isTriggeredBy (p : Pipeline) (event : TriggerEvent) : Bool :=
  match p.trigger with
  | none => true
  | some t => t.admits event

/-! ### Names that nothing provides -/

def providedNames (p : Pipeline) : List String :=
  p.declared.keys ++ p.secrets ++ ["branch", "branch_slug"]

/-- The names among `names` that a step refers to and that neither `known` nor its own environment
provides, added to those already found. -/
def addUnresolved (known : List String) (step : Step) (found : List String) : List String :=
  step.referencedNames.foldl
    (fun acc n => if known.contains n || step.env.contains n then acc else Step.addName acc n) found

def unresolvedFrom (known found : List String) : List Step → List String
  | [] => found
  | s :: rest => unresolvedFrom (s.capture.toList ++ known) (addUnresolved known s found) rest

/-- The names that steps refer to and neither the pipeline, the event nor an earlier capture
provides, each once and in order of appearance. -/
def unresolvedNames (p : Pipeline) : List String := unresolvedFrom p.providedNames [] p.steps

/-! ### The context a run starts with -/

def bindVariables (env : ProcessEnv) (c : Context) (sources : List (String × VariableSource)) :
    Context :=
  sources.foldl
    (fun c e => match e.2.resolve env with
      | none => c
      | some v => c.setVariable e.1 v) c

def bindSecrets (env : ProcessEnv) (c : Context) (names : List String) : Context :=
  names.foldl
    (fun c n => match env.get? n with
      | none => c
      | some v => c.setSecret n v) c

def bindOverrides (c : Context) (overrides : List (String × String)) : Context :=
  overrides.foldl (fun c e => c.setVariable e.1 e.2) c

/-- The context a run starts with: declared variables, then the event, then secrets, then the
overrides, each layer over the ones before. -/
def initialContext (p : Pipeline) (env : ProcessEnv) (event : TriggerEvent)
    (overrides : List (String × String)) : Context :=
  let c := bindVariables env Context.empty p.declared.entries
  let c := bindSecrets env (c.withEvent event) p.secrets
  bindOverrides c overrides

end Pipeline

end PipelineRunner
