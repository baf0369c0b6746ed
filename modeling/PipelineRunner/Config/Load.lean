import PipelineRunner.Config.Schema
import PipelineRunner.Host.Files
import PipelineRunner.Text.Blank

/-!
# Loading pipelines

Reading a pipeline file and checking what it describes. `PipelineConfig.faults` lists everything
that is wrong with a description, in the order in which it is reported; `validate` reports the
first.
-/

namespace PipelineRunner

inductive ConfigError
  | unreadable (path cause : String)
  | unfit (error : Yaml.ReadError)
  | duplicateStep (id : String)
  | emptyCommand (step : String)
  | badCapture (step name : String)
  | captureIsSecret (step name : String)
  | badEnvName (step name : String)
  | badPattern (pattern : String) (error : PatternError)
  | missingFile (name path : String)

def ConfigError.chain : ConfigError → List String
  | unreadable path cause => ["Failed to read " ++ path, cause]
  | unfit e => [e.message]
  | duplicateStep id => ["Duplicate step ID: " ++ id]
  | emptyCommand s => ["Step '" ++ s ++ "' has an empty command"]
  | badCapture s n => ["Step '" ++ s ++ "' captures into invalid variable name '" ++ n ++ "'"]
  | captureIsSecret s n => ["Step '" ++ s ++ "' capture '" ++ n ++ "' collides with a secret"]
  | badEnvName s n => ["Step '" ++ s ++ "' has invalid environment key '" ++ n ++ "'"]
  | badPattern p e => ["Invalid trigger pattern '" ++ p ++ "'", e.message]
  | missingFile n p => ["Variable '" ++ n ++ "' references file that doesn't exist: " ++ p]

def ConfigError.message (e : ConfigError) : String := String.intercalate ": " e.chain

namespace StepConfig

def hasNoCommand (s : StepConfig) : Bool :=
  match s.run with
  | [] => true
  | program :: _ => Text.isBlankText program

def captureFaults (secrets : List String) (s : StepConfig) : List ConfigError :=
  match s.capture with
  | none => []
  | some n =>
    (if Template.isValidName n then [] else [.badCapture s.id n]) ++
      (if secrets.contains n then [.captureIsSecret s.id n] else [])

/-- What is wrong with the names of a step's environment: its own entries by name, then the required
ones. -/
def envFaults (s : StepConfig) : List ConfigError :=
  ((s.env.keys ++ s.requiredEnv).filter fun n => !Template.isValidName n).map (.badEnvName s.id)

def faults (secrets seen : List String) (s : StepConfig) : List ConfigError :=
  (if seen.contains s.id then [.duplicateStep s.id] else []) ++
    (if s.hasNoCommand then [.emptyCommand s.id] else []) ++
    s.captureFaults secrets ++ s.envFaults

def allFaults (secrets : List String) : List String → List StepConfig → List ConfigError
  | _, [] => []
  | seen, s :: rest => s.faults secrets seen ++ allFaults secrets (s.id :: seen) rest

end StepConfig

def Trigger.faults (t : Trigger) : List ConfigError :=
  t.patterns.filterMap fun p =>
    match BranchPattern.parse p with
    | .ok _ => none
    | .error e => some (.badPattern p e)

def VariableSource.fault? (pathExists : String → Bool) (name : String) :
    VariableSource → Option ConfigError
  | .file path true => if pathExists path then none else some (.missingFile name path)
  | _ => none

namespace PipelineConfig

/-- Everything that is wrong with a description: its steps in order, its patterns in order, and its
variables by name. -/
def faults (pathExists : String → Bool) (c : PipelineConfig) : List ConfigError :=
  StepConfig.allFaults c.secrets [] c.steps ++
    (match c.trigger with
    | none => []
    | some t => t.faults) ++
    c.sources.entries.filterMap fun e => VariableSource.fault? pathExists e.1 e.2

def validate (pathExists : String → Bool) (c : PipelineConfig) : Except ConfigError Unit :=
  match c.faults pathExists with
  | [] => .ok ()
  | e :: _ => .error e

def ofText (files : Host.Files) (s : String) : Except ConfigError PipelineConfig :=
  match Yaml.readText reader s with
  | .error e => .error (.unfit e)
  | .ok c =>
    match c.validate files.pathExists with
    | .error e => .error e
    | .ok () => .ok c

def ofFile (files : Host.Files) (path : String) : Except ConfigError PipelineConfig :=
  match files.readText path with
  | .error e => .error (.unreadable path e.message)
  | .ok s => ofText files s

end PipelineConfig

end PipelineRunner
