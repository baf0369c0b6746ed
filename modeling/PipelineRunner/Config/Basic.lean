import PipelineRunner.Pipeline
import PipelineRunner.Yaml.Printer
import PipelineRunner.Yaml.Value

/-!
# Pipeline configurations

A pipeline as its file describes it: optional parts may be absent, and a variable may be any value.
`PipelineConfig.toPipeline` fills in the defaults.
-/

namespace PipelineRunner

structure StepConfig where
  id : String
  /-- The name to show; the id if there is none. -/
  name : Option String
  description : Option String
  run : List String
  env : Dict String
  requiredEnv : List String
  workdir : Option String
  container : Option Container
  capture : Option String
  publishes : Option Artifact
  /-- The deadline in seconds; that of the pipeline if there is none. -/
  timeoutSecs : Option Nat

structure PipelineConfig where
  name : String
  version : Option String
  description : Option String
  trigger : Option Trigger
  declared : Dict Yaml.Value
  secrets : List String
  steps : List StepConfig
  defaultTimeoutSecs : Option Nat

/-- How the value of a declaration is meant: a string stands for itself; a mapping names an
environment variable, or else the path of a file; and anything else stands for its own text. -/
def VariableSource.ofValue : Yaml.Value → VariableSource
  | .text s => .literal s
  | .mapping entries =>
    match (Yaml.Value.find? "env" entries).bind Yaml.Value.asText? with
    | some name => .env name
    | none =>
      .file (((Yaml.Value.find? "path" entries).bind Yaml.Value.asText?).getD "")
        (((Yaml.Value.find? "validate_exists" entries).bind Yaml.Value.asBool?).getD false)
  | v => .literal (Text.trim (Yaml.Printer.render v))

def StepConfig.toStep (defaultTimeoutSecs : Option Nat) (s : StepConfig) : Step :=
  { id := s.id, name := s.name.getD s.id, command := s.run, env := s.env,
    requiredEnv := s.requiredEnv, workdir := s.workdir, container := s.container,
    capture := s.capture, publishes := s.publishes,
    timeoutSecs := s.timeoutSecs <|> defaultTimeoutSecs }

namespace PipelineConfig

def sources (c : PipelineConfig) : Dict VariableSource := c.declared.map .ofValue

def toPipeline (c : PipelineConfig) : Pipeline :=
  { name := c.name, trigger := c.trigger, declared := c.sources, secrets := c.secrets,
    steps := c.steps.map (StepConfig.toStep c.defaultTimeoutSecs) }

end PipelineConfig

end PipelineRunner
