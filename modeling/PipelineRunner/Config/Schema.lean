import PipelineRunner.Config.Basic
import PipelineRunner.Yaml.Reading

/-!
# The schema of pipeline files

Which fields the records of a pipeline file have, which of them have to be there, and what the
others default to.
-/

namespace PipelineRunner

open Yaml.Reading (record required defaulted text optional list dict nat64 bool value)

def Trigger.reader : Yaml.Reader Trigger :=
  record "TriggerConfig" ⟨[]⟩
    [defaulted "branches" (list text) fun t v => { t with patterns := v }]

/-- A mount of a container; it is writable by default. -/
def Mount.reader : Yaml.Reader Mount :=
  record "MountConfig" ⟨"", "", false⟩
    [required "source" text fun m v => { m with source := v },
      required "target" text fun m v => { m with target := v },
      defaulted "read_only" bool fun m v => { m with readOnly := v }]

def Container.defaultRuntime : String := "docker"

def Container.reader : Yaml.Reader Container :=
  record "ContainerConfig" ⟨defaultRuntime, "", [], none⟩
    [required "image" text fun c v => { c with image := v },
      defaulted "runtime" text fun c v => { c with runtime := v },
      defaulted "mounts" (list Mount.reader) fun c v => { c with mounts := v },
      defaulted "workdir" (optional text) fun c v => { c with workdir := v }]

def Artifact.reader : Yaml.Reader Artifact :=
  record "PublishConfig" ⟨"", ""⟩
    [required "file" text fun a v => { a with file := v },
      required "key" text fun a v => { a with key := v }]

def StepConfig.blank : StepConfig :=
  { id := "", name := none, description := none, run := [], env := Dict.empty, requiredEnv := [],
    workdir := none, container := none, capture := none, publishes := none, timeoutSecs := none }

def StepConfig.reader : Yaml.Reader StepConfig :=
  record "StepConfig" blank
    [required "id" text fun s v => { s with id := v },
      defaulted "name" (optional text) fun s v => { s with name := v },
      defaulted "description" (optional text) fun s v => { s with description := v },
      required "run" (list text) fun s v => { s with run := v },
      defaulted "env" (dict text) fun s v => { s with env := v },
      defaulted "required_env" (list text) fun s v => { s with requiredEnv := v },
      defaulted "workdir" (optional text) fun s v => { s with workdir := v },
      defaulted "container" (optional Container.reader) fun s v => { s with container := v },
      defaulted "capture" (optional text) fun s v => { s with capture := v },
      defaulted "publishes" (optional Artifact.reader) fun s v => { s with publishes := v },
      defaulted "timeout_secs" (optional nat64) fun s v => { s with timeoutSecs := v }]

def PipelineConfig.blank : PipelineConfig :=
  { name := "", version := none, description := none, trigger := none, declared := Dict.empty,
    secrets := [], steps := [], defaultTimeoutSecs := none }

def PipelineConfig.reader : Yaml.Reader PipelineConfig :=
  record "PipelineConfig" blank
    [required "name" text fun c v => { c with name := v },
      defaulted "version" (optional text) fun c v => { c with version := v },
      defaulted "description" (optional text) fun c v => { c with description := v },
      defaulted "triggers" (optional Trigger.reader) fun c v => { c with trigger := v },
      defaulted "variables" (dict value) fun c v => { c with declared := v },
      defaulted "secrets" (list text) fun c v => { c with secrets := v },
      required "steps" (list StepConfig.reader) fun c v => { c with steps := v },
      defaulted "default_timeout_secs" (optional nat64) fun c v =>
        { c with defaultTimeoutSecs := v }]

end PipelineRunner
