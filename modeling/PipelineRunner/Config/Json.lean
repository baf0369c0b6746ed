import PipelineRunner.Config.Basic
import PipelineRunner.Json.Value

/-!
# Pipeline configurations as JSON

The JSON form of a pipeline file, with every field present. A file whose variables have keys that
are no names has none.
-/

namespace PipelineRunner

namespace Json

def ofTexts (l : List String) : Json := arr (l.map str)

end Json

def Mount.toJson (m : Mount) : Json :=
  .obj [("source", .str m.source), ("target", .str m.target), ("read_only", .bool m.readOnly)]

def Container.toJson (c : Container) : Json :=
  .obj [("image", .str c.image), ("runtime", .str c.runtime),
    ("mounts", .arr (c.mounts.map Mount.toJson)), ("workdir", .ofOption .str c.workdir)]

def Artifact.toJson (a : Artifact) : Json := .obj [("file", .str a.file), ("key", .str a.key)]

def Trigger.toJson (t : Trigger) : Json := .obj [("branches", .ofTexts t.patterns)]

def StepConfig.toJson (s : StepConfig) : Json :=
  .obj [("id", .str s.id), ("name", .ofOption .str s.name),
    ("description", .ofOption .str s.description), ("run", .ofTexts s.run),
    ("env", .obj (s.env.entries.map fun e => (e.1, .str e.2))),
    ("required_env", .ofTexts s.requiredEnv), ("workdir", .ofOption .str s.workdir),
    ("container", .ofOption Container.toJson s.container), ("capture", .ofOption .str s.capture),
    ("publishes", .ofOption Artifact.toJson s.publishes),
    ("timeout_secs", .ofOption .ofNat s.timeoutSecs)]

def PipelineConfig.declaredToJson (c : PipelineConfig) : Except Yaml.Value.KeyError Json :=
  (Yaml.Value.mapping (c.declared.entries.map fun e => (.text e.1, e.2))).toJson

def PipelineConfig.toJson (c : PipelineConfig) : Except Yaml.Value.KeyError Json :=
  c.declaredToJson.map fun declared =>
    .obj [("name", .str c.name), ("version", .ofOption .str c.version),
      ("description", .ofOption .str c.description),
      ("triggers", .ofOption Trigger.toJson c.trigger),
      ("variables", declared), ("secrets", .ofTexts c.secrets),
      ("steps", .arr (c.steps.map StepConfig.toJson)),
      ("default_timeout_secs", .ofOption .ofNat c.defaultTimeoutSecs)]

end PipelineRunner
