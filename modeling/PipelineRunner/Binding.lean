import PipelineRunner.Pipeline
import PipelineRunner.StepError

/-!
# Binding steps

Binding turns a step into a command by filling its templates. The environment is bound first, from
the context alone; everything else is filled from the environment and then the context. `plan`
binds a whole pipeline without running anything.
-/

namespace PipelineRunner

structure Command where
  program : String
  args : List String
  env : Dict String
  /-- Names of secrets that the step did not ask for; the process does not inherit them. -/
  withheldEnv : NameSet
  workdir : Option String
  timeoutSecs : Option Nat

namespace Command

def displayArg (arg : String) : String :=
  if arg.isEmpty || arg.toList.any Text.isBlank then "'" ++ arg ++ "'" else arg

def displayLine (c : Command) : String :=
  String.intercalate " " ((c.program :: c.args).map displayArg)

/-- A description that shows the names of environment entries only. -/
def describe (c : Command) : String :=
  "ResolvedCommand \x7b program: " ++ Text.quoted c.program ++
    ", args: " ++ Text.quotedList (c.args.map Text.quoted) ++
    ", env: " ++ Text.quotedList (c.env.keys.map Text.quoted) ++
    ", withheld_env: \x7b" ++ String.intercalate ", " (c.withheldEnv.keys.map Text.quoted) ++
    "\x7d, workdir: " ++ Text.quotedOption (c.workdir.map Text.quoted) ++
    ", timeout_secs: " ++ Text.quotedOption (c.timeoutSecs.map toString) ++ " \x7d"

end Command

structure BoundStep where
  command : Command
  publish : Option Artifact

namespace Binding

abbrev Lookup := String → Option String

def fill (value? : Lookup) (template : String) : Except StepError String :=
  (Template.render template value?).mapError .missingVariable

def fillOption (value? : Lookup) : Option String → Except StepError (Option String)
  | none => .ok none
  | some t => (fill value? t).map some

def fillAll (value? : Lookup) : List String → Except StepError (List String)
  | [] => .ok []
  | t :: rest => do
    let first ← fill value? t
    let others ← fillAll value? rest
    .ok (first :: others)

/-! ### The environment -/

def bindEntries (context : Context) (env : Dict String) :
    List (String × String) → Except StepError (Dict String)
  | [] => .ok env
  | e :: rest => do
    let value ← fill context.lookup e.2
    bindEntries context (env.insert e.1 value) rest

def bindRequired (context : Context) (env : Dict String) :
    List String → Except StepError (Dict String)
  | [] => .ok env
  | key :: rest =>
    if env.contains key then bindRequired context env rest
    else
      match context.lookup key with
      | none => .error (.missingVariable key)
      | some value => bindRequired context (env.insert key value) rest

/-- The environment entries of a step. Its own entries win over the context, and every required
name has to come from one of the two. -/
def bindEnv (step : Step) (context : Context) : Except StepError (Dict String) := do
  let env ← bindEntries context Dict.empty step.env.entries
  bindRequired context env step.requiredEnv

def lookupIn (env : Dict String) (context : Context) : Lookup :=
  fun name => (env.get? name).or (context.lookup name)

/-! ### The command -/

def bindArtifact (value? : Lookup) : Option Artifact → Except StepError (Option Artifact)
  | none => .ok none
  | some a => do
    let file ← fill value? a.file
    let key ← fill value? a.key
    .ok (some { file, key })

def mountArgs (value? : Lookup) : List Mount → Except StepError (List String)
  | [] => .ok []
  | m :: rest => do
    let source ← fill value? m.source
    let target ← fill value? m.target
    let others ← mountArgs value? rest
    .ok ("-v" :: (source ++ ":" ++ target ++ if m.readOnly then ":ro" else "") :: others)

/-- The arguments that run a command inside a container. Environment values reach the container
through the runtime's own environment, so only their names are given. -/
def containerArgs (value? : Lookup) (env : Dict String) (c : Container) (command : List String) :
    Except StepError (List String) := do
  let mounts ← mountArgs value? c.mounts
  let dir ← fillOption value? c.workdir
  let image ← fill value? c.image
  .ok (["run", "--rm"] ++ mounts ++ (dir.toList.flatMap fun d => ["-w", d]) ++
    (env.keys.flatMap fun k => ["-e", k]) ++ image :: command)

def bindProgram (value? : Lookup) (env : Dict String) (container : Option Container)
    (command : List String) : Except StepError (String × List String) :=
  match container with
  | none => .ok (command.headD "", command.tail)
  | some c => (containerArgs value? env c command).map fun args => (c.runtime, args)

def withheld (context : Context) (env : Dict String) : NameSet :=
  env.keys.foldl (fun names k => names.erase k) context.secretNames

def bind (step : Step) (context : Context) : Except StepError BoundStep := do
  let env ← bindEnv step context
  let value? := lookupIn env context
  let command ← fillAll value? step.command
  let workdir ← fillOption value? step.workdir
  let publish ← bindArtifact value? step.publishes
  let (program, args) ← bindProgram value? env step.container command
  .ok
    { command :=
        { program, args, env, withheldEnv := withheld context env, workdir,
          timeoutSecs := step.timeoutSecs }
      publish }

/-! ### Planning -/

structure Planned where
  index : Nat
  stepId : String
  bound : Except StepError BoundStep

def captureMark (name : String) : String := "<" ++ name ++ ">"

def planFrom (index : Nat) (context : Context) : List Step → List Planned
  | [] => []
  | s :: rest =>
    let next := match s.capture with
      | none => context
      | some name => context.withOutput name (captureMark name)
    { index, stepId := s.id, bound := bind s context } :: planFrom (index + 1) next rest

/-- Binds every step without running any. Captured outputs are marked, as they are not known. -/
def plan (p : Pipeline) (context : Context) : List Planned := planFrom 0 context p.steps

end Binding

end PipelineRunner
