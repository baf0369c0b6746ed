import PipelineRunner.Dict
import PipelineRunner.Template

/-!
# Steps

One command of a pipeline with all that goes with it. Texts marked as templates may hold slots;
`Step.referencedNames` lists every name that binding the step can ask for.
-/

namespace PipelineRunner

/-- A host directory shown inside a container; both ends are templates. -/
structure Mount where
  source : String
  target : String
  readOnly : Bool
  deriving DecidableEq, Repr

structure Container where
  runtime : String
  image : String
  mounts : List Mount
  workdir : Option String
  deriving DecidableEq, Repr

structure Artifact where
  file : String
  key : String
  deriving DecidableEq, Repr

structure Step where
  id : String
  name : String
  /-- The program and its arguments, one template each. -/
  command : List String
  /-- Environment entries of this step alone; the values are templates. -/
  env : Dict String
  /-- Names that have to be bound and are handed to the process. -/
  requiredEnv : List String
  workdir : Option String
  container : Option Container
  capture : Option String
  publishes : Option Artifact
  timeoutSecs : Option Nat

namespace Container

def templates (c : Container) : List String :=
  c.image :: c.workdir.toList ++ c.mounts.flatMap fun m => [m.source, m.target]

end Container

namespace Step

def ofCommand (id : String) (command : List String) : Step :=
  { id, name := id, command, env := Dict.empty, requiredEnv := [], workdir := none,
    container := none, capture := none, publishes := none, timeoutSecs := none }

/-- The templates of a step: command, environment values by key, working directory, container and
published artifact. -/
def templates (s : Step) : List String :=
  s.command ++ s.env.values ++ s.workdir.toList ++
    (match s.container with | none => [] | some c => c.templates) ++
    (match s.publishes with | none => [] | some a => [a.file, a.key])

def addName (names : List String) (n : String) : List String :=
  if names.contains n then names else names ++ [n]

/-- Every name the step refers to: the required ones as listed, then those of its slots, each once
and in order of appearance. -/
def referencedNames (s : Step) : List String :=
  (s.templates.flatMap Template.slots).foldl addName s.requiredEnv

end Step

end PipelineRunner
