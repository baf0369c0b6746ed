import PipelineRunner.CommandLine.Options
import PipelineRunner.Override
import PipelineRunner.Pipeline
import PipelineRunner.Word

/-!
# Requests

The commands that the program understands, and how its arguments name them.
-/

namespace PipelineRunner.CommandLine

structure RunRequest where
  file : String
  branch : Option String
  overrides : List (String × String)
  dryRun : Bool
  noHistory : Bool
  deriving DecidableEq, Repr

structure HistoryRequest where
  pipeline : Option String
  limit : Nat
  json : Bool
  executionId : Option String
  deriving DecidableEq, Repr

inductive Request
  | run (request : RunRequest)
  | validate (file : String) (json : Bool)
  | triggers (file branch : String)
  | list (withCounts json : Bool)
  | history (request : HistoryRequest)
  deriving DecidableEq, Repr

structure Invocation where
  request : Request
  verbose : Bool
  deriving DecidableEq, Repr

/-! ### Values -/

def digits (n : Nat) : List Char → Except String Nat
  | [] => .ok n
  | c :: rest =>
    if !c.isDigit then .error "invalid digit found in string"
    else
      let next := n * 10 + (c.toNat - 48)
      if Word.size64 ≤ next then .error "number too large to fit in target type"
      else digits next rest

def limit (s : String) : Except String Nat :=
  match s.toList with
  | [] => .error "cannot parse integer from empty string"
  | ['+'] => .error "invalid digit found in string"
  | '+' :: rest => digits 0 rest
  | cs => digits 0 cs

def limitObjection (s : String) : Option String :=
  match limit s with
  | .ok _ => none
  | .error cause => some cause

def overrideObjection (s : String) : Option String :=
  match Override.parse s with
  | .ok _ => none
  | .error e => some e.message

/-! ### Options -/

def verbose : Opt := .flag "verbose" (some 'v')

def file : Opt := .text "file" (some 'f')

def branch : Opt := .text "branch" (some 'b')

def json : Opt := .flag "json" none

def subcommands : List (String × List Opt) :=
  [("run", [file, branch, ⟨"var", none, .repeated, overrideObjection⟩, .flag "dry-run" none,
      .flag "no-history" none]),
    ("validate", [file, json]),
    ("matches", [file, branch]),
    ("list", [.flag "with-counts" none, json]),
    ("history", [.text "pipeline" (some 'p'), ⟨"limit", some 'l', .single, limitObjection⟩, json,
      .text "execution-id" none])]

def program : Grammar :=
  { options := [verbose, .help, .version], subcommands := subcommands.map (·.1) ++ ["help"] }

def ofSubcommand (options : List Opt) : Grammar :=
  { options := options ++ [verbose, .help], subcommands := [] }

/-- The environment variable that stands in for a missing branch of a run. -/
def branchVariable : String := "BRANCHLINE_BRANCH"

def defaultLimit : Nat := 10

/-! ### Requests from options -/

def requiredValue (g : Given) (o : Opt) : Except UsageError String :=
  match g.value? o.long with
  | some v => .ok v
  | none => .error .missingOption

def requestOf (env : ProcessEnv) (name : String) (g : Given) : Except UsageError Request :=
  match name with
  | "run" => do
    let f ← requiredValue g file
    .ok (.run
      { file := f
        branch := g.value? branch.long <|> env.get? branchVariable
        overrides := (g.valuesOf "var").filterMap fun v => (Override.parse v).toOption
        dryRun := g.has "dry-run"
        noHistory := g.has "no-history" })
  | "validate" => do
    let f ← requiredValue g file
    .ok (.validate f (g.has "json"))
  | "matches" => do
    let f ← requiredValue g file
    let b ← requiredValue g branch
    .ok (.triggers f b)
  | "list" => .ok (.list (g.has "with-counts") (g.has "json"))
  | _ =>
    .ok (.history
      { pipeline := g.value? "pipeline"
        limit := ((g.value? "limit").bind fun v => (limit v).toOption).getD defaultLimit
        json := g.has "json"
        executionId := g.value? "execution-id" })

def helpOn : List String → UsageError
  | [] => .helpWanted
  | name :: rest =>
    if program.subcommands.contains name && rest.isEmpty then .helpWanted else .unknownSubcommand

def parse (env : ProcessEnv) (args : List String) : Except UsageError Invocation := do
  let top ← program.read false .none args
  match top.subcommand with
  | none => .error (if top.given.values.isEmpty then .noArguments else .missingSubcommand)
  | some ("help", rest) => .error (helpOn rest)
  | some (name, rest) =>
    let options := ((subcommands.find? fun s => s.1 == name).map (·.2)).getD []
    let sub ← (ofSubcommand options).read false .none rest
    let request ← requestOf env name sub.given
    .ok { request, verbose := top.given.has verbose.long || sub.given.has verbose.long }

end PipelineRunner.CommandLine
