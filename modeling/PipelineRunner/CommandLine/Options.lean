/-!
# Options

Reading the arguments of a command: long options `--name value` or `--name=value`, short options
`-n value`, `-nvalue` or `-n=value`, and clusters of short flags. The value of an option is judged
only when the next option is stored or the arguments end, so that an unknown option is reported
before a bad value in front of it.
-/

namespace PipelineRunner.CommandLine

inductive Action
  | flag
  | single
  | repeated
  | help
  | version
  deriving DecidableEq, Repr

def Action.takesValue : Action → Bool
  | single | repeated => true
  | flag | help | version => false

structure Opt where
  long : String
  short : Option Char
  action : Action
  objection : String → Option String

namespace Opt

def flag (long : String) (short : Option Char) : Opt := ⟨long, short, .flag, fun _ => none⟩

def text (long : String) (short : Option Char) : Opt := ⟨long, short, .single, fun _ => none⟩

def help : Opt := ⟨"help", some 'h', .help, fun _ => none⟩

def version : Opt := ⟨"version", some 'V', .version, fun _ => none⟩

def describe (o : Opt) : String :=
  "--" ++ o.long ++ " <" ++ String.ofList (o.long.toList.map Char.toUpper) ++ ">"

end Opt

inductive UsageError
  | noArguments
  | helpWanted
  | versionWanted
  | missingSubcommand
  | unknownSubcommand
  | unknownArgument
  | missingOption
  | missingValue
  | unexpectedValue
  | repeatedOption
  | badValue (value : String) (option : Opt) (cause : String)

def UsageError.valueMessage? : UsageError → Option String
  | badValue v o cause =>
    some ("error: invalid value '" ++ v ++ "' for '" ++ o.describe ++ "': " ++ cause)
  | _ => none

inductive Pending
  | none
  | waiting (option : Opt)
  | held (option : Opt) (value : String)

structure Given where
  /-- Names and values in order; the value of a flag is empty. -/
  values : List (String × String)
  pending : Pending

namespace Given

def none : Given := ⟨[], .none⟩

def has (g : Given) (long : String) : Bool := g.values.any fun e => e.1 == long

def value? (g : Given) (long : String) : Option String :=
  (g.values.find? fun e => e.1 == long).map (·.2)

def valuesOf (g : Given) (long : String) : List String :=
  (g.values.filter fun e => e.1 == long).map (·.2)

def judge (g : Given) (o : Opt) (value : String) : Except UsageError Given :=
  match o.action with
  | .help => .error .helpWanted
  | .version => .error .versionWanted
  | action =>
    if action != .repeated && g.has o.long then .error .repeatedOption
    else
      match o.objection value with
      | some cause => .error (.badValue value o cause)
      | Option.none => .ok { g with values := g.values ++ [(o.long, value)] }

def settle (g : Given) : Except UsageError Given :=
  match g.pending with
  | .none => .ok g
  | .waiting _ => .error .missingValue
  | .held o v => judge { g with pending := .none } o v

def store (g : Given) (o : Opt) (value : String) : Except UsageError Given := do
  let g ← g.settle
  g.judge o value

def await (g : Given) (o : Opt) : Except UsageError Given := do
  let g ← g.settle
  .ok { g with pending := .waiting o }

def long (options : List Opt) (g : Given) (arg : List Char) : Except UsageError Given :=
  let name := String.ofList (arg.takeWhile (· ≠ '='))
  let rest := arg.dropWhile (· ≠ '=')
  match options.find? fun o => o.long == name with
  | Option.none => .error .unknownArgument
  | some o =>
    match rest with
    | [] => if o.action.takesValue then g.await o else g.store o ""
    | _ :: value =>
      if o.action.takesValue then g.store o (String.ofList value) else .error .unexpectedValue

def short (options : List Opt) (g : Given) : List Char → Except UsageError Given
  | [] => .ok g
  | c :: rest =>
    match options.find? fun o => o.short == some c with
    | Option.none => .error .unknownArgument
    | some o =>
      if o.action.takesValue then
        match rest with
        | [] => g.await o
        | '=' :: value => g.store o (String.ofList value)
        | value => g.store o (String.ofList value)
      else do
        let g ← g.store o ""
        short options g rest

end Given

structure Grammar where
  options : List Opt
  subcommands : List String

structure Reading where
  given : Given
  subcommand : Option (String × List String)

namespace Grammar

def misplaced (s : Grammar) (afterMark : Bool) (arg : String) : UsageError :=
  if s.subcommands.isEmpty || (afterMark && s.subcommands.contains arg) then .unknownArgument
  else .unknownSubcommand

/-- Reads arguments up to a subcommand or the end; after the mark `--` nothing is an option. -/
def read (s : Grammar) (afterMark : Bool) (g : Given) : List String → Except UsageError Reading
  | [] => do
    let g ← g.settle
    .ok ⟨g, none⟩
  | arg :: rest =>
    let expectsValue := match g.pending with
      | .waiting _ => true
      | _ => false
    if afterMark then .error (s.misplaced true arg)
    else if !expectsValue && s.subcommands.contains arg then do
      let g ← g.settle
      .ok ⟨g, some (arg, rest)⟩
    else
      match arg.toList with
      | ['-', '-'] => read s true g rest
      | '-' :: '-' :: name => do
        let g ← g.long s.options name
        read s false g rest
      | '-' :: c :: cs => do
        let g ← g.short s.options (c :: cs)
        read s false g rest
      | _ =>
        match g.pending with
        | .waiting o => read s false { g with pending := .held o arg } rest
        | _ => .error (s.misplaced false arg)

end Grammar

end PipelineRunner.CommandLine
