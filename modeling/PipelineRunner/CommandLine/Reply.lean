import PipelineRunner.CommandLine.Options
import PipelineRunner.Config.Load
import PipelineRunner.Uuid

/-!
# Replies

What a command prints and the code it ends with. A request that fails as a whole is explained by an
error and the causes behind it (`explain`): a single cause is indented, several are numbered.
-/

namespace PipelineRunner.CommandLine

inductive Failure
  | unloadable (error : ConfigError)
  | noDirectory (path : String) (cause : Host.SystemError)
  | noHistory (path : String)
  | badExecutionId (error : UuidError)
  | noJson (error : Yaml.Value.KeyError)

def Failure.chain : Failure → List String
  | unloadable e => "Failed to load pipeline config" :: e.chain
  | noDirectory path cause => ["Failed to create " ++ path, cause.message]
  | noHistory path =>
    ["Failed to open database " ++ path,
      "error returned from database: (code: 14) unable to open database file"]
  | badExecutionId e => ["Invalid execution ID format", e.message]
  | noJson e => [e.message]

/-! ### Causes -/

/-- A text whose first line starts with `first` and whose other lines start with as many blanks. -/
def hanging (first text : String) : String :=
  let blanks := String.ofList (List.replicate first.length ' ')
  first ++ String.intercalate ("\n" ++ blanks) (text.splitOn "\n")

def causeNumber (n : Nat) : String :=
  let digits := toString n
  String.ofList (List.replicate (5 - digits.length) ' ') ++ digits ++ ": "

def numbered (n : Nat) : List String → List String
  | [] => []
  | cause :: rest => hanging (causeNumber n) cause :: numbered (n + 1) rest

def causeLines : List String → List String
  | [] => []
  | [cause] => ["", "Caused by:", hanging "    " cause]
  | causes => "" :: "Caused by:" :: numbered 0 causes

def explain : List String → List String
  | [] => []
  | e :: causes => ("Error: " ++ e) :: causeLines causes

/-! ### Replies -/

structure Reply where
  code : Nat
  output : List String
  errors : List String
  deriving DecidableEq, Repr

namespace Reply

def success : Nat := 0

def failure : Nat := 1

def misuse : Nat := 2

def codeOf (ok : Bool) : Nat := if ok then success else failure

def plain (ok : Bool) (output : List String) : Reply := ⟨codeOf ok, output, []⟩

def failed (output : List String) (e : Failure) : Reply := ⟨failure, output, explain e.chain⟩

def textOf (lines : List String) : String := String.join (lines.map fun l => l ++ "\n")

def outputText (r : Reply) : String := textOf r.output

def errorText (r : Reply) : String := textOf r.errors

end Reply

def versionLine : String := "branchline 0.1.0"

/-- The reply to arguments that make no request. Whoever asked for help or the version gets it and
no error. -/
def UsageError.reply : UsageError → Reply
  | versionWanted => ⟨Reply.success, [versionLine], []⟩
  | helpWanted => ⟨Reply.success, [], []⟩
  | _ => ⟨Reply.misuse, [], []⟩

end PipelineRunner.CommandLine
