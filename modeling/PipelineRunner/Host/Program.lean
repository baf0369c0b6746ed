import PipelineRunner.Host.Program.Condition
import PipelineRunner.Host.Program.Format
import PipelineRunner.Host.Program.Lines
import PipelineRunner.Host.Program.Tree

/-!
# The programs of a host

What each installed program does, apart from those that run other programs.
-/

namespace PipelineRunner.Host.Program

def pause? (s : Octets) : Option Nat :=
  let (digits, unit) := match s.reverse with
    | 's' :: r => (r.reverse, 1)
    | 'm' :: r => (r.reverse, 60)
    | 'h' :: r => (r.reverse, 3600)
    | 'd' :: r => (r.reverse, 86400)
    | _ => (s, 1)
  match digits.splitOn '.' with
  | [whole] => (Octets.toNat? whole).map fun n => n * unit * 1000
  | [whole, fraction] =>
    let w := if whole.isEmpty then some 0 else Octets.toNat? whole
    let padded := (fraction ++ ['0', '0', '0']).take 3
    match w, Octets.toNat? padded with
    | some n, some f => some ((n * 1000 + f) * unit)
    | _, _ => none
  | _ => none

def sleep (t : Task) : Finish :=
  match t.args with
  | [] => .misused t "missing operand"
  | args =>
    match args.find? fun a => (pause? a).isNone with
    | some a => .misused t ("invalid time interval '" ++ Octets.toText a ++ "'")
    | none => { Finish.silent t 0 with elapsed := (args.filterMap pause?).foldl (· + ·) 0 }

def environment (env : List (Octets × Octets)) : Octets :=
  Octets.ofLines (env.map fun e => e.1 ++ '=' :: e.2)

def printenv (t : Task) : Finish :=
  if t.args.isEmpty then .printed t (environment t.env)
  else
    let values := t.args.map fun n => (t.env.find? fun e => e.1 == n).map (·.2)
    let found := Octets.ofLines (values.filterMap id)
    ⟨if values.all Option.isSome then 0 else 1, found, [], t.files, 0⟩

def table : List (String × (Task → Finish)) :=
  [("[", test), ("basename", basename), ("cat", cat), ("cp", cp), ("cut", cut),
    ("dirname", dirname), ("echo", fun t => .printed t (echo t.args)),
    ("false", fun t => .silent t 1), ("grep", grep), ("head", head), ("ls", ls), ("mkdir", mkdir),
    ("mv", mv), ("printenv", printenv), ("printf", printf), ("pwd", pwd), ("rev", rev), ("rm", rm),
    ("rmdir", rmdir), ("seq", seq), ("sleep", sleep), ("sort", sort), ("tac", tac), ("tail", tail),
    ("tee", tee), ("test", test), ("touch", touch), ("tr", tr), ("true", fun t => .silent t 0),
    ("uniq", uniq), ("wc", wc)]

def run? (t : Task) : Option Finish := (table.find? fun e => e.1 == t.name).map fun e => e.2 t

end PipelineRunner.Host.Program
