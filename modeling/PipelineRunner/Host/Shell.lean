import PipelineRunner.Host.Program
import PipelineRunner.Host.Script.Arithmetic
import PipelineRunner.Host.Script.Pattern
import PipelineRunner.Host.Script.Reading

/-!
# The shell

Running scripts: words are expanded, redirections opened, and commands looked up among functions,
the shell's own commands and the installed programs. What ends a command early is an exception, so
the state of the shell survives it. The first argument of the running functions bounds their depth
and the number of loop rounds.
-/

namespace PipelineRunner.Host

inductive Sink
  | output
  | errors
  | capture (id : Nat)
  | file (l : Location)
  deriving DecidableEq, Repr

structure Shell where
  files : Files
  /-- Names, values, and whether programs see them, the oldest first. -/
  assigned : List (Octets × Octets × Bool)
  name : Octets
  args : List Octets
  status : Nat
  functions : List (Octets × Script)
  input : Octets
  /-- What was written, in reverse. -/
  written : List (Sink × Octets)
  targets : List (Nat × Sink)
  captures : Nat
  /-- How long the shell has waited, in milliseconds. -/
  elapsed : Nat
  /-- Whether a failing command ends the script. -/
  strict : Bool
  /-- Whether using a variable that is not set ends the script. -/
  careful : Bool
  farewell : Option Octets
  loops : Nat
  /-- Whether the command under way is a condition. -/
  guarded : Bool

inductive Control
  | exit
  | killed
  | leave (levels : Nat)
  | again (levels : Nat)
  | giveBack
  /-- The bound on depth and rounds is used up. -/
  | endless
  deriving DecidableEq, Repr

abbrev Act := ExceptT Control (StateM Shell)

namespace Shell

def ownId : Octets := Octets.ofNat 4242

/-! ### Variables -/

def lookup? (s : Shell) (name : Octets) : Option Octets :=
  (s.assigned.find? fun v => v.1 == name).map fun v => v.2.1

/-- Sets a variable; programs see it if they did before, or if `shown`. -/
def setVariable (s : Shell) (name value : Octets) (shown : Bool) : Shell :=
  if s.assigned.any fun v => v.1 == name then
    { s with
      assigned := s.assigned.map fun v =>
        if v.1 == name then (name, value, shown || v.2.2) else v }
  else { s with assigned := s.assigned ++ [(name, value, shown)] }

/-- Where a name stands in the order of the environment: the shell keeps its variables in 39 rows,
and a name's first character counts sixteen times more than the others for the choice of the row. -/
def row (name : Octets) : Nat :=
  (name.foldl (fun n c => n + c.toNat) (16 * ((name.head?.map Char.toNat).getD 0))) % 39

def environment (s : Shell) : List (Octets × Octets) :=
  ((s.assigned.filter fun v => v.2.2).map fun v => (v.1, v.2.1)).mergeSort
    fun a b => row a.1 ≤ row b.1

def pathOf (l : Location) : Octets := Octets.ofText ("/" ++ String.intercalate "/" l)

def parameter? (s : Shell) (name : Octets) : Option Octets :=
  match name with
  | ['#'] => some (Octets.ofNat s.args.length)
  | ['?'] => some (Octets.ofNat s.status)
  | ['$'] => some ownId
  | ['!'] => none
  | ['-'] => some []
  | ['0'] => some s.name
  | ['@'] => if s.args.isEmpty then none else some (Octets.join [' '] s.args)
  | ['*'] => if s.args.isEmpty then none else some (Octets.join [' '] s.args)
  | _ =>
    match Octets.toNat? name with
    | some n => s.args[n - 1]?
    | none => s.lookup? name

def settle (s : Shell) (files : Files) : Shell :=
  { s with files }.setVariable "PWD".toList (pathOf files.current) true

/-! ### Output -/

def write (s : Shell) (sink : Sink) (text : Octets) : Shell :=
  match sink with
  | .file l =>
    if l == ["dev", "null"] then s
    else
      let old := match s.files.at? l with
        | some (.file t) => t
        | _ => ""
      { s with files := s.files.write l (old ++ Octets.toText text) }
  | sink =>
    { s with
      written := s.written.map fun w => if w.1 == sink then (w.1, text.reverse ++ w.2) else w }

def emit (fd : Nat) (text : Octets) : Act Unit :=
  modify fun s =>
    match s.targets.find? fun t => t.1 == fd with
    | some (_, sink) => s.write sink text
    | none => s

def content (s : Shell) (sink : Sink) : Octets :=
  (((s.written.find? fun w => w.1 == sink).map (·.2)).getD []).reverse

def finish (status : Nat) : Act Unit := modify fun s => { s with status := status % 256 }

def complain (status : Nat) (message : Octets) : Act Unit := do
  emit 2 ((← get).name ++ Octets.ofText ": 1: " ++ message ++ ['\n'])
  finish status

/-! ### Isolation -/

def isolated (body : Act Unit) : Act Unit := do
  let before ← get
  set { before with farewell := none }
  let ended ← tryCatch (do body; pure none) fun c => pure (some c)
  modify fun s =>
    { before with
      files := { s.files with current := before.files.current }
      written := s.written, captures := s.captures, elapsed := s.elapsed, status := s.status }
  match ended with
  | some .killed => throw .killed
  | some .endless => throw .endless
  | _ => pure ()

def captured (body : Act Unit) : Act Octets := do
  let before ← get
  let sink := Sink.capture before.captures
  set
    { before with
      captures := before.captures + 1
      written := (sink, []) :: before.written
      targets := (1, sink) :: before.targets.filter fun t => t.1 != 1 }
  isolated body
  let s ← get
  set
    { s with
      targets := before.targets
      written := s.written.filter fun w => w.1 != sink }
  pure (s.content sink)

/-! ### Fields -/

inductive Piece
  | solid (s : Octets)
  | bare (s : Octets)
  /-- An unquoted expansion, which is split at blanks. -/
  | loose (s : Octets)
  | cut

/-- Splits loose text into fields; the first argument is the field under way. -/
def splitLoose (current : Option Script.Marked) : Octets → List Script.Marked × Option Script.Marked
  | [] => ([], current)
  | c :: r =>
    if c == ' ' || c == '\t' || c == '\n' then
      let (fields, last) := splitLoose none r
      (current.toList ++ fields, last)
    else splitLoose (some (current.getD [] ++ [(c, false)])) r

def fields : Option Script.Marked → List Piece → List Script.Marked
  | current, [] => current.toList
  | current, .solid s :: r => fields (some (current.getD [] ++ Script.Marked.quoted s)) r
  | current, .bare s :: r => fields (some (current.getD [] ++ Script.Marked.bare s)) r
  | current, .loose s :: r =>
    let (done, last) := splitLoose current s
    done ++ fields last r
  | current, .cut :: r => current.toList ++ fields none r

def joined (ps : List Piece) : Script.Marked :=
  ps.flatMap fun
    | .solid s => Script.Marked.quoted s
    | .bare s => Script.Marked.bare s
    | .loose s => Script.Marked.bare s
    | .cut => [(' ', true)]

/-- The names in a directory that fit a field; the field itself if there are none. -/
def globbed (files : Files) (field : Script.Marked) : List Octets :=
  if !Script.isPattern field then [field.text]
  else
    let last := (field.reverse.takeWhile fun c => c.1 != '/').reverse
    let folder := field.take (field.length - last.length)
    if Script.isPattern folder then [field.text]
    else
      let here := if folder.isEmpty then ['.'] else Script.Marked.text folder
      match files.locate (Octets.toText here) with
      | .error _ => [field.text]
      | .ok l =>
        let names := ((files.names l).map Octets.ofText).filter fun n =>
          Script.fits (Script.pattern 0 last) n &&
            (n.head? != some '.' || (last.head?.map (·.1)) == some '.')
        if names.isEmpty then [field.text] else names.map fun n => Script.Marked.text folder ++ n

def valuePieces (quoted : Bool) (s : Octets) : List Piece :=
  [if quoted then .solid s else .loose s]

def argumentPieces (quoted : Bool) (args : List Octets) : List Piece :=
  (List.intersperse [.cut] (args.map (valuePieces quoted))).flatten

def dropLineEnds (s : Octets) : Octets := (s.reverse.dropWhile (· == '\n')).reverse

/-! ### Finding programs -/

def defaultPath : Octets := "/bin:/usr/bin".toList

def programAt (files : Files) (path : Octets) : Except SystemError String :=
  match files.look (Octets.toText path) with
  | .ok (.program n) => .ok n
  | .ok _ => .error .denied
  | .error e => .error e

def candidates (path name : Octets) : List Octets :=
  if name.isEmpty then []
  else if name.contains '/' then [name]
  else (path.splitOn ':').map fun d => (if d.isEmpty then ['.'] else d) ++ '/' :: name

def findProgram (files : Files) (path name : Octets) : Except SystemError String :=
  let tried := (candidates path name).map (programAt files)
  match tried.find? fun r => r.isOk with
  | some r => r
  | none =>
    match tried with
    | [.error e] => .error e
    | _ => .error (if tried.any fun r => r matches .error .denied then .denied else .notFound)

/-! ### The shell's own commands -/

def readsInput (name : String) (args : List Octets) : Bool :=
  let names := (Program.operands args).2
  if ["tee", "tr", "cut"].contains name then true
  else if name == "grep" then (names.drop 1).all (· == ['-'])
  else
    ["cat", "head", "rev", "sort", "tac", "tail", "uniq", "wc"].contains name &&
      names.all (· == ['-'])

def perform (t : Task) : Act Unit :=
  match Program.run? t with
  | none => finish 127
  | some f => do
    modify fun s =>
      { s with
        files := f.files
        elapsed := s.elapsed + f.elapsed
        input := if readsInput t.name t.args then [] else s.input }
    emit 1 f.output
    emit 2 f.errors
    finish f.status

/-- Runs a command of the shell's own that is also a program; its messages name the shell. -/
def performOwn (name : String) (args : List Octets) : Act Unit := do
  let s ← get
  match Program.run? ⟨name, args, s.input, s.environment, s.files⟩ with
  | none => finish 127
  | some f =>
    emit 1 f.output
    (Octets.lines f.errors).forM (complain f.status)
    finish f.status

def harmless : List String := ["0", "17", "18", "23", "28", "CHLD", "CONT", "URG", "WINCH"]

def kill (args : List Octets) : Act Unit :=
  let (signal, ids) := match args with
    | ['-', 's'] :: n :: r => (Octets.toText n, r)
    | ['-', 'n'] :: n :: r => (Octets.toText n, r)
    | ('-' :: n) :: r => (Octets.toText n, r)
    | r => ("TERM", r)
  let signal := if signal.startsWith "SIG" then (signal.drop 3).toString else signal
  if ids.any (· == ownId) then
    if harmless.contains signal then finish 0 else throw .killed
  else complain 1 (Octets.ofText "kill: No such process")

def declare (shown : Bool) (args : List Octets) : Act Unit := do
  args.forM fun a =>
    modify fun s =>
      let name := a.takeWhile (· != '=')
      match a.dropWhile (· != '=') with
      | [] =>
        match s.lookup? name with
        | some v => s.setVariable name v shown
        | none => s
      | _ :: value => s.setVariable name value shown
  finish 0

/-- Assigns the words of a line to names; the last name takes the rest of the line. -/
def assignWords : List Octets → Octets → Shell → Shell
  | [], _, s => s
  | [n], line, s =>
    let text := (line.reverse.dropWhile fun c => c == ' ' || c == '\t').reverse
    s.setVariable n (text.dropWhile fun c => c == ' ' || c == '\t') false
  | n :: rest, line, s =>
    let line := line.dropWhile fun c => c == ' ' || c == '\t'
    let isBlank (c : Char) : Bool := c == ' ' || c == '\t'
    assignWords rest (line.dropWhile fun c => !isBlank c)
      (s.setVariable n (line.takeWhile fun c => !isBlank c) false)

def readLine (args : List Octets) : Act Unit := do
  let names := args.filter fun a => a.head? != some '-'
  let s ← get
  let line := s.input.takeWhile (· != '\n')
  let rest := s.input.dropWhile (· != '\n')
  set (assignWords names line { s with input := rest.drop 1 })
  finish (if rest.isEmpty then 1 else 0)

def changeDirectory (args : List Octets) : Act Unit := do
  let s ← get
  let goal := match args with
    | [] => (s.lookup? "HOME".toList).getD []
    | ['-'] :: _ => (s.lookup? "OLDPWD".toList).getD (pathOf s.files.current)
    | a :: _ => a
  if goal.isEmpty then finish 0
  else
    match s.files.enter (Octets.toText goal) with
    | .ok files =>
      set ((s.setVariable "OLDPWD".toList (pathOf s.files.current) true).settle files)
      if args.head? == some ['-'] then emit 1 (pathOf files.current ++ ['\n'])
      finish 0
    | .error _ => complain 2 (Octets.ofText "cd: can't cd to " ++ goal)

def turn (on : Bool) (letters : Octets) (s : Shell) : Shell :=
  { s with
    strict := if letters.contains 'e' then on else s.strict
    careful := if letters.contains 'u' then on else s.careful }

def setOptions : List Octets → Act Unit
  | [] => finish 0
  | ['-', '-'] :: rest => do
    modify fun s => { s with args := rest }
    finish 0
  | ['-', 'o'] :: name :: rest => do
    modify (turn true (name.take 1))
    setOptions rest
  | ('-' :: letters) :: rest => do
    modify (turn true letters)
    setOptions rest
  | ('+' :: letters) :: rest => do
    modify (turn false letters)
    setOptions rest
  | args => do
    modify fun s => { s with args }
    finish 0

def countOr (command : String) (standard : Nat) (args : List Octets) : Act Nat :=
  match args with
  | [] => pure standard
  | a :: _ =>
    match (Octets.toNat? a).filter (· ≤ 2147483647) with
    | some n => pure n
    | none => do
      complain 2 (Octets.ofText (command ++ ": Illegal number: ") ++ a)
      throw .exit

/-- Leaves loops by a way that gets the number of further loops to leave; outside loops nothing
happens. -/
def leaveLoops (command : String) (args : List Octets) (way : Nat → Control) : Act Unit := do
  let n ← countOr command 1 args
  let loops := (← get).loops
  finish 0
  if 0 < loops then throw (way (min n loops - 1))

def shiftArgs (args : List Octets) : Act Unit := do
  let n ← countOr "shift" 1 args
  let s ← get
  if s.args.length < n then
    complain 2 (Octets.ofText "shift: can't shift that many")
    throw .exit
  set { s with args := s.args.drop n }
  finish 0

/-- The command `trap`: a script for the end; those for signals never run. -/
def setTrap (args : List Octets) : Act Unit := do
  match args with
  | [] => pure ()
  | action :: signals =>
    if signals.any fun n => n == ['0'] || n == "EXIT".toList then
      modify fun s => { s with farewell := if action == ['-'] then none else some action }
  finish 0

def ownCommand? (name : String) (args : List Octets) : Option (Act Unit) :=
  match name with
  | ":" => some (finish 0)
  | "true" => some (finish 0)
  | "false" => some (finish 1)
  | "echo" => some do
    emit 1 (Program.shellEcho args)
    finish 0
  | "printf" => some (performOwn name args)
  | "test" => some (performOwn name args)
  | "[" => some (performOwn name args)
  | "pwd" => some (performOwn name args)
  | "kill" => some (kill args)
  | "export" => some (declare true args)
  | "readonly" => some (declare false args)
  | "local" => some (declare false args)
  | "unset" => some do
    modify fun s => { s with assigned := s.assigned.filter fun v => !args.contains v.1 }
    finish 0
  | "read" => some (readLine args)
  | "cd" => some (changeDirectory args)
  | "set" => some (setOptions args)
  | "shift" => some (shiftArgs args)
  | "exit" => some do
    finish (← countOr name (← get).status args)
    throw .exit
  | "return" => some do
    finish (← countOr name (← get).status args)
    throw .giveBack
  | "break" => some (leaveLoops name args .leave)
  | "continue" => some (leaveLoops name args .again)
  | "trap" => some (setTrap args)
  | "umask" => some do
    if args.isEmpty then emit 1 (Octets.ofText "0022\n")
    finish 0
  | "wait" => some (finish 0)
  | _ => none

def tellCommands (names : List Octets) : Act Unit := do
  let s ← get
  let path := (s.lookup? "PATH".toList).getD defaultPath
  let place? (name : Octets) : Option Octets :=
    if s.functions.any fun f => f.1 == name then some name
    else if (ownCommand? (Octets.toText name) []).isSome then some name
    else (candidates path name).find? fun p => (programAt s.files p).isOk
  let found := names.filterMap place?
  emit 1 (Octets.ofLines found)
  finish (if found.length == names.length then 0 else 127)

/-! ### Redirections -/

def redirect (fd : Nat) (kind : RedirectKind) (target : Octets) : Act Bool := do
  let s ← get
  let point (sink : Sink) (s : Shell) : Shell :=
    { s with targets := (fd, sink) :: s.targets.filter fun t => t.1 != fd }
  match kind with
  | .duplicate =>
    match (Octets.toNat? target).bind fun n => s.targets.find? fun t => t.1 == n with
    | some (_, sink) => set (point sink s)
    | none => set { s with targets := s.targets.filter fun t => t.1 != fd }
    pure true
  | .input =>
    match s.files.readText (Octets.toText target) with
    | .ok text =>
      set { s with input := Octets.ofText text }
      pure true
    | .error _ =>
      complain 2 (Octets.ofText "cannot open " ++ target ++ Octets.ofText ": No such file")
      pure false
  | kind =>
    match s.files.locate (Octets.toText target) with
    | .ok l =>
      if s.files.at? l == some .directory then
        complain 2 (Octets.ofText "cannot create " ++ target ++ Octets.ofText ": Is a directory")
        pure false
      else if s.files.at? l.dropLast != some .directory then
        complain 2
          (Octets.ofText "cannot create " ++ target ++ Octets.ofText ": Directory nonexistent")
        pure false
      else
        let fresh := kind == .output && l != ["dev", "null"]
        let files := if fresh || (s.files.at? l).isNone then s.files.write l "" else s.files
        set (point (.file l) { s with files })
        pure true
    | .error _ =>
      complain 2
        (Octets.ofText "cannot create " ++ target ++ Octets.ofText ": Directory nonexistent")
      pure false

/-! ### Running -/

def usePieces (quoted : Bool) (name : Octets) (use : ParameterUse) (other : Act (List Piece)) :
    Act (List Piece) := do
  let s ← get
  let value := s.parameter? name
  let isSet (orEmpty : Bool) : Bool := value.any fun v => !(orEmpty && v.isEmpty)
  let plain := match use with
    | .value => true
    | .length => true
    | .trim .. => true
    | _ => false
  if s.careful && plain && value.isNone && name != ['@'] && name != ['*'] then
    complain 2 (name ++ Octets.ofText ": parameter not set")
    throw .exit
  match use with
  | .value =>
    if name == ['@'] then pure (argumentPieces quoted s.args)
    else if name == ['*'] && !quoted then pure (argumentPieces false s.args)
    else pure (valuePieces quoted (value.getD []))
  | .length => pure (valuePieces quoted (Octets.ofNat (value.getD []).length))
  | .fallback orEmpty =>
    if isSet orEmpty then pure (valuePieces quoted (value.getD [])) else other
  | .replace orEmpty => if isSet orEmpty then other else pure (valuePieces quoted [])
  | .assign orEmpty =>
    if isSet orEmpty then pure (valuePieces quoted (value.getD []))
    else do
      let v := Script.Marked.text (joined (← other))
      modify fun s => s.setVariable name v false
      pure (valuePieces quoted v)
  | .insist orEmpty =>
    if isSet orEmpty then pure (valuePieces quoted (value.getD []))
    else do
      let v := Script.Marked.text (joined (← other))
      let message := if v.isEmpty then Octets.ofText "parameter not set" else v
      complain 2 (name ++ Octets.ofText ": " ++ message)
      throw .exit
  | .trim atEnd longest => do
    let p := Script.pattern 0 (joined (← other))
    pure (valuePieces quoted (Script.trimFit atEnd longest p (value.getD [])))

def checkStrict : Act Unit := do
  let s ← get
  if s.strict && !s.guarded && s.status != 0 then throw .exit

def asCondition (body : Act Unit) : Act Unit := do
  let before := (← get).guarded
  modify fun s => { s with guarded := true }
  body
  modify fun s => { s with guarded := before }

def withTargets (body : Act Unit) : Act Unit := do
  let before ← get
  let restore : Act Unit := modify fun s => { s with targets := before.targets }
  tryCatch body fun c => do
    restore
    throw c
  restore

def inLoop (body : Act Unit) : Act Unit := do
  let before := (← get).loops
  let restore : Act Unit := modify fun s => { s with loops := before }
  modify fun s => { s with loops := before + 1 }
  tryCatch body fun c => do
    restore
    throw c
  restore

mutual

def expandPart : Nat → Part → Act (List Piece)
  | 0, _ => throw .endless
  | fuel + 1, p =>
    match p with
    | .text true s => pure [.solid s]
    | .text false s => pure [.bare s]
    | .parameter quoted name use arg => usePieces quoted name use (expandWord fuel arg)
    | .output quoted script => do
      let out ← captured (runText fuel script)
      pure (valuePieces quoted (dropLineEnds out))
    | .arithmetic quoted e => do
      let text := Script.Marked.text (joined (← expandWord fuel e))
      let s ← get
      match Script.evaluate? (fun n => (s.parameter? n).getD []) text with
      | some n => pure (valuePieces quoted (Octets.ofInt n))
      | none => do
        complain 2 (Octets.ofText "arithmetic expression: expecting primary: \"" ++ text ++ ['"'])
        throw .exit

def expandWord : Nat → Word → Act (List Piece)
  | 0, _ => throw .endless
  | fuel + 1, w => do
    let ps ← w.mapM (expandPart fuel)
    pure ps.flatten

def expandText : Nat → Word → Act Octets
  | 0, _ => throw .endless
  | fuel + 1, w => do
    let ps ← expandWord fuel w
    pure (Script.Marked.text (joined ps))

def expandFields : Nat → List Word → Act (List Octets)
  | 0, _ => throw .endless
  | fuel + 1, ws => do
    let fs ← ws.mapM fun w => do
      let ps ← expandWord fuel w
      pure (fields none ps)
    let s ← get
    pure (fs.flatten.flatMap (globbed s.files))

def openAll : Nat → List Redirect → Act Bool
  | 0, _ => throw .endless
  | _ + 1, [] => pure true
  | fuel + 1, d :: rest => do
    let target ← expandText fuel d.target
    if ← redirect d.descriptor d.kind target then openAll fuel rest else pure false

def spawn : Nat → List (Octets × Octets) → List Octets → Act Unit
  | 0, _, _ => throw .endless
  | _ + 1, _, [] => finish 0
  | fuel + 1, env, name :: args => do
    let s ← get
    let path := ((env.find? fun e => e.1 == "PATH".toList).map (·.2)).getD defaultPath
    match findProgram s.files path name with
    | .error .denied => complain 126 (name ++ Octets.ofText ": Permission denied")
    | .error _ => complain 127 (name ++ Octets.ofText ": not found")
    | .ok "sh" => isolated (runShell fuel env name args)
    | .ok "env" =>
      let given := args.takeWhile fun a => a.contains '='
      let pairs := given.map fun a => (a.takeWhile (· != '='), (a.dropWhile (· != '=')).drop 1)
      let env := (env.filter fun e => !pairs.any fun p => p.1 == e.1) ++ pairs
      let rest := args.drop given.length
      if rest.isEmpty then do
        emit 1 (Program.environment env)
        finish 0
      else spawn fuel env rest
    | .ok program => perform ⟨program, args, s.input, env, s.files⟩

def runShell : Nat → List (Octets × Octets) → Octets → List Octets → Act Unit
  | 0, _, _, _ => throw .endless
  | fuel + 1, env, name, args => do
    let options := args.takeWhile fun a => a.head? == some '-' && 1 < a.length
    let letters := options.flatMap (List.drop 1)
    let rest := args.drop options.length
    modify fun s =>
      { s with
        assigned := env.map fun e => (e.1, e.2, true)
        name, args := [], functions := [], status := 0, strict := letters.contains 'e'
        careful := letters.contains 'u', guarded := false, farewell := none, loops := 0 }
    modify fun s => s.settle s.files
    if letters.contains 'c' then
      match rest with
      | [] => complain 2 (Octets.ofText "-c requires an argument")
      | text :: rest =>
        modify fun s => { s with name := rest.headD name, args := rest.drop 1 }
        runWhole fuel text
    else
      match rest with
      | [] => do
        let s ← get
        set { s with input := [] }
        runWhole fuel s.input
      | file :: rest => do
        modify fun s => { s with name := file, args := rest }
        match (← get).files.readText (Octets.toText file) with
        | .ok text => runWhole fuel (Octets.ofText text)
        | .error _ =>
          emit 2
            (name ++ Octets.ofText ": 0: cannot open " ++ file ++ Octets.ofText ": No such file\n")
          finish 2

/-- Runs the text of a script, and what it left for its end; that one sees and keeps the status. -/
def runWhole : Nat → Octets → Act Unit
  | 0, _ => throw .endless
  | fuel + 1, text => do
    let ended ← tryCatch (do runText fuel text; pure none) fun c => pure (some c)
    match ended with
    | some .killed => throw .killed
    | some .endless => throw .endless
    | _ => pure ()
    let s ← get
    match s.farewell with
    | none => pure ()
    | some last => do
      set { s with farewell := none }
      runText fuel last
      finish s.status

def runText : Nat → Octets → Act Unit
  | 0, _ => throw .endless
  | fuel + 1, text =>
    match Script.ofText? text with
    | some script => run fuel script
    | none => do
      complain 2 (Octets.ofText "Syntax error")
      throw .exit

def invoke : Nat → List (Octets × Octets) → List Octets → Act Unit
  | 0, _, _ => throw .endless
  | _ + 1, assigned, [] => do
    assigned.forM fun a => modify fun s => s.setVariable a.1 a.2 false
  | fuel + 1, assigned, name :: args => do
    let s ← get
    match s.functions.find? fun f => f.1 == name with
    | some (_, body) =>
      modify fun s => { s with args, loops := 0 }
      tryCatch (run fuel body) fun
        | .giveBack => pure ()
        | c => throw c
      modify fun t => { t with args := s.args, loops := s.loops }
    | none =>
      match Octets.toText name with
      | "eval" => runText fuel (Octets.join [' '] args)
      | "exec" =>
        if args.isEmpty then finish 0
        else do
          invoke fuel assigned args
          throw .exit
      | "command" =>
        if args.head? == some ['-', 'v'] then tellCommands (args.drop 1)
        else invoke fuel assigned args
      | text =>
        match ownCommand? text args with
        | some act => act
        | none =>
          let told := assigned.foldl (fun s a => s.setVariable a.1 a.2 true) s
          spawn fuel told.environment (name :: args)

def runLoop : Nat → Bool → Script → Script → Act Unit
  | 0, _, _, _ => throw .endless
  | fuel + 1, untilTrue, condition, body => do
    asCondition (run fuel condition)
    if ((← get).status == 0) == untilTrue then finish 0
    else do
      let ended ← tryCatch (do run fuel body; pure none) fun c => pure (some c)
      match ended with
      | some (.leave (n + 1)) => throw (.leave n)
      | some (.leave 0) => finish 0
      | some (.again (n + 1)) => throw (.again n)
      | some (.again 0) => runLoop fuel untilTrue condition body
      | some c => throw c
      | none => runLoop fuel untilTrue condition body

def runEach : Nat → Octets → Script → List Octets → Act Unit
  | 0, _, _, _ => throw .endless
  | _ + 1, _, _, [] => pure ()
  | fuel + 1, name, body, v :: rest => do
    modify fun s => s.setVariable name v false
    let ended ← tryCatch (do run fuel body; pure none) fun c => pure (some c)
    match ended with
    | some (.leave (n + 1)) => throw (.leave n)
    | some (.leave 0) => finish 0
    | some (.again (n + 1)) => throw (.again n)
    | some (.again 0) => runEach fuel name body rest
    | some c => throw c
    | none => runEach fuel name body rest

def runBranch : Nat → Octets → List (List Word × Script) → Act Unit
  | 0, _, _ => throw .endless
  | _ + 1, _, [] => finish 0
  | fuel + 1, text, (patterns, body) :: rest => do
    let ps ← patterns.mapM fun w => do
      let pieces ← expandWord fuel w
      pure (Script.pattern 0 (joined pieces))
    if ps.any fun p => Script.fits p text then run fuel body else runBranch fuel text rest

def run : Nat → Script → Act Unit
  | 0, _ => throw .endless
  | fuel + 1, script =>
    match script with
    | .nothing => pure ()
    | .simple assignments words redirects => do
      let fs ← expandFields fuel words
      let assigned ← assignments.mapM fun a => do
        let v ← expandText fuel a.2
        pure (a.1, v)
      let isAssignment := fs.isEmpty && assignments.all fun a => !a.2.any fun
        | .output .. => true
        | _ => false
      let before ← get
      withTargets do
        if ← openAll fuel redirects then
          if isAssignment then finish 0
          invoke fuel assigned fs
      if redirects.any fun d => d.kind == .input then
        modify fun s => { s with input := before.input }
      checkStrict
    | .sequence a b => do
      run fuel a
      run fuel b
    | .both a b => do
      asCondition (run fuel a)
      if (← get).status == 0 then run fuel b
    | .either a b => do
      asCondition (run fuel a)
      if (← get).status != 0 then run fuel b
    | .inverted a => do
      asCondition (run fuel a)
      finish (if (← get).status == 0 then 1 else 0)
    | .pipe a b => do
      let out ← captured (run fuel a)
      let before ← get
      isolated do
        modify fun s => { s with input := out }
        run fuel b
      modify fun s => { s with input := before.input }
      checkStrict
    | .conditional c yes no => do
      asCondition (run fuel c)
      if (← get).status == 0 then run fuel yes
      else do
        finish 0
        run fuel no
    | .loop untilTrue c body => inLoop (runLoop fuel untilTrue c body)
    | .each name words body => do
      let values ← match words with
        | some ws => expandFields fuel ws
        | none => do pure (← get).args
      inLoop (runEach fuel name body values)
    | .select w branches => do
      let text ← expandText fuel w
      runBranch fuel text branches
    | .group separate body redirects => do
      let before ← get
      withTargets do
        if ← openAll fuel redirects then
          if separate then isolated (run fuel body) else run fuel body
      if redirects.any fun d => d.kind == .input then
        modify fun s => { s with input := before.input }
    | .define name body => do
      modify fun s =>
        { s with functions := (name, body) :: s.functions.filter fun f => f.1 != name }
      finish 0

end

end Shell

end PipelineRunner.Host
