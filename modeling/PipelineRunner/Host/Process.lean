import PipelineRunner.Host.Shell
import PipelineRunner.Run

/-!
# Processes

Running commands as processes of a host, which get no input. `Host.invoker` replies to commands in
order, each on the files that the ones before left.
-/

namespace PipelineRunner.Host

structure Reply where
  result : Except InvokeError ProcessOutput
  files : Files

def scriptBound : Nat := 50000

def hasNull (s : String) : Bool := s.toList.any fun c => c.toNat == 0

def Command.hasNull (c : Command) : Bool :=
  Host.hasNull c.program || c.args.any Host.hasNull || c.workdir.any Host.hasNull ||
    c.env.entries.any fun e => Host.hasNull e.1 || Host.hasNull e.2

def startState (files : Files) (c : Command) : Shell :=
  { files, assigned := [], name := Octets.ofText c.program, args := [], status := 0
    functions := [], input := [], written := [(.output, []), (.errors, [])]
    targets := [(1, .output), (2, .errors)], captures := 0, elapsed := 0, strict := false
    careful := false, farewell := none, loops := 0, guarded := false }

def overdue (timeoutSecs : Option Nat) (ended : Except Control Unit) (s : Shell) : Option Nat :=
  timeoutSecs.filter fun secs => secs * 1000 ≤ s.elapsed || ended matches .error .endless

def runProgram (env : Dict String) (files : Files) (c : Command) : Reply :=
  let environment := env.entries.map fun e => (Octets.ofText e.1, Octets.ofText e.2)
  let words := (c.program :: c.args).map Octets.ofText
  let (ended, s) := (Shell.spawn scriptBound environment words).run.run (startState files c)
  let result := match overdue c.timeoutSecs ended s with
    | some secs => .error (.timeout secs)
    | none =>
      .ok
        { exitCode := if ended matches .error .killed then none else some s.status
          stdout := Octets.toText (s.content .output)
          stderr := Octets.toText (s.content .errors) }
  { result, files := { s.files with current := files.current } }

def launch (inherited : ProcessEnv) (files : Files) (c : Command) : Reply :=
  let refuse (e : SystemError) : Reply := ⟨.error (.launch c.program e.message), files⟩
  let env := c.environment inherited
  if Command.hasNull c then refuse .nullInCommand
  else
    let moved := match c.workdir with
      | some dir => files.enter dir
      | none => .ok files
    match moved with
    | .error e => refuse e
    | .ok there =>
      let path := ((env.get? "PATH").map Octets.ofText).getD Shell.defaultPath
      match Shell.findProgram there path (Octets.ofText c.program) with
      | .error e => refuse e
      | .ok _ =>
        let reply := runProgram env there c
        { reply with files := { reply.files with current := files.current } }

def filesAfter (inherited : ProcessEnv) (files : Files) (commands : List Command) : Files :=
  commands.foldl (fun f c => (launch inherited f c).files) files

/-- Replies to the last of some commands, each run on the files that the ones before left. -/
def invoker (inherited : ProcessEnv) (files : Files) : Invoker := fun commands =>
  match commands.getLast? with
  | none => .error (.launch "" SystemError.notFound.message)
  | some c => (launch inherited (filesAfter inherited files commands.dropLast) c).result

end PipelineRunner.Host
