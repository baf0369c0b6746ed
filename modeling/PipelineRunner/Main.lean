import PipelineRunner.History.Json
import PipelineRunner.Session
import Std.Time.DateTime.Timestamp

/-!
# The program

Answers the command that its arguments give. The environment, the pipeline file and the saved runs
are those of the machine; the processes of a run are those of a host that has the pipeline file and
the installed programs.
-/

namespace PipelineRunner.Main

def environmentOf (entries : List String) : ProcessEnv :=
  Dict.ofList (entries.filterMap fun e => (Override.parse e).toOption)

def read? (path : String) : IO (Option String) := do
  try
    return some (← IO.FS.readFile path)
  catch _ =>
    return none

def environment : IO ProcessEnv := do
  let text := (← read? "/proc/self/environ").getD ""
  return environmentOf (text.splitOn "\x00")

def fileOf? : CommandLine.Request → Option String
  | .run r => some r.file
  | .validate file _ => some file
  | .triggers file _ => some file
  | .list .. | .history _ => none

def hostFor (env : ProcessEnv) (args : List String) : IO Host.Files := do
  match (CommandLine.parse env args).toOption.bind fun i => fileOf? i.request with
  | none => return Host.Files.ofList []
  | some path => return Host.Files.ofList ((← read? path).toList.map fun text => (path, text))

def occasion : IO Occasion := do
  let now ← Std.Time.Timestamp.now
  let nanos := now.toNanosecondsSinceUnixEpoch.toInt
  let bytes ← IO.getRandomBytes 16
  let n := bytes.toList.foldl (fun n b => n * 256 + b.toNat) 0
  let second : Instant := ⟨nanos / Instant.nanosPerSecond, (nanos % Instant.nanosPerSecond).toNat⟩
  return { id := Uuid.random n, clock := fun _ => second }

def historyPath (env : ProcessEnv) : String := Session.historyDirectory env ++ "/executions.json"

def store (env : ProcessEnv) (old new : String) : IO Unit := do
  if old != new then
    IO.FS.createDirAll (Session.historyDirectory env)
    IO.FS.writeFile (historyPath env) new

def answer (args : List String) : IO UInt32 := do
  let env ← environment
  let files ← hostFor env args
  let saved := (← read? (historyPath env)).getD ""
  let summaries := (TableHistory.summariesOfText? saved).getD []
  let session := Session.resume env files summaries
  let (reply, after) := session.answer (← occasion) args
  store env session.history.toText after.history.toText
  IO.print reply.outputText
  IO.eprint reply.errorText
  return reply.code.toUInt32

end PipelineRunner.Main

def main (args : List String) : IO UInt32 := PipelineRunner.Main.answer args
