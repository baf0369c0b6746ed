import PipelineRunner.CommandLine.Reply
import PipelineRunner.CommandLine.Request
import PipelineRunner.Config.Json
import PipelineRunner.History.Tables
import PipelineRunner.Json.Text
import PipelineRunner.Report.History

/-!
# Commands that start no process

What a command finds on the host, and the answers that need no more than to look at it: a pipeline
file is checked, a run is rehearsed, the history is shown. The history is kept in a file below the
data directory; a command that needs it makes that file if it is missing.
-/

namespace PipelineRunner

open CommandLine (Failure Reply)

structure Session where
  env : ProcessEnv
  files : Host.Files
  history : TableHistory

namespace Session

def fresh (env : ProcessEnv) (files : Host.Files) : Session := ⟨env, files, .empty⟩

/-! ### The terminal -/

/-- The terminal that an environment describes: styles have to be forced, and emoji need a language
with the encoding UTF-8. -/
def terminalOf (env : ProcessEnv) : Terminal :=
  { styled := (env.get? "CLICOLOR_FORCE").any (· != "0")
    emoji := (env.get? "LANG").any fun l =>
      "UTF-8".toList.isSuffixOf (l.toList.map Char.toUpper) }

def terminal (s : Session) : Terminal := terminalOf s.env

/-! ### The place of the history -/

def dataDirectory (env : ProcessEnv) : String :=
  match (env.get? "XDG_DATA_HOME").filter (·.startsWith "/"), env.get? "HOME" with
  | some path, _ => path
  | none, some home => home ++ "/.local/share"
  | none, none => "."

def historyDirectory (env : ProcessEnv) : String := dataDirectory env ++ "/branchline"

def historyFile (env : ProcessEnv) : String := historyDirectory env ++ "/executions.db"

/-- Makes the file of the history if it is missing; a new one is empty. -/
def openHistory (s : Session) : Except Failure Session :=
  let path := historyFile s.env
  match s.files.makeDirectories (historyDirectory s.env) with
  | .error e => .error (.noDirectory (historyDirectory s.env) e)
  | .ok files =>
    match files.locate path with
    | .error _ => .error (.noHistory path)
    | .ok l =>
      match files.at? l with
      | some .directory => .error (.noHistory path)
      | some _ => .ok { s with files }
      | none => .ok { s with files := files.write l "", history := .empty }

def save (s : Session) (summary : Summary) : Option Session :=
  match s.openHistory with
  | .error _ => none
  | .ok opened =>
    match opened.history.save summary with
    | .error _ => none
    | .ok history => some { opened with history }

/-- A host with a history of saved summaries; those that cannot be saved are left out. -/
def resume (env : ProcessEnv) (files : Host.Files) (summaries : List Summary) : Session :=
  summaries.foldl (fun s x => (s.save x).getD s) (fresh env files)

/-! ### Pipelines -/

def load (s : Session) (file : String) : Except Failure Pipeline :=
  match PipelineConfig.ofFile s.files file with
  | .ok c => .ok c.toPipeline
  | .error e => .error (.unloadable e)

def answerValidate (s : Session) (file : String) (json : Bool) : Reply :=
  let start := Report.marked s.terminal .info "Validating pipeline..."
  match PipelineConfig.ofFile s.files file with
  | .error e => .plain false (start :: Report.refused s.terminal e)
  | .ok c =>
    let verdict := start :: Report.accepted s.terminal c
    if json then
      match c.toJson with
      | .ok j => .plain true (verdict ++ ["", j.toText])
      | .error e => .failed verdict (.noJson e)
    else .plain true verdict

def answerTriggers (s : Session) (file branch : String) : Reply :=
  match s.load file with
  | .error e => .failed [] e
  | .ok p =>
    let yes := p.isTriggeredBy ⟨some branch⟩
    .plain yes (Report.triggered s.terminal p branch yes)

def rehearse (t : Terminal) (p : Pipeline) (event : TriggerEvent) (context : Context) :
    Bool × List String :=
  if p.isTriggeredBy event then
    let steps := Binding.plan p context
    (steps.all fun x => x.bound.isOk, Report.plan t context steps)
  else (true, [Report.wouldNotRun t p event])

/-! ### History -/

def answerList (s : Session) (withCounts json : Bool) : Reply :=
  if json then .plain true [(Report.pipelinesJson s.history).sorted.toText]
  else .plain true (Report.pipelines s.terminal s.history withCounts)

def answerDetails (s : Session) (id : String) (json : Bool) : Reply :=
  match Uuid.parse id with
  | .error e => .failed [] (.badExecutionId e)
  | .ok id =>
    match s.history.load id with
    | none => .plain false [Report.notFound s.terminal]
    | some summary =>
      .plain true (if json then [summary.toJson.toText] else Report.details s.terminal summary)

def answerHistory (s : Session) (r : CommandLine.HistoryRequest) : Reply :=
  match r.executionId with
  | some id => s.answerDetails id r.json
  | none =>
    let summaries := HistoryStore.recent s.history r.pipeline r.limit
    .plain true
      (if r.json then [(Report.runsJson summaries).sorted.toText]
        else Report.runs s.terminal summaries)

def withHistory (s : Session) (f : Session → Reply) : Reply × Session :=
  match s.openHistory with
  | .error e => (.failed [] e, s)
  | .ok opened => (f opened, opened)

end Session

end PipelineRunner
