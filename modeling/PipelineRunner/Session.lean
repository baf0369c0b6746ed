import PipelineRunner.Host.Process
import PipelineRunner.Session.Queries

/-!
# Sessions

Commands given one after the other on the same host. `Session.answer` replies to one of them and
says what the next one finds: the files that its processes left, and the history.
-/

namespace PipelineRunner

open CommandLine (Reply Request)

structure Occasion where
  id : Uuid
  clock : Clock

namespace Session

/-! ### Runs -/

/-- Adds a finished run to the history. A history that cannot be written does not matter to the
run. -/
def keep (s : Session) (o : RunOutcome) : Session × List String :=
  let summary := Summary.ofOutcome o
  match s.save summary with
  | some after => (after, [Report.saved s.terminal summary.executionId])
  | none => (s, [])

def perform (s : Session) (occasion : Occasion) (p : Pipeline) (event : TriggerEvent)
    (context : Context) (noHistory : Bool) : Session × Bool × List String :=
  let t := s.terminal
  let rule := t.style .dim Report.rule
  let x := run (Host.invoker s.env s.files) occasion.clock occasion.id p event context
  let ran := { s with files := Host.filesAfter s.env s.files x.commands }
  let (after, kept) := if noHistory then (ran, []) else ran.keep x.outcome
  (after, x.outcome.state.status matches .completed | .notTriggered,
    rule :: x.events.map (Report.event t) ++ rule :: kept ++ Report.conclusion t x.outcome)

def answerRun (s : Session) (occasion : Occasion) (r : CommandLine.RunRequest) :
    Reply × Session :=
  match s.load r.file with
  | .error e => (.failed [] e, s)
  | .ok p =>
    let t := s.terminal
    let event : TriggerEvent := ⟨r.branch⟩
    let start := Report.loaded t p :: r.overrides.map fun e => Report.override t e.1 e.2
    let context := p.initialContext s.env event r.overrides
    if r.dryRun then
      let (ok, lines) := rehearse t p event context
      (.plain ok (start ++ lines), s)
    else
      let (after, ok, lines) := s.perform occasion p event context r.noHistory
      (.plain ok (start ++ lines), after)

/-! ### Requests -/

def answerRequest (s : Session) (occasion : Occasion) : Request → Reply × Session
  | .run r => s.answerRun occasion r
  | .validate file json => (s.answerValidate file json, s)
  | .triggers file branch => (s.answerTriggers file branch, s)
  | .list withCounts json => s.withHistory fun h => h.answerList withCounts json
  | .history r => s.withHistory fun h => h.answerHistory r

def answer (s : Session) (occasion : Occasion) (args : List String) : Reply × Session :=
  match CommandLine.parse s.env args with
  | .error e => (e.reply, s)
  | .ok invocation => s.answerRequest occasion invocation.request

end Session

end PipelineRunner
