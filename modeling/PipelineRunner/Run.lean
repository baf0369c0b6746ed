import PipelineRunner.Binding
import PipelineRunner.RunLog

/-!
# Running pipelines

Steps run one after the other, each bound against the context that the captures of the earlier
ones left, and the first failure halts the run. Processes are run by an invoker: a function from
the commands invoked so far to the reply to the last of them. A process gets the runner's
environment without the withheld names, with the bound entries laid over it. `runStep` runs one
step, `runSteps` the rest of a pipeline, and `execute` and `run` a whole one.
-/

namespace PipelineRunner

/-! ### Processes -/

def Command.environment (c : Command) (inherited : ProcessEnv) : Dict String :=
  c.env.entries.foldl (fun d e => d.insert e.1 e.2)
    (c.withheldEnv.keys.foldl (fun d n => d.erase n) inherited)

inductive InvokeError
  | launch (program : String) (cause : String)
  | timeout (secs : Nat)
  deriving DecidableEq, Repr

def InvokeError.message : InvokeError → String
  | .launch program cause => s!"failed to launch '{program}': {cause}"
  | .timeout secs => s!"timed out after {secs} seconds"

structure ProcessOutput where
  /-- Absent when a signal ended the process. -/
  exitCode : Option Int
  stdout : String
  stderr : String
  deriving DecidableEq, Repr

def ProcessOutput.success (o : ProcessOutput) : Bool := o.exitCode == some 0

/-- Replies to the last of the commands invoked so far. -/
abbrev Invoker := List Command → Except InvokeError ProcessOutput

/-- The instants at which a run looks at the clock, in order. -/
abbrev Clock := Nat → Instant

/-! ### Events -/

/-- What happens during a run. Outputs and command lines are redacted. -/
inductive RunEvent
  | pipelineStarted (executionId : Uuid) (pipelineName : String) (totalSteps : Nat)
  | notTriggered (pipelineName : String) (branch : Option String)
  | stepStarted (index : Nat) (stepId command : String)
  | stepSucceeded (index : Nat) (stepId output : String)
  | stepFailed (index : Nat) (stepId error output : String)
  | stepSkipped (index : Nat) (stepId : String)
  | artifactPublished (stepId file key : String)
  | pipelineCompleted (executionId : Uuid) (status : RunStatus)
  deriving DecidableEq, Repr

/-! ### One step -/

structure StepYield where
  /-- The output before redaction. -/
  stdout : String
  publish : Option Artifact
  deriving DecidableEq, Repr

structure StepRun where
  events : List RunEvent
  command : Option Command
  state : StepState
  /-- The entry for the log, if a process was started. -/
  entry : Option RunResult
  result : Except StepError StepYield

/-- The error of a step whose process failed; for a publishing step it is a failed upload. -/
def uploadOr (publish : Option Artifact) (e : StepError) : StepError :=
  match publish with
  | none => e
  | some a => .upload a.file a.key e.message

def exitError : Option Int → StepError
  | some code => .failure code
  | none => .killed

def neverStarted (index : Nat) (step : Step) (events : List RunEvent) (command : Option Command)
    (startedAt finishedAt : Instant) (e : StepError) : StepRun :=
  { events := events ++ [.stepFailed index step.id e.message ""]
    command
    state := (StepState.running startedAt).fail finishedAt e.message none
    entry := none
    result := .error e }

def logEntry (index : Nat) (step : Step) (state : StepState) (exitCode : Option Int)
    (stdout stderr : String) (startedAt finishedAt : Instant) : RunResult :=
  { index, stepId := step.id, stepName := step.name, state, exitCode, stdout, stderr,
    startedAt, finishedAt }

/-- What is shown of a failed step's output: its error output, or its output if that is blank. -/
def shownOutput (stdout stderr : String) : String :=
  if Text.isBlankText stderr then stdout else stderr

def answered (index : Nat) (step : Step) (context : Context) (bound : BoundStep)
    (started : RunEvent) (startedAt finishedAt : Instant)
    (reply : Except InvokeError ProcessOutput) : StepRun :=
  match reply with
  | .error (.launch program cause) =>
    neverStarted index step [started] (some bound.command) startedAt finishedAt
      (.launch program cause)
  | .error (.timeout secs) =>
    let e := uploadOr bound.publish (.timeout secs)
    let state := StepState.timedOut secs startedAt finishedAt
    { events := [started, .stepFailed index step.id e.message ""]
      command := some bound.command
      state
      entry := some (logEntry index step state none "" "" startedAt finishedAt)
      result := .error e }
  | .ok output =>
    let stdout := context.redact output.stdout
    let stderr := context.redact output.stderr
    if output.success then
      let state := StepState.succeeded 0 startedAt finishedAt
      { events := [started, .stepSucceeded index step.id stdout]
        command := some bound.command
        state
        entry := some (logEntry index step state output.exitCode stdout stderr startedAt finishedAt)
        result := .ok { stdout := output.stdout, publish := bound.publish } }
    else
      let e := uploadOr bound.publish (exitError output.exitCode)
      let state := StepState.failed e.message output.exitCode startedAt finishedAt
      { events := [started, .stepFailed index step.id e.message (shownOutput stdout stderr)]
        command := some bound.command
        state
        entry := some (logEntry index step state output.exitCode stdout stderr startedAt finishedAt)
        result := .error e }

/-- Binds a step, runs its command and judges the reply. `past` holds the commands invoked
before. -/
def runStep (invoke : Invoker) (clock : Clock) (past : List Command) (index : Nat)
    (context : Context) (step : Step) : StepRun :=
  let startedAt := clock (2 * index + 1)
  let finishedAt := clock (2 * index + 2)
  match Binding.bind step context with
  | .error e => neverStarted index step [] none startedAt finishedAt e
  | .ok bound =>
    answered index step context bound
      (.stepStarted index step.id (context.redact bound.command.displayLine)) startedAt finishedAt
      (invoke (past ++ [bound.command]))

/-! ### Many steps -/

structure StepFailure where
  index : Nat
  stepId : String
  error : StepError
  deriving DecidableEq, Repr

/-- What running the steps from some index on produced. -/
structure Trail where
  state : RunState
  events : List RunEvent
  commands : List Command
  states : List StepState
  entries : List RunResult
  artifacts : List Artifact
  /-- The captured outputs, redacted, in order. -/
  captured : List (String × String)
  failure : Option StepFailure
  skipped : List String

def Trail.done (state : RunState) : Trail :=
  { state, events := [], commands := [], states := [], entries := [], artifacts := [], captured := [],
    failure := none, skipped := [] }

def nextContext (context : Context) (step : Step) (y : StepYield) : Context :=
  match step.capture with
  | none => context
  | some name => context.withOutput name (Text.trim y.stdout)

def capturedBy (context : Context) (step : Step) (y : StepYield) : List (String × String) :=
  match step.capture with
  | none => []
  | some name => [(name, context.redact (Text.trim y.stdout))]

def publishedEvent (step : Step) (a : Artifact) : RunEvent :=
  .artifactPublished step.id a.file a.key

def skippedEvents (index : Nat) : List Step → List RunEvent
  | [] => []
  | s :: rest => .stepSkipped index s.id :: skippedEvents (index + 1) rest

def Trail.halted (state : RunState) (index : Nat) (step : Step) (rest : List Step) (r : StepRun)
    (e : StepError) : Trail :=
  { state
    events := r.events ++ skippedEvents (index + 1) rest
    commands := r.command.toList
    states := r.state :: rest.map fun _ => .pending
    entries := r.entry.toList
    artifacts := []
    captured := []
    failure := some { index, stepId := step.id, error := e }
    skipped := rest.map (·.id) }

def Trail.after (context : Context) (step : Step) (r : StepRun) (y : StepYield) (t : Trail) :
    Trail :=
  { t with
    events := r.events ++ (y.publish.toList.map (publishedEvent step)) ++ t.events
    commands := r.command.toList ++ t.commands
    states := r.state :: t.states
    entries := r.entry.toList ++ t.entries
    artifacts := y.publish.toList ++ t.artifacts
    captured := capturedBy context step y ++ t.captured }

def runSteps (invoke : Invoker) (clock : Clock) (past : List Command) (index : Nat)
    (context : Context) (state : RunState) : List Step → Trail
  | [] => .done state
  | step :: rest =>
    let r := runStep invoke clock past index context step
    match r.result with
    | .error e => .halted (state.fail (clock (2 * index + 3)) index) index step rest r e
    | .ok y =>
      .after context step r y
        (runSteps invoke clock (past ++ r.command.toList) (index + 1) (nextContext context step y)
          state.stepSucceeded rest)

/-! ### Whole runs -/

structure RunOutcome where
  pipelineName : String
  branch : Option String
  state : RunState
  runLog : RunLog
  stepStates : List StepState
  failure : Option StepFailure
  skipped : List String
  artifacts : List Artifact
  captured : Dict String

namespace RunOutcome

def isSuccess (o : RunOutcome) : Bool := o.state.status == .completed

/-- Whether a step failed. A run that was not triggered is no failure. -/
def isFailure (o : RunOutcome) : Bool := o.state.status == .failed

def failedIndex (o : RunOutcome) : Option Nat := o.failure.map (·.index)

end RunOutcome

structure Execution where
  outcome : RunOutcome
  events : List RunEvent
  commands : List Command

def execute (invoke : Invoker) (clock : Clock) (id : Uuid) (p : Pipeline) (context : Context) :
    Execution :=
  let total := p.steps.length
  let trail := runSteps invoke clock [] 0 context (.started id (clock 0) total) p.steps
  let state :=
    if trail.failure.isNone then trail.state.complete (clock (2 * total + 1)) else trail.state
  { outcome :=
      { pipelineName := p.name
        branch := context.plain? "branch"
        state
        runLog := ⟨trail.entries⟩
        stepStates := trail.states
        failure := trail.failure
        skipped := trail.skipped
        artifacts := trail.artifacts
        captured := Dict.ofList trail.captured }
    events := .pipelineStarted id p.name total :: trail.events ++
      [.pipelineCompleted id state.status]
    commands := trail.commands }

def notTriggeredRun (clock : Clock) (id : Uuid) (p : Pipeline) (event : TriggerEvent) :
    Execution :=
  { outcome :=
      { pipelineName := p.name
        branch := event.branch
        state := (RunState.fresh id).notTriggered (clock 0)
        runLog := .empty
        stepStates := p.steps.map fun _ => .pending
        failure := none
        skipped := p.steps.map (·.id)
        artifacts := []
        captured := Dict.empty }
    events := [.notTriggered p.name event.branch]
    commands := [] }

def run (invoke : Invoker) (clock : Clock) (id : Uuid) (p : Pipeline) (event : TriggerEvent)
    (context : Context) : Execution :=
  if p.isTriggeredBy event then execute invoke clock id p context
  else notTriggeredRun clock id p event

end PipelineRunner
