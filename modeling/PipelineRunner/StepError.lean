/-!
# Why a step halts a run

The reasons, their wording, and the short kinds under which they are reported.
-/

namespace PipelineRunner

inductive StepError
  | missingVariable (key : String)
  | launch (program : String) (cause : String)
  | failure (exitCode : Int)
  /-- The process was ended by a signal. -/
  | killed
  | timeout (secs : Nat)
  | upload (file key reason : String)
  deriving DecidableEq, Repr

namespace StepError

def message : StepError → String
  | missingVariable key => s!"missing variable '{key}'"
  | launch program cause => s!"failed to launch '{program}': {cause}"
  | failure exitCode => s!"process exited with code {exitCode}"
  | killed => "process terminated by signal"
  | timeout secs => s!"timed out after {secs} seconds"
  | upload file key reason => s!"upload of '{file}' to '{key}' failed: {reason}"

def kind : StepError → String
  | missingVariable _ => "MissingVariable"
  | launch .. => "ProcessLaunchError"
  | failure _ => "ProcessFailure"
  | killed => "ProcessFailure"
  | timeout _ => "ProcessTimeout"
  | upload .. => "UploadFailure"

/-- Whether the process was running when the error arose. -/
def processStarted : StepError → Bool
  | missingVariable _ | launch .. => false
  | failure _ | killed | timeout _ | upload .. => true

def cause? : StepError → Option String
  | launch _ cause => some cause
  | _ => none

end StepError

end PipelineRunner
