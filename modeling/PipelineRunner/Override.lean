import PipelineRunner.Text.Search

/-!
# Overrides

Variables given by hand as `key=value`. The first `=` ends the key, which must not be empty.
-/

namespace PipelineRunner

inductive OverrideError
  | missingKey (text : String)
  | noSeparator (text : String)
  deriving DecidableEq, Repr

def OverrideError.message : OverrideError → String
  | .missingKey text => s!"Missing key in '{text}'"
  | .noSeparator text => s!"Invalid key=value pair: {text}"

namespace Override

def parse (s : String) : Except OverrideError (String × String) :=
  match Text.splitFirst '=' s.toList with
  | none => .error (.noSeparator s)
  | some ([], _) => .error (.missingKey s)
  | some (key, value) => .ok (String.ofList key, String.ofList value)

end Override

end PipelineRunner
