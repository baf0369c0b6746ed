import PipelineRunner.Dict
import PipelineRunner.Text.Search
import PipelineRunner.Text.Quoted
import PipelineRunner.Trigger

/-!
# The context of a run

The plain variables and the secrets that a step can refer to. The last write to a name decides its
value and whether it is secret; the set of names that ever were secret only grows. Contexts are
values: binding an output makes a new context and leaves the old one as it was.
-/

namespace PipelineRunner

def redactionMark : String := "[REDACTED]"

structure Context where
  plain : Dict String
  secrets : Dict String
  /-- The names that ever held a secret. -/
  secretNames : NameSet

namespace Context

def empty : Context := ⟨Dict.empty, Dict.empty, Dict.empty⟩

instance : Inhabited Context := ⟨empty⟩

/-! ### Writing -/

def setVariable (c : Context) (key value : String) : Context :=
  { c with secrets := c.secrets.erase key, plain := c.plain.insert key value }

def setSecret (c : Context) (key value : String) : Context :=
  { plain := c.plain.erase key
    secrets := c.secrets.insert key value
    secretNames := c.secretNames.insert key () }

def branchSlug (branch : String) : String := branch.map fun c => if c = '/' then '-' else c

def withEvent (c : Context) (event : TriggerEvent) : Context :=
  match event.branch with
  | none => c
  | some b => (c.setVariable "branch" b).setVariable "branch_slug" (branchSlug b)

def withOutput (c : Context) (key value : String) : Context := c.setVariable key value

/-! ### Reading -/

def plain? (c : Context) (key : String) : Option String := c.plain.get? key

def lookup (c : Context) (key : String) : Option String :=
  (c.secrets.get? key).or (c.plain? key)

def contains (c : Context) (key : String) : Bool :=
  c.secrets.contains key || c.plain.contains key

def isSecret (c : Context) (key : String) : Bool := c.secrets.contains key

/-- Replaces every occurrence of a secret value by the mark, one secret after the other in the
order of their names. -/
def redact (c : Context) (text : String) : String :=
  c.secrets.values.foldl (fun t v => Text.replace t v redactionMark) text

/-! ### Description -/

def describe (c : Context) : String :=
  "ExecutionContext \x7b variables: " ++
    Text.quotedMap (c.plain.entries.map fun e => (Text.quoted e.1, Text.quoted e.2)) ++
    ", secrets: " ++ Text.quotedList (c.secrets.keys.map Text.quoted) ++ " \x7d"

end Context

end PipelineRunner
