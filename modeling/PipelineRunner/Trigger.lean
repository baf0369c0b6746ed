/-!
# Branch triggers

A pattern is a branch name, or the start of one followed by a single `*`. A set of patterns lets a
push through if one of them fits its branch; a malformed pattern fits no branch.
-/

namespace PipelineRunner

inductive PatternError
  | empty
  | misplacedWildcard (pattern : String)
  deriving DecidableEq, Repr

def PatternError.message : PatternError → String
  | .empty => "pattern is empty"
  | .misplacedWildcard p => "wildcard is only allowed as the last character: " ++ p

inductive BranchPattern
  | exact (name : String)
  | startsWith (stem : String)
  deriving DecidableEq, Repr

namespace BranchPattern

/-- Reads a pattern. Only one `*`, at the end, is accepted. -/
def parse (p : String) : Except PatternError BranchPattern :=
  let stem := p.toList.takeWhile (· ≠ '*')
  match p.toList.dropWhile (· ≠ '*') with
  | [] => if stem.isEmpty then .error .empty else .ok (.exact p)
  | [_] => .ok (.startsWith (String.ofList stem))
  | _ => .error (.misplacedWildcard p)

def fits : BranchPattern → String → Bool
  | exact name, branch => name == branch
  | startsWith stem, branch => stem.toList.isPrefixOf branch.toList

end BranchPattern

structure TriggerEvent where
  branch : Option String
  deriving DecidableEq, Repr

namespace TriggerEvent

def push (branch : String) : TriggerEvent := ⟨some branch⟩

def manual : TriggerEvent := ⟨none⟩

end TriggerEvent

structure Trigger where
  patterns : List String
  deriving DecidableEq, Repr

namespace Trigger

/-- Whether a declared pattern fits a branch; a malformed one fits none. -/
def patternFits (branch pattern : String) : Bool :=
  match BranchPattern.parse pattern with
  | .ok p => p.fits branch
  | .error _ => false

def fits (t : Trigger) (branch : String) : Bool := t.patterns.any (patternFits branch)

/-- Whether an event starts a run. An event without a branch never does. -/
def admits (t : Trigger) (event : TriggerEvent) : Bool :=
  match event.branch with
  | some b => t.fits b
  | none => false

end Trigger

end PipelineRunner
