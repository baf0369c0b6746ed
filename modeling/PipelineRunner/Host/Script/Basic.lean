import PipelineRunner.Host.Octets

/-!
# Shell scripts

The commands that the shell of a host understands. Words keep their quoting, because quoted parts
are neither split nor matched against file names.
-/

namespace PipelineRunner.Host

/-- What an expansion makes of a parameter. With `orEmpty` an empty value counts as unset. -/
inductive ParameterUse
  | value
  | length
  | fallback (orEmpty : Bool)
  | assign (orEmpty : Bool)
  | insist (orEmpty : Bool)
  | replace (orEmpty : Bool)
  | trim (atEnd longest : Bool)
  deriving Repr

inductive Part
  | text (quoted : Bool) (s : Octets)
  | parameter (quoted : Bool) (name : Octets) (use : ParameterUse) (arg : List Part)
  | output (quoted : Bool) (script : Octets)
  | arithmetic (quoted : Bool) (expression : List Part)
  deriving Repr, Inhabited

abbrev Word := List Part

inductive RedirectKind
  | input
  | output
  | append
  /-- The target is the number of another descriptor. -/
  | duplicate
  deriving DecidableEq, Repr

structure Redirect where
  descriptor : Nat
  kind : RedirectKind
  target : Word
  deriving Repr

inductive Script
  | nothing
  | simple (assignments : List (Octets × Word)) (words : List Word) (redirects : List Redirect)
  | sequence (first second : Script)
  | both (first second : Script)
  | either (first second : Script)
  | inverted (body : Script)
  | pipe (writer reader : Script)
  | conditional (condition yes no : Script)
  | loop (untilTrue : Bool) (condition body : Script)
  | each (name : Octets) (words : Option (List Word)) (body : Script)
  | select (word : Word) (branches : List (List Word × Script))
  | group (isolated : Bool) (body : Script) (redirects : List Redirect)
  | define (name : Octets) (body : Script)
  deriving Inhabited

end PipelineRunner.Host
