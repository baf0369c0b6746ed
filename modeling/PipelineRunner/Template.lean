import PipelineRunner.Text.Blank

/-!
# Templates

A template is a text with slots: two opening braces, blanks, a name, blanks, two closing braces.
Everything else, stray braces included, stands for itself. `pieces` cuts a template into slots
and single characters; the names of its slots (`slots`) and its filling (`render`) are read off
the pieces, so a value put into a slot is never looked at again.
-/

namespace PipelineRunner.Template

/-! ### Names -/

def isNameStart (c : Char) : Bool := c.isAlpha || c == '_'

def isNameChar (c : Char) : Bool := c.isAlphanum || c == '_' || c == '.' || c == '-'

def isNameChars : List Char → Bool
  | [] => false
  | c :: r => isNameStart c && r.all isNameChar

def isValidName (s : String) : Bool := isNameChars s.toList

/-! ### Slots -/

def close? : List Char → Option (List Char)
  | '}' :: '}' :: r => some r
  | _ => none

def slot? : List Char → Option (List Char × List Char)
  | '{' :: '{' :: r =>
    let body := Text.dropBlanks r
    let name := body.takeWhile isNameChar
    if isNameChars name then
      (close? (Text.dropBlanks (body.dropWhile isNameChar))).map fun rest => (name, rest)
    else
      none
  | _ => none

inductive Piece
  | char (c : Char)
  | slot (name : String)
  deriving DecidableEq, Repr

/-- The pieces of a template; the first argument counts the characters of the slot under way that
are still to be passed over. -/
def piecesFrom : Nat → List Char → List Piece
  | _, [] => []
  | skip + 1, _ :: r => piecesFrom skip r
  | 0, c :: r =>
    match slot? (c :: r) with
    | some (name, rest) => .slot (String.ofList name) :: piecesFrom (r.length - rest.length) r
    | none => .char c :: piecesFrom 0 r

def pieces (t : String) : List Piece := piecesFrom 0 t.toList

def Piece.name? : Piece → Option String
  | .char _ => none
  | .slot n => some n

def slots (t : String) : List String := (pieces t).filterMap Piece.name?

/-! ### Filling -/

/-- The pieces with each slot replaced by its value, or the first name without one. -/
def fill (value? : String → Option String) : List Piece → Except String (List Char)
  | [] => .ok []
  | .char c :: r => (fill value? r).map (c :: ·)
  | .slot n :: r =>
    match value? n with
    | none => .error n
    | some v => (fill value? r).map (v.toList ++ ·)

def render (t : String) (value? : String → Option String) : Except String String :=
  (fill value? (pieces t)).map String.ofList

end PipelineRunner.Template
