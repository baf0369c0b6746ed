import PipelineRunner.Decimal.Text
import PipelineRunner.Json.Value

/-!
# JSON texts

Values as text over several lines: every item and every field has a line of its own, two blanks
deeper than the brackets around it, and empty brackets stay together. `sorted` puts the fields of
all objects in ascending order of their names.
-/

namespace PipelineRunner.Json

/-! ### Strings -/

def escaped (c : Char) : List Char :=
  match c.toNat with
  | 0x22 => ['\\', '"']
  | 0x5c => ['\\', '\\']
  | 0x08 => ['\\', 'b']
  | 0x09 => ['\\', 't']
  | 0x0a => ['\\', 'n']
  | 0x0c => ['\\', 'f']
  | 0x0d => ['\\', 'r']
  | n =>
    if n < 0x20 then ['\\', 'u', '0', '0'] ++ List.replicate (if n < 0x10 then 1 else 0) '0' ++
      Nat.toDigits 16 n
    else [c]

def quoted (s : String) : String :=
  String.ofList ('"' :: s.toList.flatMap escaped ++ ['"'])

/-! ### Values -/

def newLine (depth : Nat) : String := String.ofList ('\n' :: List.replicate (2 * depth) ' ')

def enclosed (depth : Nat) (left right : String) (parts : List String) : String :=
  if parts.isEmpty then left ++ right
  else
    left ++ newLine (depth + 1) ++ String.intercalate ("," ++ newLine (depth + 1)) parts ++
      newLine depth ++ right

mutual

/-- The text of a value at a depth. A number that is not finite has none and reads `null`. -/
def textAt (depth : Nat) : Json → String
  | null => "null"
  | bool b => if b then "true" else "false"
  | int n => toString n
  | float x => if x.isFinite then Decimal.scientific x else "null"
  | str s => quoted s
  | arr items => enclosed depth "[" "]" (itemTexts (depth + 1) items)
  | obj fields => enclosed depth "\x7b" "\x7d" (fieldTexts (depth + 1) fields)

def itemTexts (depth : Nat) : List Json → List String
  | [] => []
  | j :: rest => textAt depth j :: itemTexts depth rest

def fieldTexts (depth : Nat) : List (String × Json) → List String
  | [] => []
  | (name, j) :: rest => (quoted name ++ ": " ++ textAt depth j) :: fieldTexts depth rest

end

def toText (j : Json) : String := textAt 0 j

/-! ### The order of fields -/

def sortFields (fields : List (String × Json)) : List (String × Json) :=
  fields.mergeSort fun a b => a.1 ≤ b.1

mutual

def sorted : Json → Json
  | arr items => arr (sortedItems items)
  | obj fields => obj (sortFields (sortedFields fields))
  | j => j

def sortedItems : List Json → List Json
  | [] => []
  | j :: rest => sorted j :: sortedItems rest

def sortedFields : List (String × Json) → List (String × Json)
  | [] => []
  | (name, j) :: rest => (name, sorted j) :: sortedFields rest

end

end PipelineRunner.Json
