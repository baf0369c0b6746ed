import PipelineRunner.Yaml.Value

/-!
# Faults of a document

Why a document is not what it is read as, and where. A fault of the data names the place it was
found at; other errors concern the document as a whole.
-/

namespace PipelineRunner.Yaml

inductive Path
  | root
  | item (parent : Path) (index : Nat)
  | field (parent : Path) (key : String)
  | unnamed (parent : Path)
  deriving DecidableEq, Repr

def Path.render : Path → String
  | root => "."
  | item p i => p.render ++ "[" ++ toString i ++ "]"
  | field root k => k
  | field p k => p.render ++ "." ++ k
  | unnamed root => "?"
  | unnamed p => p.render ++ ".?"

inductive Found
  | nothing
  | bool (b : Bool)
  | int (n : Int)
  /-- An integer that takes more than 64 bits. -/
  | wide (n : Int)
  | float (x : Float)
  | text (s : String)
  | sequence
  | mapping

def Found.floatText (x : Float) : String :=
  if x.isNaN then "NaN"
  else if x.isInf then if x < 0.0 then "-inf" else "inf"
  else Decimal.positional x

def Found.describe : Found → String
  | nothing => "unit value"
  | bool b => "boolean `" ++ (if b then "true" else "false") ++ "`"
  | int n => "integer `" ++ toString n ++ "`"
  | wide n => "integer `" ++ toString n ++ (if n < 0 then "` as i128" else "` as u128")
  | float x => "floating point `" ++ floatText x ++ "`"
  | text s => "string " ++ Text.quoted s
  | sequence => "sequence"
  | mapping => "map"

inductive Fault
  | missingField (name : String)
  | duplicateField (name : String)
  | invalidType (found : Found) (expected : String)
  | invalidValue (found : Found) (expected : String)
  | duplicateKey (key : Value)

def Fault.keyText : Value → String
  | .null => "with null key"
  | .bool b => "with key `" ++ (if b then "true" else "false") ++ "`"
  | .number n => "with key " ++ n.render
  | .text s => "with key " ++ Text.quoted s
  | _ => "in YAML map"

def Fault.message : Fault → String
  | missingField n => "missing field `" ++ n ++ "`"
  | duplicateField n => "duplicate field `" ++ n ++ "`"
  | invalidType f e => "invalid type: " ++ f.describe ++ ", expected " ++ e
  | invalidValue f e => "invalid value: " ++ f.describe ++ ", expected " ++ e
  | duplicateKey k => "duplicate entry " ++ keyText k

inductive ReadError
  /-- A fault of the data; the place is missing until the node around the fault is known. -/
  | fault (f : Fault) (place : Option Path)
  | malformed
  | severalDocuments
  | tooDeep
  | tooManyAliases

def ReadError.message : ReadError → String
  | fault f none => f.message
  | fault f (some .root) => f.message
  | fault f (some p) => p.render ++ ": " ++ f.message
  | malformed => "the document is not well-formed YAML"
  | severalDocuments =>
    "deserializing from YAML containing more than one document is not supported"
  | tooDeep => "recursion limit exceeded"
  | tooManyAliases => "repetition limit exceeded"

end PipelineRunner.Yaml
