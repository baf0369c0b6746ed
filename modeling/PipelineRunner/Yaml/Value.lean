import PipelineRunner.Json.Value
import PipelineRunner.Text.Quoted
import PipelineRunner.Yaml.Scalar

/-!
# Values of YAML

What a node stands for once its scalars are read. Mappings keep their order, but equality does not
look at it.
-/

namespace PipelineRunner.Yaml

inductive Value
  | null
  | bool (b : Bool)
  | number (n : Number)
  | text (s : String)
  | sequence (items : List Value)
  | mapping (entries : List (Value × Value))
  | tagged (tag : String) (value : Value)
  deriving Inhabited

namespace Number

/-- Equality of numbers; undefined ones are equal, and an integer never equals a floating-point
number. -/
def same : Number → Number → Bool
  | int a, int b => a == b
  | float a, float b => a == b || (a.isNaN && b.isNaN)
  | _, _ => false

def render : Number → String
  | int n => toString n
  | float x =>
    if x.isNaN then ".nan"
    else if x.isInf then if x < 0.0 then "-.inf" else ".inf"
    else Decimal.scientific x

end Number

namespace Value

mutual

def same : Value → Value → Bool
  | null, null => true
  | bool a, bool b => a == b
  | number a, number b => a.same b
  | text a, text b => a == b
  | sequence a, sequence b => sameItems a b
  | mapping a, mapping b => a.length == b.length && sameEntries a b
  | tagged t a, tagged u b => t == u && same a b
  | _, _ => false

def sameItems : List Value → List Value → Bool
  | [], [] => true
  | a :: r, b :: s => same a b && sameItems r s
  | _, _ => false

def sameEntries : List (Value × Value) → List (Value × Value) → Bool
  | [], _ => true
  | (k, v) :: r, other => other.any (fun e => same k e.1 && same v e.2) && sameEntries r other

end

def find? (name : String) (entries : List (Value × Value)) : Option Value :=
  (entries.find? fun e => match e.1 with
    | text s => s == name
    | _ => false).map (·.2)

def untagged : Value → Value
  | tagged _ v => untagged v
  | v => v

def asText? (v : Value) : Option String :=
  match v.untagged with
  | text s => some s
  | _ => none

def asBool? (v : Value) : Option Bool :=
  match v.untagged with
  | bool b => some b
  | _ => none

/-! ### As JSON -/

inductive KeyError
  | noText
  | notFinite
  deriving DecidableEq, Repr

def KeyError.message : KeyError → String
  | noText => "key must be a string"
  | notFinite => "float key must be finite (got NaN or +/-inf)"

/-- The text of a key. Only strings, integers, truth values and finite numbers have one. -/
def keyText : Value → Except KeyError String
  | text s => .ok s
  | bool b => .ok (if b then "true" else "false")
  | number (.int n) => .ok (toString n)
  | number (.float x) =>
    if x.isFinite then .ok (Decimal.scientific x) else .error .notFinite
  | _ => .error .noText

mutual

def toJson : Value → Except KeyError Json
  | null => .ok .null
  | bool b => .ok (.bool b)
  | number (.int n) => .ok (.int n)
  | number (.float x) => .ok (if x.isFinite then .float x else .null)
  | text s => .ok (.str s)
  | sequence items => (itemsToJson items).map .arr
  | mapping entries => (entriesToJson entries).map .obj
  | tagged t v => (toJson v).map fun j => .obj [("!" ++ t, j)]

def itemsToJson : List Value → Except KeyError (List Json)
  | [] => .ok []
  | v :: r => do
    let j ← toJson v
    let rest ← itemsToJson r
    .ok (j :: rest)

def entriesToJson : List (Value × Value) → Except KeyError (List (String × Json))
  | [] => .ok []
  | (k, v) :: r => do
    let name ← keyText k
    let j ← toJson v
    let rest ← entriesToJson r
    .ok ((name, j) :: rest)

end

end Value

end PipelineRunner.Yaml
