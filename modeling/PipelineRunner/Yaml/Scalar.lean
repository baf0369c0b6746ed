import PipelineRunner.Decimal.Text
import PipelineRunner.Text.Digits
import PipelineRunner.Word

/-!
# Plain scalars of YAML

What a plain scalar stands for: nothing, a truth value, a number, or its own text.
-/

namespace PipelineRunner.Yaml

/-- A number. Numbers of 64 bits are values; larger ones up to 128 bits are recognised only. -/
inductive Number
  | int (n : Int)
  | float (x : Float)

inductive Scalar
  | null
  | bool (b : Bool)
  | number (n : Number)
  | wide (n : Int)
  | text (s : String)

namespace Scalar

def isNull (s : String) : Bool := s == "null" || s == "Null" || s == "NULL" || s == "~"

def bool? (s : String) : Option Bool :=
  if s == "true" || s == "True" || s == "TRUE" then some true
  else if s == "false" || s == "False" || s == "FALSE" then some false
  else none

/-- Whether the digits start with a superfluous zero, so that the text is no number. -/
def isZeroPadded (s : List Char) : Bool :=
  let ds := match s with
    | '-' :: r => r
    | '+' :: r => r
    | r => r
  match ds with
  | '0' :: d :: r => (d :: r).all Char.isDigit
  | _ => false

def based? : List Char → Option Nat
  | '0' :: 'x' :: r => Text.ofDigits? 16 r
  | '0' :: 'o' :: r => Text.ofDigits? 8 r
  | '0' :: 'b' :: r => Text.ofDigits? 2 r
  | _ => none

def int? (s : String) : Option Int :=
  match s.toList with
  | '-' :: r =>
    match based? r with
    | some n => some (-(n : Int))
    | none => if isZeroPadded r then none else (Text.ofDigits? 10 r).map fun n => -(n : Int)
  | cs =>
    let r := match cs with
      | '+' :: r => r
      | r => r
    match based? r with
    | some n => some n
    | none => if isZeroPadded r then none else (Text.ofDigits? 10 r).map fun n => (n : Int)

def fits64 (n : Int) : Bool := -Word.half64 ≤ n && n < Word.size64

def fits128 (n : Int) : Bool := -Word.half128 ≤ n && n < Word.size128

def float? (s : String) : Option Float :=
  if s == ".nan" || s == ".NaN" || s == ".NAN" then some (0.0 / 0.0)
  else if s == "-.inf" || s == "-.Inf" || s == "-.INF" then some (-1.0 / 0.0)
  else
    let cs := s.toList
    let r := match cs with
      | '+' :: r => r
      | r => r
    if r == ".inf".toList || r == ".Inf".toList || r == ".INF".toList then some (1.0 / 0.0)
    else if cs.head? == some '+' && (r.head? == some '+' || r.head? == some '-') then none
    else (Decimal.ofText? r).filter Float.isFinite

def number? (s : String) : Option Scalar :=
  match (int? s).filter fits128 with
  | some n => some (if fits64 n then .number (.int n) else .wide n)
  | none =>
    if isZeroPadded s.toList then none else (float? s).map fun x => .number (.float x)

def ofPlain (s : String) : Scalar :=
  if s.isEmpty || isNull s then .null
  else
    match bool? s with
    | some b => .bool b
    | none => (number? s).getD (.text s)

end Scalar

end PipelineRunner.Yaml
