import PipelineRunner.Decimal.Text
import PipelineRunner.Json.Value
import PipelineRunner.Text.Digits

/-!
# Reading JSON texts

`Json.ofText?` reads what `Json.toText` writes, and any other JSON text whose strings hold no lone
halves of surrogate pairs. A number without fraction and exponent is an integer.
-/

namespace PipelineRunner.Json

def isSpace (c : Char) : Bool := c = ' ' || c = '\t' || c = '\n' || c = '\r'

def dropSpace (s : List Char) : List Char := s.dropWhile isSpace

/-! ### Strings -/

/-- The character with a code point, unless that is half of a surrogate pair. -/
def character? (n : Nat) : Option Char := if n.isValidChar then some (Char.ofNat n) else none

def paired? (high low : Nat) : Option Char :=
  if 0xd800 ≤ high ∧ high < 0xdc00 ∧ 0xdc00 ≤ low ∧ low < 0xe000 then
    some (Char.ofNat (0x10000 + (high - 0xd800) * 0x400 + (low - 0xdc00)))
  else none

def shortEscape? : Char → Option Char
  | '"' => some '"'
  | '\\' => some '\\'
  | '/' => some '/'
  | 'b' => some '\x08'
  | 'f' => some '\x0c'
  | 'n' => some '\n'
  | 'r' => some '\r'
  | 't' => some '\t'
  | _ => none

def codePoint? : List Char → Option (Nat × List Char)
  | a :: b :: c :: d :: rest => (Text.ofDigits? 16 [a, b, c, d]).map fun n => (n, rest)
  | _ => none

def escape? : List Char → Option (Char × List Char)
  | 'u' :: rest => do
    let (n, rest) ← codePoint? rest
    match character? n with
    | some c => some (c, rest)
    | none =>
      match rest with
      | '\\' :: 'u' :: rest => do
        let (low, rest) ← codePoint? rest
        let c ← paired? n low
        some (c, rest)
      | _ => none
  | c :: rest => (shortEscape? c).map fun e => (e, rest)
  | [] => none

/-- The characters of a string up to its quote, which `fuel` bounds, and the rest. -/
def string? : Nat → List Char → Option (List Char × List Char)
  | 0, _ => none
  | _ + 1, [] => none
  | _ + 1, '"' :: rest => some ([], rest)
  | fuel + 1, '\\' :: rest => do
    let (c, rest) ← escape? rest
    let (cs, rest) ← string? fuel rest
    some (c :: cs, rest)
  | fuel + 1, c :: rest => do
    if c.toNat < 0x20 then none
    else
      let (cs, rest) ← string? fuel rest
      some (c :: cs, rest)

/-! ### Numbers -/

def isNumeral (c : Char) : Bool := c.isDigit || "+-.eE".toList.contains c

def number? (cs : List Char) : Option Json :=
  let digits := if cs.head? = some '-' then cs.drop 1 else cs
  if digits.isEmpty then none
  else if digits.all Char.isDigit then
    let n : Int := Text.ofDigits 10 digits
    some (int (if digits.length < cs.length then -n else n))
  else (Decimal.ofText? cs).map float

/-! ### Values -/

mutual

/-- A value and the rest; `fuel` bounds the depth and the number of its parts. -/
def value? : Nat → List Char → Option (Json × List Char)
  | 0, _ => none
  | fuel + 1, s =>
    match dropSpace s with
    | 'n' :: 'u' :: 'l' :: 'l' :: rest => some (null, rest)
    | 't' :: 'r' :: 'u' :: 'e' :: rest => some (bool true, rest)
    | 'f' :: 'a' :: 'l' :: 's' :: 'e' :: rest => some (bool false, rest)
    | '"' :: rest => (string? (fuel + 1) rest).map fun p => (str (String.ofList p.1), p.2)
    | '[' :: rest =>
      match dropSpace rest with
      | ']' :: rest => some (arr [], rest)
      | rest => (items? fuel rest).map fun p => (arr p.1, p.2)
    | '\x7b' :: rest =>
      match dropSpace rest with
      | '\x7d' :: rest => some (obj [], rest)
      | rest => (fields? fuel rest).map fun p => (obj p.1, p.2)
    | rest => (number? (rest.takeWhile isNumeral)).map fun n => (n, rest.dropWhile isNumeral)

def items? : Nat → List Char → Option (List Json × List Char)
  | 0, _ => none
  | fuel + 1, s => do
    let (j, rest) ← value? fuel s
    match dropSpace rest with
    | ']' :: rest => some ([j], rest)
    | ',' :: rest => (items? fuel rest).map fun p => (j :: p.1, p.2)
    | _ => none

def fields? : Nat → List Char → Option (List (String × Json) × List Char)
  | 0, _ => none
  | fuel + 1, s =>
    match dropSpace s with
    | '"' :: rest => do
      let (name, rest) ← string? (fuel + 1) rest
      match dropSpace rest with
      | ':' :: rest => do
        let (j, rest) ← value? fuel rest
        let field := (String.ofList name, j)
        match dropSpace rest with
        | '\x7d' :: rest => some ([field], rest)
        | ',' :: rest => (fields? fuel rest).map fun p => (field :: p.1, p.2)
        | _ => none
      | _ => none
    | _ => none

end

def ofText? (s : String) : Option Json := do
  let cs := s.toList
  let (j, rest) ← value? (cs.length + 1) cs
  if rest.all isSpace then some j else none

end PipelineRunner.Json
