import PipelineRunner.Host.Octets
import PipelineRunner.Text.Digits
import PipelineRunner.Word

/-!
# Arithmetic of the shell

Integer expressions with the usual operators and precedences. Names stand for the numbers that
their values spell, and numbers take 64 bits.
-/

namespace PipelineRunner.Host.Script

inductive Lexeme
  | number (n : Int)
  | name (s : Octets)
  | mark (s : String)
  deriving DecidableEq, Repr

/-- Reads a number: decimal, octal after a zero, or hexadecimal. -/
def number? : List Char → Option Int
  | '0' :: 'x' :: r => (Text.ofDigits? 16 r).map fun n => Word.signed64 n
  | '0' :: 'X' :: r => (Text.ofDigits? 16 r).map fun n => Word.signed64 n
  | '0' :: c :: r => (Text.ofDigits? 8 (c :: r)).map fun n => Word.signed64 n
  | cs => (Text.ofDigits? 10 cs).map fun n => Word.signed64 n

def doubleMarks : List String := ["||", "&&", "==", "!=", "<=", ">=", "<<", ">>"]

def singleMarks : List Char := "|^&<>+-*/%()!~".toList

def lexemes? : Nat → List Char → Option (List Lexeme)
  | 0, _ => none
  | _ + 1, [] => some []
  | fuel + 1, c :: r =>
    if c == ' ' || c == '\t' || c == '\n' then lexemes? fuel r
    else if c.isDigit then do
      let n ← number? (c :: r.takeWhile Char.isAlphanum)
      let rest ← lexemes? fuel (r.dropWhile Char.isAlphanum)
      some (.number n :: rest)
    else if c.isAlpha || c == '_' then do
      let isNameChar (d : Char) : Bool := d.isAlphanum || d == '_'
      let rest ← lexemes? fuel (r.dropWhile isNameChar)
      some (.name (c :: r.takeWhile isNameChar) :: rest)
    else if doubleMarks.contains (String.ofList ((c :: r).take 2)) then do
      let rest ← lexemes? fuel (r.drop 1)
      some (.mark (String.ofList ((c :: r).take 2)) :: rest)
    else if singleMarks.contains c then do
      let rest ← lexemes? fuel r
      some (.mark (String.singleton c) :: rest)
    else none

def precedence? : Lexeme → Option (Nat × String)
  | .mark m =>
    if m == "||" then some (1, m)
    else if m == "&&" then some (2, m)
    else if m == "|" then some (3, m)
    else if m == "^" then some (4, m)
    else if m == "&" then some (5, m)
    else if m == "==" || m == "!=" then some (6, m)
    else if m == "<" || m == "<=" || m == ">" || m == ">=" then some (7, m)
    else if m == "<<" || m == ">>" then some (8, m)
    else if m == "+" || m == "-" then some (9, m)
    else if m == "*" || m == "/" || m == "%" then some (10, m)
    else none
  | _ => none

def truth (b : Bool) : Int := if b then 1 else 0

def operate? (m : String) (a b : Int) : Option Int :=
  match m with
  | "||" => some (truth (a ≠ 0 || b ≠ 0))
  | "&&" => some (truth (a ≠ 0 && b ≠ 0))
  | "|" => some (Word.signed64 (Word.unsigned64 a ||| Word.unsigned64 b : Nat))
  | "^" => some (Word.signed64 (Word.unsigned64 a ^^^ Word.unsigned64 b : Nat))
  | "&" => some (Word.signed64 (Word.unsigned64 a &&& Word.unsigned64 b : Nat))
  | "==" => some (truth (a = b))
  | "!=" => some (truth (a ≠ b))
  | "<" => some (truth (a < b))
  | "<=" => some (truth (a ≤ b))
  | ">" => some (truth (b < a))
  | ">=" => some (truth (b ≤ a))
  | "<<" => some (Word.signed64 (a * Nat.pow 2 (b % 64).toNat))
  | ">>" => some (a / Nat.pow 2 (b % 64).toNat)
  | "+" => some (Word.signed64 (a + b))
  | "-" => some (Word.signed64 (a - b))
  | "*" => some (Word.signed64 (a * b))
  | "/" => if b = 0 then none else some (Word.signed64 (a.tdiv b))
  | "%" => if b = 0 then none else some (a.tmod b)
  | _ => none

mutual

def operand? (value? : Octets → Option Int) : Nat → List Lexeme → Option (Int × List Lexeme)
  | 0, _ => none
  | fuel + 1, ls =>
    match ls with
    | .number n :: r => some (n, r)
    | .name s :: r => (value? s).map fun n => (n, r)
    | .mark "(" :: r => do
      let (n, r) ← expression? value? fuel 1 r
      match r with
      | .mark ")" :: r => some (n, r)
      | _ => none
    | .mark "-" :: r => (operand? value? fuel r).map fun p => (Word.signed64 (-p.1), p.2)
    | .mark "+" :: r => operand? value? fuel r
    | .mark "!" :: r => (operand? value? fuel r).map fun p => (truth (p.1 = 0), p.2)
    | .mark "~" :: r => (operand? value? fuel r).map fun p => (-p.1 - 1, p.2)
    | _ => none

/-- Evaluates operands joined by operators that bind at least as tightly as `least`. -/
def expression? (value? : Octets → Option Int) :
    Nat → Nat → List Lexeme → Option (Int × List Lexeme)
  | 0, _, _ => none
  | fuel + 1, least, ls => do
    let (a, r) ← operand? value? fuel ls
    continue? value? fuel least a r

def continue? (value? : Octets → Option Int) :
    Nat → Nat → Int → List Lexeme → Option (Int × List Lexeme)
  | 0, _, _, _ => none
  | fuel + 1, least, a, ls =>
    match ls with
    | [] => some (a, [])
    | l :: r =>
      match precedence? l with
      | none => some (a, l :: r)
      | some (p, m) =>
        if p < least then some (a, l :: r)
        else do
          let (b, r) ← expression? value? fuel (p + 1) r
          let c ← operate? m a b
          continue? value? fuel least c r

end

/-- The number that the value of a name spells; an empty value is zero. -/
def spelled? (s : Octets) : Option Int :=
  match s with
  | [] => some 0
  | '-' :: r => (number? r).map fun n => Word.signed64 (-n)
  | '+' :: r => number? r
  | r => number? r

def evaluate? (value : Octets → Octets) (s : Octets) : Option Int := do
  let ls ← lexemes? (s.length + 1) s
  if ls.isEmpty then some 0
  else do
    let (n, r) ← expression? (fun name => spelled? (value name)) (4 * ls.length + 4) 1 ls
    if r.isEmpty then some n else none

end PipelineRunner.Host.Script
