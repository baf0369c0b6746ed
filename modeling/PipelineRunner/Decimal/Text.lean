import PipelineRunner.Decimal.Shortest
import PipelineRunner.Text.Digits
import PipelineRunner.Word

/-!
# Texts of floating-point numbers

Two ways to write the shortest decimal of a number. `scientific` is positional while the decimal
point stands near the digits and has an exponent otherwise; `positional` never has an exponent.
Both keep one digit after the point. `ofText?` reads a decimal.
-/

namespace PipelineRunner.Decimal

structure Digits where
  negative : Bool
  digits : List Char
  exponent : Int

def Digits.ofFloat (x : Float) : Digits :=
  let bits := x.toBits
  let b := Binary.ofBits bits
  let (n, k) := if b.m = 0 then (0, 0) else shortest b
  { negative := Word.half64 ≤ bits.toNat, digits := Nat.toDigits 10 n, exponent := k }

def Digits.pointed (d : Digits) : List Char :=
  let point : Int := d.digits.length + d.exponent
  if 0 ≤ d.exponent then d.digits ++ List.replicate d.exponent.toNat '0' ++ ['.', '0']
  else if 0 < point then d.digits.take point.toNat ++ '.' :: d.digits.drop point.toNat
  else '0' :: '.' :: List.replicate (-point).toNat '0' ++ d.digits

def Digits.scaled (d : Digits) : List Char :=
  let power : Int := d.digits.length + d.exponent - 1
  let fraction := d.digits.drop 1
  d.digits.take 1 ++ (if fraction.isEmpty then [] else '.' :: fraction) ++
    'e' :: (toString power).toList

/-- Where positional notation ends: the decimal point stands at most this far behind the first
digit. -/
def maxPoint : Int := 16

/-- Where positional notation starts: the decimal point stands less than this far before the first
digit. -/
def minPoint : Int := -5

def Digits.signed (d : Digits) (text : List Char) : String :=
  String.ofList (if d.negative then '-' :: text else text)

def scientific (x : Float) : String :=
  let d := Digits.ofFloat x
  let point : Int := d.digits.length + d.exponent
  d.signed (if minPoint < point && point ≤ maxPoint then d.pointed else d.scaled)

def positional (x : Float) : String :=
  let d := Digits.ofFloat x
  d.signed d.pointed

/-! ### Reading -/

/-- The number `n · 10^e`, or infinity. Far outside the range of numbers the digits do not
matter. -/
def ofParts (n : Nat) (e : Int) : Float :=
  let leading : Int := digitCount n + e
  if n = 0 || leading < -400 then 0.0
  else if 400 < leading then 1.0 / 0.0
  else Float.ofScientific n (e < 0) e.natAbs

def exponent? : List Char → Option Int
  | [] => some 0
  | c :: r =>
    if c = 'e' || c = 'E' then
      let (negative, ds) := match r with
        | '-' :: ds => (true, ds)
        | '+' :: ds => (false, ds)
        | ds => (false, ds)
      if ds.isEmpty || !ds.all Char.isDigit then none
      else
        -- a longer exponent is as good as one with seven digits
        let size := Text.ofDigits 10 ((ds.dropWhile (· == '0')).take 7)
        some (if negative then -(size : Int) else size)
    else none

def unsigned? (s : List Char) : Option Float := do
  let whole := s.takeWhile Char.isDigit
  let r := s.dropWhile Char.isDigit
  let (fraction, r) := match r with
    | '.' :: t => (t.takeWhile Char.isDigit, t.dropWhile Char.isDigit)
    | t => ([], t)
  if whole.isEmpty && fraction.isEmpty then none
  else do
    let e ← exponent? r
    some (ofParts (Text.ofDigits 10 (whole ++ fraction)) (e - fraction.length))

def ofText? (s : List Char) : Option Float :=
  match s with
  | '-' :: r => (unsigned? r).map fun x => -x
  | '+' :: r => unsigned? r
  | r => unsigned? r

end PipelineRunner.Decimal
