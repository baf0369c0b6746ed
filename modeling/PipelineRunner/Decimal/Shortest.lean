/-!
# Shortest decimals

The decimal with the fewest digits that reads back as a given floating-point number, and of those
the nearest to it. A number is taken as `m · 2^q`; the reals that read back as it lie between the
midpoints to its two neighbours, the midpoints included if `m` is even. For one digit, two digits
and so on the two points of that decimal grid around the number are tried, all in exact arithmetic.
-/

namespace PipelineRunner.Decimal

/-- A positive binary fraction `m · 2^q`, and whether the number below it is only half as far away
as the one above. -/
structure Binary where
  m : Nat
  q : Int
  narrowBelow : Bool
  deriving DecidableEq, Repr

/-- The bit that is not stored with the others; the bits of the exponent start here. -/
def implicitBit : Nat := 0x10000000000000

/-- The magnitude of a finite floating-point number, by its bits; zero has `m = 0`. -/
def Binary.ofBits (bits : UInt64) : Binary :=
  let fraction : Nat := bits.toNat % implicitBit
  let exponent : Nat := bits.toNat / implicitBit % 2048
  if exponent = 0 then ⟨fraction, -1074, false⟩
  else ⟨implicitBit + fraction, exponent - 1075, fraction == 0 && decide (1 < exponent)⟩

/-- The interval that reads back as a number, in quarters of the unit `2^q`, scaled to integers:
with the scale `den`, the bounds and the number itself are `low / den`, `high / den` and
`value / den`. -/
structure Interval where
  low : Nat
  value : Nat
  high : Nat
  den : Nat
  closed : Bool

def Binary.interval (x : Binary) : Interval :=
  let up := Nat.pow 2 x.q.toNat
  let down := Nat.pow 2 (-x.q).toNat
  { low := (4 * x.m - if x.narrowBelow then 1 else 2) * up
    value := 4 * x.m * up
    high := (4 * x.m + 2) * up
    den := 4 * down
    closed := x.m % 2 == 0 }

def Interval.contains (i : Interval) (n : Nat) (k : Int) : Bool :=
  let point := n * Nat.pow 10 k.toNat * i.den
  let scale := Nat.pow 10 (-k).toNat
  if i.closed then i.low * scale ≤ point && point ≤ i.high * scale
  else i.low * scale < point && point < i.high * scale

def digitCount (n : Nat) : Nat := (Nat.toDigits 10 n).length

/-- The power of ten of the leading digit of `value / den`. -/
def Interval.leading (i : Interval) : Int :=
  let guess : Int := digitCount i.value - digitCount i.den
  if Nat.pow 10 guess.toNat * i.den ≤ i.value * Nat.pow 10 (-guess).toNat then guess else guess - 1

/-- The point of the grid `10^k` that is in the interval and nearest to the number, if there is
one; of two at the same distance the even one. -/
def Interval.onGrid? (i : Interval) (k : Int) : Option Nat :=
  let num := i.value * Nat.pow 10 (-k).toNat
  let den := i.den * Nat.pow 10 k.toNat
  let below := num / den
  let twice := 2 * (num % den)
  let first := if twice < den || (twice = den && below % 2 = 0) then below else below + 1
  let second := if first = below then below + 1 else below
  if i.contains first k then some first
  else if i.contains second k then some second
  else none

/-- The first grid with a point in the interval, from `digits` digits on. -/
def Interval.search (i : Interval) (leading : Int) : Nat → Nat → Nat × Int
  | 0, _ => (0, 0)
  | fuel + 1, digits =>
    let k := leading - digits + 1
    match i.onGrid? k with
    | some n => (n, k)
    | none => i.search leading fuel (digits + 1)

def dropZeros : Nat → Nat → Int → Nat × Int
  | 0, n, k => (n, k)
  | fuel + 1, n, k => if n % 10 = 0 && n ≠ 0 then dropZeros fuel (n / 10) (k + 1) else (n, k)

/-- The shortest decimal `n · 10^k` that reads back as a positive number. -/
def shortest (x : Binary) : Nat × Int :=
  let i := x.interval
  let (n, k) := i.search i.leading 17 1
  dropZeros 20 n k

end PipelineRunner.Decimal
