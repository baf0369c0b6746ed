import PipelineRunner.Decimal.Shortest
import PipelineRunner.Word

/-!
# Rounded numbers

Floating-point numbers rounded to whole ones, a half to the even neighbour.
-/

namespace PipelineRunner.Decimal

/-- The quotient of two numbers rounded to the nearest number, a half to the even neighbour. -/
def roundedQuotient (n d : Nat) : Nat :=
  let below := n / d
  let rest := 2 * (n % d)
  if rest < d then below
  else if d < rest then below + 1
  else below + below % 2

def Binary.rounded (b : Binary) : Nat :=
  if 0 ≤ b.q then b.m * Nat.pow 2 b.q.toNat
  else roundedQuotient b.m (Nat.pow 2 (-b.q).toNat)

def whole (x : Float) : String :=
  if x.isNaN then "NaN"
  else
    let bits := x.toBits
    let magnitude := if x.isFinite then toString (Binary.ofBits bits).rounded else "inf"
    if Word.half64 ≤ bits.toNat then "-" ++ magnitude else magnitude

end PipelineRunner.Decimal
