/-!
# Digits

Numbers written in a base up to 36: after 9 the letters go on, in either case.
-/

namespace PipelineRunner.Text

def digit? (base : Nat) (c : Char) : Option Nat :=
  let value :=
    if c.isDigit then some (c.toNat - 48)
    else if 'a' ≤ c ∧ c ≤ 'z' then some (c.toNat - 87)
    else if 'A' ≤ c ∧ c ≤ 'Z' then some (c.toNat - 55)
    else none
  value.filter (· < base)

def isDigitIn (base : Nat) (c : Char) : Bool := (digit? base c).isSome

/-- The number that digits make; anything else counts as zero. -/
def ofDigits (base : Nat) (ds : List Char) : Nat :=
  ds.foldl (fun n c => n * base + (digit? base c).getD 0) 0

def ofDigits? (base : Nat) (ds : List Char) : Option Nat :=
  if ds.isEmpty || !ds.all (isDigitIn base) then none else some (ofDigits base ds)

end PipelineRunner.Text
