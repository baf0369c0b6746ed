import PipelineRunner.Host.Octets

/-!
# Patterns

Patterns of the shell: `*` fits any text, `?` any character, and a set in brackets one of its
characters. A quoted character only fits itself.
-/

namespace PipelineRunner.Host.Script

abbrev Marked := List (Char × Bool)

def Marked.quoted (s : Octets) : Marked := s.map fun c => (c, true)

def Marked.bare (s : Octets) : Marked := s.map fun c => (c, false)

def Marked.text (m : Marked) : Octets := m.map (·.1)

inductive PatternItem
  | one (c : Char)
  | any
  | many
  | oneOf (negated : Bool) (ranges : List (Char × Char))
  deriving DecidableEq, Repr

def PatternItem.fits (p : PatternItem) (c : Char) : Bool :=
  match p with
  | one d => c == d
  | any | many => true
  | oneOf negated ranges => (ranges.any fun r => r.1 ≤ c && c ≤ r.2) != negated

def ranges : List Char → List (Char × Char)
  | a :: '-' :: b :: r => (a, b) :: ranges r
  | a :: r => (a, a) :: ranges r
  | [] => []

/-- Reads a set after its opening bracket: its element, and how many characters it takes. -/
def set? (m : Marked) : Option (PatternItem × Nat) :=
  let (negated, start) := match m with
    | ('!', false) :: _ => (true, 1)
    | ('^', false) :: _ => (true, 1)
    | _ => (false, 0)
  let body := m.drop start
  let size := 1 + ((body.drop 1).takeWhile fun c => c != (']', false)).length
  match body.drop size with
  | [] => none
  | _ :: _ => some (.oneOf negated (ranges (Marked.text (body.take size))), start + size + 1)

/-- Reads a pattern; the first argument counts the characters to pass over. -/
def pattern : Nat → Marked → List PatternItem
  | _, [] => []
  | skip + 1, _ :: r => pattern skip r
  | 0, (c, quoted) :: r =>
    if quoted then .one c :: pattern 0 r
    else if c == '*' then .many :: pattern 0 r
    else if c == '?' then .any :: pattern 0 r
    else if c == '[' then
      match set? r with
      | some (p, size) => p :: pattern size r
      | none => .one c :: pattern 0 r
    else .one c :: pattern 0 r

def fits : List PatternItem → List Char → Bool
  | [], [] => true
  | [], _ :: _ => false
  | .many :: p, [] => fits p []
  | .many :: p, c :: s => fits p (c :: s) || fits (.many :: p) s
  | _ :: _, [] => false
  | i :: p, c :: s => i.fits c && fits p s
termination_by p s => p.length + s.length

def isPattern (m : Marked) : Bool :=
  m.any fun c => !c.2 && (c.1 == '*' || c.1 == '?' || c.1 == '[')

def trimFit (atEnd longest : Bool) (p : List PatternItem) (s : Octets) : Octets :=
  let sizes := List.range (s.length + 1)
  let sizes := if longest then sizes.reverse else sizes
  match sizes.find? fun n => fits p (if atEnd then s.drop (s.length - n) else s.take n) with
  | none => s
  | some n => if atEnd then s.take (s.length - n) else s.drop n

end PipelineRunner.Host.Script
