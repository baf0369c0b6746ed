/-!
# Searching and replacing

Occurrences of one text in another. `replaceChars` replaces from left to right and never looks
again at what it wrote.
-/

namespace PipelineRunner.Text

def occursIn (needle : List Char) : List Char → Bool
  | [] => needle.isEmpty
  | c :: r => needle.isPrefixOf (c :: r) || occursIn needle r

def contains (s needle : String) : Bool := occursIn needle.toList s.toList

/-- Replaces the occurrences of a non-empty `needle`; the first argument counts the characters of
the occurrence under way that are still to be passed over. -/
def replaceFrom (needle replacement : List Char) : Nat → List Char → List Char
  | _, [] => []
  | skip + 1, _ :: r => replaceFrom needle replacement skip r
  | 0, c :: r =>
    if needle.isPrefixOf (c :: r) then
      replacement ++ replaceFrom needle replacement (needle.length - 1) r
    else
      c :: replaceFrom needle replacement 0 r

/-- Every occurrence of `needle`, from left to right and without overlap, replaced. An empty
`needle` occurs nowhere. -/
def replaceChars (needle replacement s : List Char) : List Char :=
  if needle.isEmpty then s else replaceFrom needle replacement 0 s

def replace (s needle replacement : String) : String :=
  String.ofList (replaceChars needle.toList replacement.toList s.toList)

def splitFirst (sep : Char) : List Char → Option (List Char × List Char)
  | [] => none
  | c :: r => if c = sep then some ([], r) else (splitFirst sep r).map fun p => (c :: p.1, p.2)

end PipelineRunner.Text
