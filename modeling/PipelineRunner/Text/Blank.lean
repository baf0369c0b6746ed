/-!
# Blank characters

The 25 code points with the Unicode property `White_Space`, and the removal of blanks at the
ends of a text.
-/

namespace PipelineRunner.Text

/-- The code points of the property `White_Space`. -/
def isBlank (c : Char) : Bool :=
  let n := c.toNat
  (0x9 ≤ n && n ≤ 0xD) || n == 0x20 || n == 0x85 || n == 0xA0 || n == 0x1680 ||
    (0x2000 ≤ n && n ≤ 0x200A) || n == 0x2028 || n == 0x2029 || n == 0x202F || n == 0x205F ||
    n == 0x3000

def dropBlanks (s : List Char) : List Char := s.dropWhile isBlank

def dropBlanksEnd (s : List Char) : List Char := (s.reverse.dropWhile isBlank).reverse

def trimChars (s : List Char) : List Char := dropBlanksEnd (dropBlanks s)

def trim (s : String) : String := String.ofList (trimChars s.toList)

def trimEnd (s : String) : String := String.ofList (dropBlanksEnd s.toList)

def isBlankText (s : String) : Bool := s.toList.all isBlank

end PipelineRunner.Text
