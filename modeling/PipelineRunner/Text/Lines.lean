/-!
# Lines

A line ends at a line feed, or at a carriage return and a line feed; both are dropped. A line
ending at the end of the text starts no further line.
-/

namespace PipelineRunner.Text

/-- The line held in reverse in `acc`, without the carriage return that ends it. -/
def closeLine : List Char → List Char
  | '\r' :: acc => acc.reverse
  | acc => acc.reverse

/-- The lines of a text of which `acc`, in reverse, was already read on the current line. -/
def linesFrom (acc : List Char) : List Char → List (List Char)
  | [] => if acc.isEmpty then [] else [acc.reverse]
  | c :: r => if c = '\n' then closeLine acc :: linesFrom [] r else linesFrom (c :: acc) r

def lines (s : String) : List String := (linesFrom [] s.toList).map String.ofList

end PipelineRunner.Text
