/-!
# Positions in a YAML text

The classes of characters that YAML's grammar speaks of, and a cursor: the rest of a text with the
place where it starts.
-/

namespace PipelineRunner.Yaml

/-! ### Character classes -/

def isSpaceOrTab (c : Char) : Bool := c == ' ' || c == '\t'

def isBreak (c : Char) : Bool :=
  c == '\n' || c == '\r' || c.toNat == 0x85 || c.toNat == 0x2028 || c.toNat == 0x2029

def isWordChar (c : Char) : Bool := c.isAlphanum || c == '_' || c == '-'

def isAllowed (c : Char) : Bool :=
  let n := c.toNat
  n == 0x9 || n == 0xA || n == 0xD || (0x20 ≤ n && n ≤ 0x7E) || n == 0x85 ||
    (0xA0 ≤ n && n ≤ 0xD7FF) || (0xE000 ≤ n && n ≤ 0xFFFD) || 0x10000 ≤ n

/-! ### Cursors -/

/-- The rest of a text and its place: characters and lines before it, characters before it on its
line. -/
structure Cursor where
  rest : List Char
  index : Nat
  line : Nat
  column : Nat

namespace Cursor

def ofText (s : String) : Cursor := ⟨s.toList, 0, 0, 0⟩

def peek (c : Cursor) : Option Char := c.rest.head?

def peekAt (c : Cursor) (n : Nat) : Option Char := c.rest[n]?

def sees (c : Cursor) (x : Char) : Bool := c.peek == some x

def gapAt (c : Cursor) (n : Nat) : Bool :=
  match c.peekAt n with
  | none => true
  | some x => isSpaceOrTab x || isBreak x

def atLineEnd (c : Cursor) : Bool :=
  match c.peek with
  | none => true
  | some x => isBreak x

def atSpaceOrTab (c : Cursor) : Bool := c.peek.any isSpaceOrTab

def atBreak (c : Cursor) : Bool := c.peek.any isBreak

def next (c : Cursor) : Cursor :=
  match c.rest with
  | [] => c
  | _ :: r => ⟨r, c.index + 1, c.line, c.column + 1⟩

def skip (c : Cursor) : Nat → Cursor
  | 0 => c
  | n + 1 => c.next.skip n

/-- Moves over a line end: what it stands for in a scalar, and the start of the next line. Other
line ends than the two Unicode separators stand for a line feed. -/
def nextLine (c : Cursor) : List Char × Cursor :=
  match c.rest with
  | '\r' :: '\n' :: r => (['\n'], ⟨r, c.index + 2, c.line + 1, 0⟩)
  | x :: r =>
    if isBreak x then
      ([if x.toNat == 0x2028 || x.toNat == 0x2029 then x else '\n'],
        ⟨r, c.index + 1, c.line + 1, 0⟩)
    else ([], c)
  | [] => ([], c)

/-- Moves on while a class of characters lasts; line ends are not to be in the class. -/
def skipWhile (p : Char → Bool) (c : Cursor) : Cursor := c.skip (c.rest.takeWhile p).length

def takeWhile (p : Char → Bool) (c : Cursor) : List Char × Cursor :=
  let cs := c.rest.takeWhile p
  (cs, c.skip cs.length)

def skipToLineEnd (c : Cursor) : Cursor := c.skipWhile fun x => !isBreak x

/-- Whether a line starts here that holds three of a mark and then a gap: the start or the end of a
document. -/
def atDocumentMark (c : Cursor) (x : Char) : Bool :=
  c.column == 0 && c.peekAt 0 == some x && c.peekAt 1 == some x && c.peekAt 2 == some x && c.gapAt 3

def finishLine? (c : Cursor) : Option Cursor :=
  let c := c.skipWhile isSpaceOrTab
  let c := if c.sees '#' then c.skipToLineEnd else c
  if c.atLineEnd then some c.nextLine.2 else none

end Cursor

end PipelineRunner.Yaml
