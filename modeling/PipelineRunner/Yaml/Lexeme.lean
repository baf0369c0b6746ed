import PipelineRunner.Text.Digits
import PipelineRunner.Yaml.Cursor
import PipelineRunner.Yaml.Token

/-!
# Lexemes of YAML

How the tokens with a text of their own are read: directives, anchors, tags, and scalars in their
five styles. Each reader takes a cursor at the first character and gives back the token with the
cursor behind it, or nothing if the text is malformed.
-/

namespace PipelineRunner.Yaml.Lexeme

/-! ### Anchors and tags -/

def endsAnchor (c : Cursor) : Bool :=
  c.gapAt 0 || c.peek.any fun x => "?:,]\x7d%@\x60".toList.contains x

def anchorName? (c : Cursor) : Option (List Char × Cursor) :=
  let (name, c) := c.next.takeWhile isWordChar
  if name.isEmpty || !endsAnchor c then none else some (name, c)

def escapedByte? : List Char → Option (Nat × List Char)
  | '%' :: a :: b :: r => do
    let x ← Text.digit? 16 a
    let y ← Text.digit? 16 b
    some (x * 16 + y, r)
  | _ => none

def escapedTail? : Nat → Nat → List Char → Option (Nat × List Char)
  | 0, value, r => some (value, r)
  | n + 1, value, r => do
    let (b, r) ← escapedByte? r
    if b / 64 = 2 then escapedTail? n (value * 64 + b % 64) r else none

def escapedChar? (r : List Char) : Option (Char × Nat) := do
  let (b, r) ← escapedByte? r
  if b < 0x80 then some (Char.ofNat b, 1)
  else if b / 32 = 6 then do
    let (v, _) ← escapedTail? 1 (b % 32) r
    some (Char.ofNat v, 2)
  else if b / 16 = 14 then do
    let (v, _) ← escapedTail? 2 (b % 16) r
    some (Char.ofNat v, 3)
  else if b / 8 = 30 then do
    let (v, _) ← escapedTail? 3 (b % 8) r
    some (Char.ofNat v, 4)
  else none

/-- A character that a tag may hold; inside angle brackets three more are allowed. -/
def isTagChar (verbatim : Bool) (x : Char) : Bool :=
  isWordChar x || ";/?:@&=+$.%!~*'()".toList.contains x || (verbatim && ",[]".toList.contains x)

def tagChars? (verbatim : Bool) : Nat → Cursor → Option (List Char × Cursor)
  | 0, c => some ([], c)
  | fuel + 1, c =>
    match c.peek with
    | none => some ([], c)
    | some x =>
      if !isTagChar verbatim x then some ([], c)
      else if x == '%' then do
        let (y, n) ← escapedChar? c.rest
        let (ys, c) ← tagChars? verbatim fuel (c.skip (3 * n))
        some (y :: ys, c)
      else do
        let (ys, c) ← tagChars? verbatim fuel c.next
        some (x :: ys, c)

def tagText? (verbatim : Bool) (c : Cursor) : Option (List Char × Cursor) := do
  let (text, c) ← tagChars? verbatim c.rest.length c
  if text.isEmpty then none else some (text, c)

def tagHandle (c : Cursor) : List Char × Cursor :=
  let (word, c) := c.next.takeWhile isWordChar
  if c.sees '!' then ('!' :: word ++ ['!'], c.next) else ('!' :: word, c)

def tagParts? (c : Cursor) : Option ((List Char × List Char) × Cursor) :=
  if c.peekAt 1 == some '<' then do
    let (text, c) ← tagText? true (c.skip 2)
    if c.sees '>' then some (([], text), c.next) else none
  else
    let (handle, c) := tagHandle c
    if 1 < handle.length && handle.getLast? == some '!' then do
      let (suffix, c) ← tagText? false c
      some ((handle, suffix), c)
    else do
      let (more, c) ← tagChars? false c.rest.length c
      let suffix := handle.drop 1 ++ more
      if suffix.isEmpty then some (([], ['!']), c) else some ((['!'], suffix), c)

def tag? (inFlow : Bool) (c : Cursor) : Option (Token × Cursor) := do
  let ((handle, suffix), c) ← tagParts? c
  if c.gapAt 0 || (inFlow && c.sees ',') then some (.tag handle suffix, c) else none

/-! ### Directives -/

def versionNumber? (c : Cursor) : Option (Nat × Cursor) :=
  let (ds, c) := c.takeWhile Char.isDigit
  if ds.isEmpty || 9 < ds.length then none
  else some (Text.ofDigits 10 ds, c)

def version? (c : Cursor) : Option (Token × Cursor) := do
  let (major, c) ← versionNumber? (c.skipWhile isSpaceOrTab)
  if c.sees '.' then do
    let (minor, c) ← versionNumber? c.next
    some (.versionDirective major minor, c)
  else none

def tagDirective? (c : Cursor) : Option (Token × Cursor) := do
  let c := c.skipWhile isSpaceOrTab
  if !c.sees '!' then none
  else
    let (handle, c) := tagHandle c
    if handle != ['!'] && (handle.length < 2 || handle.getLast? != some '!') then none
    else if !c.atSpaceOrTab then none
    else do
      let (stem, c) ← tagText? true (c.skipWhile isSpaceOrTab)
      if c.gapAt 0 then some (.tagDirective handle stem, c) else none

def directive? (c : Cursor) : Option (Token × Cursor) := do
  let (name, c) := c.next.takeWhile isWordChar
  if name.isEmpty || !c.gapAt 0 then none
  else do
    let (token, c) ←
      if name == "YAML".toList then version? c
      else if name == "TAG".toList then tagDirective? c
      else none
    let c ← c.finishLine?
    some (token, c)

/-! ### Folding -/

/-- The line ends met since the last text on a line: the first one, and those after it. -/
structure Breaks where
  first : List Char
  more : List Char

def Breaks.none : Breaks := ⟨[], []⟩

/-- What line ends inside a flow scalar stand for: a single line feed is a space. -/
def Breaks.fold (b : Breaks) : List Char :=
  if b.first == ['\n'] then (if b.more.isEmpty then [' '] else b.more) else b.first ++ b.more

/-- Blanks between the words of a flow scalar: the spaces on a line, or the line ends. -/
structure Gap where
  spaces : List Char
  breaks : Breaks
  broken : Bool

def Gap.none : Gap := ⟨[], .none, false⟩

def Gap.fold (g : Gap) : List Char := if g.broken then g.breaks.fold else g.spaces

def Gap.addBreak (g : Gap) (b : List Char) : Gap :=
  if g.broken then { g with breaks := { g.breaks with more := g.breaks.more ++ b } }
  else { spaces := [], breaks := { g.breaks with first := b }, broken := true }

/-- Reads blanks and line ends. A tab left of `margin` on a new line is malformed. -/
def gap? (margin : Nat) : Nat → Gap → Cursor → Option (Gap × Cursor)
  | 0, g, c => some (g, c)
  | fuel + 1, g, c =>
    match c.peek with
    | none => some (g, c)
    | some x =>
      if isSpaceOrTab x then
        if g.broken && c.column < margin && x == '\t' then none
        else if g.broken then gap? margin fuel g c.next
        else gap? margin fuel { g with spaces := g.spaces ++ [x] } c.next
      else if isBreak x then
        let (b, c) := c.nextLine
        gap? margin fuel (g.addBreak b) c
      else some (g, c)

/-! ### Quoted scalars -/

def shortEscapes : List (Char × Nat) :=
  [('0', 0), ('a', 7), ('b', 8), ('t', 9), ('\t', 9), ('n', 10), ('v', 11), ('f', 12), ('r', 13),
    ('e', 0x1B), (' ', 0x20), ('"', 0x22), ('/', 0x2F), ('\\', 0x5C), ('N', 0x85), ('_', 0xA0),
    ('L', 0x2028), ('P', 0x2029)]

def codeLength : Char → Nat
  | 'x' => 2
  | 'u' => 4
  | 'U' => 8
  | _ => 0

def escape? (c : Cursor) : Option (Char × Cursor) := do
  let x ← c.peek
  match shortEscapes.find? fun e => e.1 == x with
  | some e => some (Char.ofNat e.2, c.next)
  | none =>
    let n := codeLength x
    if n = 0 then none
    else do
      let digits := c.next.rest.take n
      if digits.length < n then none
      else do
        let v ← Text.ofDigits? 16 digits
        if (0xD800 ≤ v && v ≤ 0xDFFF) || 0x10FFFF < v then none
        else some (Char.ofNat v, c.next.skip n)

/-- Reads a quoted scalar behind its opening quote; `gap` holds the blanks before the cursor that
are not yet written. -/
def quotedFrom? (quote : Char) : Nat → Gap → Cursor → Option (List Char × Cursor)
  | 0, _, _ => none
  | fuel + 1, gap, c =>
    if c.atDocumentMark '-' || c.atDocumentMark '.' then none
    else
      match c.peek with
      | none => none
      | some x =>
        if x == quote then
          if quote == '\'' && c.peekAt 1 == some '\'' then do
            let (s, c) ← quotedFrom? quote fuel .none (c.skip 2)
            some (gap.fold ++ '\'' :: s, c)
          else some (gap.fold, c.next)
        else if isSpaceOrTab x || isBreak x then do
          let (g, c) ← gap? 0 c.rest.length .none c
          let (s, c) ← quotedFrom? quote fuel g c
          some (gap.fold ++ s, c)
        else if quote == '"' && x == '\\' then
          if c.next.atBreak then do
            let (_, c) := c.next.nextLine
            let (g, c) ← gap? 0 c.rest.length ⟨[], .none, true⟩ c
            let (s, c) ← quotedFrom? quote fuel g c
            some (gap.fold ++ s, c)
          else do
            let (y, c) ← escape? c.next
            let (s, c) ← quotedFrom? quote fuel .none c
            some (gap.fold ++ y :: s, c)
        else do
          let (s, c) ← quotedFrom? quote fuel .none c.next
          some (gap.fold ++ x :: s, c)

def quoted? (quote : Char) (c : Cursor) : Option (Token × Cursor) := do
  let (text, c) ← quotedFrom? quote (c.rest.length + 1) .none c.next
  some (.scalar text (if quote == '"' then .doubleQuoted else .singleQuoted), c)

/-! ### Plain scalars -/

def isFlowMark (x : Char) : Bool := x == ',' || x == '[' || x == ']' || x == '{' || x == '}'

/-- Whether a colon stands before a flow mark, which makes a plain scalar in a flow collection
malformed. -/
def strayColon (inFlow : Bool) (c : Cursor) : Bool :=
  inFlow && c.sees ':' && (c.peekAt 1).any fun x => isFlowMark x || x == '?'

def endsPlain (inFlow : Bool) (c : Cursor) : Bool :=
  (c.sees ':' && c.gapAt 1) || (inFlow && c.peek.any isFlowMark)

/-- The result of reading a plain scalar: its text, the cursor behind it and the blanks after it,
and whether a line ended in those blanks. -/
structure Plain where
  text : List Char
  cursor : Cursor
  brokenAfter : Bool

/-- Reads a plain scalar whose further lines have to start at `margin`. `gap` holds the blanks
before the cursor, `fresh` tells that a line or the scalar starts here or follows a gap. -/
def plainFrom? (inFlow : Bool) (margin : Nat) : Nat → Bool → Gap → Cursor → Option Plain
  | 0, _, gap, c => some ⟨[], c, gap.broken⟩
  | fuel + 1, fresh, gap, c =>
    if fresh && (c.atDocumentMark '-' || c.atDocumentMark '.' || c.sees '#') then
      some ⟨[], c, gap.broken⟩
    else
      match c.peek with
      | none => some ⟨[], c, gap.broken⟩
      | some x =>
        if isSpaceOrTab x || isBreak x then
          if fresh then some ⟨[], c, gap.broken⟩
          else do
            let (g, c) ← gap? margin c.rest.length .none c
            if !inFlow && c.column < margin then some ⟨[], c, g.broken⟩
            else plainFrom? inFlow margin fuel true g c
        else if strayColon inFlow c then none
        else if endsPlain inFlow c then some ⟨[], c, gap.broken⟩
        else do
          let p ← plainFrom? inFlow margin fuel false .none c.next
          some { p with text := gap.fold ++ x :: p.text }

def plain? (inFlow : Bool) (indent : Int) (c : Cursor) : Option Plain :=
  plainFrom? inFlow (indent + 1).toNat (2 * c.rest.length + 2) true .none c

/-! ### Block scalars -/

inductive Chomping
  | strip
  | clip
  | keep

def chompingOf? : Char → Option Chomping
  | '-' => some .strip
  | '+' => some .keep
  | _ => none

def indentMark? (x : Char) : Option Nat := Text.digit? 10 x

def blockMarks (c : Cursor) : Chomping × Option Nat × Cursor :=
  match c.peek.bind chompingOf? with
  | some ch =>
    match c.next.peek.bind indentMark? with
    | some n => (ch, some n, c.skip 2)
    | none => (ch, none, c.next)
  | none =>
    match c.peek.bind indentMark? with
    | some n =>
      match c.next.peek.bind chompingOf? with
      | some ch => (ch, some n, c.skip 2)
      | none => (.clip, some n, c.next)
    | none => (.clip, none, c)

/-- Reads indentation and empty lines: the line ends, the widest indentation, and the cursor. With
no known indentation (`0`) every space belongs to it. -/
def blockGap? (indent : Nat) : Nat → List Char → Nat → Cursor → Option (List Char × Nat × Cursor)
  | 0, breaks, widest, c => some (breaks, widest, c)
  | fuel + 1, breaks, widest, c =>
    let spaces := (c.rest.takeWhile (· == ' ')).length
    let c := c.skip (if indent = 0 then spaces else min spaces (indent - c.column))
    let widest := max widest c.column
    if (indent = 0 || c.column < indent) && c.sees '\t' then none
    else if c.atBreak then
      let (b, c) := c.nextLine
      blockGap? indent fuel (breaks ++ b) widest c
    else some (breaks, widest, c)

/-- Reads the lines of a block scalar: the text up to the last line, the line end of that line,
and the empty lines after it. -/
def blockLines? (literal : Bool) (indent : Nat) :
    Nat → Bool → List Char → List Char → Cursor →
      Option (List Char × List Char × List Char × Cursor)
  | 0, _, lineBreak, breaks, c => some ([], lineBreak, breaks, c)
  | fuel + 1, spacedBefore, lineBreak, breaks, c =>
    if c.column != indent || c.peek.isNone then some ([], lineBreak, breaks, c)
    else do
      let spaced := c.atSpaceOrTab
      let joined :=
        if !literal && lineBreak == ['\n'] && !spacedBefore && !spaced then
          (if breaks.isEmpty then [' '] else breaks)
        else lineBreak ++ breaks
      let (line, c) := c.takeWhile fun x => !isBreak x
      let (nextBreak, c) := c.nextLine
      let (nextBreaks, _, c) ← blockGap? indent (c.rest.length + 1) [] 0 c
      let (rest, lastBreak, tail, c) ← blockLines? literal indent fuel spaced nextBreak nextBreaks c
      some (joined ++ line ++ rest, lastBreak, tail, c)

def block? (literal : Bool) (parent : Int) (c : Cursor) : Option (Token × Cursor) := do
  let (chomping, increment, c) := blockMarks c.next
  if increment == some 0 then none
  else do
    let c ← c.finishLine?
    let given := match increment with
      | some n => ((if 0 ≤ parent then parent else 0) + n).toNat
      | none => 0
    let (breaks, widest, c) ← blockGap? given (c.rest.length + 1) [] 0 c
    let indent := if given = 0 then max (max widest (parent + 1).toNat) 1 else given
    let (text, lastBreak, tail, c) ←
      blockLines? literal indent (c.rest.length + 1) false [] breaks c
    let text := match chomping with
      | .strip => text
      | .clip => text ++ lastBreak
      | .keep => text ++ lastBreak ++ tail
    some (.scalar text (if literal then .literal else .folded), c)

end PipelineRunner.Yaml.Lexeme
