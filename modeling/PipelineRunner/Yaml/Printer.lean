import PipelineRunner.Yaml.Cursor
import PipelineRunner.Yaml.Token
import PipelineRunner.Yaml.Value

/-!
# Printing YAML

The block form of a value. A string is written plain where that reads back as the same string, and
otherwise in the simplest style that can hold it. Items of a sequence under a key are not indented.
-/

namespace PipelineRunner.Yaml.Printer

/-! ### Characters -/

def isGap (c : Char) : Bool := isSpaceOrTab c || c.toNat == 0 || isBreak c

def isPrintable (c : Char) : Bool :=
  let n := c.toNat
  n == 0xA || (0x20 ≤ n && n ≤ 0x7E) || (0xA0 ≤ n && n ≤ 0xFFFD && n != 0xFEFF)

def gapAhead : List Char → Bool
  | [] => true
  | c :: _ => isGap c

/-! ### Which styles can hold a text -/

def hasPair (p q : Char → Bool) : List Char → Bool
  | a :: b :: r => (p a && q b) || hasPair p q (b :: r)
  | _ => false

/-- Whether a text that starts like this would be read as something else than a plain scalar. -/
def startsWithMark (s : List Char) : Bool :=
  match s with
  | [] => false
  | c :: r =>
    "#,[]&*!|>\x7b\x7d\x27\x22%@\x60".toList.contains c ||
      ((c == '?' || c == ':' || c == '-') && gapAhead r) ||
      ['-', '-', '-'].isPrefixOf s || ['.', '.', '.'].isPrefixOf s

def hasMark (afterGap : Bool) : List Char → Bool
  | [] => false
  | c :: r => (c == ':' && gapAhead r) || (c == '#' && afterGap) || hasMark (isGap c) r

def hasTrailingSpace (s : List Char) : Bool :=
  s.getLast? == some ' ' || hasPair (· == ' ') isBreak s

def isShown (s : List Char) : Bool := s.all isPrintable

def allowsPlain (s : List Char) : Bool :=
  isShown s && !s.any isBreak && s.head? != some ' ' && s.getLast? != some ' ' &&
    !startsWithMark s && !hasMark (s.head?.any isGap) (s.drop 1)

def allowsSingleQuotes (s : List Char) : Bool :=
  isShown s && !hasPair isBreak (· == ' ') s && !hasPair (· == ' ') isBreak s

def allowsLiteral (s : List Char) : Bool := isShown s && !hasTrailingSpace s

/-- The style of a text: literal if it has several lines, quoted if it would be read as something
else than a string. -/
def styleOf (s : String) : ScalarStyle :=
  let cs := s.toList
  if cs.contains '\n' then if allowsLiteral cs then .literal else .doubleQuoted
  else
    let ambiguous := match Scalar.ofPlain s with
      | .text _ => Scalar.isZeroPadded cs
      | _ => true
    if !ambiguous && allowsPlain cs then .plain
    else if allowsSingleQuotes cs then .singleQuoted
    else .doubleQuoted

/-! ### Texts in each style -/

def hex (width n : Nat) : List Char :=
  let ds := (Nat.toDigits 16 n).map Char.toUpper
  List.replicate (width - ds.length) '0' ++ ds

def escaped (c : Char) : List Char :=
  let n := c.toNat
  if isPrintable c && !isBreak c && c != '"' && c != '\\' then [c]
  else
    '\\' ::
      (if n == 0 then ['0']
      else if n == 7 then ['a']
      else if n == 8 then ['b']
      else if n == 9 then ['t']
      else if n == 10 then ['n']
      else if n == 11 then ['v']
      else if n == 12 then ['f']
      else if n == 13 then ['r']
      else if n == 27 then ['e']
      else if c == '"' || c == '\\' then [c]
      else if n == 0x85 then ['N']
      else if n == 0x2028 then ['L']
      else if n == 0x2029 then ['P']
      else if n ≤ 0xFF then 'x' :: hex 2 n
      else if n ≤ 0xFFFF then 'u' :: hex 4 n
      else 'U' :: hex 8 n)

def padLines (pad : List Char) : Bool → List Char → List Char
  | _, [] => []
  | atStart, c :: r =>
    if isBreak c then c :: padLines pad true r
    else (if atStart then pad ++ [c] else [c]) ++ padLines pad false r

/-- The header of a literal block: an indentation mark if the text starts with a gap, and what
becomes of the line ends at its end. -/
def literalHeader (s : List Char) : List Char :=
  let mark := match s.head? with
    | some c => if c == ' ' || isBreak c then ['2'] else []
    | none => []
  let chomp := match s.reverse with
    | [] => ['-']
    | [c] => if isBreak c then ['+'] else ['-']
    | c :: d :: _ => if !isBreak c then ['-'] else if isBreak d then ['+'] else []
  '|' :: mark ++ chomp

def styled (indent : Nat) (s : List Char) : ScalarStyle → List Char
  | .plain => s
  | .singleQuoted =>
    let pad := List.replicate indent ' '
    let body := padLines pad false (s.flatMap fun c => if c == '\'' then [c, c] else [c])
    let last := match s.getLast? with
      | some c => if isBreak c then pad else []
      | none => []
    '\'' :: body ++ last ++ ['\'']
  | .doubleQuoted => '"' :: s.flatMap escaped ++ ['"']
  | _ => literalHeader s ++ '\n' :: padLines (List.replicate indent ' ') true s

/-! ### Tags -/

def isTagChar (c : Char) : Bool :=
  c.isAlphanum || "-_;/?:@&=+$,.~*'()[]".toList.contains c

def tagChar (c : Char) : List Char :=
  if isTagChar c then [c]
  else (String.singleton c).toUTF8.toList.flatMap fun b => '%' :: hex 2 b.toNat

def tagText (tag : String) : List Char :=
  if tag == "!" then "!<%21>".toList else '!' :: tag.toList.flatMap tagChar

/-! ### Nodes -/

/-- Where a node starts: on a fresh line, after the mark of an item, or after a key or a tag. -/
inductive Lead
  | fresh
  | item
  | after
  deriving DecidableEq

def Lead.gap : Lead → List Char
  | .fresh => []
  | _ => [' ']

def newLine (indent : Nat) (done : List Char) : List Char :=
  (match done.getLast? with
  | some c => if isBreak c then [] else ['\n']
  | none => []) ++ List.replicate indent ' '

def lines (indent : Nat) : List (List Char) → List Char
  | [] => []
  | [p] => p
  | p :: r => p ++ newLine indent p ++ lines indent r

def Lead.open (lead : Lead) (indent : Nat) : List Char :=
  match lead with
  | .fresh => []
  | .item => [' ']
  | .after => '\n' :: List.replicate indent ' '

def deeper : Option Nat → Nat
  | none => 0
  | some i => i + 2

def textIndent : Option Nat → Nat
  | none => 2
  | some i => i + 2

def isSimpleKey : Value → Nat → Bool
  | .null, tagged => tagged + 4 ≤ 128
  | .bool b, tagged => tagged + (if b then 4 else 5) ≤ 128
  | .number n, tagged => tagged + n.render.utf8ByteSize ≤ 128
  | .text s, tagged => !s.toList.any isBreak && tagged + s.utf8ByteSize ≤ 128
  | .sequence items, tagged => items.isEmpty && tagged ≤ 128
  | .mapping entries, tagged => entries.isEmpty && tagged ≤ 128
  | .tagged t v, _ => isSimpleKey v (if t == "!" then 1 else t.utf8ByteSize + 1)

mutual

/-- A node with what separates it from the text before it. `underKey` says that it belongs to an
entry of a mapping, and `outer` is the indentation around it. -/
def node (lead : Lead) (underKey : Bool) (outer : Option Nat) : Value → List Char
  | .null => lead.gap ++ "null".toList
  | .bool b => lead.gap ++ (if b then "true" else "false").toList
  | .number n => lead.gap ++ n.render.toList
  | .text s => lead.gap ++ styled (textIndent outer) s.toList (styleOf s)
  | .sequence [] => lead.gap ++ "[]".toList
  | .sequence items =>
    let indent := if underKey && lead == .after then outer.getD 0 else deeper outer
    lead.open indent ++ lines indent (itemLines indent items)
  | .mapping [] => lead.gap ++ ['\x7b', '\x7d']
  | .mapping entries =>
    let indent := deeper outer
    lead.open indent ++ lines indent (entryLines indent entries)
  | .tagged t v => lead.gap ++ tagText t ++ node .after underKey outer v

def itemLines (indent : Nat) : List Value → List (List Char)
  | [] => []
  | v :: r => ('-' :: node .item false (some indent) v) :: itemLines indent r

/-- The entries of a mapping, a key that is not simple and its value on lines of their own. -/
def entryLines (indent : Nat) : List (Value × Value) → List (List Char)
  | [] => []
  | (k, v) :: r =>
    if isSimpleKey k 0 then
      (node .fresh true (some indent) k ++ ':' :: node .after true (some indent) v) ::
        entryLines indent r
    else
      ('?' :: node .item true (some indent) k) :: (':' :: node .item true (some indent) v) ::
        entryLines indent r

end

def render (v : Value) : String := String.ofList (node .fresh false none v ++ ['\n'])

end PipelineRunner.Yaml.Printer
