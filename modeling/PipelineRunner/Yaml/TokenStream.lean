import PipelineRunner.Yaml.Lexeme

/-!
# Token streams of YAML

The tokens of a whole text. A colon can turn what stands before it into a key, so a token may be
followed for a while by the possibility that a key starts at it; such a token is not certain until
the possibility is gone. If the text turns out to be malformed, the stream ends before the first
token that was not certain yet.
-/

namespace PipelineRunner.Yaml

structure KeyCandidate where
  /-- The number of tokens before the place. -/
  position : Nat
  /-- Whether the block's structure needs a key here. -/
  required : Bool
  index : Nat
  line : Nat
  column : Nat

structure TokenStream where
  tokens : List Token
  complete : Bool

structure TokenReader where
  cursor : Cursor
  tokens : List Token
  count : Nat
  /-- The indentation of the innermost block, `-1` outside all blocks. -/
  indent : Int
  outer : List Int
  keyAllowed : Bool
  /-- One entry for every open flow collection, innermost first, and one for the block. -/
  candidates : List (Option KeyCandidate)

namespace TokenReader

def start (s : String) : TokenReader :=
  { cursor := .ofText s, tokens := [], count := 0, indent := -1, outer := [], keyAllowed := true,
    candidates := [none] }

def inFlow (r : TokenReader) : Bool := 1 < r.candidates.length

def add (r : TokenReader) (t : Token) : TokenReader :=
  { r with tokens := t :: r.tokens, count := r.count + 1 }

def insert (r : TokenReader) (position : Nat) (t : Token) : TokenReader :=
  let after := r.count - position
  { r with tokens := r.tokens.take after ++ t :: r.tokens.drop after, count := r.count + 1 }

/-! ### Keys -/

/-- Drops the possibility of a key in the innermost collection. A required key must not be
missing. -/
def dropCandidate? (r : TokenReader) : Option TokenReader :=
  match r.candidates with
  | some k :: rest => if k.required then none else some { r with candidates := none :: rest }
  | _ => some r

def saveCandidate? (r : TokenReader) : Option TokenReader :=
  if r.keyAllowed then do
    let r ← r.dropCandidate?
    let k : KeyCandidate :=
      { position := r.count, required := !r.inFlow && r.indent == r.cursor.column,
        index := r.cursor.index, line := r.cursor.line, column := r.cursor.column }
    some { r with candidates := some k :: r.candidates.tail }
  else some r

/-- Whether a key that started at a candidate could not end here: keys are short and on one line. -/
def isStale (c : Cursor) (k : KeyCandidate) : Bool := k.line < c.line || k.index + 1024 < c.index

def dropStale? (r : TokenReader) : Option TokenReader :=
  let stale (k : Option KeyCandidate) : Bool := k.any (isStale r.cursor)
  if r.candidates.any fun k => stale k && k.any (·.required) then none
  else some { r with candidates := r.candidates.map fun k => if stale k then none else k }

/-! ### Blocks -/

def openBlock (r : TokenReader) (column position : Nat) (t : Token) : TokenReader :=
  if !r.inFlow && r.indent < column then
    { r.insert position t with indent := column, outer := r.indent :: r.outer }
  else r

def closeBlocks (column : Int) (r : TokenReader) : List Int → TokenReader
  | [] => { r with outer := [] }
  | i :: rest =>
    if column < r.indent then closeBlocks column { r.add .blockEnd with indent := i } rest
    else { r with outer := i :: rest }

/-- Closes the blocks deeper than a column; flow collections do not look at columns. -/
def unroll (r : TokenReader) (column : Int) : TokenReader :=
  if r.inFlow then r else closeBlocks column r r.outer

/-! ### Between tokens -/

/-- Moves over blanks, comments and line ends. A tab counts as a blank where no key may start. -/
def skipGap : Nat → TokenReader → TokenReader
  | 0, r => r
  | fuel + 1, r =>
    let c := if r.cursor.index = 0 && r.cursor.sees '\uFEFF' then r.cursor.next else r.cursor
    let tabs := r.inFlow || !r.keyAllowed
    let c := c.skipWhile fun x => x == ' ' || (tabs && x == '\t')
    let c := if c.sees '#' then c.skipToLineEnd else c
    if c.atBreak then
      skipGap fuel { r with cursor := c.nextLine.2, keyAllowed := r.keyAllowed || !r.inFlow }
    else { r with cursor := c }

/-! ### Single tokens -/

def mark (r : TokenReader) (n : Nat) (t : Token) : TokenReader :=
  { r with cursor := r.cursor.skip n }.add t

def finish? (r : TokenReader) : Option TokenReader := do
  let r ← (r.unroll (-1)).dropCandidate?
  some ({ r with keyAllowed := false }.add .streamEnd)

def directive? (r : TokenReader) : Option TokenReader := do
  let r ← (r.unroll (-1)).dropCandidate?
  let (t, c) ← Lexeme.directive? r.cursor
  some ({ r with keyAllowed := false, cursor := c }.add t)

def documentMark? (t : Token) (r : TokenReader) : Option TokenReader := do
  let r ← (r.unroll (-1)).dropCandidate?
  some ({ r with keyAllowed := false }.mark 3 t)

def flowStart? (t : Token) (r : TokenReader) : Option TokenReader := do
  let r ← r.saveCandidate?
  some ({ r with candidates := none :: r.candidates, keyAllowed := true }.mark 1 t)

def flowEnd? (t : Token) (r : TokenReader) : Option TokenReader := do
  let r ← r.dropCandidate?
  let candidates := if r.inFlow then r.candidates.tail else r.candidates
  some ({ r with candidates, keyAllowed := false }.mark 1 t)

def flowEntry? (r : TokenReader) : Option TokenReader := do
  let r ← r.dropCandidate?
  some ({ r with keyAllowed := true }.mark 1 .flowEntry)

def blockEntry? (r : TokenReader) : Option TokenReader := do
  if !r.inFlow && !r.keyAllowed then none
  else do
    let r ← (r.openBlock r.cursor.column r.count .blockSequenceStart).dropCandidate?
    some ({ r with keyAllowed := true }.mark 1 .blockEntry)

def key? (r : TokenReader) : Option TokenReader := do
  if !r.inFlow && !r.keyAllowed then none
  else do
    let r ← (r.openBlock r.cursor.column r.count .blockMappingStart).dropCandidate?
    some ({ r with keyAllowed := !r.inFlow }.mark 1 .key)

/-- The colon before a value. What stands at the candidate before it becomes a key. -/
def value? (r : TokenReader) : Option TokenReader :=
  match r.candidates with
  | some k :: rest =>
    let r := r.insert k.position .key
    let r := r.openBlock k.column k.position .blockMappingStart
    some ({ r with candidates := none :: rest, keyAllowed := false }.mark 1 .value)
  | _ =>
    if !r.inFlow && !r.keyAllowed then none
    else
      let r := r.openBlock r.cursor.column r.count .blockMappingStart
      some ({ r with keyAllowed := !r.inFlow }.mark 1 .value)

def lexeme? (read : Cursor → Option (Token × Cursor)) (r : TokenReader) : Option TokenReader := do
  let r ← r.saveCandidate?
  let (t, c) ← read r.cursor
  some ({ r with keyAllowed := false, cursor := c }.add t)

def blockScalar? (literal : Bool) (r : TokenReader) : Option TokenReader := do
  let r ← r.dropCandidate?
  let (t, c) ← Lexeme.block? literal r.indent r.cursor
  some ({ r with keyAllowed := true, cursor := c }.add t)

def plainScalar? (r : TokenReader) : Option TokenReader := do
  let r ← r.saveCandidate?
  let p ← Lexeme.plain? r.inFlow r.indent r.cursor
  some ({ r with keyAllowed := p.brokenAfter, cursor := p.cursor }.add (.scalar p.text .plain))

def named? (t : List Char → Token) (c : Cursor) : Option (Token × Cursor) :=
  (Lexeme.anchorName? c).map fun p => (t p.1, p.2)

def startsPlain (r : TokenReader) : Bool :=
  match r.cursor.peek with
  | none => false
  | some x =>
    if x == '-' then !(r.cursor.peekAt 1).any isSpaceOrTab
    else if x == '?' || x == ':' then !r.inFlow && !r.cursor.gapAt 1
    else !(isSpaceOrTab x || isBreak x || ",[]\x7b\x7d#&*!|>\x27\x22%@\x60".toList.contains x)

def token? (r : TokenReader) : Option TokenReader :=
  let c := r.cursor
  match c.peek with
  | none => r.finish?
  | some x =>
    if c.column == 0 && x == '%' then r.directive?
    else if c.atDocumentMark '-' then r.documentMark? .documentStart
    else if c.atDocumentMark '.' then r.documentMark? .documentEnd
    else if x == '[' then r.flowStart? .flowSequenceStart
    else if x == '{' then r.flowStart? .flowMappingStart
    else if x == ']' then r.flowEnd? .flowSequenceEnd
    else if x == '}' then r.flowEnd? .flowMappingEnd
    else if x == ',' then r.flowEntry?
    else if x == '-' && c.gapAt 1 then r.blockEntry?
    else if x == '?' && (r.inFlow || c.gapAt 1) then r.key?
    else if x == ':' && (r.inFlow || c.gapAt 1) then r.value?
    else if x == '*' then r.lexeme? (named? .alias)
    else if x == '&' then r.lexeme? (named? .anchor)
    else if x == '!' then r.lexeme? (Lexeme.tag? r.inFlow)
    else if x == '|' && !r.inFlow then r.blockScalar? true
    else if x == '>' && !r.inFlow then r.blockScalar? false
    else if x == '\'' then r.lexeme? (Lexeme.quoted? '\'')
    else if x == '"' then r.lexeme? (Lexeme.quoted? '"')
    else if r.startsPlain then r.plainScalar?
    else none

def step? (r : TokenReader) : Option TokenReader := do
  let r ← (skipGap (r.cursor.rest.length + 1) r).dropStale?
  (r.unroll r.cursor.column).token?

/-! ### Streams -/

/-- The tokens that are certain: those before the first candidate. -/
def certain (r : TokenReader) : List Token :=
  let first := r.candidates.foldl (fun n k => match k with
    | some k => min n k.position
    | none => n) r.count
  (r.tokens.drop (r.count - first)).reverse

def run : Nat → TokenReader → TokenStream
  | 0, r => ⟨r.certain, false⟩
  | fuel + 1, r =>
    match r.step? with
    | none => ⟨r.certain, false⟩
    | some r' =>
      if r'.tokens.head? == some .streamEnd then ⟨r'.tokens.reverse, true⟩ else run fuel r'

end TokenReader

def TokenStream.ofText (s : String) : TokenStream :=
  if s.toList.all isAllowed then TokenReader.run (s.length + 2) (.start s) else ⟨[], false⟩

end PipelineRunner.Yaml
