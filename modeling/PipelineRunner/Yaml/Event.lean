import PipelineRunner.Yaml.TokenStream

/-!
# Events of YAML

The structure of a stream as a list of events: documents, collections that start and end, scalars
and aliases. `EventStream.ofTokens` follows the grammar with a stack of what is to come; if the
tokens do not fit or break off, so do the events.
-/

namespace PipelineRunner.Yaml

structure Properties where
  anchor : Option (List Char)
  tag : Option (List Char)
  deriving DecidableEq, Repr

def Properties.none : Properties := ⟨Option.none, Option.none⟩

inductive Event
  | documentStart
  | documentEnd
  | alias (name : List Char)
  | scalar (properties : Properties) (text : List Char) (style : ScalarStyle)
  | sequenceStart (properties : Properties)
  | sequenceEnd
  | mappingStart (properties : Properties)
  | mappingEnd
  | streamEnd
  deriving DecidableEq, Repr

structure EventStream where
  events : List Event
  /-- Whether the text was well-formed to its end. -/
  complete : Bool

inductive Expect
  | firstDocument
  | document
  | documentContent
  | documentEnd
  | blockNode
  | blockNodeOrSequence
  | flowNode
  | blockItem
  | bareItem
  | blockKey
  | blockValue
  | firstFlowItem
  | flowItem
  | pairKey
  | pairValue
  | pairEnd
  | firstFlowKey
  | flowKey
  | flowValue
  | flowMissingValue
  deriving DecidableEq, Repr

structure EventReader where
  tokens : List Token
  stack : List Expect
  handles : List (List Char × List Char)

namespace EventReader

def defaultHandles : List (List Char × List Char) :=
  [(['!'], ['!']), (['!', '!'], "tag:yaml.org,2002:".toList)]

abbrev Step := Option (List Event × EventReader)

def emptyScalar : Event := .scalar .none [] .plain

def give (e : Event) (tokens : List Token) (stack : List Expect) (r : EventReader) : Step :=
  some ([e], { r with tokens, stack })

def goOn (tokens : List Token) (stack : List Expect) (r : EventReader) : Step :=
  some ([], { r with tokens, stack })

/-! ### Documents -/

def directives? (version : Bool) (handles : List (List Char × List Char)) :
    List Token → Option (List (List Char × List Char) × List Token)
  | .versionDirective major minor :: rest =>
    if version || major ≠ 1 || (minor ≠ 1 && minor ≠ 2) then none
    else directives? true handles rest
  | .tagDirective handle stem :: rest =>
    if handles.any fun e => e.1 == handle then none
    else directives? version (handles ++ [(handle, stem)]) rest
  | rest => some (handles, rest)

def withDefaults (handles : List (List Char × List Char)) : List (List Char × List Char) :=
  handles ++ defaultHandles.filter fun d => !handles.any fun e => e.1 == d.1

def startsExplicitly : Token → Bool
  | .versionDirective .. | .tagDirective .. | .documentStart | .streamEnd => true
  | _ => false

def explicitDocument? (r : EventReader) (tokens : List Token) : Step :=
  match tokens with
  | .streamEnd :: rest => r.give .streamEnd rest []
  | tokens => do
    let (handles, rest) ← directives? false [] tokens
    match rest with
    | .documentStart :: rest =>
      some ([.documentStart],
        { tokens := rest, stack := [.documentContent, .documentEnd],
          handles := withDefaults handles })
    | _ => none

def firstDocument? (r : EventReader) : Step :=
  match r.tokens with
  | [] => none
  | t :: _ =>
    if startsExplicitly t then r.explicitDocument? r.tokens
    else
      some ([.documentStart],
        { r with stack := [.blockNode, .documentEnd], handles := defaultHandles })

def endsContent : Token → Bool
  | .documentEnd => true
  | t => startsExplicitly t

/-! ### Nodes -/

def resolveTag? (r : EventReader) (handle suffix : List Char) : Option (List Char) :=
  if handle.isEmpty then some suffix
  else (r.handles.find? fun e => e.1 == handle).map fun e => e.2 ++ suffix

def properties? (r : EventReader) : List Token → Option (Properties × List Token)
  | .anchor a :: .tag h s :: rest => do
    let t ← r.resolveTag? h s
    some (⟨some a, some t⟩, rest)
  | .anchor a :: rest => some (⟨some a, none⟩, rest)
  | .tag h s :: .anchor a :: rest => do
    let t ← r.resolveTag? h s
    some (⟨some a, some t⟩, rest)
  | .tag h s :: rest => do
    let t ← r.resolveTag? h s
    some (⟨none, some t⟩, rest)
  | rest => some (.none, rest)

/-- A scalar with the tag `!` has no tag. -/
def scalarEvent (p : Properties) (text : List Char) (style : ScalarStyle) : Event :=
  .scalar (if p.tag == some ['!'] then { p with tag := none } else p) text style

def node? (block bareSequence : Bool) (r : EventReader) (below : List Expect) : Step :=
  match r.tokens with
  | .alias n :: rest => r.give (.alias n) rest below
  | tokens => do
    let (p, tokens) ← r.properties? tokens
    match tokens with
    | [] => none
    | .scalar text style :: rest => r.give (scalarEvent p text style) rest below
    | .flowSequenceStart :: rest => r.give (.sequenceStart p) rest (.firstFlowItem :: below)
    | .flowMappingStart :: rest => r.give (.mappingStart p) rest (.firstFlowKey :: below)
    | .blockEntry :: rest =>
      if bareSequence then r.give (.sequenceStart p) (.blockEntry :: rest) (.bareItem :: below)
      else if p == .none then none
      else r.give (.scalar p [] .plain) (.blockEntry :: rest) below
    | t :: rest =>
      if block && t == .blockSequenceStart then
        r.give (.sequenceStart p) rest (.blockItem :: below)
      else if block && t == .blockMappingStart then
        r.give (.mappingStart p) rest (.blockKey :: below)
      else if p == .none then none
      else r.give (.scalar p [] .plain) (t :: rest) below

/-! ### Block collections -/

def blockItem? (r : EventReader) (below : List Expect) : Step :=
  match r.tokens with
  | .blockEntry :: rest =>
    match rest with
    | [] => none
    | .blockEntry :: _ => r.give emptyScalar rest (.blockItem :: below)
    | .blockEnd :: _ => r.give emptyScalar rest (.blockItem :: below)
    | _ => r.goOn rest (.blockNode :: .blockItem :: below)
  | .blockEnd :: rest => r.give .sequenceEnd rest below
  | _ => none

/-- An item of a sequence that is not indented under its key. -/
def bareItem? (r : EventReader) (below : List Expect) : Step :=
  match r.tokens with
  | [] => none
  | .blockEntry :: rest =>
    match rest with
    | [] => none
    | .blockEntry :: _ => r.give emptyScalar rest (.bareItem :: below)
    | .key :: _ => r.give emptyScalar rest (.bareItem :: below)
    | .value :: _ => r.give emptyScalar rest (.bareItem :: below)
    | .blockEnd :: _ => r.give emptyScalar rest (.bareItem :: below)
    | _ => r.goOn rest (.blockNode :: .bareItem :: below)
  | tokens => r.give .sequenceEnd tokens below

/-- A node after a key's or a value's mark in a block mapping, or nothing; `following` and `below`
come after it. -/
def blockPart? (r : EventReader) (tokens : List Token) (following : Expect) (below : List Expect) :
    Step :=
  match tokens with
  | [] => none
  | .key :: _ => r.give emptyScalar tokens (following :: below)
  | .value :: _ => r.give emptyScalar tokens (following :: below)
  | .blockEnd :: _ => r.give emptyScalar tokens (following :: below)
  | _ => r.goOn tokens (.blockNodeOrSequence :: following :: below)

def blockKey? (r : EventReader) (below : List Expect) : Step :=
  match r.tokens with
  | .key :: rest => r.blockPart? rest .blockValue below
  | .blockEnd :: rest => r.give .mappingEnd rest below
  | _ => none

def blockValue? (r : EventReader) (below : List Expect) : Step :=
  match r.tokens with
  | [] => none
  | .value :: rest => r.blockPart? rest .blockKey below
  | tokens => r.give emptyScalar tokens (.blockKey :: below)

/-! ### Flow collections -/

def flowItemAt? (r : EventReader) (tokens : List Token) (below : List Expect) : Step :=
  match tokens with
  | [] => none
  | .key :: rest => r.give (.mappingStart .none) rest (.pairKey :: .flowItem :: below)
  | .flowSequenceEnd :: rest => r.give .sequenceEnd rest below
  | _ => r.goOn tokens (.flowNode :: .flowItem :: below)

def flowItem? (r : EventReader) (below : List Expect) : Step :=
  match r.tokens with
  | .flowSequenceEnd :: rest => r.give .sequenceEnd rest below
  | .flowEntry :: rest => r.flowItemAt? rest below
  | _ => none

def pairKey? (r : EventReader) (below : List Expect) : Step :=
  match r.tokens with
  | [] => none
  | .value :: rest => r.give emptyScalar rest (.pairValue :: below)
  | .flowEntry :: rest => r.give emptyScalar rest (.pairValue :: below)
  | .flowSequenceEnd :: rest => r.give emptyScalar rest (.pairValue :: below)
  | tokens => r.goOn tokens (.flowNode :: .pairValue :: below)

def pairValue? (r : EventReader) (below : List Expect) : Step :=
  match r.tokens with
  | [] => none
  | .value :: rest =>
    match rest with
    | [] => none
    | .flowEntry :: _ => r.give emptyScalar rest (.pairEnd :: below)
    | .flowSequenceEnd :: _ => r.give emptyScalar rest (.pairEnd :: below)
    | _ => r.goOn rest (.flowNode :: .pairEnd :: below)
  | tokens => r.give emptyScalar tokens (.pairEnd :: below)

def flowKeyAt? (r : EventReader) (tokens : List Token) (below : List Expect) : Step :=
  match tokens with
  | [] => none
  | .key :: rest =>
    match rest with
    | [] => none
    | .value :: _ => r.give emptyScalar rest (.flowValue :: below)
    | .flowEntry :: _ => r.give emptyScalar rest (.flowValue :: below)
    | .flowMappingEnd :: _ => r.give emptyScalar rest (.flowValue :: below)
    | _ => r.goOn rest (.flowNode :: .flowValue :: below)
  | .flowMappingEnd :: rest => r.give .mappingEnd rest below
  | _ => r.goOn tokens (.flowNode :: .flowMissingValue :: below)

def flowKey? (r : EventReader) (below : List Expect) : Step :=
  match r.tokens with
  | .flowMappingEnd :: rest => r.give .mappingEnd rest below
  | .flowEntry :: rest => r.flowKeyAt? rest below
  | _ => none

def flowValue? (r : EventReader) (below : List Expect) : Step :=
  match r.tokens with
  | [] => none
  | .value :: rest =>
    match rest with
    | [] => none
    | .flowEntry :: _ => r.give emptyScalar rest (.flowKey :: below)
    | .flowMappingEnd :: _ => r.give emptyScalar rest (.flowKey :: below)
    | _ => r.goOn rest (.flowNode :: .flowKey :: below)
  | tokens => r.give emptyScalar tokens (.flowKey :: below)

/-! ### Streams -/

def documentEnd? (r : EventReader) : Step :=
  match r.tokens with
  | [] => none
  | .documentEnd :: rest => r.give .documentEnd rest [.document]
  | tokens => r.give .documentEnd tokens [.document]

def documentContent? (r : EventReader) (below : List Expect) : Step :=
  match r.tokens with
  | [] => none
  | t :: rest =>
    if endsContent t then r.give emptyScalar (t :: rest) below else r.node? true false below

def step? (r : EventReader) : Step :=
  match r.stack with
  | [] => none
  | .firstDocument :: _ => r.firstDocument?
  | .document :: _ => r.explicitDocument? (r.tokens.dropWhile (· == .documentEnd))
  | .documentContent :: below => r.documentContent? below
  | .documentEnd :: _ => r.documentEnd?
  | .blockNode :: below => r.node? true false below
  | .blockNodeOrSequence :: below => r.node? true true below
  | .flowNode :: below => r.node? false false below
  | .blockItem :: below => r.blockItem? below
  | .bareItem :: below => r.bareItem? below
  | .blockKey :: below => r.blockKey? below
  | .blockValue :: below => r.blockValue? below
  | .firstFlowItem :: below => r.flowItemAt? r.tokens below
  | .flowItem :: below => r.flowItem? below
  | .pairKey :: below => r.pairKey? below
  | .pairValue :: below => r.pairValue? below
  | .pairEnd :: below => r.give .mappingEnd r.tokens below
  | .firstFlowKey :: below => r.flowKeyAt? r.tokens below
  | .flowKey :: below => r.flowKey? below
  | .flowValue :: below => r.flowValue? below
  | .flowMissingValue :: below => r.give emptyScalar r.tokens (.flowKey :: below)

/-- Reads events until the stream ends or a token does not fit; `done` holds them in reverse. -/
def run : Nat → List Event → EventReader → EventStream
  | 0, done, _ => ⟨done.reverse, false⟩
  | fuel + 1, done, r =>
    match r.step? with
    | none => ⟨done.reverse, false⟩
    | some ([.streamEnd], _) => ⟨(.streamEnd :: done).reverse, true⟩
    | some (events, r') => run fuel (events ++ done) r'

end EventReader

/-- The events of a stream of tokens. Every token leads to a bounded number of steps. -/
def EventStream.ofTokens (t : TokenStream) : EventStream :=
  EventReader.run (8 * t.tokens.length + 8) []
    { tokens := t.tokens, stack := [.firstDocument], handles := [] }

end PipelineRunner.Yaml
