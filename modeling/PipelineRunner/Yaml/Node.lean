import PipelineRunner.Yaml.Event

/-!
# Nodes of YAML

A document as a tree. Where the text breaks off the tree has a cut, so that what stands before it
can still be read. Anchors are numbered, and an alias points to the number of its anchor.
-/

namespace PipelineRunner.Yaml

inductive Node
  | alias (anchor : Nat)
  | scalar (tag : Option String) (style : ScalarStyle) (text : String)
  | sequence (tag : Option String) (items : List Node)
  | mapping (tag : Option String) (entries : List (Node × Node))
  | cut
  deriving Inhabited

structure Document where
  root : Node
  /-- The nodes with an anchor, with the number of the anchor and of the event that starts them. -/
  anchored : List (Nat × Nat × Node)
  size : Nat
  complete : Bool
  more : Bool

namespace Document

/-- The node that an alias points to. An anchor number that occurs again stands for the node that
starts last. -/
def target? (d : Document) (anchor : Nat) : Option Node :=
  ((d.anchored.filter fun e => e.1 == anchor).foldl
    (fun best e => match best with
      | none => some e
      | some b => if b.2.1 < e.2.1 then some e else best) none).map fun e => e.2.2

/-- A collection that is being read: its tag, its anchor, the event that starts it, and what it
holds so far in reverse. -/
inductive Open
  | sequence (tag : Option String) (anchor : Option Nat) (start : Nat) (items : List Node)
  | mapping (tag : Option String) (anchor : Option Nat) (start : Nat) (entries : List (Node × Node))
      (key : Option Node)

structure Builder where
  stack : List Open
  root : Option Node
  anchored : List (Nat × Nat × Node)
  names : List (List Char × Nat)
  size : Nat

namespace Builder

def start : Builder := ⟨[], none, [], [], 0⟩

def place (b : Builder) (n : Node) : Builder :=
  match b.stack with
  | [] => { b with root := some n }
  | .sequence t a s items :: rest => { b with stack := .sequence t a s (n :: items) :: rest }
  | .mapping t a s entries none :: rest =>
    { b with stack := .mapping t a s entries (some n) :: rest }
  | .mapping t a s entries (some k) :: rest =>
    { b with stack := .mapping t a s ((k, n) :: entries) none :: rest }

def note (b : Builder) (anchor : Option Nat) (start : Nat) (n : Node) : Builder :=
  match anchor with
  | none => b
  | some a => { b with anchored := (a, start, n) :: b.anchored }

/-- Numbers an anchor: by the number of names so far. -/
def number (b : Builder) (anchor : Option (List Char)) : Option Nat × Builder :=
  match anchor with
  | none => (none, b)
  | some name =>
    let n := b.names.length
    (some n, { b with names := (name, n) :: b.names.filter fun e => e.1 != name })

def tagText (p : Properties) : Option String := p.tag.map String.ofList

def close (b : Builder) : Builder :=
  match b.stack with
  | [] => b
  | .sequence t a s items :: rest =>
    let n := Node.sequence t items.reverse
    ({ b with stack := rest }.note a s n).place n
  | .mapping t a s entries key :: rest =>
    let entries := match key with
      | none => entries
      | some k => (k, .cut) :: entries
    let n := Node.mapping t entries.reverse
    ({ b with stack := rest }.note a s n).place n

/-- Takes an event; nothing if it is an alias without an anchor. -/
def take? (b : Builder) (e : Event) : Option Builder :=
  let size := b.size + 1
  match e with
  | .alias name =>
    (b.names.find? fun e => e.1 == name).map fun e => { b with size }.place (.alias e.2)
  | .scalar p text style =>
    let (a, b) := b.number p.anchor
    let n := Node.scalar (tagText p) style (String.ofList text)
    some (({ b with size }.note a b.size n).place n)
  | .sequenceStart p =>
    let (a, b) := b.number p.anchor
    some { b with size, stack := .sequence (tagText p) a b.size [] :: b.stack }
  | .mappingStart p =>
    let (a, b) := b.number p.anchor
    some { b with size, stack := .mapping (tagText p) a b.size [] none :: b.stack }
  | .sequenceEnd => some { b with size }.close
  | .mappingEnd => some { b with size }.close
  | _ => some b

def cutOff : Nat → Builder → Builder
  | 0, b => b
  | fuel + 1, b =>
    match b.stack with
    | [] => if b.root.isNone then b.place .cut else b
    | .mapping t a s entries none :: rest =>
      cutOff fuel { b with stack := .mapping t a s ((.cut, .cut) :: entries) none :: rest }.close
    | .mapping .. :: _ => cutOff fuel b.close
    | .sequence .. :: _ => cutOff fuel (b.place .cut).close

def finish (b : Builder) (complete more : Bool) : Document :=
  let b := cutOff (b.stack.length + 1) b
  { root := b.root.getD .cut, anchored := b.anchored, size := b.size, complete, more }

def build (whole : Bool) : Builder → List Event → Document
  | b, [] => b.finish false false
  | b, .documentEnd :: rest => b.finish true (rest != [.streamEnd] || !whole)
  | b, e :: rest =>
    match b.take? e with
    | none => b.finish false false
    | some b => build whole b rest

end Builder

/-- The first document of a stream. A stream without documents reads as an empty mapping. -/
def ofEvents (s : EventStream) : Document :=
  match s.events with
  | .documentStart :: rest => Builder.build s.complete .start rest
  | [.streamEnd] =>
    { root := .mapping none [], anchored := [], size := 1, complete := true, more := false }
  | _ => { root := .cut, anchored := [], size := 0, complete := false, more := false }

def ofText (s : String) : Document := ofEvents (.ofTokens (.ofText s))

end Document

end PipelineRunner.Yaml
