import PipelineRunner.Dict
import PipelineRunner.Yaml.Fault
import PipelineRunner.Yaml.Node

/-!
# Reading documents

Readers turn a node into a value of some type and compose along the structure of the document. A
fault carries the place of the innermost node that was being read. Collections may be nested
`maxDepth` deep, and aliases may be followed a bounded number of times.
-/

namespace PipelineRunner.Yaml

abbrev Reading (α : Type) := ReaderT Document (StateT Nat (Except ReadError)) α

/-- Where a node stands, and how many collections may still be opened. -/
structure Spot where
  path : Path
  depth : Nat

abbrev Reader (α : Type) := Spot → Node → Reading α

namespace Reading

def maxDepth : Nat := 128

def fail {α : Type} (f : Fault) : Reading α := throw (.fault f none)

/-- Gives the faults of a computation a place, unless they have one. -/
def located {α : Type} (p : Path) (m : Reading α) : Reading α :=
  tryCatch m fun
    | .fault f none => throw (.fault f (some p))
    | e => throw e

def follow : Node → Reading Node
  | .alias a => do
    let d ← read
    let count ← getModify (· + 1)
    if d.size * 100 < count + 1 then throw .tooManyAliases
    else
      match d.target? a with
      | some n => pure n
      | none => throw .malformed
  | .cut => throw .malformed
  | n => pure n

def enter (depth : Nat) : Reading Nat :=
  match depth with
  | 0 => throw .tooDeep
  | d + 1 => pure d

/-! ### Scalars -/

def coreTag (name : String) : Option String := some ("tag:yaml.org,2002:" ++ name)

def misfit {α : Type} (text expected : String) : Except Fault α :=
  .error (.invalidValue (.text text) expected)

def meaning (tag : Option String) (style : ScalarStyle) (text : String) : Except Fault Scalar :=
  if tag == coreTag "bool" then
    match Scalar.bool? text with
    | some b => .ok (.bool b)
    | none => misfit text "a boolean"
  else if tag == coreTag "int" then
    match (Scalar.int? text).filter Scalar.fits128 with
    | some n => .ok (if Scalar.fits64 n then .number (.int n) else .wide n)
    | none => misfit text "an integer"
  else if tag == coreTag "float" then
    match Scalar.float? text with
    | some x => .ok (.number (.float x))
    | none => misfit text "a float"
  else if tag == coreTag "null" then
    if Scalar.isNull text then .ok .null else misfit text "null"
  else if style == .plain && (tag.all fun t => t.toList.head? == some '!') then
    .ok (Scalar.ofPlain text)
  else .ok (.text text)

def foundScalar : Scalar → Found
  | .null => .nothing
  | .bool b => .bool b
  | .number (.int n) => .int n
  | .number (.float x) => .float x
  | .wide n => .wide n
  | .text s => .text s

def mismatch {α : Type} (expected : String) : Node → Reading α
  | .scalar tag style text =>
    match meaning tag style text with
    | .ok s => fail (.invalidType (foundScalar s) expected)
    | .error f => fail f
  | .sequence .. => fail (.invalidType .sequence expected)
  | .mapping .. => fail (.invalidType .mapping expected)
  | _ => throw .malformed

def textAs (expected : String) : Reader String := fun s n => located s.path do
  match ← follow n with
  | .scalar _ _ t => pure t
  | n => mismatch expected n

def text : Reader String := textAs "a string"

/-- Whether a scalar may be a value of a core type: it is plain, or a literal with the type's
tag. -/
def isLiteralOf (tag : Option String) (style : ScalarStyle) (core : String) : Bool :=
  style == .plain || (style == .literal && tag == coreTag core)

def nat64 : Reader Nat := fun s n => located s.path do
  let n ← follow n
  match n with
  | .scalar tag style t =>
    let fits (v : Int) : Bool := 0 ≤ v && Scalar.fits64 v && t.toList.head? != some '-'
    match (Scalar.int? t).filter fits with
    | some v => if isLiteralOf tag style "int" then pure v.toNat else mismatch "u64" n
    | none => mismatch "u64" n
  | n => mismatch "u64" n

def bool : Reader Bool := fun s n => located s.path do
  let n ← follow n
  match n with
  | .scalar tag style t =>
    match Scalar.bool? t with
    | some b => if isLiteralOf tag style "bool" then pure b else mismatch "a boolean" n
    | none => mismatch "a boolean" n
  | n => mismatch "a boolean" n

/-- What may be absent: a plain scalar that is empty or stands for nothing. -/
def optional {α : Type} (r : Reader α) : Reader (Option α) := fun s n => do
  match ← follow n with
  | .scalar tag .plain t =>
    if tag == coreTag "null" then
      if Scalar.isNull t then pure none else fail (.invalidValue (.text t) "null")
    else if tag.isNone && (t.isEmpty || Scalar.isNull t) then pure none
    else some <$> r s (.scalar tag .plain t)
  | n => some <$> r s n

/-! ### Collections -/

/-- Whether a node is a scalar that is not written, which stands for an empty collection. -/
def isUnwritten : Node → Bool
  | .scalar _ .plain t => t.isEmpty
  | _ => false

def list {α : Type} (r : Reader α) : Reader (List α) := fun s n => located s.path do
  match ← follow n with
  | .sequence _ items =>
    let depth ← enter s.depth
    items.zipIdx.mapM fun e => r ⟨.item s.path e.2, depth⟩ e.1
  | n => if isUnwritten n then pure [] else mismatch "a sequence" n

def valuePath (parent : Path) : Node → Path
  | .scalar _ _ t => .field parent t
  | _ => .unnamed parent

def entries (expected : String) (s : Spot) (n : Node) : Reading (Spot × List (Node × Node)) := do
  match ← follow n with
  | .mapping _ es =>
    let depth ← enter s.depth
    pure (⟨s.path, depth⟩, es)
  | n => if isUnwritten n then pure (s, []) else mismatch expected n

/-- A dictionary; the last of several entries with one name counts. -/
def dict {α : Type} (r : Reader α) : Reader (Dict α) := fun s n => located s.path do
  let (inner, es) ← entries "a map" s n
  es.foldlM (fun d e => do
    let name ← text inner e.1
    let value ← r ⟨valuePath s.path e.1, inner.depth⟩ e.2
    pure (d.insert name value)) Dict.empty

mutual

def isCut : Node → Bool
  | .cut => true
  | .sequence _ items => anyCut items
  | .mapping _ entries => anyEntryCut entries
  | _ => false

def anyCut : List Node → Bool
  | [] => false
  | n :: r => isCut n || anyCut r

def anyEntryCut : List (Node × Node) → Bool
  | [] => false
  | (k, v) :: r => isCut k || isCut v || anyEntryCut r

end

def ignore (n : Node) : Reading Unit := if isCut n then throw .malformed else pure ()

/-! ### Records -/

structure Field (α : Type) where
  name : String
  required : Bool
  store : α → Reader α

def required {α β : Type} (name : String) (r : Reader β) (set : α → β → α) : Field α :=
  ⟨name, true, fun a s n => set a <$> r s n⟩

def defaulted {α β : Type} (name : String) (r : Reader β) (set : α → β → α) : Field α :=
  ⟨name, false, fun a s n => set a <$> r s n⟩

/-- Stores an entry of a mapping in a record; entries that are no field are passed over. -/
def storeEntry {α : Type} (fields : List (Field α)) (inner : Spot) (state : List String × α)
    (e : Node × Node) : Reading (List String × α) := do
  let name ← textAs "field identifier" inner e.1
  match fields.find? fun f => f.name == name with
  | none =>
    ignore e.2
    pure state
  | some f =>
    if state.1.contains name then fail (.duplicateField name)
    else
      let a ← f.store state.2 ⟨valuePath inner.path e.1, inner.depth⟩ e.2
      pure (name :: state.1, a)

def record {α : Type} (title : String) (blank : α) (fields : List (Field α)) : Reader α :=
  fun s n => located s.path do
    let (inner, es) ← entries ("struct " ++ title) s n
    let (seen, a) ← es.foldlM (storeEntry fields inner) ([], blank)
    match fields.find? fun f => f.required && !seen.contains f.name with
    | some f => fail (.missingField f.name)
    | none => pure a

/-! ### Values -/

def ownTag? (tag : Option String) : Option String :=
  match tag.map String.toList with
  | some ['!'] => some "!"
  | some ['!', '!'] => some "!"
  | some ('!' :: '!' :: r) => some (String.ofList r)
  | some ('!' :: r) => some (String.ofList r)
  | _ => none

def wrap (tag : Option String) (v : Value) : Value :=
  match ownTag? tag with
  | some t => .tagged t v
  | none => v

def scalarValue (tag : Option String) (style : ScalarStyle) (t : String) : Reading Value :=
  let own := ownTag? tag
  match meaning (if own.isSome then none else tag) style t with
  | .error f => fail f
  | .ok .null => pure (wrap tag .null)
  | .ok (.bool b) => pure (wrap tag (.bool b))
  | .ok (.number n) => pure (wrap tag (.number n))
  | .ok (.text s) => pure (wrap tag (.text s))
  | .ok (.wide n) => fail (.invalidType (.wide n) "any YAML value")

/-- Any value; the first argument is the depth that is left. -/
def valueWithin : Nat → Path → Node → Reading Value
  | depth, path, n => located path do
    match ← follow n with
    | .scalar tag style t => scalarValue tag style t
    | .sequence tag items =>
      match depth with
      | 0 => throw .tooDeep
      | d + 1 =>
        let vs ← items.zipIdx.mapM fun e => valueWithin d (.item path e.2) e.1
        pure (wrap tag (.sequence vs))
    | .mapping tag es =>
      match depth with
      | 0 => throw .tooDeep
      | d + 1 =>
        let vs ← es.foldlM (fun done e => do
          let k ← valueWithin d path e.1
          match done.find? fun x => x.1.same k with
          | some x => fail (.duplicateKey x.1)
          | none =>
            let v ← valueWithin d (valuePath path e.1) e.2
            pure (done ++ [(k, v)])) []
        pure (wrap tag (.mapping vs))
    | _ => throw .malformed

def value : Reader Value := fun s n => valueWithin s.depth s.path n

end Reading

def readText {α : Type} (r : Reader α) (s : String) : Except ReadError α := do
  let d := Document.ofText s
  let (a, _) ← (r ⟨.root, Reading.maxDepth⟩ d.root).run d |>.run 0
  if !d.complete then throw .malformed
  else if d.more then throw .severalDocuments
  else pure a

end PipelineRunner.Yaml
