import PipelineRunner.Text.Digits

/-!
# Execution ids

Identifiers of 128 bits. They are written in lower case with hyphens; plain, hyphenated, braced and
`urn:uuid:` forms are read.
-/

namespace PipelineRunner

inductive UuidError
  | character (c : Char) (position : Nat)
  | length (found : Nat)
  | groupCount (found : Nat)
  | groupLength (group found : Nat)
  deriving DecidableEq, Repr

namespace UuidError

def groupLengths : List Nat := [8, 4, 4, 4, 12]

def message : UuidError → String
  | character c position => s!"invalid character: found \x60{c}\x60 at {position}"
  | length found => s!"invalid length: found {found}"
  | groupCount found => s!"invalid group count: expected 5, found {found}"
  | groupLength group found =>
    s!"invalid group length in group {group}: expected {groupLengths.getD group 0}, found {found}"

end UuidError

structure Uuid where
  value : BitVec 128
  deriving DecidableEq, Repr, Inhabited

namespace Uuid

def nil : Uuid := ⟨0⟩

/-- The identifier of random bits: four of them give way to the version 4, and two to the
variant. -/
def random (bits : Nat) : Uuid :=
  let free : BitVec 128 := ~~~((0xf : BitVec 128) <<< 76 ||| (0x3 : BitVec 128) <<< 62)
  ⟨BitVec.ofNat 128 bits &&& free ||| (0x4 : BitVec 128) <<< 76 ||| (0x2 : BitVec 128) <<< 62⟩

def hexDigit (n : Nat) : Char := if n < 10 then Char.ofNat (48 + n) else Char.ofNat (87 + n)

/-- The digit `i` places from the right. -/
def digitAt (u : Uuid) (i : Nat) : Char := hexDigit (u.value.toNat / Nat.pow 16 i % 16)

def digits (u : Uuid) : List Char := (List.range 32).map fun i => u.digitAt (31 - i)

def toText (u : Uuid) : String :=
  let ds := u.digits
  String.ofList (ds.take 8 ++ '-' :: (ds.drop 8).take 4 ++ '-' :: (ds.drop 12).take 4 ++
    '-' :: (ds.drop 16).take 4 ++ '-' :: ds.drop 20)

def shortText (u : Uuid) : String := String.ofList (u.digits.take 8)

def ofDigits? (cs : List Char) : Option Uuid :=
  if cs.length = 32 then (Text.ofDigits? 16 cs).map fun n => ⟨BitVec.ofNat 128 n⟩ else none

def ungroup? (cs : List Char) : Option (List Char) :=
  if cs.length = 36 && cs[8]? == some '-' && cs[13]? == some '-' && cs[18]? == some '-' &&
      cs[23]? == some '-' then
    some (cs.take 8 ++ (cs.drop 9).take 4 ++ (cs.drop 14).take 4 ++ (cs.drop 19).take 4 ++
      cs.drop 24)
  else none

/-- The part of a text inside braces or after `urn:uuid:`, and where it starts; `none` if the text
has neither. -/
def unwrap? (cs : List Char) : Option (List Char × Nat) :=
  match cs with
  | '{' :: r => if r.getLast? = some '}' then some (r.dropLast, 1) else none
  | _ => if "urn:uuid:".toList.isPrefixOf cs then some (cs.drop 9, 9) else none

/-- Finds a character that no identifier has; positions count bytes. -/
def badCharacter? (position : Nat) : List Char → Option UuidError
  | [] => none
  | c :: r =>
    if c = '-' || Text.isDigitIn 16 c then badCharacter? (position + 1) r
    else some (.character c position)

def hyphenPositions (position : Nat) : List Char → List Nat
  | [] => []
  | c :: r =>
    if c = '-' then position :: hyphenPositions (position + 1) r
    else hyphenPositions (position + 1) r

/-- The first group whose end is not where it belongs, given the positions of four hyphens. -/
def badGroup (total : Nat) (hyphens : List Nat) : UuidError :=
  let starts := [0, 9, 14, 19, 24]
  let ends := hyphens.zip ((starts.drop 1).zip (starts.zip (List.range 4)))
  match ends.find? fun e => e.1 ≠ e.2.1 - 1 with
  | some e => .groupLength e.2.2.2 (e.1 - e.2.2.1)
  | none => .groupLength 4 (total - 24)

def explain (cs : List Char) : UuidError :=
  let (body, start) := (unwrap? cs).getD (cs, 0)
  match badCharacter? start body with
  | some e => e
  | none =>
    let hyphens := hyphenPositions 0 body
    if hyphens.isEmpty && (unwrap? cs).isNone then .length cs.length
    else if hyphens.length ≠ 4 then .groupCount (hyphens.length + 1)
    else badGroup cs.length hyphens

def parse (s : String) : Except UuidError Uuid :=
  let cs := s.toList
  let found :=
    if cs.length = 32 then ofDigits? cs
    else
      match unwrap? cs with
      | some (body, _) => (ungroup? body).bind ofDigits?
      | none => (ungroup? cs).bind ofDigits?
  match found with
  | some u => .ok u
  | none => .error (explain cs)

end Uuid

end PipelineRunner
