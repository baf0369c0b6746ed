import PipelineRunner.Word

/-!
# JSON values

Values of the JSON data model. Integers are exact and floating-point numbers are kept as they are,
so that a number written by one part is the number read by another.
-/

namespace PipelineRunner

inductive Json
  | null
  | bool (b : Bool)
  | int (n : Int)
  | float (x : Float)
  | str (s : String)
  | arr (items : List Json)
  | obj (fields : List (String × Json))
  deriving Inhabited

namespace Json

/-- What may be absent is `null`. -/
def ofOption {α : Type} (f : α → Json) : Option α → Json
  | none => null
  | some a => f a

def ofNat (n : Nat) : Json := int n

/-- The field of an object under a name; the last of several. -/
def field? (fields : List (String × Json)) (name : String) : Option Json :=
  (fields.reverse.find? fun e => e.1 == name).map (·.2)

/-! ### Reading -/

def asText? : Json → Option String
  | str s => some s
  | _ => none

/-- An integer from `lo` up to but not including `hi`. -/
def asInt? (lo hi : Int) : Json → Option Int
  | int n => if lo ≤ n ∧ n < hi then some n else none
  | _ => none

def asNat64? (j : Json) : Option Nat := (asInt? 0 Word.size64 j).map Int.toNat

def asInt32? (j : Json) : Option Int := asInt? (-Word.half32) Word.half32 j

def asInt64? (j : Json) : Option Int := asInt? (-Word.half64) Word.half64 j

def asOption? {α : Type} (f : Json → Option α) : Json → Option (Option α)
  | null => some none
  | j => (f j).map some

def require? {α : Type} (fields : List (String × Json)) (name : String) (f : Json → Option α) :
    Option α :=
  (field? fields name).bind f

def optional? {α : Type} (fields : List (String × Json)) (name : String) (f : Json → Option α) :
    Option (Option α) :=
  match field? fields name with
  | none => some none
  | some j => asOption? f j

/-- The fields of an object, or of an array that lists them in the given order. -/
def asFields? (names : List String) : Json → Option (List (String × Json))
  | obj fields => some fields
  | arr items => if items.length ≤ names.length then some (names.zip items) else none
  | _ => none

def asList? {α : Type} (f : Json → Option α) : Json → Option (List α)
  | arr items => items.mapM f
  | _ => none

end Json

end PipelineRunner
