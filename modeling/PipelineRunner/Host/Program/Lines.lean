import PipelineRunner.Host.Program.Streams

/-!
# Programs on lines

Programs that go through a text line by line: choosing lines by an expression, taking fields, and
turning lines or their order around.
-/

namespace PipelineRunner.Host.Program

/-! ### Expressions -/

inductive Atom
  | one (c : Char)
  | any
  | oneOf (negated : Bool) (set : List Char)
  deriving DecidableEq, Repr

def Atom.fits (a : Atom) (c : Char) : Bool :=
  match a with
  | one d => c == d
  | any => true
  | oneOf negated set => set.contains c != negated

inductive Times
  | once
  | any
  | some
  | atMostOnce
  deriving DecidableEq, Repr

/-- What stands after atoms that fit: the texts after no, one, two and more characters of a row. -/
def afterRow (a : Atom) : List Char → List (List Char)
  | [] => [[]]
  | c :: s => (c :: s) :: if a.fits c then afterRow a s else []

def afterAtom (a : Atom) (times : Times) (s : List Char) : List (List Char) :=
  match times with
  | .once => (afterRow a s).take 2 |>.drop 1
  | .any => afterRow a s
  | .some => (afterRow a s).drop 1
  | .atMostOnce => (afterRow a s).take 2

def fitsStart (whole : Bool) : List (Atom × Times) → List Char → Bool
  | [], s => !whole || s.isEmpty
  | (a, times) :: rest, s => (afterAtom a times s).any fun t => fitsStart whole rest t

structure Expression where
  fromStart : Bool
  toEnd : Bool
  atoms : List (Atom × Times)
  deriving DecidableEq, Repr

def suffixes : List Char → List (List Char)
  | [] => [[]]
  | c :: s => (c :: s) :: suffixes s

def Expression.fits (e : Expression) (line : List Char) : Bool :=
  (if e.fromStart then [line] else suffixes line).any (fitsStart e.toEnd e.atoms)

def bracketSet (s : List Char) : Atom × List Char :=
  let (negated, s) := match s with
    | '^' :: r => (true, r)
    | r => (false, r)
  let size := 1 + ((s.drop 1).takeWhile (· != ']')).length
  (.oneOf negated (charSet (s.length + 1) (s.take size)), s.drop (size + 1))

/-- Reads atoms; the marks `+` and `?` count if the expression is extended, or else after a
backslash. -/
def atomsOf (extended : Bool) : Nat → List Char → List (Atom × Times)
  | 0, _ => []
  | _ + 1, [] => []
  | fuel + 1, s =>
    let (atom, rest) := match s with
      | '.' :: r => (Atom.any, r)
      | '[' :: r => bracketSet r
      | '\\' :: c :: r => (.one c, r)
      | c :: r => (.one c, r)
      | [] => (.any, [])
    let (times, rest) := match extended, rest with
      | _, '*' :: r => (Times.any, r)
      | true, '+' :: r => (.some, r)
      | true, '?' :: r => (.atMostOnce, r)
      | false, '\\' :: '+' :: r => (.some, r)
      | false, '\\' :: '?' :: r => (.atMostOnce, r)
      | _, r => (.once, r)
    (atom, times) :: atomsOf extended fuel rest

def Expression.ofText (extended : Bool) (s : List Char) : Expression :=
  let (fromStart, s) := match s with
    | '^' :: r => (true, r)
    | r => (false, r)
  let toEnd := s.getLast? == some '$' && s.dropLast.getLast? != some '\\'
  ⟨fromStart, toEnd, atomsOf extended (s.length + 1) (if toEnd then s.dropLast else s)⟩

def Expression.literal (s : List Char) : Expression :=
  ⟨false, false, s.map fun c => (.one c, .once)⟩

def chosen (letters pattern : List Char) (text : Octets) : List (Nat × Octets) :=
  let fold (s : Octets) : Octets := if letters.contains 'i' then s.map Char.toLower else s
  let e :=
    if letters.contains 'F' then Expression.literal (fold pattern)
    else Expression.ofText (letters.contains 'E') (fold pattern)
  let e := if letters.contains 'x' then { e with fromStart := true, toEnd := true } else e
  let fits (l : Octets) : Bool := e.fits (fold l) != letters.contains 'v'
  ((Octets.lines text).zipIdx 1).filterMap fun l => if fits l.1 then some (l.2, l.1) else none

def grep (t : Task) : Finish :=
  let (options, names) := operands t.args
  let letters := options.flatMap (List.drop 1)
  match names with
  | [] =>
    let usage := "Usage: grep [OPTION]... PATTERNS [FILE]...\n" ++
      "Try 'grep --help' for more information.\n"
    ⟨2, [], Octets.ofText usage, t.files, 0⟩
  | pattern :: names =>
    let (texts, errors) := t.contents names
    let ls := chosen letters pattern texts.flatten
    let output :=
      if letters.contains 'q' then []
      else if letters.contains 'c' then Octets.ofNat ls.length ++ ['\n']
      else if letters.contains 'n' then
        Octets.ofLines (ls.map fun l => Octets.ofNat l.1 ++ ':' :: l.2)
      else Octets.ofLines (ls.map (·.2))
    ⟨if !errors.isEmpty then 2 else if ls.isEmpty then 1 else 0, output, errors, t.files, 0⟩

/-! ### Fields -/

def positions (s : Octets) : Nat → Bool := fun n =>
  (s.splitOn ',').any fun part =>
    match part.splitOn '-' with
    | [a] => Octets.toNat? a == some n
    | [a, b] => (Octets.toNat? a).getD 1 ≤ n && ((Octets.toNat? b).all (n ≤ ·))
    | _ => false

def letterValue? (letter : Char) : List Octets → Option Octets
  | [] => none
  | ['-', c] :: v :: rest => if c == letter then some v else letterValue? letter (v :: rest)
  | ('-' :: c :: v) :: rest => if c == letter then some v else letterValue? letter rest
  | _ :: rest => letterValue? letter rest

def pick {α : Type} (wanted : Nat → Bool) (items : List α) : List α :=
  (items.zipIdx 1).filterMap fun e => if wanted e.2 then some e.1 else none

def cut (t : Task) : Finish :=
  let mark := ((letterValue? 'd' t.args).bind List.head?).getD '\t'
  let fields (wanted : Nat → Bool) (l : Octets) : Octets :=
    if l.contains mark then Octets.join [mark] (pick wanted (l.splitOn mark)) else l
  let onLines (f : Octets → Octets) : Finish :=
    t.filter [] fun s => Octets.ofLines ((Octets.lines s).map f)
  match letterValue? 'f' t.args, (letterValue? 'c' t.args <|> letterValue? 'b' t.args) with
  | some list, _ => onLines (fields (positions list))
  | none, some list => onLines (pick (positions list))
  | none, none => .misused t "you must specify a list of bytes, characters, or fields"

/-! ### Turning around -/

def rev (t : Task) : Finish :=
  t.filter (operands t.args).2 fun s => Octets.join ['\n'] ((s.splitOn '\n').map List.reverse)

def tac (t : Task) : Finish :=
  t.filter (operands t.args).2 fun s => Octets.ofLines (Octets.lines s).reverse

def runsOf (ls : List Octets) : List (List Octets) := ls.splitBy (· == ·)

def uniq (t : Task) : Finish :=
  let (options, names) := operands t.args
  let letters := options.flatMap (List.drop 1)
  t.filter names fun s =>
    let kept := (runsOf (Octets.lines s)).filter fun r =>
      (!letters.contains 'd' || 1 < r.length) && (!letters.contains 'u' || r.length = 1)
    Octets.ofLines (kept.map fun r =>
      let line := r.headD []
      if letters.contains 'c' then
        let ds := Octets.ofNat r.length
        List.replicate (7 - ds.length) ' ' ++ ds ++ ' ' :: line
      else line)

end PipelineRunner.Host.Program
