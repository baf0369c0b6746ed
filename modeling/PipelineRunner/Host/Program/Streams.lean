import PipelineRunner.Host.Program.Basic
import PipelineRunner.Text.Digits

/-!
# Programs on streams

Programs that read files or their input and write something made of it.
-/

namespace PipelineRunner.Host.Program

def operands (args : List Octets) : List Octets × List Octets :=
  args.partition fun a => a.head? == some '-' && 1 < a.length

/-! ### Characters -/

def classChars? (name : String) : Option (List Char) :=
  let all := (List.range 128).map Char.ofNat
  match name with
  | "upper" => some (all.filter Char.isUpper)
  | "lower" => some (all.filter Char.isLower)
  | "digit" => some (all.filter Char.isDigit)
  | "alpha" => some (all.filter Char.isAlpha)
  | "alnum" => some (all.filter Char.isAlphanum)
  | "space" => some ['\t', '\n', '\x0b', '\x0c', '\r', ' ']
  | "blank" => some ['\t', ' ']
  | "punct" => some (all.filter fun c => 32 < c.toNat && c.toNat < 127 && !c.isAlphanum)
  | _ => none

def charRange (a b : Char) : List Char :=
  (List.range (b.toNat + 1 - a.toNat)).map fun i => Char.ofNat (a.toNat + i)

def charSet : Nat → List Char → List Char
  | 0, _ => []
  | _ + 1, [] => []
  | fuel + 1, cs =>
    match cs with
    | '[' :: ':' :: r =>
      let name := r.takeWhile (· != ':')
      match classChars? (String.ofList name) with
      | some chars => chars ++ charSet fuel (r.drop (name.length + 2))
      | none => '[' :: charSet fuel (':' :: r)
    | '\\' :: 'n' :: r => '\n' :: charSet fuel r
    | '\\' :: 't' :: r => '\t' :: charSet fuel r
    | '\\' :: 'r' :: r => '\r' :: charSet fuel r
    | '\\' :: c :: r =>
      let ds := ((c :: r).take 3).takeWhile (Text.isDigitIn 8)
      if ds.isEmpty then c :: charSet fuel r
      else
        Char.ofNat (Text.ofDigits 8 ds % 256) :: charSet fuel ((c :: r).drop ds.length)
    | a :: '-' :: b :: r => charRange a b ++ charSet fuel r
    | c :: r => c :: charSet fuel r
    | [] => []

def squeeze (set : List Char) : Octets → Octets
  | a :: b :: r =>
    if a == b && set.contains a then squeeze set (b :: r) else a :: squeeze set (b :: r)
  | s => s

def tr (t : Task) : Finish :=
  let (options, sets) := operands t.args
  let letters := options.flatMap (List.drop 1)
  let spelled := sets.map fun s => charSet (s.length + 1) s
  let first := spelled.headD []
  let first :=
    if letters.contains 'c' || letters.contains 'C' then
      (charRange '\x00' '\u00FF').filter fun c => !first.contains c
    else first
  match spelled with
  | [] => .misused t "missing operand"
  | [_] =>
    let only := Octets.toText (sets.headD [])
    if letters.contains 'd' then .printed t (t.input.filter fun c => !first.contains c)
    else if letters.contains 's' then .printed t (squeeze first t.input)
    else
      .misused t ("missing operand after '" ++ only ++
        "'\nTwo strings must be given when translating.")
  | _ :: second :: _ =>
    if letters.contains 'd' then .printed t (t.input.filter fun c => !first.contains c)
    else
      let table := (first.zipIdx.reverse).map fun e =>
        (e.1, (second[e.2]?).getD (second.getLastD e.1))
      let swapped := t.input.map fun c => ((table.find? fun e => e.1 == c).map (·.2)).getD c
      .printed t (if letters.contains 's' then squeeze second swapped else swapped)

/-! ### Lines -/

def countOption : List Octets → Char × Octets × List Octets
  | ['-', 'n'] :: n :: r => ('n', n, r)
  | ['-', 'c'] :: n :: r => ('c', n, r)
  | ('-' :: 'n' :: n) :: r => ('n', n, r)
  | ('-' :: 'c' :: n) :: r => ('c', n, r)
  | ('-' :: d :: n) :: r => if d.isDigit then ('n', d :: n, r) else ('n', ['1', '0'], r)
  | r => ('n', ['1', '0'], r)

def excerpts (t : Task) (names : List Octets) (f : Octets → Octets) : Finish :=
  if names.isEmpty then .printed t (f t.input)
  else
    let (texts, _) := t.named names
    let unread := names.filterMap fun n =>
      match t.files.readText (Octets.toText n) with
      | .ok _ => none
      | .error e => if n == ['-'] then none else some (n, e)
    let errors := unread.flatMap fun u =>
      Octets.ofText (t.name ++ ": cannot open '") ++ u.1 ++
        Octets.ofText ("' for reading: " ++ u.2.brief ++ "\n")
    let heading (n : Octets) : Octets :=
      if n == ['-'] then Octets.ofText "standard input" else n
    let block (e : Octets × Octets) : Octets :=
      if names.length ≤ 1 then f e.2
      else Octets.ofText "==> " ++ heading e.1 ++ Octets.ofText " <==\n" ++ f e.2
    ⟨if unread.isEmpty then 0 else 1, Octets.join ['\n'] (texts.map block), errors, t.files, 0⟩

def head (t : Task) : Finish :=
  let (letter, n, names) := countOption t.args
  let count := (Octets.toNat? n).getD 10
  excerpts t names fun s =>
    if letter == 'c' then s.take count
    else
      let ls := s.splitOn '\n'
      if ls.length ≤ count then s
      else Octets.ofLines (ls.take count)

def tail (t : Task) : Finish :=
  let (letter, n, names) := countOption t.args
  excerpts t names fun s =>
    if letter == 'c' then s.drop (s.length - (Octets.toNat? n).getD 10)
    else
      let ls := Octets.lines s
      let kept := match n with
        | '+' :: k => ls.drop ((Octets.toNat? k).getD 1 - 1)
        | n => ls.drop (ls.length - (Octets.toNat? n).getD 10)
      let text := Octets.ofLines kept
      if s.getLast? == some '\n' then text else text.dropLast

def wordCount : Bool → Octets → Nat
  | _, [] => 0
  | inside, c :: r =>
    let blank := c == ' ' || c == '\n' || c == '\t' || c == '\r'
    (if !inside && !blank then 1 else 0) + wordCount (!blank) r

def wc (t : Task) : Finish :=
  let (options, names) := operands t.args
  let letters := options.flatMap (List.drop 1)
  let letters := if letters.isEmpty then ['l', 'w', 'c'] else letters
  let asked := ['l', 'w', 'm', 'c'].filter letters.contains
  let (texts, errors) := if names.isEmpty then ([([], t.input)], []) else t.named names
  let all := texts.flatMap (·.2)
  let width :=
    if asked.length = 1 && names.length ≤ 1 then 1
    else if names.isEmpty then 7
    else (Octets.ofNat all.length).length
  let row (e : Octets × Octets) : Octets :=
    let counts := asked.map fun c =>
      let ds := Octets.ofNat
        (if c == 'l' then e.2.count '\n' else if c == 'w' then wordCount false e.2 else e.2.length)
      List.replicate (width - ds.length) ' ' ++ ds
    Octets.join [' '] counts ++ if e.1.isEmpty then [] else ' ' :: e.1
  let total := if names.length ≤ 1 then [] else [(Octets.ofText "total", all)]
  ⟨if errors.isEmpty then 0 else 1, Octets.ofLines ((texts ++ total).map row), errors, t.files, 0⟩

def sort (t : Task) : Finish :=
  let (options, names) := operands t.args
  let letters := options.flatMap (List.drop 1)
  let number (l : Octets) : Int :=
    (Octets.toInt? (l.takeWhile fun c => c.isDigit || c == '-')).getD 0
  t.filter names fun s =>
    let ls := Octets.lines s
    let sorted :=
      if letters.contains 'n' then
        ls.mergeSort fun a b =>
          number a < number b || (number a == number b && String.ofList a ≤ String.ofList b)
      else ls.mergeSort fun a b => String.ofList a ≤ String.ofList b
    let sorted := if letters.contains 'r' then sorted.reverse else sorted
    Octets.ofLines (if letters.contains 'u' then sorted.eraseReps else sorted)

def numbered (s : Octets) : Octets :=
  Octets.ofLines ((Octets.lines s).zipIdx.map fun e =>
    let ds := Octets.ofNat (e.2 + 1)
    List.replicate (6 - ds.length) ' ' ++ ds ++ '\t' :: e.1)

def cat (t : Task) : Finish :=
  let (options, names) := operands t.args
  t.filter names (if options.any fun o => o.contains 'n' then numbered else id)

def tee (t : Task) : Finish :=
  let files := (operands t.args).2.foldl (fun (f : Files) n =>
    match f.locate (Octets.toText n) with
    | .ok l => f.write l (Octets.toText t.input)
    | .error _ => f) t.files
  ⟨0, t.input, [], files, 0⟩

def seq (t : Task) : Finish :=
  let bounds := match t.args.mapM Octets.toInt? with
    | some [last] => some ((1 : Int), (1 : Int), last)
    | some [first, last] => some (first, 1, last)
    | some [first, step, last] => some (first, step, last)
    | _ => none
  match bounds with
  | none =>
    match t.args.find? fun a => (Octets.toInt? a).isNone with
    | some a => .misused t ("invalid floating point argument: '" ++ Octets.toText a ++ "'")
    | none => .misused t (if t.args.isEmpty then "missing operand" else "extra operand")
  | some (first, step, last) =>
    let count := if step = 0 then 0 else ((last - first) / step + 1).toNat
    let number (i : Nat) : Octets := Octets.ofInt (first + step * (i : Int))
    .printed t (Octets.ofLines ((List.range count).map number))

end PipelineRunner.Host.Program
