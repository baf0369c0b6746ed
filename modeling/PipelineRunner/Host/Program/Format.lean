import PipelineRunner.Host.Program.Basic
import PipelineRunner.Text.Digits
import PipelineRunner.Word

/-!
# Formatted output

The programs `echo` and `printf`, with their escapes and directives. A format is used again as long
as arguments are left.
-/

namespace PipelineRunner.Host.Program

inductive EscapeStyle
  | format
  | argument
  deriving DecidableEq

def shortEscape? (c : Char) : Option Char :=
  match c with
  | 'a' => some '\x07'
  | 'b' => some '\x08'
  | 'f' => some '\x0c'
  | 'n' => some '\n'
  | 'r' => some '\r'
  | 't' => some '\t'
  | 'v' => some '\x0b'
  | '\\' => some '\\'
  | _ => none

def isOctal (c : Char) : Bool := Text.isDigitIn 8 c

def octalByte (ds : List Char) : Char := Char.ofNat (Text.ofDigits 8 ds % 256)

/-- Reads an escape after its backslash: what it stands for, or nothing if it ends the output, and
how many characters it takes. -/
def escape (style : EscapeStyle) (r : List Char) : Option Octets × Nat :=
  match r with
  | [] => (some ['\\'], 0)
  | c :: rest =>
    match shortEscape? c with
    | some d => (some [d], 1)
    | none =>
      if c == 'c' && style == .argument then (none, 1)
      else if style == .format && isOctal c then
        let ds := (r.take 3).takeWhile isOctal
        (some [octalByte ds], ds.length)
      else if style == .argument && c == '0' then
        let ds := (rest.take 3).takeWhile isOctal
        (some [octalByte ds], ds.length + 1)
      else if style == .format && (c == '"' || c == '\'') then (some [c], 1)
      else (some ['\\', c], 1)

/-- Replaces the escapes of a text; the flag says whether the output goes on. The number counts
characters to pass over. -/
def unescape (style : EscapeStyle) : Nat → List Char → Octets × Bool
  | _, [] => ([], true)
  | skip + 1, _ :: r => unescape style skip r
  | 0, c :: r =>
    if c == '\\' then
      match escape style r with
      | (none, _) => ([], false)
      | (some s, size) =>
        let (rest, more) := unescape style size r
        (s ++ rest, more)
    else
      let (rest, more) := unescape style 0 r
      (c :: rest, more)

def shellEcho (args : List Octets) : Octets :=
  let (bare, words) := match args with
    | ['-', 'n'] :: r => (true, r)
    | r => (false, r)
  let (text, more) := unescape .argument 0 (Octets.join [' '] words)
  if bare || !more then text else text ++ ['\n']

def isEchoOption (a : Octets) : Bool :=
  match a with
  | '-' :: c :: r => (c :: r).all fun d => d == 'n' || d == 'e' || d == 'E'
  | _ => false

def echo (args : List Octets) : Octets :=
  let options := args.takeWhile isEchoOption
  let letters := options.flatMap (List.drop 1)
  let words := Octets.join [' '] (args.drop options.length)
  let escapes := (letters.filter (· != 'n')).getLast? == some 'e'
  let (text, more) := if escapes then unescape .argument 0 words else (words, true)
  if letters.contains 'n' || !more then text else text ++ ['\n']

/-! ### Formats -/

structure Layout where
  left : Bool
  zero : Bool
  plus : Bool
  space : Bool
  alternate : Bool
  width : Nat
  precision : Option Nat

def Layout.pad (l : Layout) (s : Octets) : Octets :=
  let gap := List.replicate (l.width - s.length) ' '
  if l.left then s ++ gap else gap ++ s

def Layout.number (l : Layout) (sign : Octets) (digits : Octets) : Octets :=
  let digits := match l.precision with
    | some p => List.replicate (p - digits.length) '0' ++ digits
    | none => digits
  if l.zero && !l.left && l.precision.isNone then
    sign ++ List.replicate (l.width - sign.length - digits.length) '0' ++ digits
  else l.pad (sign ++ digits)

def argumentNumber (a : Octets) : Int × Bool :=
  let unsigned (r : Octets) : Option Nat :=
    match r with
    | '0' :: 'x' :: ds => Text.ofDigits? 16 ds
    | '0' :: d :: ds => Text.ofDigits? 8 (d :: ds)
    | ds => Octets.toNat? ds
  let value := match a with
    | [] => some 0
    | '\'' :: c :: _ => some (c.toNat : Int)
    | '"' :: c :: _ => some (c.toNat : Int)
    | '-' :: r => (unsigned r).map fun n => -(n : Int)
    | '+' :: r => (unsigned r).map fun n => (n : Int)
    | r => (unsigned r).map fun n => (n : Int)
  match value with
  | some n => (n, true)
  | none => (0, false)

structure Printing where
  /-- The output in reverse. -/
  output : Octets
  errors : Octets
  args : List Octets
  took : Bool
  ended : Bool

namespace Printing

def put (p : Printing) (s : Octets) : Printing := { p with output := s.reverse ++ p.output }

def take (p : Printing) : Option Octets × Printing :=
  match p.args with
  | [] => (none, p)
  | a :: r => (some a, { p with args := r, took := true })

def takeNumber (p : Printing) : Int × Printing :=
  let (a, p) := p.take
  match a with
  | none => (0, p)
  | some a =>
    let (n, ok) := argumentNumber a
    if ok then (n, p)
    else
      (n, { p with errors := p.errors ++ Octets.ofText "printf: " ++ a ++
        Octets.ofText ": expected numeric value\n" })

def directive (p : Printing) (l : Layout) (c : Char) : Printing :=
  match c with
  | '%' => p.put ['%']
  | 's' =>
    let (a, p) := p.take
    let s := a.getD []
    p.put (l.pad (match l.precision with
      | some n => s.take n
      | none => s))
  | 'b' =>
    let (a, p) := p.take
    let (s, more) := unescape .argument 0 (a.getD [])
    let p := p.put (l.pad s)
    if more then p else { p with ended := true }
  | 'c' =>
    let (a, p) := p.take
    p.put (l.pad ((a.getD []).take 1))
  | c =>
    let (n, p) := p.takeNumber
    if c == 'd' || c == 'i' then
      let sign := if n < 0 then ['-'] else if l.plus then ['+'] else if l.space then [' '] else []
      p.put (l.number sign (Octets.ofNat n.natAbs))
    else
      let m := Word.unsigned64 n
      if c == 'u' then p.put (l.number [] (Octets.ofNat m))
      else if c == 'o' then
        p.put (l.number [] ((if l.alternate then ['0'] else []) ++ Nat.toDigits 8 m))
      else
        let ds := Nat.toDigits 16 m
        let lead := if l.alternate && m != 0 then ['0', c] else []
        p.put (l.number lead (if c == 'X' then ds.map Char.toUpper else ds))

def format : Nat → List Char → Printing → Printing
  | 0, _, p => p
  | _ + 1, [], p => p
  | fuel + 1, c :: r, p =>
    if p.ended then p
    else if c == '\\' then
      let (s, size) := escape .format r
      format fuel (r.drop size) (p.put (s.getD []))
    else if c == '%' then
      let flags := r.takeWhile fun d => "-+ #0".toList.contains d
      let r := r.drop flags.length
      let (width, r, p) := match r with
        | '*' :: r => let (n, p) := p.takeNumber; (n, r, p)
        | r =>
          let n := (Octets.toNat? (r.takeWhile Char.isDigit)).getD 0
          ((n : Int), r.dropWhile Char.isDigit, p)
      let (precision, r, p) := match r with
        | '.' :: '*' :: r => let (n, p) := p.takeNumber; (some n.toNat, r, p)
        | '.' :: r =>
          (some ((Octets.toNat? (r.takeWhile Char.isDigit)).getD 0), r.dropWhile Char.isDigit, p)
        | r => (none, r, p)
      let layout : Layout :=
        { left := flags.contains '-' || width < 0, zero := flags.contains '0',
          plus := flags.contains '+', space := flags.contains ' ',
          alternate := flags.contains '#', width := width.natAbs, precision }
      match r with
      | [] =>
        { p with
          errors := p.errors ++ Octets.ofText "printf: %: invalid directive\n"
          ended := true }
      | d :: r =>
        if "%sbcdiuoxX".toList.contains d then format fuel r (p.directive layout d)
        else
          { p with
            errors :=
              p.errors ++ Octets.ofText "printf: %" ++ [d] ++ Octets.ofText ": invalid directive\n"
            ended := true }
    else format fuel r (p.put [c])

def repeated (text : List Char) : Nat → Printing → Printing
  | 0, p => p
  | fuel + 1, p =>
    let p := format (text.length + 1) text { p with took := false }
    if p.took && !p.args.isEmpty && !p.ended then repeated text fuel p else p

end Printing

def printf (t : Task) : Finish :=
  match (if t.args.head? == some ['-', '-'] then t.args.drop 1 else t.args) with
  | [] => .failed t 2 "usage: printf format [arg ...]"
  | text :: args =>
    let p := Printing.repeated text (args.length + 1) ⟨[], [], args, false, false⟩
    ⟨if p.errors.isEmpty then 0 else 1, p.output.reverse, p.errors, t.files, 0⟩

end PipelineRunner.Host.Program
