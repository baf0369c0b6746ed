import PipelineRunner.Host.Program.Basic

/-!
# Conditions

The program `test`: comparisons of texts and numbers, questions about files, and their
combinations.
-/

namespace PipelineRunner.Host.Program

def unaryTest? (files : Files) (op : String) (a : Octets) : Option Bool :=
  let entry := (files.look (Octets.toText a)).toOption
  match op with
  | "-n" => some !a.isEmpty
  | "-z" => some a.isEmpty
  | "-e" => some entry.isSome
  | "-r" => some entry.isSome
  | "-w" => some entry.isSome
  | "-f" => some (match entry with
    | some (.file _) => true
    | some (.program _) => true
    | _ => false)
  | "-d" => some (entry == some .directory)
  | "-s" => some (match entry with
    | some (.file s) => !s.isEmpty
    | some _ => true
    | none => false)
  | "-x" => some (match entry with
    | some .directory => true
    | some (.program _) => true
    | _ => false)
  | "-L" => some false
  | "-h" => some false
  | "-t" => some false
  | _ => none

def binaryTest? (op : String) (a b : Octets) : Option Bool :=
  let compare (f : Int → Int → Bool) : Option Bool :=
    match Octets.toInt? a, Octets.toInt? b with
    | some x, some y => some (f x y)
    | _, _ => none
  match op with
  | "=" => some (a == b)
  | "==" => some (a == b)
  | "!=" => some (a != b)
  | "-eq" => compare fun x y => x == y
  | "-ne" => compare fun x y => x != y
  | "-lt" => compare fun x y => x < y
  | "-le" => compare fun x y => x ≤ y
  | "-gt" => compare fun x y => y < x
  | "-ge" => compare fun x y => y ≤ x
  | _ => none

def shortTest? (files : Files) : List Octets → Option Bool
  | [] => some false
  | [a] => some !a.isEmpty
  | [['!'], a] => some a.isEmpty
  | [op, a] => unaryTest? files (Octets.toText op) a
  | [a, op, b] =>
    match binaryTest? (Octets.toText op) a b with
    | some r => some r
    | none =>
      if a == ['!'] then (unaryTest? files (Octets.toText op) b).map not
      else if a == ['('] && b == [')'] then some !op.isEmpty
      else none
  | [['!'], a, op, b] => (binaryTest? (Octets.toText op) a b).map not
  | _ => none

def splitAt? (op : Octets) : List Octets → Option (List Octets × List Octets)
  | [] => none
  | a :: r => if a == op then some ([], r) else (splitAt? op r).map fun p => (a :: p.1, p.2)

def test? (files : Files) : Nat → List Octets → Option Bool
  | 0, _ => none
  | fuel + 1, args =>
    match shortTest? files args with
    | some r => some r
    | none =>
      match splitAt? ['-', 'o'] args with
      | some (a, b) => do
        let x ← test? files fuel a
        let y ← test? files fuel b
        some (x || y)
      | none =>
        match splitAt? ['-', 'a'] args with
        | some (a, b) => do
          let x ← test? files fuel a
          let y ← test? files fuel b
          some (x && y)
        | none =>
          match args with
          | ['!'] :: rest => (test? files fuel rest).map not
          | _ => none

def numeric : List Octets := ["-eq", "-ne", "-lt", "-le", "-gt", "-ge"].map String.toList

def unreadable? : List Octets → Option Octets
  | a :: op :: b :: r =>
    if numeric.contains op then [a, b].find? fun x => (Octets.toInt? x).isNone
    else unreadable? (op :: b :: r)
  | _ => none

def fault (args : List Octets) : Octets :=
  match unreadable? args, args with
  | some x, _ => Octets.ofText "Illegal number: " ++ x
  | none, [_, op] =>
    if (binaryTest? (Octets.toText op) ['0'] ['0']).isSome then
      op ++ Octets.ofText ": argument expected"
    else args.headD [] ++ Octets.ofText ": unexpected operator"
  | none, _ => args.headD [] ++ Octets.ofText ": unexpected operator"

def test (t : Task) : Finish :=
  let args :=
    if t.name == "[" then
      if t.args.getLast? == some [']'] then some t.args.dropLast else none
    else some t.args
  match args with
  | none => .failed t 2 "missing ]"
  | some args =>
    match test? t.files (args.length + 1) args with
    | some true => .silent t 0
    | some false => .silent t 1
    | none => .failed t 2 (Octets.toText (fault args))

end PipelineRunner.Host.Program
