import PipelineRunner.Host.Files
import PipelineRunner.Host.Octets
import PipelineRunner.Text.Digits

/-!
# Programs

What a program of the host gets and what it leaves behind.
-/

namespace PipelineRunner.Host

structure Task where
  name : String
  args : List Octets
  input : Octets
  env : List (Octets × Octets)
  files : Files

structure Finish where
  status : Nat
  output : Octets
  errors : Octets
  files : Files
  /-- How long it ran, in milliseconds. -/
  elapsed : Nat

namespace Finish

def silent (t : Task) (status : Nat) : Finish := ⟨status, [], [], t.files, 0⟩

def printed (t : Task) (output : Octets) : Finish := ⟨0, output, [], t.files, 0⟩

def failed (t : Task) (status : Nat) (message : String) : Finish :=
  ⟨status, [], Octets.ofText (t.name ++ ": " ++ message ++ "\n"), t.files, 0⟩

def misused (t : Task) (message : String) : Finish :=
  .failed t 1 (message ++ "\nTry '" ++ t.name ++ " --help' for more information.")

end Finish

def SystemError.brief : SystemError → String
  | notFound => "No such file or directory"
  | denied => "Permission denied"
  | alreadyExists => "File exists"
  | notDirectory => "Not a directory"
  | isDirectory => "Is a directory"
  | nameTooLong => "File name too long"
  | notEmpty => "Directory not empty"
  | nullInPath | nullInCommand => "Invalid argument"

namespace Octets

def ofNat (n : Nat) : Octets := Nat.toDigits 10 n

def ofInt (n : Int) : Octets := (toString n).toList

def toNat? (s : Octets) : Option Nat := Text.ofDigits? 10 s

def toInt? (s : Octets) : Option Int :=
  match s with
  | '-' :: r => (toNat? r).map fun n => -(n : Int)
  | '+' :: r => (toNat? r).map fun n => (n : Int)
  | r => (toNat? r).map fun n => (n : Int)

/-- The lines of a text without their ends; an end of line at the end starts no further one. -/
def lines (s : Octets) : List Octets :=
  let ls := s.splitOn '\n'
  if ls.getLast? == some [] then ls.dropLast else ls

def ofLines (ls : List Octets) : Octets := ls.flatMap fun l => l ++ ['\n']

def join (sep : Octets) : List Octets → Octets
  | [] => []
  | [p] => p
  | p :: r => p ++ sep ++ join sep r

end Octets

def Task.complaint (t : Task) (about : String) (name : Octets) (e : SystemError) : Octets :=
  Octets.ofText (t.name ++ ": " ++ about) ++ name ++
    Octets.ofText ((if about.isEmpty then ": " else "': ") ++ e.brief ++ "\n")

/-- The names and contents of the named files in order, where a dash stands for the input, and what
is said of the files that cannot be read. -/
def Task.named (t : Task) (names : List Octets) : List (Octets × Octets) × Octets :=
  names.foldl (fun acc n =>
    if n == ['-'] then (acc.1 ++ [(n, t.input)], acc.2)
    else
      match t.files.readText (Octets.toText n) with
      | .ok text => (acc.1 ++ [(n, Octets.ofText text)], acc.2)
      | .error e => (acc.1, acc.2 ++ t.complaint "" n e))
    ([], [])

def Task.contents (t : Task) (names : List Octets) : List Octets × Octets :=
  if names.isEmpty then ([t.input], [])
  else
    let (texts, errors) := t.named names
    (texts.map (·.2), errors)

def Task.filter (t : Task) (names : List Octets) (f : Octets → Octets) : Finish :=
  let (texts, errors) := t.contents names
  ⟨if errors.isEmpty then 0 else 1, f texts.flatten, errors, t.files, 0⟩

end PipelineRunner.Host
