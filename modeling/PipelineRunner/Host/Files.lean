/-!
# Files

The files that the runner and its processes see: a tree of directories below the root, with a
current directory. `Files.look` says what a path leads to, or why it leads nowhere.
-/

namespace PipelineRunner.Host

inductive SystemError
  | notFound
  | denied
  | alreadyExists
  | notDirectory
  | isDirectory
  | notEmpty
  | nameTooLong
  | nullInPath
  | nullInCommand
  deriving DecidableEq, Repr

def SystemError.message : SystemError → String
  | notFound => "No such file or directory (os error 2)"
  | denied => "Permission denied (os error 13)"
  | alreadyExists => "File exists (os error 17)"
  | notDirectory => "Not a directory (os error 20)"
  | isDirectory => "Is a directory (os error 21)"
  | nameTooLong => "File name too long (os error 36)"
  | notEmpty => "Directory not empty (os error 39)"
  | nullInPath => "file name contained an unexpected NUL byte"
  | nullInCommand => "nul byte found in provided data"

inductive Entry
  | directory
  | file (text : String)
  | program (name : String)
  deriving DecidableEq, Repr

abbrev Location := List String

structure Files where
  /-- Every file and every directory that is not just the place of a file. -/
  entries : List (Location × Entry)
  current : Location

namespace Files

def parts (path : String) : List String :=
  (path.toList.splitOn '/').map String.ofList

def maxName : Nat := 255

/-- What is at a location: an entry, or a directory that holds one. -/
def at? (f : Files) (l : Location) : Option Entry :=
  match f.entries.find? fun e => e.1 == l with
  | some e => some e.2
  | none => if l.isEmpty || f.entries.any fun e => l.isPrefixOf e.1 then some .directory else none

/-- Goes from a location along the parts of a path; every part but the last has to lead to a
directory. -/
def walk (f : Files) (here : Location) : List String → Except SystemError Location
  | [] => .ok here
  | part :: rest =>
    match f.at? here with
    | none => .error .notFound
    | some .directory =>
      if part == "" || part == "." then walk f here rest
      else if part == ".." then walk f here.dropLast rest
      else if maxName < part.utf8ByteSize then .error .nameTooLong
      else walk f (here ++ [part]) rest
    | some _ => .error .notDirectory

/-- The location a path stands for, whether or not its last part exists. -/
def locate (f : Files) (path : String) : Except SystemError Location :=
  if path.toList.any fun c => c.toNat == 0 then .error .nullInPath
  else
    match parts path with
    | [""] => .error .notFound
    | "" :: rest => f.walk [] rest
    | ps => f.walk f.current ps

def look (f : Files) (path : String) : Except SystemError Entry :=
  match f.locate path with
  | .error e => .error e
  | .ok l =>
    match f.at? l with
    | none => .error .notFound
    | some e => .ok e

def pathExists (f : Files) (path : String) : Bool := (f.look path).isOk

def readText (f : Files) (path : String) : Except SystemError String :=
  match f.look path with
  | .error e => .error e
  | .ok (.file text) => .ok text
  | .ok .directory => .error .isDirectory
  | .ok (.program _) => .ok ""

def write (f : Files) (l : Location) (text : String) : Files :=
  { f with entries := (l, .file text) :: f.entries.filter fun e => e.1 != l }

def keepDirectory (f : Files) (l : Location) : Files :=
  if f.entries.any fun e => e.1 == l then f
  else { f with entries := (l, .directory) :: f.entries }

def remove (f : Files) (l : Location) : Files :=
  keepDirectory { f with entries := f.entries.filter fun e => !l.isPrefixOf e.1 } l.dropLast

def makeFrom (f : Files) (here : Location) : List String → Except SystemError Files
  | [] => .ok f
  | part :: rest =>
    if part == "" || part == "." then makeFrom f here rest
    else if part == ".." then makeFrom f here.dropLast rest
    else if maxName < part.utf8ByteSize then .error .nameTooLong
    else
      let there := here ++ [part]
      match f.at? there with
      | some .directory => makeFrom f there rest
      | some _ => .error (if rest.all (· == "") then .alreadyExists else .notDirectory)
      | none => makeFrom (f.keepDirectory there) there rest

def makeDirectories (f : Files) (path : String) : Except SystemError Files :=
  match parts path with
  | [""] => .error .notFound
  | "" :: rest => f.makeFrom [] rest
  | ps => f.makeFrom f.current ps

def enter (f : Files) (path : String) : Except SystemError Files :=
  match f.locate path with
  | .error e => .error e
  | .ok l =>
    match f.at? l with
    | some .directory => .ok { f with current := l }
    | some _ => .error .notDirectory
    | none => .error .notFound

def names (f : Files) (l : Location) : List String :=
  let below := f.entries.filterMap fun e =>
    if l.isPrefixOf e.1 then (e.1.drop l.length).head? else none
  (below.mergeSort fun a b => a ≤ b).eraseDups

/-! ### A fresh host -/

def installed : List String :=
  ["[", "basename", "cat", "cp", "cut", "dirname", "echo", "env", "false", "grep", "head", "ls",
    "mkdir", "mv", "printenv", "printf", "pwd", "rev", "rm", "rmdir", "seq", "sh", "sleep", "sort",
    "tac", "tail", "tee", "test", "touch", "tr", "true", "uniq", "wc"]

def workspace : Location := ["tmp", "workspace"]

def system : List (Location × Entry) :=
  ([["dev"], ["etc"], ["home"], ["opt"], ["root"], ["usr", "lib"], ["var"], workspace].map
      fun l => (l, .directory)) ++
    (["dev", "null"], .file "") ::
    installed.flatMap fun n => [(["bin", n], .program n), (["usr", "bin", n], .program n)]

def follow (here : Location) (part : String) : Location :=
  if part == "" || part == "." then here
  else if part == ".." then here.dropLast
  else here ++ [part]

def placeOf (path : String) : Location :=
  (parts path).foldl follow (if path.startsWith "/" then [] else workspace)

/-- A host with the given files, whose paths start from the workspace. -/
def ofList (files : List (String × String)) : Files :=
  { entries := (files.map fun e => (placeOf e.1, .file e.2)) ++ system
    current := workspace }

end Files

end PipelineRunner.Host
