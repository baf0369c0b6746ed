import PipelineRunner.Host.Program.Streams

/-!
# Programs on the file tree

Listing, making and removing files, and the parts of their paths.
-/

namespace PipelineRunner.Host.Program

def ls (t : Task) : Finish :=
  let (options, names) := operands t.args
  let letters := options.flatMap (List.drop 1)
  let own := if letters.contains 'a' then [".", ".."] else []
  let shown (n : String) : Bool :=
    letters.contains 'a' || letters.contains 'A' || !n.startsWith "."
  let listing (l : Location) : Octets :=
    Octets.ofLines ((own ++ (t.files.names l).filter shown).map Octets.ofText)
  if names.isEmpty then .printed t (listing t.files.current)
  else
    let looked := names.map fun n => (n, t.files.look (Octets.toText n))
    let errors := looked.flatMap fun e =>
      match e.2 with
      | .error cause =>
        Octets.ofText "ls: cannot access '" ++ e.1 ++ Octets.ofText ("': " ++ cause.brief ++ "\n")
      | .ok _ => []
    let plain := (looked.filter fun e => match e.2 with
      | .ok .directory => false
      | .ok _ => true
      | .error _ => false).map (·.1)
    let folders := (looked.filter fun e => match e.2 with
      | .ok .directory => true
      | _ => false).map (·.1)
    let block (n : Octets) : Octets :=
      match t.files.locate (Octets.toText n) with
      | .ok l => (if 1 < names.length then n ++ [':', '\n'] else []) ++ listing l
      | .error _ => []
    let blocks := (if plain.isEmpty then [] else [Octets.ofLines plain]) ++ folders.map block
    ⟨if errors.isEmpty then 0 else 2, Octets.join ['\n'] blocks, errors, t.files, 0⟩

def hasParent (f : Files) (l : Location) : Bool := f.at? l.dropLast == some .directory

def makeDirectory (f : Files) (path : String) : Except SystemError Files :=
  match f.locate path with
  | .error e => .error e
  | .ok l =>
    match f.at? l with
    | some _ => .error .alreadyExists
    | none => if hasParent f l then .ok (f.keepDirectory l) else .error .notFound

def mkdir (t : Task) : Finish :=
  let (options, names) := operands t.args
  let parents := options.any fun o => o.contains 'p'
  let step (acc : Files × Octets) (n : Octets) : Files × Octets :=
    let path := Octets.toText n
    match if parents then acc.1.makeDirectories path else makeDirectory acc.1 path with
    | .ok files => (files, acc.2)
    | .error e =>
      (acc.1, acc.2 ++ Octets.ofText "mkdir: cannot create directory '" ++ n ++
        Octets.ofText ("': " ++ e.brief ++ "\n"))
  let (files, errors) := names.foldl step (t.files, [])
  ⟨if errors.isEmpty then 0 else 1, [], errors, files, 0⟩

def touch (t : Task) : Finish :=
  let step (acc : Files × Octets) (n : Octets) : Files × Octets :=
    let refuse (cause : String) :=
      (acc.1, acc.2 ++ Octets.ofText "touch: cannot touch '" ++ n ++
        Octets.ofText ("': " ++ cause ++ "\n"))
    match acc.1.locate (Octets.toText n) with
    | .error e => refuse e.brief
    | .ok l =>
      match acc.1.at? l with
      | some _ => acc
      | none =>
        if hasParent acc.1 l then (acc.1.write l "", acc.2) else refuse "No such file or directory"
  let (files, errors) := (operands t.args).2.foldl step (t.files, [])
  ⟨if errors.isEmpty then 0 else 1, [], errors, files, 0⟩

def rm (t : Task) : Finish :=
  let (options, names) := operands t.args
  let letters := options.flatMap (List.drop 1)
  let recursive := letters.contains 'r' || letters.contains 'R'
  let step (acc : Files × Octets) (n : Octets) : Files × Octets :=
    let refuse (cause : String) :=
      (acc.1, acc.2 ++ Octets.ofText "rm: cannot remove '" ++ n ++
        Octets.ofText ("': " ++ cause ++ "\n"))
    match acc.1.locate (Octets.toText n) with
    | .error e => if letters.contains 'f' then acc else refuse e.brief
    | .ok l =>
      match acc.1.at? l with
      | none => if letters.contains 'f' then acc else refuse "No such file or directory"
      | some .directory =>
        if recursive then (acc.1.remove l, acc.2) else refuse "Is a directory"
      | some _ => (acc.1.remove l, acc.2)
  let (files, errors) := names.foldl step (t.files, [])
  ⟨if errors.isEmpty then 0 else 1, [], errors, files, 0⟩

def rmdir (t : Task) : Finish :=
  let step (acc : Files × Octets) (n : Octets) : Files × Octets :=
    let refuse (e : SystemError) := (acc.1, acc.2 ++ t.complaint "failed to remove '" n e)
    match acc.1.locate (Octets.toText n) with
    | .error e => refuse e
    | .ok l =>
      match acc.1.at? l with
      | none => refuse .notFound
      | some .directory =>
        if acc.1.entries.any fun e => l.isPrefixOf e.1 && e.1 != l then refuse .notEmpty
        else (acc.1.remove l, acc.2)
      | some _ => refuse .notDirectory
  let (files, errors) := (operands t.args).2.foldl step (t.files, [])
  ⟨if errors.isEmpty then 0 else 1, [], errors, files, 0⟩

def copyGoal (f : Files) (source goal : Location) : Location :=
  if f.at? goal == some .directory then goal ++ source.getLast?.toList else goal

def transfer (t : Task) (moved : Bool) : Finish :=
  let (options, names) := operands t.args
  let recursive := moved || options.any fun o => o.contains 'r' || o.contains 'R' || o.contains 'a'
  match names.getLast?, names.dropLast with
  | some goalName, name :: others =>
    let step (acc : Files × Octets) (n : Octets) : Files × Octets :=
      let refuse (e : SystemError) := (acc.1, acc.2 ++ t.complaint "cannot stat '" n e)
      match acc.1.locate (Octets.toText n), acc.1.locate (Octets.toText goalName) with
      | .error e, _ => refuse e
      | _, .error e => refuse e
      | .ok source, .ok goal =>
        match acc.1.at? source with
        | none => refuse .notFound
        | some e =>
          if e == .directory && !recursive then
            (acc.1, acc.2 ++
              Octets.ofText (t.name ++ ": -r not specified; omitting directory '") ++ n ++
              ['\'', '\n'])
          else
            let there := copyGoal acc.1 source goal
            let copies := (acc.1.entries.filter fun x => source.isPrefixOf x.1).map fun x =>
              (there ++ x.1.drop source.length, x.2)
            let rest := if moved then acc.1.remove source else acc.1
            ({ rest with entries := copies ++ rest.entries.filter fun x => x.1 != there }, acc.2)
    let (files, errors) := (name :: others).foldl step (t.files, [])
    ⟨if errors.isEmpty then 0 else 1, [], errors, files, 0⟩
  | some only, [] =>
    .misused t ("missing destination file operand after '" ++ Octets.toText only ++ "'")
  | none, _ => .misused t "missing file operand"

def cp (t : Task) : Finish := transfer t false

def mv (t : Task) : Finish := transfer t true

def dropSlashes (s : Octets) : Octets :=
  let r := (s.reverse.dropWhile (· == '/')).reverse
  if r.isEmpty && !s.isEmpty then ['/'] else r

def basename (t : Task) : Finish :=
  match t.args with
  | [] => .misused t "missing operand"
  | path :: rest =>
    let s := dropSlashes path
    let name := if s == ['/'] then s else (s.reverse.takeWhile (· != '/')).reverse
    let ending := rest.headD []
    let name :=
      if !ending.isEmpty && ending.length < name.length && ending.isSuffixOf name then
        name.take (name.length - ending.length)
      else name
    .printed t (name ++ ['\n'])

def dirname (t : Task) : Finish :=
  let one (path : Octets) : Octets :=
    let s := dropSlashes path
    if s.contains '/' then
      dropSlashes ((s.reverse.dropWhile (· != '/')).reverse)
    else ['.']
  if t.args.isEmpty then .misused t "missing operand"
  else .printed t (Octets.ofLines (t.args.map one))

def pwd (t : Task) : Finish :=
  .printed t (Octets.ofText ("/" ++ String.intercalate "/" t.files.current) ++ ['\n'])

end PipelineRunner.Host.Program
