import PipelineRunner.Host.Script.Basic
import PipelineRunner.Text.Digits

/-!
# Reading scripts

The grammar of shell scripts. A reader gives what it read and the rest of the script, or nothing if
the script is not well-formed. Every step consumes a character or descends, so the length of the
script bounds the depth.
-/

namespace PipelineRunner.Host.Script

abbrev Reader (α : Type) := List Char → Option (α × List Char)

/-! ### Characters -/

def isMeta (c : Char) : Bool :=
  c == ' ' || c == '\t' || c == '\n' || c == ';' || c == '&' || c == '|' || c == '<' ||
    c == '>' || c == '(' || c == ')'

def isNameStart (c : Char) : Bool := c.isAlpha || c == '_'

def isNameChar (c : Char) : Bool := c.isAlphanum || c == '_'

def isSpecial (c : Char) : Bool :=
  c == '@' || c == '*' || c == '#' || c == '?' || c == '-' || c == '$' || c == '!'

def isName : Octets → Bool
  | [] => false
  | c :: r => isNameStart c && r.all isNameChar

def skip : Bool → List Char → List Char
  | _, [] => []
  | true, c :: r => if c == '\n' then c :: r else skip true r
  | false, '\\' :: '\n' :: r => skip false r
  | false, c :: r =>
    if c == ' ' || c == '\t' then skip false r
    else if c == '#' then skip true r
    else c :: r

/-- The text up to the bracket that closes one already open, with quotes respected, and the rest. -/
def closing (single double escaped : Bool) : Nat → List Char → Option (List Char × List Char)
  | _, [] => none
  | depth, c :: r =>
    let goOn (s d e : Bool) (depth : Nat) :=
      (closing s d e depth r).map fun p => (c :: p.1, p.2)
    if escaped then goOn single double false depth
    else if single then goOn (c != '\'') double false depth
    else if c == '\\' then goOn single double true depth
    else if c == '"' then goOn single (!double) false depth
    else if double then goOn single double false depth
    else if c == '\'' then goOn true double false depth
    else if c == '(' then goOn single double false (depth + 1)
    else if c == ')' then
      match depth with
      | 0 => some ([], r)
      | depth + 1 => goOn single double false depth
    else goOn single double false depth

def backquoted : List Char → Option (List Char × List Char)
  | [] => none
  | '\\' :: c :: r =>
    (backquoted r).map fun p =>
      (if c == '\x60' || c == '$' || c == '\\' then c :: p.1 else '\\' :: c :: p.1, p.2)
  | c :: r => if c == '\x60' then some ([], r) else (backquoted r).map fun p => (c :: p.1, p.2)

/-! ### Words -/

inductive Quoting
  | bare
  | double
  | brace (quoted : Bool)
  | whole
  deriving DecidableEq

def Quoting.isQuoted : Quoting → Bool
  | bare => false
  | double | whole => true
  | brace q => q

def Quoting.isEnd (q : Quoting) (c : Char) : Bool :=
  match q with
  | bare => isMeta c
  | double => c == '"'
  | brace _ => c == '\x7d'
  | whole => false

def parameterName? : Reader Octets
  | [] => none
  | c :: r =>
    if isNameStart c then some (c :: r.takeWhile isNameChar, r.dropWhile isNameChar)
    else if c.isDigit then some (c :: r.takeWhile Char.isDigit, r.dropWhile Char.isDigit)
    else if isSpecial c then some ([c], r)
    else none

def parameterUse? : Reader ParameterUse
  | ':' :: '-' :: r => some (.fallback true, r)
  | ':' :: '=' :: r => some (.assign true, r)
  | ':' :: '?' :: r => some (.insist true, r)
  | ':' :: '+' :: r => some (.replace true, r)
  | '-' :: r => some (.fallback false, r)
  | '=' :: r => some (.assign false, r)
  | '?' :: r => some (.insist false, r)
  | '+' :: r => some (.replace false, r)
  | '%' :: '%' :: r => some (.trim true true, r)
  | '%' :: r => some (.trim true false, r)
  | '#' :: '#' :: r => some (.trim false true, r)
  | '#' :: r => some (.trim false false, r)
  | _ => none

mutual

def parts? : Nat → Quoting → Reader (List Part)
  | 0, _, _ => none
  | fuel + 1, q, cs =>
    match cs with
    | [] => if q == .bare || q == .whole then some ([], []) else none
    | c :: r =>
      if q.isEnd c then some ([], c :: r)
      else do
        let (p, r) ← part? fuel q c r
        let (ps, r) ← parts? fuel q r
        some (p ++ ps, r)

def part? : Nat → Quoting → Char → Reader (List Part)
  | 0, _, _, _ => none
  | fuel + 1, q, c, r =>
    if c == '\\' then
      match r with
      | [] => some ([.text true [c]], [])
      | '\n' :: r => some ([], r)
      | d :: r =>
        if !q.isQuoted || d == '$' || d == '\x60' || d == '"' || d == '\\' || q.isEnd d then
          some ([.text true [d]], r)
        else some ([.text true [c, d]], r)
    else if c == '\'' && !q.isQuoted then
      match r.dropWhile (· != '\'') with
      | [] => none
      | _ :: rest => some ([.text true (r.takeWhile (· != '\''))], rest)
    else if c == '"' && q != .whole then do
      let (inner, r) ← parts? fuel .double r
      some (if inner.isEmpty then [.text true []] else inner, r.drop 1)
    else if c == '\x60' then (backquoted r).map fun p => ([.output q.isQuoted p.1], p.2)
    else if c == '$' then expansion? fuel q.isQuoted r
    else some ([.text q.isQuoted [c]], r)

def expansion? : Nat → Bool → Reader (List Part)
  | 0, _, _ => none
  | fuel + 1, quoted, cs =>
    match cs with
    | '(' :: r => do
      let (inner, rest) ← closing false false false 0 r
      if inner.head? == some '(' && inner.getLast? == some ')' then
        let (e, _) ← parts? fuel .whole (inner.drop 1).dropLast
        some ([.arithmetic quoted e], rest)
      else some ([.output quoted inner], rest)
    | '\x7b' :: r => braced? fuel quoted r
    | c :: r =>
      if c.isDigit then some ([.parameter quoted [c] .value []], r)
      else
        match parameterName? (c :: r) with
        | some (name, rest) => some ([.parameter quoted name .value []], rest)
        | none => some ([.text quoted ['$']], c :: r)
    | [] => some ([.text quoted ['$']], [])

def braced? : Nat → Bool → Reader (List Part)
  | 0, _, _ => none
  | fuel + 1, quoted, cs =>
    let counted := match cs with
      | '#' :: r =>
        (parameterName? r).filter fun (p : Octets × List Char) => p.2.head? == some '\x7d'
      | _ => none
    match counted with
    | some (name, r) => some ([.parameter quoted name .length []], r.drop 1)
    | none => do
      let (name, r) ← parameterName? cs
      match r with
      | '\x7d' :: r => some ([.parameter quoted name .value []], r)
      | r =>
        let (use, r) ← parameterUse? r
        let (arg, r) ← parts? fuel (.brace quoted) r
        some ([.parameter quoted name use arg], r.drop 1)

end

def word? (fuel : Nat) : Reader Word := parts? fuel .bare

/-- The text of a word that is one bare piece of text, as reserved words are. -/
def bareText? : Word → Option Octets
  | [] => some []
  | .text false s :: rest => (bareText? rest).map (s ++ ·)
  | _ => none

def assignment? (w : Word) : Option (Octets × Word) :=
  let name := w.takeWhile fun (p : Part) => match p with
    | .text false [c] => isNameChar c
    | _ => false
  match w.drop name.length with
  | .text false ['='] :: value =>
    ((bareText? name).filter isName).map fun n => (n, value)
  | _ => none

/-! ### Commands -/

def redirect? (fuel : Nat) (cs : List Char) : Option (Redirect × List Char) :=
  let number := cs.takeWhile Char.isDigit
  let given (standard : Nat) : Nat :=
    if number.isEmpty then standard else Text.ofDigits 10 number
  let finish (kind : RedirectKind) (standard : Nat) (r : List Char) :=
    (word? fuel (skip false r)).bind fun p =>
      if p.1.isEmpty then none else some (⟨given standard, kind, p.1⟩, p.2)
  match cs.drop number.length with
  | '>' :: '>' :: r => finish .append 1 r
  | '>' :: '&' :: r => finish .duplicate 1 r
  | '>' :: '|' :: r => finish .output 1 r
  | '>' :: r => finish .output 1 r
  | '<' :: '&' :: r => finish .duplicate 0 r
  | '<' :: '<' :: _ => none
  | '<' :: r => finish .input 0 r
  | _ => none

def redirects : Nat → List Char → List Redirect × List Char
  | 0, cs => ([], cs)
  | fuel + 1, cs =>
    match redirect? fuel (skip false cs) with
    | none => ([], cs)
    | some (d, r) =>
      let (ds, r) := redirects fuel r
      (d :: ds, r)

def simple? : Nat → List (Octets × Word) → List Word → List Redirect → Reader Script
  | 0, _, _, _, _ => none
  | fuel + 1, as, ws, ds, cs =>
    let cs := skip false cs
    match redirect? fuel cs with
    | some (d, r) => simple? fuel as ws (ds ++ [d]) r
    | none =>
      match cs with
      | [] => some (.simple as ws ds, [])
      | c :: _ =>
        if isMeta c then
          if c == '<' || c == '>' then none else some (.simple as ws ds, cs)
        else do
          let (w, r) ← word? fuel cs
          match (if ws.isEmpty then assignment? w else none) with
          | some a => simple? fuel (as ++ [a]) ws ds r
          | none => simple? fuel as (ws ++ [w]) ds r

def reserved : List String :=
  ["if", "then", "elif", "else", "fi", "while", "until", "do", "done", "for", "in", "case", "esac",
    "\x7b", "\x7d", "!"]

def keyword? (cs : List Char) : Option (String × List Char) :=
  let w := cs.takeWhile fun c => !isMeta c
  let s := String.ofList w
  if reserved.contains s then some (s, cs.drop w.length) else none

def skipLines : Nat → List Char → List Char
  | 0, cs => cs
  | fuel + 1, cs =>
    match skip false cs with
    | '\n' :: r => skipLines fuel r
    | cs => cs

def expect? (fuel : Nat) (word : String) (cs : List Char) : Option (List Char) :=
  match keyword? (skipLines fuel cs) with
  | some (w, r) => if w == word then some r else none
  | none => none

def endsList (cs : List Char) : Bool :=
  match cs with
  | [] => true
  | ')' :: _ => true
  | ';' :: ';' :: _ => true
  | cs =>
    match keyword? cs with
    | some (w, _) => ["then", "elif", "else", "fi", "do", "done", "esac", "\x7d"].contains w
    | none => false

def words : Nat → List Char → List Word × List Char
  | 0, cs => ([], cs)
  | fuel + 1, cs =>
    match word? fuel (skip false cs) with
    | none => ([], cs)
    | some ([], r) => ([], r)
    | some (w, r) =>
      let (ws, r) := words fuel r
      (w :: ws, r)

def patterns? : Nat → Reader (List Word)
  | 0, _ => none
  | fuel + 1, cs => do
    let (w, r) ← word? fuel (skip false cs)
    match skip false r with
    | '|' :: r =>
      let (ws, r) ← patterns? fuel r
      some (w :: ws, r)
    | ')' :: r => some ([w], r)
    | _ => none

mutual

def list? : Nat → Reader Script
  | 0, _ => none
  | fuel + 1, cs =>
    let cs := skipLines fuel cs
    if endsList cs then some (.nothing, cs)
    else do
      let (first, r) ← andOr? fuel cs
      match skip false r with
      | ';' :: ';' :: r => some (first, ';' :: ';' :: r)
      | ';' :: r =>
        let (second, r) ← list? fuel r
        some (.sequence first second, r)
      | '&' :: r =>
        let (second, r) ← list? fuel r
        some (.sequence first second, r)
      | '\n' :: r =>
        let (second, r) ← list? fuel r
        some (.sequence first second, r)
      | r => some (first, r)

def andOr? : Nat → Reader Script
  | 0, _ => none
  | fuel + 1, cs => do
    let (first, r) ← pipeline? fuel cs
    andOrRest? fuel first r

def andOrRest? : Nat → Script → Reader Script
  | 0, _, _ => none
  | fuel + 1, first, cs =>
    match skip false cs with
    | '&' :: '&' :: r => do
      let (next, r) ← pipeline? fuel (skipLines fuel r)
      andOrRest? fuel (.both first next) r
    | '|' :: '|' :: r => do
      let (next, r) ← pipeline? fuel (skipLines fuel r)
      andOrRest? fuel (.either first next) r
    | r => some (first, r)

def pipeline? : Nat → Reader Script
  | 0, _ => none
  | fuel + 1, cs =>
    match keyword? (skip false cs) with
    | some ("!", r) => do
      let (body, r) ← pipeline? fuel r
      some (.inverted body, r)
    | _ => do
      let (first, r) ← command? fuel cs
      match skip false r with
      | '|' :: '|' :: r => some (first, '|' :: '|' :: r)
      | '|' :: r =>
        let (rest, r) ← pipeline? fuel (skipLines fuel r)
        some (.pipe first rest, r)
      | r => some (first, r)

def conditional? : Nat → Reader Script
  | 0, _ => none
  | fuel + 1, cs => do
    let (condition, r) ← list? fuel cs
    let r ← expect? fuel "then" r
    let (yes, r) ← list? fuel r
    match keyword? (skipLines fuel r) with
    | some ("elif", r) =>
      let (no, r) ← conditional? fuel r
      some (.conditional condition yes no, r)
    | some ("else", r) =>
      let (no, r) ← list? fuel r
      let r ← expect? fuel "fi" r
      some (.conditional condition yes no, r)
    | some ("fi", r) => some (.conditional condition yes .nothing, r)
    | _ => none

def body? : Nat → Reader Script
  | 0, _ => none
  | fuel + 1, cs => do
    let r ← expect? fuel "do" cs
    let (body, r) ← list? fuel r
    let r ← expect? fuel "done" r
    some (body, r)

def each? : Nat → Reader Script
  | 0, _ => none
  | fuel + 1, cs => do
    let (w, r) ← word? fuel (skip false cs)
    let name ← (bareText? w).filter isName
    match keyword? (skip false r) with
    | some ("in", r) =>
      let (ws, r) := words fuel r
      let r := match skip false r with
        | ';' :: r => r
        | r => r
      let (body, r) ← body? fuel r
      some (.each name (some ws) body, r)
    | _ =>
      let r := match skip false r with
        | ';' :: r => r
        | r => r
      let (body, r) ← body? fuel r
      some (.each name none body, r)

def branches? : Nat → Reader (List (List Word × Script))
  | 0, _ => none
  | fuel + 1, cs =>
    let cs := skipLines fuel cs
    match keyword? cs with
    | some ("esac", r) => some ([], r)
    | _ => do
      let cs := match cs with
        | '(' :: r => r
        | r => r
      let (ps, r) ← patterns? fuel cs
      let (body, r) ← list? fuel r
      let r := match skipLines fuel r with
        | ';' :: ';' :: r => r
        | r => r
      let (rest, r) ← branches? fuel r
      some ((ps, body) :: rest, r)

def command? : Nat → Reader Script
  | 0, _ => none
  | fuel + 1, cs =>
    let cs := skip false cs
    let redirected (body : Script) (r : List Char) : Option (Script × List Char) :=
      match redirects fuel r with
      | ([], r) => some (body, r)
      | (ds, r) => some (.group false body ds, r)
    match keyword? cs with
    | some ("if", r) => do
      let (body, r) ← conditional? fuel r
      redirected body r
    | some ("while", r) => do
      let (condition, r) ← list? fuel r
      let (body, r) ← body? fuel r
      redirected (.loop false condition body) r
    | some ("until", r) => do
      let (condition, r) ← list? fuel r
      let (body, r) ← body? fuel r
      redirected (.loop true condition body) r
    | some ("for", r) => do
      let (body, r) ← each? fuel r
      redirected body r
    | some ("case", r) => do
      let (w, r) ← word? fuel (skip false r)
      let r ← expect? fuel "in" r
      let (branches, r) ← branches? fuel r
      redirected (.select w branches) r
    | some ("\x7b", r) => do
      let (body, r) ← list? fuel r
      let r ← expect? fuel "\x7d" r
      let (ds, r) := redirects fuel r
      some (.group false body ds, r)
    | some _ => none
    | none =>
      match cs with
      | '(' :: r => do
        let (body, r) ← list? fuel r
        match skipLines fuel r with
        | ')' :: r =>
          let (ds, r) := redirects fuel r
          some (.group true body ds, r)
        | _ => none
      | cs => do
        let (body, r) ← simple? fuel [] [] [] cs
        match body, r with
        | .simple [] [w] [], '(' :: ')' :: r =>
          let name ← (bareText? w).filter isName
          let (body, r) ← command? fuel (skipLines fuel r)
          some (.define name body, r)
        | .simple [] [] [], _ => none
        | body, r => some (body, r)

end

def ofText? (s : Octets) : Option Script :=
  match list? (8 * s.length + 16) s with
  | some (script, []) => some script
  | _ => none

end PipelineRunner.Host.Script
