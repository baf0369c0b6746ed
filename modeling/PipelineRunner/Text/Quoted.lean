import PipelineRunner.Text.Graphic

/-!
# Quoted texts

A text between double quotes, as diagnostics show it: quotes and backslashes are escaped, the
usual control characters have short escapes, and a character that is not graphic is written as its
code point in hexadecimal.
-/

namespace PipelineRunner.Text

def quotedChar (c : Char) : List Char :=
  if c = '"' then ['\\', '"']
  else if c = '\\' then ['\\', '\\']
  else if c = '\n' then ['\\', 'n']
  else if c = '\r' then ['\\', 'r']
  else if c = '\t' then ['\\', 't']
  else if c.toNat = 0 then ['\\', '0']
  else if isGraphic c then [c]
  else ['\\', 'u', '\x7b'] ++ Nat.toDigits 16 c.toNat ++ ['\x7d']

def quoted (s : String) : String :=
  String.ofList ('"' :: s.toList.flatMap quotedChar ++ ['"'])

def quotedList (items : List String) : String := "[" ++ String.intercalate ", " items ++ "]"

def quotedMap (items : List (String × String)) : String :=
  "\x7b" ++ String.intercalate ", " (items.map fun e => e.1 ++ ": " ++ e.2) ++ "\x7d"

def quotedOption : Option String → String
  | none => "None"
  | some s => "Some(" ++ s ++ ")"

end PipelineRunner.Text
