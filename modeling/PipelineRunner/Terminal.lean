/-!
# Terminals

What a terminal can show: styled text and emoji. A style is one ANSI sequence before the text and a
reset after it.
-/

namespace PipelineRunner

inductive TextStyle
  | bold
  | dim
  | red
  | green
  | yellow
  | cyan
  deriving DecidableEq, Repr

def TextStyle.code : TextStyle → Nat
  | bold => 1
  | dim => 2
  | red => 31
  | green => 32
  | yellow => 33
  | cyan => 36

inductive Icon
  | check
  | cross
  | spinner
  | info
  | warning
  | rocket
  | package
  | skip
  deriving DecidableEq, Repr

def Icon.emoji : Icon → String
  | check => "✅ "
  | cross => "❌ "
  | spinner => "⏳ "
  | info => "ℹ️  "
  | warning => "⚠️  "
  | rocket => "🚀 "
  | package => "📦 "
  | skip => "⏭️  "

def Icon.plain : Icon → String
  | check => "✓ "
  | cross => "✗ "
  | spinner => "~ "
  | info => "i "
  | warning => "! "
  | rocket => "> "
  | package => "+ "
  | skip => "- "

structure Terminal where
  styled : Bool
  emoji : Bool
  deriving DecidableEq, Repr

namespace Terminal

def style (t : Terminal) (s : TextStyle) (text : String) : String :=
  if t.styled then s!"\x1b[{s.code}m" ++ text ++ "\x1b[0m" else text

def icon (t : Terminal) (i : Icon) : String := if t.emoji then i.emoji else i.plain

end Terminal

end PipelineRunner
