/-!
# Octets

Sequences of bytes, each written as the character with its number. `toText` reads them as UTF-8; a
sequence that is not well-formed becomes one replacement character for each longest part that
starts a character.
-/

namespace PipelineRunner.Host

abbrev Octets := List Char

namespace Octets

def ofText (s : String) : Octets := s.toUTF8.toList.map fun b => Char.ofNat b.toNat

/-- A character that is being read: the bytes still to come, the range of the next one, and the
value so far. -/
structure Partial where
  missing : Nat
  low : Nat
  high : Nat
  value : Nat

def Partial.ofLead? (b : Nat) : Option Partial :=
  if 0xC2 ≤ b && b ≤ 0xDF then some ⟨1, 0x80, 0xBF, b - 0xC0⟩
  else if b == 0xE0 then some ⟨2, 0xA0, 0xBF, 0⟩
  else if b == 0xED then some ⟨2, 0x80, 0x9F, 0xD⟩
  else if 0xE1 ≤ b && b ≤ 0xEF then some ⟨2, 0x80, 0xBF, b - 0xE0⟩
  else if b == 0xF0 then some ⟨3, 0x90, 0xBF, 0⟩
  else if 0xF1 ≤ b && b ≤ 0xF3 then some ⟨3, 0x80, 0xBF, b - 0xF0⟩
  else if b == 0xF4 then some ⟨3, 0x80, 0x8F, 4⟩
  else none

def replacement : Char := '\uFFFD'

def start (c : Char) : List Char × Option Partial :=
  if c.toNat < 0x80 then ([c], none)
  else
    match Partial.ofLead? c.toNat with
    | some p => ([], some p)
    | none => ([replacement], none)

def decode : Option Partial → Octets → List Char
  | none, [] => []
  | some _, [] => [replacement]
  | none, c :: r =>
    let (done, next) := start c
    done ++ decode next r
  | some p, c :: r =>
    if p.low ≤ c.toNat && c.toNat ≤ p.high then
      let value := p.value * 64 + (c.toNat - 0x80)
      if p.missing = 1 then Char.ofNat value :: decode none r
      else decode (some ⟨p.missing - 1, 0x80, 0xBF, value⟩) r
    else
      let (done, next) := start c
      replacement :: done ++ decode next r

def toText (s : Octets) : String := String.ofList (decode none s)

end Octets

end PipelineRunner.Host
