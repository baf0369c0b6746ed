import PipelineRunner.Text.Blank
import PipelineRunner.Text.Digits
import PipelineRunner.Time.Calendar

/-!
# Instants

Points in time in UTC with nanoseconds, their order, the time between two of them, and their text
by RFC 3339. Reading is lenient about blanks between the parts; writing uses as few groups of
three fraction digits as are exact. A leap second is the second 59 with a full extra second in
its nanoseconds.
-/

namespace PipelineRunner

structure Instant where
  /-- Seconds since 1970-01-01T00:00:00Z, without leap seconds. -/
  seconds : Int
  /-- Nanoseconds; at least 10^9 only inside a leap second. -/
  nanos : Nat
  deriving DecidableEq, Repr, Inhabited

namespace Instant

def nanosPerSecond : Nat := 1000000000

def secondsPerDay : Int := 86400

/-! ### Order and differences -/

def before (a b : Instant) : Bool :=
  a.seconds < b.seconds || (a.seconds == b.seconds && a.nanos < b.nanos)

def dayNumber (t : Instant) : Int := Int.fdiv t.seconds secondsPerDay

def secondOfDay (t : Instant) : Int := Int.fmod t.seconds secondsPerDay

/-- The nanoseconds from the second instant to the first. A leap second between two times of day
counts. -/
def nanosSince (a b : Instant) : Int :=
  let leap : Int :=
    if b.secondOfDay < a.secondOfDay then (if nanosPerSecond ≤ b.nanos then 1 else 0)
    else if a.secondOfDay < b.secondOfDay then (if nanosPerSecond ≤ a.nanos then -1 else 0)
    else 0
  ((a.dayNumber - b.dayNumber) * secondsPerDay + (a.secondOfDay - b.secondOfDay) + leap) *
    nanosPerSecond + ((a.nanos : Int) - (b.nanos : Int))

/-- The milliseconds from the second instant to the first, cut toward zero. -/
def millisSince (a b : Instant) : Int := Int.tdiv (a.nanosSince b) 1000000

/-! ### Writing -/

def padded (width n : Nat) : List Char :=
  let ds := Nat.toDigits 10 n
  List.replicate (width - ds.length) '0' ++ ds

def yearChars (y : Int) : List Char :=
  if 0 ≤ y ∧ y ≤ 9999 then padded 4 y.toNat
  else (if y < 0 then '-' else '+') :: padded 4 y.natAbs

def dateChars (d : Time.Date) : List Char :=
  yearChars d.year ++ '-' :: padded 2 d.month ++ '-' :: padded 2 d.day

def fractionChars (nanos : Nat) : List Char :=
  if nanos = 0 then []
  else if nanos % 1000000 = 0 then '.' :: padded 3 (nanos / 1000000)
  else if nanos % 1000 = 0 then '.' :: padded 6 (nanos / 1000)
  else '.' :: padded 9 nanos

def timeChars (secondOfDay nanos : Nat) : List Char :=
  let extra := nanos / nanosPerSecond
  padded 2 (secondOfDay / 3600) ++ ':' :: padded 2 (secondOfDay / 60 % 60) ++
    ':' :: padded 2 (secondOfDay % 60 + extra) ++ fractionChars (nanos % nanosPerSecond)

def clockChars (sep : Char) (t : Instant) : List Char :=
  dateChars (Time.Date.ofDays t.dayNumber) ++ sep :: timeChars t.secondOfDay.toNat t.nanos

def toText (t : Instant) : String := String.ofList (clockChars 'T' t ++ ['Z'])

def toOffsetText (t : Instant) : String := String.ofList (clockChars 'T' t ++ "+00:00".toList)

/-- The text of an instant as history tables sort it: a blank for the `T`, and no offset. -/
def toTableText (t : Instant) : String := String.ofList (clockChars ' ' t)

/-! ### Reading -/

def digits? (width : Nat) (s : List Char) : Option (Nat × List Char) :=
  let ds := (s.take width).takeWhile Char.isDigit
  if ds.isEmpty then none
  else some (Text.ofDigits 10 ds, s.drop ds.length)

def number? (width : Nat) (s : List Char) : Option (Nat × List Char) :=
  digits? width (Text.dropBlanks s)

/-- Takes blanks and a year, which may have a sign and then any number of digits. -/
def year? (s : List Char) : Option (Int × List Char) :=
  match Text.dropBlanks s with
  | '-' :: r => (digits? r.length r).map fun p => (-(p.1 : Int), p.2)
  | '+' :: r => (digits? r.length r).map fun p => ((p.1 : Int), p.2)
  | r => (digits? 4 r).map fun p => ((p.1 : Int), p.2)

def mark? (c : Char) (s : List Char) : Option (List Char) :=
  match Text.dropBlanks s with
  | d :: r => if d = c then some r else none
  | [] => none

/-- Takes a fraction of a second, if there is one; digits past the ninth are dropped. -/
def fraction? (s : List Char) : Option (Nat × List Char) :=
  match s with
  | '.' :: r =>
    let ds := (r.take 9).takeWhile Char.isDigit
    if ds.isEmpty then none
    else
      some (Text.ofDigits 10 ds * Nat.pow 10 (9 - ds.length),
        (r.drop ds.length).dropWhile Char.isDigit)
  | _ => some (0, s)

def twoDigits? (bound : Nat) : List Char → Option (Nat × List Char)
  | a :: b :: r =>
    if Text.isDigitIn bound a && b.isDigit then some (Text.ofDigits 10 [a, b], r) else none
  | _ => none

/-- Takes an offset from UTC in seconds: `Z`, `UTC`, or a sign, hours and minutes. -/
def offset? (s : List Char) : Option (Int × List Char) :=
  if (s.take 3).map Char.toUpper = ['U', 'T', 'C'] then some (0, s.drop 3)
  else
    match s with
    | 'Z' :: r => some (0, r)
    | 'z' :: r => some (0, r)
    | c :: r =>
      if c = '+' || c = '-' || c.toNat = 0x2212 then
        match twoDigits? 10 r with
        | none => none
        | some (hours, r) =>
          match twoDigits? 6 (r.dropWhile fun d => d = ':' || Text.isBlank d) with
          | none => none
          | some (minutes, r) =>
            let total : Int := hours * 3600 + minutes * 60
            some (if c = '+' then total else -total, r)
      else none
    | [] => none

def yearInRange (y : Int) : Bool := -262143 ≤ y && y ≤ 262142

def ofParts? (date : Time.Date) (hour minute second nanos : Nat) (offset : Int) : Option Instant :=
  if yearInRange date.year && date.isValid && hour < 24 && minute < 60 && second ≤ 60 &&
      offset.natAbs < 86400 then
    let leap := if second = 60 then 1 else 0
    let clock : Int := hour * 3600 + minute * 60 + (second - leap : Nat)
    let t : Instant :=
      ⟨date.toDays * secondsPerDay + clock - offset, nanos + leap * nanosPerSecond⟩
    if yearInRange (Time.Date.ofDays t.dayNumber).year then some t else none
  else none

def ofText? (s : String) : Option Instant := do
  let (year, s) ← year? s.toList
  let s ← mark? '-' s
  let (month, s) ← number? 2 s
  let s ← mark? '-' s
  let (day, s) ← number? 2 s
  let s ← match s with
    | 'T' :: r => some r
    | 't' :: r => some r
    | ' ' :: r => some r
    | _ => none
  let (hour, s) ← number? 2 s
  let s ← mark? ':' s
  let (minute, s) ← number? 2 s
  let s ← mark? ':' s
  let (second, s) ← number? 2 s
  let (nanos, s) ← fraction? s
  let (offset, s) ← offset? (Text.dropBlanks s)
  if s.all Text.isBlank then ofParts? ⟨year, month, day⟩ hour minute second nanos offset else none

end Instant

end PipelineRunner
