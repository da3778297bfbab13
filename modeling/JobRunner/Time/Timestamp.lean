import JobRunner.Json.Wire
import JobRunner.Text.Blank
import JobRunner.Text.Decimal
import JobRunner.Time.Date
/-!
# Timestamps

A point in time in UTC, to the nanosecond.  Its text follows RFC 3339: date, `T`, time of day, as many fraction digits
as whole groups of three need, and `Z`.  Reading is more lenient than writing: blanks may stand between the parts, a
blank may stand for the `T`, numbers may lack leading zeros, a year may have a sign and then any number of digits, the
offset may be any up to a day, and digits of the fraction behind the ninth are dropped.  A second numbered 60 is read
as a leap second, which has its own place between second 59 and the next minute.
-/
namespace JobRunner

/-- Seconds from the start of 1970, and nanoseconds; within a leap second the nanoseconds go on past a thousand
million. -/
structure Timestamp where
  secs : Int
  nanos : Nat
  deriving DecidableEq, Repr

namespace Timestamp

instance : Inhabited Timestamp := ⟨⟨0, 0⟩⟩

/-- Order of time. -/
def le (a b : Timestamp) : Bool := a.secs < b.secs || (a.secs == b.secs && a.nanos ≤ b.nanos)

def lt (a b : Timestamp) : Bool := a.secs < b.secs || (a.secs == b.secs && a.nanos < b.nanos)

/-- The point in time so many nanoseconds after the start of 1970. -/
def ofNanos (n : Nat) : Timestamp := ⟨(n / 1000000000 : Nat), n % 1000000000⟩

/-! ## Writing -/

/-- A number with at least `width` digits. -/
def padded (width n : Nat) : List Char :=
  let digits := (Nat.repr n).toList
  List.replicate (width - digits.length) '0' ++ digits

/-- Four digits, or a sign and at least four digits for a year that needs more. -/
def yearText (year : Int) : List Char :=
  if 0 ≤ year ∧ year ≤ 9999 then padded 4 year.toNat
  else (if year < 0 then '-' else '+') :: padded 4 year.natAbs

/-- No digits, or the shortest of three, six and nine that show the fraction in full. -/
def fractionText (nanos : Nat) : List Char :=
  if nanos = 0 then []
  else if nanos % 1000000 = 0 then '.' :: padded 3 (nanos / 1000000)
  else if nanos % 1000 = 0 then '.' :: padded 6 (nanos / 1000)
  else '.' :: padded 9 nanos

/-- The text of a timestamp. -/
def text (t : Timestamp) : String :=
  let date := Date.ofDayNumber (t.secs / 86400)
  let second := (t.secs % 86400).toNat
  let leap := 1000000000 ≤ t.nanos
  let nanos := if leap then t.nanos - 1000000000 else t.nanos
  String.ofList <|
    yearText date.year ++ '-' :: padded 2 date.month ++ '-' :: padded 2 date.day ++
    'T' :: padded 2 (second / 3600) ++ ':' :: padded 2 (second / 60 % 60) ++
    ':' :: padded 2 (if leap then second % 60 + 1 else second % 60) ++ fractionText nanos ++ ['Z']

/-! ## Reading

Each reader takes what it needs from the front of the text and gives back the rest. -/

/-- The digits at the front, at most `most` of them. -/
def takeDigits : Nat → List Char → List Nat × List Char
  | most + 1, c :: cs =>
    match Text.Decimal.digit? c with
    | some d => let r := takeDigits most cs; (d :: r.1, r.2)
    | none => ([], c :: cs)
  | _, cs => ([], cs)

def digitsValue (ds : List Nat) : Nat := ds.foldl (fun v d => v * 10 + d) 0

/-- A number of one digit at least and `most` at most. -/
def number (most : Nat) (cs : List Char) : Option (Nat × List Char) :=
  match takeDigits most cs with
  | ([], _) => none
  | (ds, rest) => some (digitsValue ds, rest)

/-- A number behind blanks. -/
def paddedNumber (most : Nat) (cs : List Char) : Option (Nat × List Char) := number most (Text.trimFront cs)

/-- A year: after a sign as many digits as there are, else four at most. -/
def year (cs : List Char) : Option (Int × List Char) :=
  match Text.trimFront cs with
  | '-' :: rest => (number rest.length rest).map fun r => (-(r.1 : Int), r.2)
  | '+' :: rest => (number rest.length rest).map fun r => ((r.1 : Int), r.2)
  | rest => (number 4 rest).map fun r => ((r.1 : Int), r.2)

/-- One given character behind blanks. -/
def mark (c : Char) (cs : List Char) : Option (List Char) :=
  match Text.trimFront cs with
  | [] => none
  | c' :: rest => if c' = c then some rest else none

/-- The fraction of a second in nanoseconds, if there is a point. -/
def fraction : List Char → Option (Nat × List Char)
  | '.' :: cs =>
    match takeDigits 9 cs with
    | ([], _) => none
    | (ds, rest) => some (digitsValue ds * Nat.pow 10 (9 - ds.length),
        rest.dropWhile fun c => (Text.Decimal.digit? c).isSome)
  | cs => some (0, cs)

/-- Two digits of which the first is at most `high`. -/
def twoDigits (high : Nat) : List Char → Option (Nat × List Char)
  | a :: b :: rest =>
    match Text.Decimal.digit? a, Text.Decimal.digit? b with
    | some x, some y => if x ≤ high then some (x * 10 + y, rest) else none
    | _, _ => none
  | _ => none

/-- The offset from UTC in seconds: `Z`, `UTC`, or a sign, hours, minutes and any blanks and colons between them. -/
def offset (cs : List Char) : Option (Int × List Char) :=
  match cs with
  | 'Z' :: rest | 'z' :: rest => some (0, rest)
  | _ =>
    if (cs.take 3).map Char.toUpper = ['U', 'T', 'C'] then some (0, cs.drop 3)
    else do
      let (sign, rest) ← match cs with
        | '+' :: rest => some ((1 : Int), rest)
        | '-' :: rest => some (-1, rest)
        | '\u2212' :: rest => some (-1, rest)
        | _ => none
      let (hours, rest) ← twoDigits 9 rest
      let (minutes, rest) ← twoDigits 5 (rest.dropWhile fun c => c = ':' || Text.isBlank c)
      some (sign * (hours * 3600 + minutes * 60 : Nat), rest)

/-- The point in time of a local date and time of day; only second 60 is a leap second. -/
def ofLocal? (date : Date) (hour minute second nanos : Nat) (offset : Int) : Option Timestamp :=
  if hour ≤ 23 ∧ minute ≤ 59 ∧ second ≤ 60 ∧ offset.natAbs < 86400 then
    let leap := second = 60
    let time := hour * 3600 + minute * 60 + (if leap then 59 else second)
    let secs := date.dayNumber * 86400 + time - offset
    if (Date.ofDayNumber (secs / 86400)).inRange then
      some ⟨secs, if leap then 1000000000 + nanos else nanos⟩
    else none
  else none

/-- The timestamp that a text stands for. -/
def ofText? (s : String) : Option Timestamp := do
  let (y, cs) ← year s.toList
  let cs ← mark '-' cs
  let (m, cs) ← paddedNumber 2 cs
  let cs ← mark '-' cs
  let (d, cs) ← paddedNumber 2 cs
  let cs ← match cs with
    | 'T' :: rest | 't' :: rest | ' ' :: rest => some rest
    | _ => none
  let (hour, cs) ← paddedNumber 2 cs
  let cs ← mark ':' cs
  let (minute, cs) ← paddedNumber 2 cs
  let cs ← mark ':' cs
  let (second, cs) ← paddedNumber 2 cs
  let (nanos, cs) ← fraction cs
  let (off, cs) ← offset (Text.trimFront cs)
  guard (Text.trimFront cs).isEmpty
  let date ← Date.ofParts? y m d
  ofLocal? date hour minute second nanos off

instance : Wire Timestamp where
  encode t := .str t.text
  decode?
    | .str s => ofText? s
    | _ => none

end Timestamp
end JobRunner
