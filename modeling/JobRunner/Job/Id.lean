import JobRunner.Json.Wire
import JobRunner.Text.Blank
import JobRunner.Text.Hex
/-!
# Job identifiers

A job is known by a text.  Callers bring their own, such as the number of a request, or have one made: a version 7 UUID,
whose text begins with the time in milliseconds, so that identifiers sort by the order in which they were made.
-/
namespace JobRunner

/-- The name of a job. -/
structure JobId where
  text : String
  deriving DecidableEq, Repr

namespace JobId

instance : Inhabited JobId := ⟨⟨""⟩⟩

def lt (a b : JobId) : Bool := a.text < b.text

def le (a b : JobId) : Bool := !b.lt a

/-- What is said about a text that names no job. -/
def emptyMessage : String := "job id must not be empty"

/-- The identifier in a text that people type; nothing is left of it when it is blank. -/
def parse? (s : String) : Option JobId :=
  let trimmed := Text.trim s
  if trimmed.isEmpty then none else some ⟨trimmed⟩

instance : Wire JobId where
  encode i := .str i.text
  decode?
    | .str s => some ⟨s⟩
    | _ => none

/-! ## Made identifiers -/

/-- Cuts a run of digits into the five groups of a UUID. -/
def grouped (digits : List Char) : List Char :=
  digits.take 8 ++ '-' :: ((digits.drop 8).take 4 ++ '-' :: ((digits.drop 12).take 4 ++
    '-' :: ((digits.drop 16).take 4 ++ '-' :: digits.drop 20)))

/-- The identifier with the given time and number: forty-eight bits of milliseconds, the version, twelve bits of the
number, the variant, and the other sixty-two bits of the number. -/
def made (millis number : Nat) : JobId :=
  let high := millis % Nat.pow 2 48
  let middle := 7 * Nat.pow 2 12 + number / Nat.pow 2 62 % Nat.pow 2 12
  let low := Nat.pow 2 63 + number % Nat.pow 2 62
  ⟨String.ofList (grouped (Text.hexPadded 12 high ++ Text.hexPadded 4 middle ++ Text.hexPadded 16 low))⟩

/-- A lower-case hexadecimal digit. -/
def isDigit (c : Char) : Bool := ('0' ≤ c && c ≤ '9') || ('a' ≤ c && c ≤ 'f')

/-- The text has the form of a version 7 UUID in lower case. -/
def isMade (i : JobId) : Bool :=
  let cs := i.text.toList
  let digits := cs.filter (· != '-')
  digits.length == 32 && digits.all isDigit && cs == grouped digits && digits[12]? == some '7' &&
    (digits[16]?.any fun c => ['8', '9', 'a', 'b'].contains c)

/-- Each identifier comes strictly before the next one. -/
def ascending : List JobId → Bool
  | a :: b :: rest => a.lt b && ascending (b :: rest)
  | _ => true

end JobId
end JobRunner
