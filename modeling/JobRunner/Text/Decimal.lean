/-!
# Reading unsigned decimal numbers

A number is an optional plus sign and one or more ASCII digits, read from left to right against an upper limit.  The
first fault met on the way is the one reported: a character that is no digit, or the digit with which the value reaches
the limit.
-/
namespace JobRunner
namespace Text
namespace Decimal

/-- Why a text is not a number below the limit. -/
inductive Fault where
  | empty
  | badDigit
  | tooLarge
  deriving DecidableEq, Repr

/-- The wording of a fault. -/
def Fault.message : Fault → String
  | .empty => "cannot parse integer from empty string"
  | .badDigit => "invalid digit found in string"
  | .tooLarge => "number too large to fit in target type"

/-- The value of an ASCII digit. -/
def digit? (c : Char) : Option Nat :=
  if 0x30 ≤ c.toNat ∧ c.toNat ≤ 0x39 then some (c.toNat - 0x30) else none

/-- The value of a run of digits, `value` being what the digits before it came to. -/
def readFrom (limit : Nat) (value : Nat) : List Char → Except Fault Nat
  | [] => .ok value
  | c :: cs =>
    match digit? c with
    | none => .error .badDigit
    | some d => if value * 10 + d < limit then readFrom limit (value * 10 + d) cs else .error .tooLarge

/-- The value of a run of digits that may not be empty. -/
def readDigits (limit : Nat) (cs : List Char) : Except Fault Nat :=
  if cs.isEmpty then .error .badDigit else readFrom limit 0 cs

/-- The number below `limit` that the text stands for. -/
def read (limit : Nat) : List Char → Except Fault Nat
  | [] => .error .empty
  | '+' :: cs => readDigits limit cs
  | cs => readFrom limit 0 cs

theorem digit?_lt {c : Char} {d : Nat} (h : digit? c = some d) : d < 10 := by
  unfold digit? at h
  split at h
  · simp only [Option.some.injEq] at h; omega
  · simp at h

theorem readFrom_lt {limit value n : Nat} {cs : List Char} (hv : value < limit)
    (h : readFrom limit value cs = .ok n) : n < limit := by
  induction cs generalizing value with
  | nil =>
    simp only [readFrom, Except.ok.injEq] at h
    omega
  | cons c cs ih =>
    simp only [readFrom] at h
    split at h
    · simp at h
    · split at h
      · exact ih (by assumption) h
      · simp at h

/-- What is read is below the limit. -/
theorem read_lt {limit n : Nat} {cs : List Char} (hl : 0 < limit) (h : read limit cs = .ok n) : n < limit := by
  unfold read at h
  split at h
  · simp at h
  · unfold readDigits at h
    split at h
    · simp at h
    · exact readFrom_lt hl h
  · exact readFrom_lt hl h

end Decimal
end Text
end JobRunner
