import JobRunner.Json.Wire
/-!
# Durations

A length of time in whole nanoseconds.  The whole seconds of a duration fit 64 bits; a duration that would need more
does not exist.
-/
namespace JobRunner

/-- Durations below this number of nanoseconds exist. -/
def Duration.limit : Nat := UInt64.size * 1000000000

/-- A length of time. -/
structure Duration where
  nanos : Nat
  nanos_lt : nanos < Duration.limit := by decide

namespace Duration

@[ext] theorem ext {a b : Duration} (h : a.nanos = b.nanos) : a = b := by
  cases a; cases b; cases h; rfl

instance : DecidableEq Duration := fun a b =>
  if h : a.nanos = b.nanos then isTrue (Duration.ext h) else isFalse (fun e => h (e ▸ rfl))

instance : Repr Duration := ⟨fun d n => reprPrec d.nanos n⟩

def zero : Duration := ⟨0, by decide⟩

instance : Inhabited Duration := ⟨zero⟩

/-- The longest duration. -/
def longest : Duration := ⟨limit - 1, by decide⟩

def ofSecs (s : UInt64) : Duration :=
  ⟨s.toNat * 1000000000, by
    have := s.toNat_lt
    simp only [limit, UInt64.size]; omega⟩

def ofMillis (ms : UInt64) : Duration :=
  ⟨ms.toNat * 1000000, by
    have := ms.toNat_lt
    simp only [limit, UInt64.size]; omega⟩

/-- Seconds and nanoseconds, of which a thousand million and more carry into the seconds. -/
def ofParts? (secs : UInt64) (nanos : UInt32) : Option Duration :=
  if h : secs.toNat * 1000000000 + nanos.toNat < limit then some ⟨secs.toNat * 1000000000 + nanos.toNat, h⟩ else none

/-- The whole seconds. -/
def secs (d : Duration) : Nat := d.nanos / 1000000000

/-- The nanoseconds beyond the whole seconds. -/
def subsecNanos (d : Duration) : Nat := d.nanos % 1000000000

/-- The whole milliseconds, as far as 64 bits hold them. -/
def millis (d : Duration) : UInt64 := UInt64.ofNat (d.nanos / 1000000)

/-- The longer of two durations. -/
def max (a b : Duration) : Duration := if a.nanos ≤ b.nanos then b else a

/-! ## Text

A duration is shown in the largest of four units of which it has at least one, as an exact decimal number without
trailing zeros. -/

/-- The digits of `n / 10 ^ places` behind the point, without trailing zeros. -/
def fraction (places n : Nat) : List Char :=
  let digits := (Nat.repr n).toList
  ((List.replicate (places - digits.length) '0' ++ digits).reverse.dropWhile (· == '0')).reverse

/-- `n` in a unit of `10 ^ places`. -/
def inUnit (places n : Nat) (unit : String) : String :=
  let rest := n % Nat.pow 10 places
  let whole := Nat.repr (n / Nat.pow 10 places)
  if rest = 0 then whole ++ unit
  else whole ++ "." ++ String.ofList (fraction places rest) ++ unit

/-- The duration as text. -/
def text (d : Duration) : String :=
  if 1000000000 ≤ d.nanos then inUnit 9 d.nanos "s"
  else if 1000000 ≤ d.nanos then inUnit 6 d.nanos "ms"
  else if 1000 ≤ d.nanos then inUnit 3 d.nanos "µs"
  else inUnit 0 d.nanos "ns"

/-! ## Wire forms -/

/-- A duration given as whole milliseconds. -/
def ofMillis? (v : Json) : Option Duration := (Wire.decode? v).map ofMillis

def toMillis (d : Duration) : Json := Wire.encode d.millis

/-- The names of the two parts of a duration that is written in full. -/
def partNames : List String := ["secs", "nanos"]

/-- An object has no members but the two parts. -/
def onlyParts : Json → Bool
  | .obj members => members.all fun m => partNames.contains m.1
  | _ => true

instance : Wire Duration where
  encode d := .obj [("secs", .int d.secs), ("nanos", .int d.subsecNanos)]
  decode? v := do
    guard (onlyParts v)
    match ← Wire.fields? partNames 2 v with
    | [s, n] => ofParts? (← Wire.required s) (← Wire.required n)
    | _ => none

theorem millis_ofMillis (ms : UInt64) : (ofMillis ms).millis = ms := by
  simp [millis, ofMillis]

theorem secs_ofSecs (s : UInt64) : (ofSecs s).secs = s.toNat := by
  simp [secs, ofSecs]

theorem secs_lt (d : Duration) : d.secs < UInt64.size := by
  have := d.nanos_lt
  simp only [limit, UInt64.size] at this ⊢
  simp only [secs]; omega

end Duration
end JobRunner
