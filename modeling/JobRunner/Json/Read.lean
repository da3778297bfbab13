import JobRunner.Json.Basic
import JobRunner.Text.Decimal
/-!
# Reading JSON

The values of JSON texts.  The members of an object come out in ascending order of their names; of several with one
name the last one counts.  A whole number that fits 64 bits, signed if it is negative, is read as what it is.  Any other
number becomes one of double precision: the digits that fit 64 bits times a power of ten, where digits beyond them count
as zeros before the decimal point and as nothing behind it.
-/
namespace JobRunner
namespace Json
namespace Read

/-- The blanks between the parts of a JSON text. -/
def isGap (c : Char) : Bool := c == ' ' || c == '\n' || c == '\t' || c == '\r'

def skipGap (cs : List Char) : List Char := cs.dropWhile isGap

/-! ## Numbers -/

/-- The digits in front, and the text behind them. -/
def digitRun (cs : List Char) : List Nat × List Char :=
  let run := cs.takeWhile fun c => (Text.Decimal.digit? c).isSome
  (run.filterMap Text.Decimal.digit?, cs.drop run.length)

/-- Significant digits as a number below `2 ^ 64`, and how many of them were left out. -/
structure Digits where
  value : Nat := 0
  taken : Nat := 0
  dropped : Nat := 0

/-- Takes one more digit, unless one was left out before or the number would need more than 64 bits. -/
def Digits.take (d : Digits) (digit : Nat) : Digits :=
  if d.dropped = 0 ∧ d.value * 10 + digit < UInt64.size then
    { d with value := d.value * 10 + digit, taken := d.taken + 1 }
  else { d with dropped := d.dropped + 1 }

/-- The digits behind a decimal point, if there is one; a point needs a digit behind it. -/
def fraction? : List Char → Option (Option (List Nat) × List Char)
  | '.' :: cs =>
    match digitRun cs with
    | ([], _) => none
    | (ds, rest) => some (some ds, rest)
  | cs => some (none, cs)

/-- The digits of an exponent as a number. -/
def magnitude? (cs : List Char) : Option (Nat × List Char) :=
  match digitRun cs with
  | ([], _) => none
  | (ds, rest) => some (ds.foldl (fun n d => n * 10 + d) 0, rest)

/-- A power of ten, if there is one. -/
def exponent? : List Char → Option (Option Int × List Char)
  | c :: cs =>
    if c = 'e' ∨ c = 'E' then
      match cs with
      | '-' :: cs => (magnitude? cs).map fun r => (some (-(r.1 : Int)), r.2)
      | '+' :: cs => (magnitude? cs).map fun r => (some (r.1 : Int), r.2)
      | cs => (magnitude? cs).map fun r => (some (r.1 : Int), r.2)
    else some (none, c :: cs)
  | [] => some (none, [])

/-- The value of a number without a point and an exponent, if 64 bits hold it.  A zero with a minus sign is no whole
number. -/
def whole? (isNegative : Bool) (d : Digits) : Option Json :=
  if d.dropped ≠ 0 then none
  else if !isNegative then some (.int d.value)
  else if 0 < d.value ∧ d.value ≤ Nat.pow 2 63 then some (.int (-(d.value : Int)))
  else none

/-- The number of the given parts. -/
def numberOf? (isNegative : Bool) (front : List Nat) (behind : Option (List Nat)) (power : Option Int) : Option Json :=
  let d := front.foldl Digits.take {}
  let all := (behind.getD []).foldl Digits.take { d with dropped := 0 }
  let power' : Int := power.getD 0 + d.dropped - (all.taken - d.taken : Nat)
  let real := (Binary64.ofDecimal? isNegative all.value power').map Json.real
  match behind, power with
  | none, none => whole? isNegative d <|> real
  | _, _ => real

/-- A number without its sign; it has no zeros in front. -/
def unsigned? (isNegative : Bool) (cs : List Char) : Option (Json × List Char) := do
  let (front, cs) := digitRun cs
  if front.isEmpty ∨ (front.head? = some 0 ∧ 1 < front.length) then none
  else
    let (behind, cs) ← fraction? cs
    let (power, cs) ← exponent? cs
    some (← numberOf? isNegative front behind power, cs)

def number? : List Char → Option (Json × List Char)
  | '-' :: cs => unsigned? true cs
  | cs => unsigned? false cs

/-! ## Strings -/

/-- The value of a hexadecimal digit in either case. -/
def hexValue? (c : Char) : Option Nat :=
  let n := c.toNat
  if 0x30 ≤ n ∧ n ≤ 0x39 then some (n - 0x30)
  else if 0x61 ≤ n ∧ n ≤ 0x66 then some (n - 0x61 + 10)
  else if 0x41 ≤ n ∧ n ≤ 0x46 then some (n - 0x41 + 10)
  else none

/-- A number of four hexadecimal digits. -/
def fourHex? : List Char → Option (Nat × List Char)
  | a :: b :: c :: d :: cs => do
    some ((((← hexValue? a) * 16 + (← hexValue? b)) * 16 + (← hexValue? c)) * 16 + (← hexValue? d), cs)
  | _ => none

/-- The character that an escape names by its number; one beyond 16 bits is named by two numbers. -/
def numbered? (cs : List Char) : Option (Char × List Char) := do
  let (n, cs) ← fourHex? cs
  if 0xD800 ≤ n ∧ n < 0xDC00 then
    match cs with
    | '\\' :: 'u' :: cs =>
      let (low, cs) ← fourHex? cs
      if 0xDC00 ≤ low ∧ low < 0xE000 then some (.ofNat (0x10000 + (n - 0xD800) * 0x400 + (low - 0xDC00)), cs)
      else none
    | _ => none
  else if 0xDC00 ≤ n ∧ n < 0xE000 then none
  else some (.ofNat n, cs)

/-- The character that an escape stands for, behind its backslash. -/
def escaped? : List Char → Option (Char × List Char)
  | '"' :: cs => some ('"', cs)
  | '\\' :: cs => some ('\\', cs)
  | '/' :: cs => some ('/', cs)
  | 'b' :: cs => some ('\x08', cs)
  | 'f' :: cs => some ('\x0c', cs)
  | 'n' :: cs => some ('\n', cs)
  | 'r' :: cs => some ('\r', cs)
  | 't' :: cs => some ('\t', cs)
  | 'u' :: cs => numbered? cs
  | _ => none

/-- The rest of a string up to its closing quote; the characters before are in reverse order. -/
def stringFrom? : (fuel : Nat) → (before : List Char) → List Char → Option (String × List Char)
  | 0, _, _ => none
  | fuel + 1, before, cs =>
    match cs with
    | [] => none
    | '"' :: cs => some (String.ofList before.reverse, cs)
    | '\\' :: cs => do
      let (c, cs) ← escaped? cs
      stringFrom? fuel (c :: before) cs
    | c :: cs => if c.toNat < 0x20 then none else stringFrom? fuel (c :: before) cs

/-! ## Values -/

/-- Puts a member at its place among ascending names, instead of one with the same name. -/
def place (name : String) (v : Json) : List (String × Json) → List (String × Json)
  | [] => [(name, v)]
  | (n, w) :: rest =>
    if name < n then (name, v) :: (n, w) :: rest
    else if n < name then (n, w) :: place name v rest
    else (name, v) :: rest

/-- The text behind a word. -/
def word? (word : String) (v : Json) (cs : List Char) : Option (Json × List Char) :=
  if word.toList.isPrefixOf cs then some (v, cs.drop word.length) else none

mutual

/-- The value in front of a text.  The fuel bounds the number of values and members that follow each other. -/
def value? : (fuel : Nat) → List Char → Option (Json × List Char)
  | 0, _ => none
  | fuel + 1, cs =>
    match skipGap cs with
    | '"' :: cs => (stringFrom? (cs.length + 1) [] cs).map fun r => (.str r.1, r.2)
    | '[' :: cs =>
      match skipGap cs with
      | ']' :: cs => some (.arr [], cs)
      | cs => (items? fuel cs).map fun r => (.arr r.1, r.2)
    | '\x7b' :: cs =>
      match skipGap cs with
      | '\x7d' :: cs => some (.obj [], cs)
      | cs => (members? fuel [] cs).map fun r => (.obj r.1, r.2)
    | 'n' :: cs => word? "null" .null ('n' :: cs)
    | 't' :: cs => word? "true" (.bool true) ('t' :: cs)
    | 'f' :: cs => word? "false" (.bool false) ('f' :: cs)
    | cs => number? cs

/-- The items up to the end of an array. -/
def items? : (fuel : Nat) → List Char → Option (List Json × List Char)
  | 0, _ => none
  | fuel + 1, cs => do
    let (v, cs) ← value? fuel cs
    match skipGap cs with
    | ',' :: cs => (items? fuel cs).map fun r => (v :: r.1, r.2)
    | ']' :: cs => some ([v], cs)
    | _ => none

/-- The members up to the end of an object, together with those before. -/
def members? :
    (fuel : Nat) → (before : List (String × Json)) → List Char → Option (List (String × Json) × List Char)
  | 0, _, _ => none
  | fuel + 1, before, cs =>
    match skipGap cs with
    | '"' :: cs => do
      let (name, cs) ← stringFrom? (cs.length + 1) [] cs
      match skipGap cs with
      | ':' :: cs =>
        let (v, cs) ← value? fuel cs
        let members := place name v before
        match skipGap cs with
        | ',' :: cs => members? fuel members cs
        | '\x7d' :: cs => some (members, cs)
        | _ => none
      | _ => none
    | _ => none

end

end Read

/-- The value of a JSON text. -/
def ofText? (s : String) : Option Json := do
  let cs := s.toList
  match ← Read.value? (cs.length + 1) cs with
  | (v, rest) => if (Read.skipGap rest).isEmpty then some v else none

end Json
end JobRunner
