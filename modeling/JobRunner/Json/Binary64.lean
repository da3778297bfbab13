/-!
# Numbers of double precision

A number that is no whole number of 64 bits is kept as the nearest one of IEEE 754 binary64.  All arithmetic here is on
whole numbers: a result is the exact ratio of two of them, rounded once.  A number is shown with the fewest decimal
digits that nobody can take for another number, and among those with the digits nearest to it.
-/
namespace JobRunner

/-- A finite number, `mantissa * 2 ^ exponent` with a sign; zero has a sign too. -/
structure Binary64 where
  isNegative : Bool := false
  mantissa : Nat
  exponent : Int
  deriving DecidableEq, Repr

namespace Binary64

/-! ## Rounding -/

/-- The whole number nearest to a ratio, the even one of two. -/
def nearest (num den : Nat) : Nat :=
  let q := num / den
  let r := num % den
  if 2 * r < den then q else if den < 2 * r then q + 1 else q + q % 2

/-- The ratio of two numbers after a division by `2 ^ e`. -/
def scaleDown (num den : Nat) (e : Int) : Nat × Nat :=
  if 0 ≤ e then (num, den * Nat.pow 2 e.toNat) else (num * Nat.pow 2 (-e).toNat, den)

/-- The number of bits of a mantissa, and the exponent of the smallest numbers. -/
def precision : Nat := 53
def leastExponent : Int := -1074
def greatestExponent : Int := 971

/-- The exponent with which the mantissa of a ratio has all its bits, or the least one. -/
def exponentOf (num den : Nat) : Int :=
  let e : Int := (num.log2 : Int) - den.log2 - precision
  let (n, d) := scaleDown num den e
  max (if n / d < Nat.pow 2 precision then e else e + 1) leastExponent

/-- Mantissa and exponent of the number nearest to a ratio; there is none for a ratio that is too large. -/
def round? (num den : Nat) : Option (Nat × Int) :=
  if num = 0 then some (0, leastExponent)
  else
    let e := exponentOf num den
    let (n, d) := scaleDown num den e
    let m := nearest n d
    let (m, e) := if m = Nat.pow 2 precision then (Nat.pow 2 (precision - 1), e + 1) else (m, e)
    if e ≤ greatestExponent then some (m, e) else none

/-- A number without its sign as a ratio. -/
def ratio (m : Nat) (e : Int) : Nat × Nat :=
  if 0 ≤ e then (m * Nat.pow 2 e.toNat, 1) else (m, Nat.pow 2 (-e).toNat)

/-! ## From decimal numbers -/

/-- The largest power of ten that is a number. -/
def greatestTen : Nat := 308

/-- The nearest number to a power of ten. -/
def ten (k : Nat) : Nat × Nat :=
  match round? (Nat.pow 10 k) 1 with
  | some (m, e) => ratio m e
  | none => (1, 1)

/-- A mantissa times a power of ten.  Mantissa and power are rounded before they are multiplied or divided; a power that
is too small to be divided by is divided by in parts, at most `fuel` of them. -/
def scaleTen : (fuel : Nat) → Nat × Int → Int → Option (Nat × Int)
  | fuel, (m, e), k =>
    let (n, d) := ratio m e
    if k.natAbs ≤ greatestTen then
      let (tn, td) := ten k.natAbs
      if 0 ≤ k then round? (n * tn) (d * td) else round? (n * td) (d * tn)
    else if m = 0 then some (m, e)
    else if 0 ≤ k then none
    else
      match fuel with
      | 0 => some (0, leastExponent)
      | fuel + 1 =>
        let (tn, td) := ten greatestTen
        match round? (n * td) (d * tn) with
        | none => none
        | some r => scaleTen fuel r (k + greatestTen)

/-- The number written with the given digits, times a power of ten; there is none if it is too large. -/
def ofDecimal? (isNegative : Bool) (digits : Nat) (power : Int) : Option Binary64 := do
  let (m, e) ← scaleTen 3 (← round? digits 1) power
  some ⟨isNegative, m, e⟩

/-! ## To decimal numbers -/

def decimalDigits (n : Nat) : Nat := (Nat.toDigits 10 n).length

/-- The place of the decimal point of a positive ratio: the least `k` with a ratio below `10 ^ k`. -/
def pointOf (num den : Nat) : Int :=
  if den ≤ num then decimalDigits (num / den) else 1 - (decimalDigits (den / num) : Int)

/-- A ratio after a multiplication with `10 ^ k`. -/
def scaleUpTen (num den : Nat) (k : Int) : Nat × Nat :=
  if 0 ≤ k then (num * Nat.pow 10 k.toNat, den) else (num, den * Nat.pow 10 (-k).toNat)

/-- The digits of a decimal number nearest to the number, if `count` digits can tell it from all others; the power is
that of the last digit. -/
def digits? (m : Nat) (e : Int) (count : Nat) : Option (Nat × Int) :=
  let (num, den) := ratio m e
  let power : Int := pointOf num den - count
  let (n, d) := scaleUpTen num den (-power)
  let isSame (c : Nat) : Bool :=
    let (cn, cd) := scaleUpTen c 1 power
    round? cn cd == some (m, e)
  let low := n / d
  match isSame low, isSame (low + 1) with
  | true, true => some (nearest n d, power)
  | true, false => some (low, power)
  | false, true => some (low + 1, power)
  | false, false => none

/-- As many digits tell any two numbers apart. -/
def mostDigits : Nat := 17

/-- The shortest digits, with at least `count` of them. -/
def shortestFrom (m : Nat) (e : Int) : (fuel count : Nat) → Nat × Int
  | 0, _ => (0, 0)
  | fuel + 1, count =>
    match digits? m e count with
    | some r => r
    | none => shortestFrom m e fuel (count + 1)

/-- For which places of the decimal point a number is written without a power of ten.  At place `k` a number lies below
`10 ^ k` but not below `10 ^ (k - 1)`. -/
structure Layout where
  leastPoint : Int
  greatestPoint : Int
  deriving DecidableEq, Repr

/-- Digits with a decimal point at the given place: as they stand if the layout has it so, with one digit on each side at
least, or else with one digit before the point and a power of ten. -/
def Layout.place (l : Layout) (digits : List Char) (point : Int) : List Char :=
  let count := digits.length
  if l.leastPoint ≤ point ∧ point ≤ l.greatestPoint then
    if point ≤ 0 then "0.".toList ++ List.replicate (-point).toNat '0' ++ digits
    else if point < count then digits.take point.toNat ++ '.' :: digits.drop point.toNat
    else digits ++ List.replicate (point.toNat - count) '0' ++ ".0".toList
  else
    let rest := digits.drop 1
    let fraction := if rest.isEmpty then [] else '.' :: rest
    let sign := if 0 < point then '+' else '-'
    digits.take 1 ++ fraction ++ ['e', sign] ++ Nat.toDigits 10 (point - 1).natAbs

/-- The number as text. -/
def text (l : Layout) (x : Binary64) : List Char :=
  let body :=
    if x.mantissa = 0 then "0.0".toList
    else
      let (n, power) := shortestFrom x.mantissa x.exponent mostDigits 1
      let all := Nat.toDigits 10 n
      l.place (all.reverse.dropWhile (· == '0')).reverse (all.length + power)
  if x.isNegative then '-' :: body else body

end Binary64
end JobRunner
