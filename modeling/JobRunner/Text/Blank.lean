/-!
# Blank characters and trimming

A character is blank when the Unicode property `White_Space` holds of it.  Texts that people type into settings and
identifiers are read with the blanks at both ends removed; blanks inside stay.
-/
namespace JobRunner
namespace Text

/-- The code points with the Unicode property `White_Space`, as inclusive ranges. -/
def blankRanges : List (Nat × Nat) :=
  [(0x9, 0xD), (0x20, 0x20), (0x85, 0x85), (0xA0, 0xA0), (0x1680, 0x1680), (0x2000, 0x200A), (0x2028, 0x2029),
   (0x202F, 0x202F), (0x205F, 0x205F), (0x3000, 0x3000)]

/-- A code point lies in one of the ranges. -/
def inRanges (ranges : List (Nat × Nat)) (c : Char) : Bool :=
  ranges.any fun r => r.1 ≤ c.toNat && c.toNat ≤ r.2

def isBlank (c : Char) : Bool := inRanges blankRanges c

/-- Removes the blanks in front of the first other character. -/
def trimFront (cs : List Char) : List Char := cs.dropWhile isBlank

/-- Removes the blanks behind the last other character. -/
def trimBack (cs : List Char) : List Char := (trimFront cs.reverse).reverse

/-- The text without the blanks at its two ends. -/
def trim (s : String) : String := String.ofList (trimBack (trimFront s.toList))

/-- Every character that ASCII calls a blank is blank here too. -/
theorem isBlank_of_isWhitespace {c : Char} (h : c.isWhitespace = true) : isBlank c = true := by
  simp only [Char.isWhitespace, Bool.or_eq_true, decide_eq_true_eq] at h
  rcases h with ((rfl | rfl) | rfl) | rfl <;> decide

theorem trimFront_nil : trimFront [] = [] := rfl

theorem trimFront_cons (c : Char) (cs : List Char) :
    trimFront (c :: cs) = if isBlank c then trimFront cs else c :: cs := by
  simp [trimFront, List.dropWhile_cons]

end Text
end JobRunner
