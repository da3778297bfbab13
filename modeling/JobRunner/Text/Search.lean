/-!
# Substrings

A pattern occurs in a text when the text has it as a run of consecutive characters.  The empty pattern occurs in every
text.
-/
namespace JobRunner
namespace Text

/-- The pattern stands at some place of the text. -/
def occursIn (pattern : List Char) : List Char → Bool
  | [] => pattern.isEmpty
  | c :: cs => pattern.isPrefixOf (c :: cs) || occursIn pattern cs

/-- The text contains the pattern. -/
def contains (text pattern : String) : Bool := occursIn pattern.toList text.toList

theorem occursIn_iff {pattern text : List Char} : occursIn pattern text = true ↔ pattern <:+: text := by
  induction text with
  | nil => simp [occursIn]
  | cons c cs ih => simp [occursIn, ih, List.infix_cons_iff]

theorem contains_iff {text pattern : String} :
    contains text pattern = true ↔ pattern.toList <:+: text.toList := occursIn_iff

end Text
end JobRunner
