import JobRunner.Text.Hex
import JobRunner.Text.Visible
/-!
# Quoted text

A text between double quotes in which every character can be told apart by eye: a quote and a backslash get a backslash
in front, four control characters have a letter, and every other character that is hidden or extends a grapheme is given
by its code point in braces.
-/
namespace JobRunner
namespace Text

/-- The escape that names a code point. -/
def codePointEscape (c : Char) : List Char :=
  ['\\', 'u', '\x7b'] ++ hexDigits c.toNat ++ ['\x7d']

/-- One character as it stands between the quotes. -/
def quoteChar (c : Char) : List Char :=
  if c = '\x00' then ['\\', '0']
  else if c = '\t' then ['\\', 't']
  else if c = '\r' then ['\\', 'r']
  else if c = '\n' then ['\\', 'n']
  else if c = '\\' then ['\\', '\\']
  else if c = '"' then ['\\', '"']
  else if isExtender c || isHidden c then codePointEscape c
  else [c]

/-- The text between quotes. -/
def quote (s : String) : String :=
  String.ofList ('"' :: (s.toList.flatMap quoteChar ++ ['"']))

/-- Quoted texts in brackets, separated by commas. -/
def quoteAll (xs : List String) : String :=
  "[" ++ String.intercalate ", " (xs.map quote) ++ "]"

end Text
end JobRunner
