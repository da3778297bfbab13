import JobRunner.Json.Basic
import JobRunner.Text.Hex
/-!
# Compact JSON text

A value on one line without blanks.  In a string only the quote, the backslash and the control characters below the
blank are escaped, five of them by a letter; all other characters stand as they are.
-/
namespace JobRunner
namespace Json

/-- One character inside a JSON string. -/
def escapeChar (c : Char) : List Char :=
  if c = '"' then ['\\', '"']
  else if c = '\\' then ['\\', '\\']
  else if c = '\x08' then ['\\', 'b']
  else if c = '\t' then ['\\', 't']
  else if c = '\n' then ['\\', 'n']
  else if c = '\x0c' then ['\\', 'f']
  else if c = '\r' then ['\\', 'r']
  else if c.toNat < 0x20 then ['\\', 'u'] ++ Text.hexPadded 4 c.toNat
  else [c]

/-- A JSON string with its quotes. -/
def stringText (s : String) : List Char := '"' :: (s.toList.flatMap escapeChar ++ ['"'])

/-- Numbers from a hundred-thousandth to below ten thousand million million are written without a power of ten. -/
def layout : Binary64.Layout := ⟨-4, 16⟩

mutual

/-- The text of a value. -/
def textOf : Json → List Char
  | null => "null".toList
  | bool true => "true".toList
  | bool false => "false".toList
  | int n => (Int.repr n).toList
  | real x => x.text layout
  | str s => stringText s
  | arr items => '[' :: (itemsText items ++ [']'])
  | obj members => '\x7b' :: (membersText members ++ ['\x7d'])

/-- The texts of values, separated by commas. -/
def itemsText : List Json → List Char
  | [] => []
  | x :: xs => textOf x ++ tailItemsText xs

/-- The texts of values, each after a comma. -/
def tailItemsText : List Json → List Char
  | [] => []
  | x :: xs => ',' :: (textOf x ++ tailItemsText xs)

/-- The texts of members, separated by commas. -/
def membersText : List (String × Json) → List Char
  | [] => []
  | (k, v) :: ms => stringText k ++ ':' :: (textOf v ++ tailMembersText ms)

/-- The texts of members, each after a comma. -/
def tailMembersText : List (String × Json) → List Char
  | [] => []
  | (k, v) :: ms => ',' :: (stringText k ++ ':' :: (textOf v ++ tailMembersText ms))

end

/-- The compact text of a value. -/
def compact (v : Json) : String := String.ofList v.textOf

end Json
end JobRunner
