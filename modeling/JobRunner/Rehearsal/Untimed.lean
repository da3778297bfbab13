import JobRunner.Json.Basic
import JobRunner.Text.Replace
/-!
# Texts without times

How long something took differs from one run to the next.  What a rehearsal shows is the same in every run, so a mark
stands where a message gives such a time.
-/
namespace JobRunner
namespace Untimed

/-- Stands for a time. -/
def mark : String := "<elapsed>"

/-- What stands between the first two of these marks is a time. -/
def between (left right cs : List Char) : Option (List Char) := do
  let (front, rest) ← Text.splitFirst? left cs
  let (_, back) ← Text.splitFirst? right rest
  some (front ++ left ++ mark.toList ++ right ++ back)

/-- What stands behind the last of these marks is a time. -/
def behind (left cs : List Char) : Option (List Char) :=
  (Text.splitLast? left cs).map fun r => r.1 ++ left ++ mark.toList

/-- A condition was met. -/
def isConfirmed (cs : List Char) : Bool := (Text.splitFirst? " confirmed after ".toList cs).isSome

/-- A message without the time that was waited for a condition. -/
def text (s : String) : String :=
  let cs := s.toList
  let late := between "timed out after ".toList " waiting for ".toList cs
  let met := if isConfirmed cs then behind " check(s) in ".toList cs else none
  String.ofList ((late <|> met).getD cs)

/-- The result of a job without the time that it took. -/
def result : Json → Json
  | .obj ms => .obj (ms.map fun m => if m.1 == "elapsed_ms" then (m.1, .str mark) else m)
  | v => v

end Untimed
end JobRunner
