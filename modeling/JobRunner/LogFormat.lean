import JobRunner.Text.Blank
/-!
# Log formats

How events are written: a JSON object each, or a line for people.
-/
namespace JobRunner

/-- A format of log output. -/
inductive LogFormat where
  | json
  | pretty
  deriving DecidableEq, Repr

namespace LogFormat

/-- The format of a name; blanks around it and the case of ASCII letters do not count. -/
def parse? (s : String) : Option LogFormat :=
  let name := String.ofList ((Text.trim s).toList.map Char.toLower)
  if name = "json" then some json
  else if name = "pretty" ∨ name = "text" then some pretty
  else none

/-- The format that a variable asks for; JSON if it is not set or names no format. -/
def ofSetting (setting : Option String) : LogFormat := (setting.bind parse?).getD json

end LogFormat
end JobRunner
