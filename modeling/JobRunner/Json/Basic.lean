import JobRunner.Json.Binary64
/-!
# JSON values

The values of JSON.  A whole number and a number that was written with a fraction or an exponent are different values,
since only the first can stand for a count.  The members of an object are kept in the order in which they are written.
-/
namespace JobRunner

/-- A JSON value. -/
inductive Json where
  | null
  | bool (b : Bool)
  | int (n : Int)
  | real (x : Binary64)
  | str (s : String)
  | arr (items : List Json)
  | obj (members : List (String × Json))
  deriving Repr

namespace Json

instance : Inhabited Json := ⟨null⟩

/-- The member of an object with the given name, the first one if there are several. -/
def member? (name : String) : Json → Option Json
  | obj members => (members.find? fun m => m.1 == name).map (·.2)
  | _ => none

/-- An object that leaves out the members without a value. -/
def objOf (members : List (String × Option Json)) : Json :=
  obj (members.filterMap fun m => m.2.map fun v => (m.1, v))

mutual

/-- The value with every string in it changed; the names of members stay. -/
def mapText (f : String → String) : Json → Json
  | null => null
  | bool b => bool b
  | int n => int n
  | real x => real x
  | str s => str (f s)
  | arr items => arr (mapItems f items)
  | obj members => obj (mapMembers f members)

/-- Values with every string in them changed. -/
def mapItems (f : String → String) : List Json → List Json
  | [] => []
  | x :: xs => mapText f x :: mapItems f xs

/-- Members with every string in their values changed. -/
def mapMembers (f : String → String) : List (String × Json) → List (String × Json)
  | [] => []
  | (k, v) :: ms => (k, mapText f v) :: mapMembers f ms

end

end Json
end JobRunner
