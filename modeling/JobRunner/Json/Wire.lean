import JobRunner.Json.Basic
import JobRunner.Labels
/-!
# Wire forms

How the values of this library are written as JSON and read back.  Writing has one form per value.  Reading is more
lenient: a record may be an object, with members nobody asked for, or an array of its fields in order; a field may be
absent where it has a default; a named constant may stand alone or as the only member of an object, with null beside it.
Reading says only whether a value has the form asked for, never why not.
-/
namespace JobRunner

/-- A type with a JSON form. -/
class Wire (α : Type) where
  encode : α → Json
  decode? : Json → Option α

namespace Wire

instance : Wire Json := ⟨id, some⟩

instance : Wire String where
  encode := .str
  decode?
    | .str s => some s
    | _ => none

instance : Wire Bool where
  encode := .bool
  decode?
    | .bool b => some b
    | _ => none

/-- A whole number from zero to below the limit. -/
def natBelow? (limit : Nat) : Json → Option Nat
  | .int n => if 0 ≤ n ∧ n.toNat < limit then some n.toNat else none
  | _ => none

/-- A whole number of any size. -/
instance : Wire Nat where
  encode n := .int n
  decode?
    | .int n => if 0 ≤ n then some n.toNat else none
    | _ => none

instance : Wire UInt8 where
  encode n := .int n.toNat
  decode? v := (natBelow? UInt8.size v).map UInt8.ofNat

instance : Wire UInt32 where
  encode n := .int n.toNat
  decode? v := (natBelow? UInt32.size v).map UInt32.ofNat

instance : Wire UInt64 where
  encode n := .int n.toNat
  decode? v := (natBelow? UInt64.size v).map UInt64.ofNat

instance {α : Type} [Wire α] : Wire (List α) where
  encode xs := .arr (xs.map encode)
  decode?
    | .arr items => items.mapM decode?
    | _ => none

instance : Wire Labels where
  encode l := .obj (l.toList.map fun p => (p.1, .str p.2))
  decode?
    | .obj members => (members.mapM fun m => (decode? (α := String) m.2).map fun v => (m.1, v)).map Labels.ofList
    | _ => none

/-! ## Records and named constants -/

/-- The fields of a record, in the order of their names; `none` stands for an absent field.  An array gives the fields
by position: at least `least` of them, and no more than there are names. -/
def fields? (names : List String) (least : Nat) : Json → Option (List (Option Json))
  | .obj members => some (names.map fun n => (Json.obj members).member? n)
  | .arr items =>
    if least ≤ items.length ∧ items.length ≤ names.length then
      some (items.map some ++ List.replicate (names.length - items.length) none)
    else none
  | _ => none

/-- A field that has to be there. -/
def required {α : Type} [Wire α] (field : Option Json) : Option α := field.bind decode?

/-- A field that may be absent or null. -/
def optional {α : Type} [Wire α] : Option Json → Option (Option α)
  | none => some none
  | some .null => some none
  | some v => (decode? v).map some

/-- A field that may be absent and then has the given value. -/
def defaulted {α : Type} [Wire α] (value : α) : Option Json → Option α
  | none => some value
  | some v => decode? v

/-- The name in a named constant. -/
def constant? : Json → Option String
  | .str s => some s
  | .obj [(s, .null)] => some s
  | _ => none

end Wire
end JobRunner
