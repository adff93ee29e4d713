import DesktopTerminal.Json.Basic

/-!
# Records

A record has named fields in a fixed order. It is written as an object, in which other keys are of no
concern but no field may come twice, or as an array that holds the first fields in order.
-/
namespace DesktopTerminal.Json

/-- The value of a field in an object: `none` if it comes twice, `some none` if it is missing. -/
def fieldIn (members : List (String × Json)) (name : String) : Option (Option Json) :=
  match members.filter (·.1 = name) with
  | [] => some none
  | [(_, j)] => some (some j)
  | _ => none

/-- The fields of a record by their names, those that are missing as `none`. -/
def fields? (names : List String) : Json → Option (List (Option Json))
  | .object members => names.mapM (fieldIn members)
  | .array items =>
    if items.length ≤ names.length then
      some (items.map some ++ List.replicate (names.length - items.length) none)
    else none
  | _ => none

/-- An optional field: missing and null are the same. -/
def optional? {α : Type} (decode : Json → Option α) : Option Json → Option (Option α)
  | none => some none
  | some .null => some none
  | some j => (decode j).map some

end DesktopTerminal.Json
