/-
# Json.Pointer — places inside a value

A pointer leads from a value to one of its parts: through an object by the name of a field, through an
array by a position. In its text every step follows a slash; a slash inside a name is written `~1` and
a tilde `~0`.
-/
import LanguageGraph.Json.Value
import LanguageGraph.Text.Digits

namespace LanguageGraph.Json

set_option autoImplicit false

/-- The steps from a value to one of its parts. -/
abbrev Pointer : Type := List String

/-- Undo the escapes in one step of a pointer. -/
def unescapeStep : List Char → List Char
  | '~' :: '1' :: rest => '/' :: unescapeStep rest
  | '~' :: '0' :: rest => '~' :: unescapeStep rest
  | c :: rest => c :: unescapeStep rest
  | [] => []

/-- Read a pointer: empty, or steps that each follow a slash. -/
def Pointer.ofText? (text : String) : Option Pointer :=
  match text.splitOn "/" with
  | [""] => some []
  | "" :: steps => some (steps.map fun step => String.ofList (unescapeStep step.toList))
  | _ => none

/-- The position that a step names. -/
def position? (step : String) : Option Nat :=
  Text.number? 10 step.toList

/-- Give a field a value, in its place or at the end. -/
def setField (name : String) (value : Json) : List (String × Json) → List (String × Json)
  | [] => [(name, value)]
  | (other, old) :: fields =>
      if other = name then (name, value) :: fields else (other, old) :: setField name value fields

/-- Replace the part at a pointer. The last step may add a field to an object; every other part must
be there. -/
def set? (value : Json) : Pointer → Json → Option Json
  | [], _ => some value
  | [step], object fields => some (object (setField step value fields))
  | step :: steps, object fields =>
      match fields.lookup step with
      | some part => (set? value steps part).map fun part => object (setField step part fields)
      | none => none
  | step :: steps, array items =>
      match position? step with
      | none => none
      | some position =>
          match items[position]? with
          | some part => (set? value steps part).map fun part => array (items.set position part)
          | none => none
  | _, _ => none

/-- Remove the part at a pointer, which must be a field or an item. -/
def remove? : Pointer → Json → Option Json
  | [step], object fields => some (object (fields.filter fun field => field.1 ≠ step))
  | step :: steps, object fields =>
      match fields.lookup step with
      | some part => (remove? steps part).map fun part => object (setField step part fields)
      | none => none
  | step :: steps, array items =>
      match position? step with
      | none => none
      | some position =>
          match items[position]? with
          | none => none
          | some part =>
              match steps with
              | [] => some (array (items.eraseIdx position))
              | _ => (remove? steps part).map fun part => array (items.set position part)
  | _, _ => none

end LanguageGraph.Json
