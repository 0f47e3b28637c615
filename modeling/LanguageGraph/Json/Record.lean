/-
# Json.Record — objects with known fields

A record is given as an object, in which unknown fields are passed over and a known field may stand
once, or as an array of the values of its fields in their order. In the second form fields may be left
off at the end only, and only those that have a default.

A tagged record names its shape in one more field, or as the first item of the array
(`Json.tagged?`).
-/
import LanguageGraph.Json.Value

namespace LanguageGraph.Json

set_option autoImplicit false

/-- The known fields that a value gives. -/
structure Record where
  /-- Whether the fields were given by position. -/
  positional : Bool
  fields : List (String × Json)

/-- The known fields of a value. A closed record takes no other field beside them. -/
def record? (names : List String) (closed : Bool) : Json → Option Record
  | object fields =>
      let known := fields.filter fun field => field.1 ∈ names
      if (known.map Prod.fst).Nodup ∧ (closed = true → known.length = fields.length) then
        some ⟨false, known⟩
      else none
  | array items => if items.length ≤ names.length then some ⟨true, names.zip items⟩ else none
  | _ => none

namespace Record

variable {α : Type}

def required? (record : Record) (name : String) (decode : Json → Option α) : Option α :=
  (record.fields.lookup name).bind decode

/-- A field that may be `null`, or missing where fields are given by name. -/
def nullable? (record : Record) (name : String) (decode : Json → Option α) : Option (Option α) :=
  match record.fields.lookup name with
  | some null => some none
  | some value => (decode value).map some
  | none => if record.positional then none else some none

def defaulted? (record : Record) (name : String) (decode : Json → Option α) (default : α) :
    Option α :=
  match record.fields.lookup name with
  | some value => decode value
  | none => some default

end Record

/-- The tag of a tagged record, and the record without it. -/
def tagged? (tag : String) : Json → Option (Json × Json)
  | object fields =>
      match fields.filter fun field => field.1 = tag with
      | [(_, value)] => some (value, object (fields.filter fun field => field.1 ≠ tag))
      | _ => none
  | array (value :: items) => some (value, array items)
  | _ => none

end LanguageGraph.Json
