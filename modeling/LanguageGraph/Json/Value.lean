/-
# Json.Value — JSON values

Objects keep their fields in order and as often as they were given: which of several equal names counts
is for whoever reads the object. Numbers are told apart as far as anyone here needs: natural numbers
of at most 64 bits, and all others, of which the digits are kept.

A text can have the outline of a value and still denote none: half of a surrogate pair, or a number
beyond every binary64. Such a part is `unreadable`; it does no harm where nobody reads it.
-/

namespace LanguageGraph

set_option autoImplicit false

namespace Json

inductive Number where
  /-- A natural number below 2 ^ 64. -/
  | natural (value : Nat)
  /-- Any other number, spelled. -/
  | other (spelling : String)
deriving DecidableEq

end Json

inductive Json where
  | null
  | bool (value : Bool)
  | number (value : Json.Number)
  | string (value : String)
  | array (items : List Json)
  | object (fields : List (String × Json))
  | unreadable

namespace Json

def nat (value : Nat) : Json :=
  number (.natural value)

def nullable {α : Type} (encode : α → Json) : Option α → Json
  | none => null
  | some value => encode value

def list {α : Type} (encode : α → Json) (values : List α) : Json :=
  array (values.map encode)

def string? : Json → Option String
  | string value => some value
  | _ => none

def bool? : Json → Option Bool
  | bool value => some value
  | _ => none

/-- The value of a natural number of at most 64 bits. -/
def nat? : Json → Option Nat
  | number (.natural value) => some value
  | _ => none

/-- The items of an array, each read. -/
def list? {α : Type} (decode : Json → Option α) : Json → Option (List α)
  | array items => items.mapM decode
  | _ => none

/-- The name of a constant: a string, or an object that has the name as its one field, with `null`. -/
def constant? : Json → Option String
  | string name => some name
  | object [(name, null)] => some name
  | _ => none

mutual

/-- Whether every part of a value is readable and arrays and objects nest at most so deep. -/
def fits : Nat → Json → Bool
  | _, unreadable => false
  | 0, array _ => false
  | 0, object _ => false
  | depth + 1, array items => fitsItems depth items
  | depth + 1, object fields => fitsFields depth fields
  | _, _ => true

def fitsItems : Nat → List Json → Bool
  | _, [] => true
  | depth, item :: items => fits depth item && fitsItems depth items

def fitsFields : Nat → List (String × Json) → Bool
  | _, [] => true
  | depth, (_, value) :: fields => fits depth value && fitsFields depth fields

end

end Json

end LanguageGraph
