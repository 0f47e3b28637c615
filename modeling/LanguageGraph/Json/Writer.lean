/-
# Json.Writer — values as text

A value is written without blanks (`Json.text`), or laid out with one item or field a line, two spaces
further in than what holds it (`Json.layout`). Inside a string the quotation mark, the backslash and
control characters are escaped, and nothing else.
-/
import LanguageGraph.Json.Value
import LanguageGraph.Text.Digits

namespace LanguageGraph.Json

set_option autoImplicit false

/-- How one character is written inside a string. -/
def escapedChar (c : Char) : String :=
  if c = '"' then "\\\""
  else if c = '\\' then "\\\\"
  else if c = '\x08' then "\\b"
  else if c = '\x0c' then "\\f"
  else if c = '\n' then "\\n"
  else if c = '\r' then "\\r"
  else if c = '\t' then "\\t"
  else if c.toNat < 0x20 then "\\u" ++ String.ofList (Text.paddedDigits 16 4 c.toNat)
  else c.toString

def stringText (value : String) : String :=
  value.toList.foldl (fun text c => text ++ escapedChar c) "\"" ++ "\""

def Number.text : Number → String
  | natural value => Text.decimal value
  | other spelling => spelling

/-- The comma after a field or item, where more follow. -/
def comma {α : Type} (rest : List α) : String :=
  if rest.isEmpty then "" else ","

mutual

/-- A value without blanks. -/
def text : Json → String
  | null => "null"
  | bool value => if value then "true" else "false"
  | number value => value.text
  | string value => stringText value
  | array items => "[" ++ itemsText items ++ "]"
  | object fields => "\x7b" ++ fieldsText fields ++ "\x7d"
  | unreadable => "null"

def itemsText : List Json → String
  | [] => ""
  | item :: items => text item ++ comma items ++ itemsText items

def fieldsText : List (String × Json) → String
  | [] => ""
  | (name, value) :: fields =>
      stringText name ++ ":" ++ text value ++ comma fields ++ fieldsText fields

end

/-- A line break and the blanks before a line at a depth. -/
def newline (depth : Nat) : String :=
  "\n" ++ String.ofList (List.replicate (2 * depth) ' ')

mutual

/-- A value laid out at a depth. An empty array or object stays on its line. -/
def layoutAt : Nat → Json → String
  | depth, array items =>
      if items.isEmpty then "[]"
      else "[" ++ layoutItems (depth + 1) items ++ newline depth ++ "]"
  | depth, object fields =>
      if fields.isEmpty then "\x7b\x7d"
      else "\x7b" ++ layoutFields (depth + 1) fields ++ newline depth ++ "\x7d"
  | _, value => text value

def layoutItems : Nat → List Json → String
  | _, [] => ""
  | depth, item :: items =>
      newline depth ++ layoutAt depth item ++ comma items ++ layoutItems depth items

def layoutFields : Nat → List (String × Json) → String
  | _, [] => ""
  | depth, (name, value) :: fields =>
      newline depth ++ stringText name ++ ": " ++ layoutAt depth value ++ comma fields ++
        layoutFields depth fields

end

def layout (value : Json) : String :=
  layoutAt 0 value

end LanguageGraph.Json
