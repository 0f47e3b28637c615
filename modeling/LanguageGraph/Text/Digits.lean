/-
# Text.Digits — numbers as digits

A natural number is written with the fewest digits of its base (`digits`), or with a fixed number of
them (`paddedDigits`), most significant first and in lower case. Reading takes either case
(`digitValue?`).
-/

namespace LanguageGraph.Text

set_option autoImplicit false

/-- The least number that needs more than 64 bits. -/
def wordLimit : Nat := 0x10000000000000000

/-- The digit with a value below 36; a value beyond that has the question mark. -/
def digitChar (value : Nat) : Char :=
  if value < 10 then Char.ofNat (48 + value)
  else if value < 36 then Char.ofNat (87 + value)
  else '?'

/-- The value of a digit or letter, `a` standing for ten in either case. -/
def digitValue? (c : Char) : Option Nat :=
  if 48 ≤ c.toNat ∧ c.toNat ≤ 57 then some (c.toNat - 48)
  else if 97 ≤ c.toNat ∧ c.toNat ≤ 122 then some (c.toNat - 87)
  else if 65 ≤ c.toNat ∧ c.toNat ≤ 90 then some (c.toNat - 55)
  else none

/-- The value of a digit of a base of at most 36, or nothing where the base has no such digit. -/
def digitOf? (base : Nat) (c : Char) : Option Nat :=
  match digitValue? c with
  | some value => if value < base then some value else none
  | none => none

/-- The last `count` digits of a number, leading zeros included. -/
def paddedDigits (base : Nat) : Nat → Nat → List Char
  | 0, _ => []
  | count + 1, value => paddedDigits base count (value / base) ++ [digitChar (value % base)]

/-- The digits of a number in a base of at most sixteen, without leading zeros. -/
def digits (base value : Nat) : List Char :=
  Nat.toDigits base value

/-- The value of a text of digits, or nothing when some character is not a digit of the base. The
empty text has the value zero. -/
def valueOfDigits? (base : Nat) (text : List Char) : Option Nat :=
  text.foldl (fun total c =>
    match total, digitOf? base c with
    | some total, some value => some (total * base + value)
    | _, _ => none) (some 0)

/-- The value of a non-empty text of digits. -/
def number? (base : Nat) (text : List Char) : Option Nat :=
  if text.isEmpty then none else valueOfDigits? base text

def decimal (value : Nat) : String :=
  String.ofList (digits 10 value)

end LanguageGraph.Text
