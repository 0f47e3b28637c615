/-
# Element.Id — the identity of an element

An element is named by 128 bits that its producer chose; the graph never makes one up, so replaying
the same operations meets the same identities. An identity is written as thirty-two hexadecimal
digits in groups of 8, 4, 4, 4 and 12 (`ElementId.text`).

Reading takes either case and four spellings, and nothing else (`ElementId.ofText?`): the digits
alone, the groups joined by hyphens, the groups in braces, and the groups after `urn:uuid:`.
-/
import LanguageGraph.Text.Digits

namespace LanguageGraph

set_option autoImplicit false

/-- The identity of an element, ordered as a number. -/
structure ElementId where
  bits : BitVec 128
deriving DecidableEq

namespace ElementId

/-- The identity with a number, taken modulo 2 ^ 128. -/
def ofNat (value : Nat) : ElementId :=
  ⟨BitVec.ofNat 128 value⟩

/-- The identity made of random bits: all but the six that mark it as random. -/
def ofRandom (bits : BitVec 128) : ElementId :=
  let version : BitVec 128 := 0xF <<< 76
  let variant : BitVec 128 := 0x3 <<< 62
  ⟨(bits &&& ~~~(version ||| variant)) ||| (0x4 <<< 76) ||| (0x2 <<< 62)⟩

def toNat (id : ElementId) : Nat :=
  id.bits.toNat

instance : LE ElementId where
  le first second := first.toNat ≤ second.toNat

instance (first second : ElementId) : Decidable (first ≤ second) :=
  inferInstanceAs (Decidable (first.toNat ≤ second.toNat))

/-- Put hyphens after 8, 12, 16 and 20 characters. -/
def hyphenate (digits : List Char) : List Char :=
  digits.take 8 ++ '-' :: (digits.drop 8).take 4 ++ '-' :: (digits.drop 12).take 4 ++
    '-' :: (digits.drop 16).take 4 ++ '-' :: digits.drop 20

/-- The characters of a text that has its hyphens after 8, 12, 16 and 20 others, without them. -/
def unhyphenate? (text : List Char) : Option (List Char) :=
  let digits := text.take 8 ++ (text.drop 9).take 4 ++ (text.drop 14).take 4 ++
    (text.drop 19).take 4 ++ text.drop 24
  if text.length = 36 ∧ text = hyphenate digits then some digits else none

/-- The identity with exactly these thirty-two hexadecimal digits. -/
def ofDigits? (digits : List Char) : Option ElementId :=
  if digits.length = 32 then (Text.valueOfDigits? 16 digits).map ofNat else none

def ofHyphenated? (text : List Char) : Option ElementId :=
  (unhyphenate? text).bind ofDigits?

/-- Read an identity in one of its four spellings. -/
def ofText? (text : String) : Option ElementId :=
  let chars := text.toList
  match chars.length with
  | 32 => ofDigits? chars
  | 36 => ofHyphenated? chars
  | 38 =>
      if chars.head? = some '\x7b' ∧ chars.getLast? = some '\x7d' then
        ofHyphenated? (chars.drop 1).dropLast
      else none
  | 45 =>
      if (chars.take 9).map Char.toLower = "urn:uuid:".toList then ofHyphenated? (chars.drop 9)
      else none
  | _ => none

/-- The written form: lower-case digits in hyphenated groups. -/
def text (id : ElementId) : String :=
  String.ofList (hyphenate (Text.paddedDigits 16 32 id.toNat))

end ElementId

end LanguageGraph
