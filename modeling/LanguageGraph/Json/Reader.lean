/-
# Json.Reader — JSON texts

A JSON text is one value with nothing but blanks around it. The grammar is the strict one: no comma
after the last item, no control character inside a string, no leading zero, no other spelling of the
constants.
-/
import LanguageGraph.Json.Value
import LanguageGraph.Text.Digits

namespace LanguageGraph.Json

set_option autoImplicit false

/-- Drop the blanks a text starts with: space, tab, line feed and carriage return. -/
def skipSpace (text : List Char) : List Char :=
  text.dropWhile fun c => c = ' ' || c = '\t' || c = '\n' || c = '\r'

/-! ## Strings -/

/-- A piece of a string: a character, or a code unit written as an escape. -/
inductive StringPart where
  | char (c : Char)
  | unit (code : Nat)

/-- The character that a one-letter escape stands for. -/
def escaped? : Char → Option Char
  | '"' => some '"'
  | '\\' => some '\\'
  | '/' => some '/'
  | 'b' => some '\x08'
  | 'f' => some '\x0c'
  | 'n' => some '\n'
  | 'r' => some '\r'
  | 't' => some '\t'
  | _ => none

/-- Read the pieces of a string up to its closing quotation mark; those read before come in reverse. -/
def readParts? (parts : List StringPart) : List Char → Option (List StringPart × List Char)
  | [] => none
  | '"' :: rest => some (parts.reverse, rest)
  | '\\' :: 'u' :: first :: second :: third :: fourth :: rest =>
      match Text.valueOfDigits? 16 [first, second, third, fourth] with
      | some code => readParts? (.unit code :: parts) rest
      | none => none
  | '\\' :: letter :: rest =>
      match escaped? letter with
      | some c => readParts? (.char c :: parts) rest
      | none => none
  | c :: rest => if c.toNat < 0x20 then none else readParts? (.char c :: parts) rest

/-- The characters that the pieces of a string denote. The units of a surrogate pair stand together,
the leading one first; alone, either denotes nothing. Characters found before come in reverse. -/
def joinParts? (chars : List Char) : List StringPart → Option (List Char)
  | [] => some chars.reverse
  | .char c :: parts => joinParts? (c :: chars) parts
  | .unit leading :: .unit trailing :: parts =>
      if 0xD800 ≤ leading ∧ leading < 0xDC00 then
        if 0xDC00 ≤ trailing ∧ trailing < 0xE000 then
          joinParts? (Char.ofNat (0x10000 + (leading - 0xD800) * 0x400 + (trailing - 0xDC00)) :: chars)
            parts
        else none
      else if 0xDC00 ≤ leading ∧ leading < 0xE000 then none
      else joinParts? (Char.ofNat leading :: chars) (.unit trailing :: parts)
  | .unit code :: parts =>
      if 0xD800 ≤ code ∧ code < 0xE000 then none else joinParts? (Char.ofNat code :: chars) parts

/-- Read a string after its opening quotation mark; the text is missing when it denotes nothing. -/
def readString? (text : List Char) : Option (Option String × List Char) :=
  (readParts? [] text).map fun (parts, rest) => ((joinParts? [] parts).map String.ofList, rest)

/-! ## Numbers -/

/-- The parts of a spelled number. -/
structure Spelling where
  negative : Bool
  whole : List Char
  fraction : Option (List Char)
  exponent : Option (Bool × List Char)

def isDigit (c : Char) : Bool :=
  decide (48 ≤ c.toNat) && decide (c.toNat ≤ 57)

/-- The digits a text starts with, at least one, and the rest. -/
def takeDigits? (text : List Char) : Option (List Char × List Char) :=
  let found := text.takeWhile isDigit
  if found.isEmpty then none else some (found, text.dropWhile isDigit)

/-- The whole part of a number: a zero, or digits that start with another one. -/
def takeWhole? (text : List Char) : Option (List Char × List Char) :=
  match text with
  | '0' :: rest => some (['0'], rest)
  | _ => takeDigits? text

def takeFraction? (text : List Char) : Option (Option (List Char) × List Char) :=
  match text with
  | '.' :: rest => (takeDigits? rest).map fun (fraction, rest) => (some fraction, rest)
  | _ => some (none, text)

/-- The exponent of a number, if there is one, with whether it is negative. -/
def takeExponent? (text : List Char) : Option (Option (Bool × List Char) × List Char) :=
  match text with
  | letter :: rest =>
      if letter = 'e' ∨ letter = 'E' then
        let (negative, rest) := match rest with
          | '-' :: rest => (true, rest)
          | '+' :: rest => (false, rest)
          | _ => (false, rest)
        (takeDigits? rest).map fun (exponent, rest) => (some (negative, exponent), rest)
      else some (none, text)
  | [] => some (none, text)

def readSpelling? (text : List Char) : Option (Spelling × List Char) := do
  let (negative, unsigned) := match text with
    | '-' :: rest => (true, rest)
    | _ => (false, text)
  let (whole, rest) ← takeWhole? unsigned
  let (fraction, rest) ← takeFraction? rest
  let (exponent, rest) ← takeExponent? rest
  return (⟨negative, whole, fraction, exponent⟩, rest)

/-- The characters of a spelled number, its exponent after a small letter and without a plus sign. -/
def Spelling.chars (spelling : Spelling) : List Char :=
  (if spelling.negative then ['-'] else []) ++ spelling.whole ++
    (match spelling.fraction with
      | some fraction => '.' :: fraction
      | none => []) ++
    (match spelling.exponent with
      | some (true, exponent) => 'e' :: '-' :: exponent
      | some (false, exponent) => 'e' :: exponent
      | none => [])

/-- The value of digits; none of them counts as zero. -/
def valueOf (digits : List Char) : Nat :=
  (Text.valueOfDigits? 10 digits).getD 0

/-- Append digits to a significand as long as it fits in 64 bits; the digits left over come second. -/
def appendDigits (significand : Nat) : List Char → Nat × List Char
  | [] => (significand, [])
  | digit :: digits =>
      let longer := significand * 10 + valueOf [digit]
      if longer < Text.wordLimit then appendDigits longer digits else (significand, digit :: digits)

/-- The nearest number with at most 53 significant binary digits, the even one of two. -/
def rounded (value : Nat) : Nat :=
  let unit := Nat.pow 2 (value.log2 - 52)
  let count := value / unit
  let rest := value % unit
  if unit < 2 * rest ∨ (unit = 2 * rest ∧ count % 2 = 1) then (count + 1) * unit else count * unit

/-- The least size that rounds beyond the largest binary64. -/
def overflowBound : Nat :=
  Nat.pow 2 1024 - Nat.pow 2 970

/-- Whether `significand` times ten to the `exponent` is beyond every binary64. The two factors are
rounded before their product is; a power of ten that is too large itself takes every significand but
zero along. -/
def overflows (significand : Nat) (exponent : Int) : Bool :=
  if exponent < 0 then false
  else if 308 < exponent then decide (significand ≠ 0)
  else decide (overflowBound ≤ rounded significand * rounded (Nat.pow 10 exponent.toNat))

/-- The value of a spelled number. Its significand is made of the first digits, as many as fit in 64
bits. A further digit before the point counts in the exponent; one after it is passed over. -/
def Spelling.value (spelling : Spelling) : Json :=
  let fraction := spelling.fraction.getD []
  let exponent : Int := match spelling.exponent with
    | some (true, digits) => -(valueOf digits : Int)
    | some (false, digits) => valueOf digits
    | none => 0
  let (leading, wholeLeft) := appendDigits 0 spelling.whole
  let (significand, fractionLeft) := appendDigits leading fraction
  if overflows significand (exponent + wholeLeft.length + fractionLeft.length - fraction.length) then
    unreadable
  else if spelling.negative || spelling.fraction.isSome || spelling.exponent.isSome ||
      !wholeLeft.isEmpty then
    number (.other (String.ofList spelling.chars))
  else nat significand

/-! ## Values -/

/-- An object of fields, the last one first; without a name for some field it is unreadable. -/
def objectOf : Option (List (String × Json)) → Json
  | some fields => object fields.reverse
  | none => unreadable

mutual

/-- Read one value. The first argument bounds the number of calls. -/
def readValue? : Nat → List Char → Option (Json × List Char)
  | 0, _ => none
  | fuel + 1, text =>
      match skipSpace text with
      | 'n' :: 'u' :: 'l' :: 'l' :: rest => some (null, rest)
      | 't' :: 'r' :: 'u' :: 'e' :: rest => some (bool true, rest)
      | 'f' :: 'a' :: 'l' :: 's' :: 'e' :: rest => some (bool false, rest)
      | '"' :: rest =>
          (readString? rest).map fun (value, rest) =>
            ((match value with
              | some value => string value
              | none => unreadable), rest)
      | '[' :: rest =>
          match skipSpace rest with
          | ']' :: rest => some (array [], rest)
          | rest => readItems? fuel [] rest
      | '\x7b' :: rest =>
          match skipSpace rest with
          | '\x7d' :: rest => some (object [], rest)
          | rest => readFields? fuel (some []) rest
      | text => (readSpelling? text).map fun (spelling, rest) => (spelling.value, rest)

/-- Read the items of an array after those read before, which come in reverse. -/
def readItems? : Nat → List Json → List Char → Option (Json × List Char)
  | 0, _, _ => none
  | fuel + 1, items, text =>
      match readValue? fuel text with
      | none => none
      | some (item, rest) =>
          match skipSpace rest with
          | ',' :: rest => readItems? fuel (item :: items) rest
          | ']' :: rest => some (array (item :: items).reverse, rest)
          | _ => none

def readFields? : Nat → Option (List (String × Json)) → List Char → Option (Json × List Char)
  | 0, _, _ => none
  | fuel + 1, fields, text =>
      match skipSpace text with
      | '"' :: rest =>
          match readString? rest with
          | none => none
          | some (name, rest) =>
              match skipSpace rest with
              | ':' :: rest =>
                  match readValue? fuel rest with
                  | none => none
                  | some (value, rest) =>
                      let fields := match name, fields with
                        | some name, some fields => some ((name, value) :: fields)
                        | _, _ => none
                      match skipSpace rest with
                      | ',' :: rest => readFields? fuel fields rest
                      | '\x7d' :: rest => some (objectOf fields, rest)
                      | _ => none
              | _ => none
      | _ => none

end

/-- The value of a JSON text. A value of `n` characters takes fewer than `2 * n + 2` calls to read. -/
def ofText? (text : String) : Option Json :=
  let chars := text.toList
  match readValue? (2 * chars.length + 2) chars with
  | some (value, rest) => if (skipSpace rest).isEmpty then some value else none
  | none => none

end LanguageGraph.Json
