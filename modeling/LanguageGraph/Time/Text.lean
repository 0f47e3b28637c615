/-
# Time.Text — written times

A timestamp is written as `YYYY-MM-DDThh:mm:ss`, a fraction of three, six or nine digits where the
nanoseconds need one, and `Z` (`Timestamp.text`). A year outside 0 to 9999 has a sign and at least
four digits.

Reading is more generous (`Timestamp.ofText?`). White space may stand before every number and every
separator of the date and of the time, around the zone, and after it; the date and the time are
divided by one `T`, `t` or space; numbers may lack leading zeros; digits after the ninth of a fraction
are dropped; and the zone is `Z`, `UTC` in any case, or a sign, two digits of hours and two digits of
minutes, with any number of colons and white space between them. A year with more than four digits
needs its sign.
-/
import LanguageGraph.Text.Blank
import LanguageGraph.Text.Digits
import LanguageGraph.Time.Timestamp

namespace LanguageGraph

set_option autoImplicit false

namespace Timestamp

/-! ## Writing -/

/-- The year, in four digits from 0 to 9999 and otherwise with a sign and at least four digits. -/
def yearText (year : Int) : List Char :=
  let size := year.natAbs
  let digits := if size < 10000 then Text.paddedDigits 10 4 size else Text.digits 10 size
  if year < 0 then '-' :: digits
  else if 10000 ≤ year then '+' :: digits
  else digits

/-- The fraction of a second, in the fewest digits of none, three, six and nine that lose nothing. -/
def fractionText (nanosecond : Nat) : List Char :=
  if nanosecond = 0 then []
  else if nanosecond % 1000000 = 0 then '.' :: Text.paddedDigits 10 3 (nanosecond / 1000000)
  else if nanosecond % 1000 = 0 then '.' :: Text.paddedDigits 10 6 (nanosecond / 1000)
  else '.' :: Text.paddedDigits 10 9 nanosecond

def text (time : Timestamp) : String :=
  let two := Text.paddedDigits 10 2
  String.ofList <| yearText time.date.year ++ '-' :: two time.date.month ++ '-' :: two time.date.day ++
    'T' :: two time.hour ++ ':' :: two time.minute ++ ':' :: two time.second ++
    fractionText time.nanosecond ++ ['Z']

/-! ## Reading -/

def isDigit (c : Char) : Bool :=
  (Text.digitOf? 10 c).isSome

/-- Read one to `most` digits. -/
def readNumber? (most : Nat) (text : List Char) : Option (Nat × List Char) :=
  let digits := (text.takeWhile isDigit).take most
  (Text.number? 10 digits).map fun value => (value, text.drop digits.length)

/-- Read all the digits a text starts with, at least one. -/
def readLongNumber? (text : List Char) : Option (Nat × List Char) :=
  readNumber? text.length text

/-- Read a year: signed with any number of digits, or unsigned with at most four. -/
def readYear? (text : List Char) : Option (Int × List Char) :=
  match Text.skipBlanks text with
  | '-' :: rest => (readLongNumber? rest).map fun (value, rest) => (-(value : Int), rest)
  | '+' :: rest => (readLongNumber? rest).map fun (value, rest) => ((value : Int), rest)
  | text => (readNumber? 4 text).map fun (value, rest) => ((value : Int), rest)

/-- Read a number of one or two digits after a separator. -/
def readPart? (separator : Char) (text : List Char) : Option (Nat × List Char) :=
  match Text.skipBlanks text with
  | c :: rest => if c = separator then readNumber? 2 (Text.skipBlanks rest) else none
  | [] => none

/-- Read a fraction of a second in nanoseconds, zero where there is no point. -/
def readFraction? (text : List Char) : Option (Nat × List Char) :=
  match text with
  | '.' :: rest =>
      let digits := rest.takeWhile isDigit
      let kept := digits.take 9
      (Text.number? 10 kept).map fun value =>
        (value * Nat.pow 10 (9 - kept.length), rest.drop digits.length)
  | _ => some (0, text)

def readTwoDigits? (text : List Char) : Option (Nat × List Char) :=
  match text with
  | first :: second :: rest =>
      (Text.valueOfDigits? 10 [first, second]).map fun value => (value, rest)
  | _ => none

/-- Read a zone's hours and minutes, as minutes. -/
def readOffset? (text : List Char) : Option (Int × List Char) :=
  match readTwoDigits? text with
  | some (hours, rest) =>
      match readTwoDigits? (rest.dropWhile fun c => c = ':' || Text.isBlank c) with
      | some (minutes, rest) =>
          if hours < 24 ∧ minutes < 60 then some ((hours * 60 + minutes : Nat), rest) else none
      | none => none
  | none => none

/-- Read a zone, as minutes ahead of UTC. The sign may be the hyphen or the minus sign U+2212. -/
def readZone? (text : List Char) : Option (Int × List Char) :=
  if (text.take 3).map Char.toUpper = ['U', 'T', 'C'] then some (0, text.drop 3)
  else
    match text with
    | 'Z' :: rest => some (0, rest)
    | 'z' :: rest => some (0, rest)
    | '+' :: rest => readOffset? rest
    | '-' :: rest => (readOffset? rest).map fun (offset, rest) => (-offset, rest)
    | '\u2212' :: rest => (readOffset? rest).map fun (offset, rest) => (-offset, rest)
    | _ => none

def readDivider? (text : List Char) : Option (List Char) :=
  match text with
  | c :: rest => if c = 'T' ∨ c = 't' ∨ c = ' ' then some rest else none
  | [] => none

def ofText? (text : String) : Option Timestamp := do
  let (year, rest) ← readYear? text.toList
  let (month, rest) ← readPart? '-' rest
  let (day, rest) ← readPart? '-' rest
  let rest ← readDivider? rest
  let (hour, rest) ← readNumber? 2 (Text.skipBlanks rest)
  let (minute, rest) ← readPart? ':' rest
  let (second, rest) ← readPart? ':' rest
  let (nanosecond, rest) ← readFraction? rest
  let (offset, rest) ← readZone? (Text.skipBlanks rest)
  if (Text.skipBlanks rest).isEmpty then
    let date ← Date.of? year month day
    let shown ← Timestamp.of? date hour minute second nanosecond
    shown.atOffset? offset
  else none

end Timestamp

end LanguageGraph
