/-
# Text.Quoted — text between quotation marks

Text is quoted so that each character can be told: the quotation mark, the backslash, tab, line feed,
carriage return and NUL are written as a backslash and a letter, a character that extends its
neighbour or has no glyph as its code point in braces, and every other character as itself. An
apostrophe needs no escape between quotation marks.
-/
import LanguageGraph.Text.Digits
import LanguageGraph.Text.GraphemeExtend
import LanguageGraph.Text.Unprintable

namespace LanguageGraph.Text

set_option autoImplicit false

def quotedChar (c : Char) : List Char :=
  if c = '\x00' then ['\\', '0']
  else if c = '\t' then ['\\', 't']
  else if c = '\r' then ['\\', 'r']
  else if c = '\n' then ['\\', 'n']
  else if c = '\\' ∨ c = '"' then ['\\', c]
  else if 0x20 ≤ c.toNat ∧ c.toNat ≤ 0x7E then [c]
  else if isGraphemeExtend c || isUnprintable c then
    ['\\', 'u', '\x7b'] ++ digits 16 c.toNat ++ ['\x7d']
  else [c]

def quoted (text : String) : String :=
  String.ofList (['"'] ++ text.toList.flatMap quotedChar ++ ['"'])

end LanguageGraph.Text
