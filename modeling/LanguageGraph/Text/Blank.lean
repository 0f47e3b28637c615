/-
# Text.Blank — white space

The Unicode property White_Space, the class of characters that may stand around the parts of a written
time.
-/
import LanguageGraph.Text.Ranges

namespace LanguageGraph.Text

set_option autoImplicit false

/-- The code points with the property White_Space, in ascending order. -/
def blankRanges : Ranges :=
  [(0x9, 0xD), (0x20, 0x20), (0x85, 0x85), (0xA0, 0xA0), (0x1680, 0x1680), (0x2000, 0x200A),
   (0x2028, 0x2029), (0x202F, 0x202F), (0x205F, 0x205F), (0x3000, 0x3000)]

def isBlank (c : Char) : Bool :=
  blankRanges.contains c

/-- Drop the white space a text starts with. -/
def skipBlanks (text : List Char) : List Char :=
  text.dropWhile isBlank

end LanguageGraph.Text
