/-
# Yaml.Cursor — a place in a YAML text

Indentation carries meaning in YAML, so whoever reads a text keeps the line and the column beside the
characters that are left. A line ends with a line feed, a carriage return, both, or one of U+0085,
U+2028 and U+2029.
-/

namespace LanguageGraph.Yaml

set_option autoImplicit false

/-! ## Characters -/

/-- Whether a character may stand in a text at all: no control characters but tab, the line breaks
and U+0085, and no noncharacters of the first plane. -/
def isAllowed (c : Char) : Bool :=
  let code := c.toNat
  c = '\t' || c = '\n' || c = '\r' || (0x20 ≤ code && code ≤ 0x7E) || code = 0x85 ||
    (0xA0 ≤ code && code ≤ 0xFFFD) || 0x10000 ≤ code

def isBlank (c : Char) : Bool :=
  c = ' ' || c = '\t'

def isBreak (c : Char) : Bool :=
  c = '\n' || c = '\r' || c = '\u0085' || c = '\u2028' || c = '\u2029'

/-- Whether a word ends here: at a blank, a line break or the end. -/
def endsWord : Option Char → Bool
  | some c => isBlank c || isBreak c
  | none => true

def endsLine : Option Char → Bool
  | some c => isBreak c
  | none => true

/-- Whether a character may stand in the name of an anchor, a handle or a directive. -/
def isNameChar (c : Char) : Bool :=
  c.isAlphanum || c = '_' || c = '-'

/-! ## Places -/

/-- A place in a text. -/
structure Cursor where
  /-- The characters from here on. -/
  rest : List Char
  /-- How many characters come before. -/
  index : Nat
  /-- How many lines come before. -/
  line : Nat
  /-- How many characters of the line come before. -/
  column : Nat

namespace Cursor

def start (text : List Char) : Cursor :=
  ⟨text, 0, 0, 0⟩

/-- The character some places ahead on. -/
def peek (cursor : Cursor) (ahead : Nat) : Option Char :=
  cursor.rest[ahead]?

def sees (cursor : Cursor) (c : Char) : Bool :=
  cursor.peek 0 == some c

def seesOneOf (cursor : Cursor) (chars : List Char) : Bool :=
  (cursor.peek 0).any fun c => chars.contains c

def seesBlank (cursor : Cursor) : Bool :=
  (cursor.peek 0).any isBlank

def seesBreak (cursor : Cursor) : Bool :=
  (cursor.peek 0).any isBreak

def atEnd (cursor : Cursor) : Bool :=
  cursor.rest.isEmpty

/-- Pass over characters of the line. -/
def advance (cursor : Cursor) (count : Nat) : Cursor :=
  { cursor with
    rest := cursor.rest.drop count
    index := cursor.index + count
    column := cursor.column + count }

def advanceWhile (cursor : Cursor) (condition : Char → Bool) : Cursor :=
  cursor.advance (cursor.rest.takeWhile condition).length

/-- Pass over a line break, and tell what it stands for: the breaks of old are all line feeds, the
Unicode separators themselves. Where no line break comes next, nothing happens. -/
def takeBreak (cursor : Cursor) : List Char × Cursor :=
  let nextLine (rest : List Char) (count : Nat) : Cursor :=
    ⟨rest, cursor.index + count, cursor.line + 1, 0⟩
  match cursor.rest with
  | '\r' :: '\n' :: rest => (['\n'], nextLine rest 2)
  | c :: rest =>
      if c = '\r' ∨ c = '\n' ∨ c = '\u0085' then (['\n'], nextLine rest 1)
      else if c = '\u2028' ∨ c = '\u2029' then ([c], nextLine rest 1)
      else ([], cursor)
  | [] => ([], cursor)

/-- Whether a mark of three equal characters stands at the start of a line, by itself. -/
def seesMark (cursor : Cursor) (c : Char) : Bool :=
  cursor.column = 0 && cursor.rest.take 3 = [c, c, c] && endsWord (cursor.peek 3)

/-- Whether a document starts or ends here by a mark. -/
def seesDocumentMark (cursor : Cursor) : Bool :=
  cursor.seesMark '-' || cursor.seesMark '.'

/-- Pass over blanks and a comment up to the end of the line, and over the line break; nothing else may
stand there. -/
def finishLine? (cursor : Cursor) : Option Cursor :=
  let cursor := cursor.advanceWhile isBlank
  let cursor := if cursor.sees '#' then cursor.advanceWhile fun c => !isBreak c else cursor
  if endsLine (cursor.peek 0) then some cursor.takeBreak.2 else none

end Cursor

end LanguageGraph.Yaml
