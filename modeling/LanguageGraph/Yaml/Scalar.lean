/-
# Yaml.Scalar — the texts of scalars

A scalar is written plainly, between quotation marks, or as a block of lines. Lines of a plain or a
quoted scalar are folded: a single line break is a space, and of several the first is dropped
(`Gap.fold`). A block keeps its lines as they are, or folds them too; how many line breaks stay at its
end is for its header to say.
-/
import LanguageGraph.Text.Digits
import LanguageGraph.Yaml.Cursor

namespace LanguageGraph.Yaml

set_option autoImplicit false

/-- How a scalar is written. -/
inductive Style where
  | plain
  | singleQuoted
  | doubleQuoted
  | literal
  | folded
deriving DecidableEq

/-! ## Gaps between words -/

/-- Blanks and line breaks between two words. -/
structure Gap where
  /-- The blanks before the first line break. -/
  blanks : List Char := []
  /-- The first line break. -/
  first : List Char := []
  /-- The other line breaks. -/
  more : List Char := []
  /-- Whether a line ended. -/
  broken : Bool := false

def Gap.fold (gap : Gap) : List Char :=
  if gap.broken then
    if gap.first = ['\n'] then (if gap.more.isEmpty then [' '] else gap.more)
    else gap.first ++ gap.more
  else gap.blanks

/-- Read the rest of a gap. Left of the indentation, after a line break, tabs are not allowed. The
first argument bounds the number of steps. -/
def readGap? (indentation : Nat) : Nat → Gap → Cursor → Option (Gap × Cursor)
  | 0, gap, cursor => some (gap, cursor)
  | fuel + 1, gap, cursor =>
      match cursor.peek 0 with
      | none => some (gap, cursor)
      | some c =>
          if isBlank c then
            if gap.broken then
              if c = '\t' ∧ cursor.column < indentation then none
              else readGap? indentation fuel gap (cursor.advance 1)
            else
              readGap? indentation fuel { gap with blanks := gap.blanks ++ [c] } (cursor.advance 1)
          else if isBreak c then
            let (lineBreak, cursor) := cursor.takeBreak
            if gap.broken then
              readGap? indentation fuel { gap with more := gap.more ++ lineBreak } cursor
            else
              readGap? indentation fuel { gap with blanks := [], first := lineBreak, broken := true }
                cursor
          else some (gap, cursor)

/-! ## Plain scalars -/

/-- The characters that end a word of a plain scalar inside a flow collection. -/
def flowIndicators : List Char :=
  [',', '[', ']', '\x7b', '\x7d']

/-- The word of a plain scalar that a text starts with. A colon ends the scalar where a word ends
after it; inside a flow collection, an indicator right after a colon is an error. -/
def plainWord? (inFlow : Bool) : List Char → Option (List Char)
  | [] => some []
  | c :: rest =>
      if endsWord (some c) then some []
      else if inFlow && c = ':' && rest.head?.any fun next => ('?' :: flowIndicators).contains next
      then none
      else if (c = ':' && endsWord rest.head?) || (inFlow && flowIndicators.contains c) then some []
      else (plainWord? inFlow rest).map fun word => c :: word

/-- Read the words of a plain scalar after those read before, which come in reverse, and tell whether a
line ended after the last one. -/
def readPlainWords? (inFlow : Bool) (indentation : Nat) :
    Nat → List Char → Gap → Cursor → Option (List Char × Bool × Cursor)
  | 0, _, _, _ => none
  | fuel + 1, read, gap, cursor =>
      if cursor.seesDocumentMark || cursor.sees '#' then some (read.reverse, gap.broken, cursor)
      else
        match plainWord? inFlow cursor.rest with
        | none => none
        | some word =>
            let (read, gap) :=
              if word.isEmpty then (read, gap)
              else (word.reverse ++ gap.fold.reverse ++ read, {})
            let cursor := cursor.advance word.length
            if cursor.seesBlank || cursor.seesBreak then
              match readGap? indentation cursor.rest.length gap cursor with
              | none => none
              | some (gap, cursor) =>
                  if !inFlow && cursor.column < indentation then
                    some (read.reverse, gap.broken, cursor)
                  else readPlainWords? inFlow indentation fuel read gap cursor
            else some (read.reverse, gap.broken, cursor)

def readPlain? (inFlow : Bool) (indentation : Nat) (cursor : Cursor) :
    Option (List Char × Bool × Cursor) :=
  readPlainWords? inFlow indentation (cursor.rest.length + 1) [] {} cursor

/-! ## Quoted scalars -/

/-- What follows a backslash: a letter for one character, or one that announces hexadecimal digits. -/
inductive Escape where
  | char (c : Char)
  | code (digits : Nat)

def Escape.of? : Char → Option Escape
  | '0' => some (.char '\x00')
  | 'a' => some (.char '\x07')
  | 'b' => some (.char '\x08')
  | 't' => some (.char '\t')
  | '\t' => some (.char '\t')
  | 'n' => some (.char '\n')
  | 'v' => some (.char '\x0b')
  | 'f' => some (.char '\x0c')
  | 'r' => some (.char '\r')
  | 'e' => some (.char '\x1b')
  | ' ' => some (.char ' ')
  | '"' => some (.char '"')
  | '/' => some (.char '/')
  | '\\' => some (.char '\\')
  | 'N' => some (.char '\u0085')
  | '_' => some (.char '\u00a0')
  | 'L' => some (.char '\u2028')
  | 'P' => some (.char '\u2029')
  | 'x' => some (.code 2)
  | 'u' => some (.code 4)
  | 'U' => some (.code 8)
  | _ => none

def charOf? (code : Nat) : Option Char :=
  if code.isValidChar then some (Char.ofNat code) else none

/-- Read a word between quotation marks after the characters read before, which come in reverse; tell
whether an escaped line break ended it. -/
def readQuotedWord? (single : Bool) : Nat → List Char → Cursor → Option (List Char × Bool × Cursor)
  | 0, _, _ => none
  | fuel + 1, read, cursor =>
      match cursor.rest with
      | [] => some (read, false, cursor)
      | c :: rest =>
          if endsWord (some c) then some (read, false, cursor)
          else if single then
            if c = '\'' then
              if rest.head? = some '\'' then
                readQuotedWord? single fuel ('\'' :: read) (cursor.advance 2)
              else some (read, false, cursor)
            else readQuotedWord? single fuel (c :: read) (cursor.advance 1)
          else if c = '"' then some (read, false, cursor)
          else if c = '\\' then
            match rest with
            | [] => none
            | letter :: digits =>
                if isBreak letter then some (read, true, (cursor.advance 1).takeBreak.2)
                else
                  match Escape.of? letter with
                  | none => none
                  | some (.char c) => readQuotedWord? single fuel (c :: read) (cursor.advance 2)
                  | some (.code count) =>
                      if digits.length < count then none
                      else
                        match (Text.valueOfDigits? 16 (digits.take count)).bind charOf? with
                        | none => none
                        | some c =>
                            readQuotedWord? single fuel (c :: read) (cursor.advance (2 + count))
          else readQuotedWord? single fuel (c :: read) (cursor.advance 1)

def readQuotedWords? (single : Bool) : Nat → List Char → Cursor → Option (List Char × Cursor)
  | 0, _, _ => none
  | fuel + 1, read, cursor =>
      if cursor.seesDocumentMark || cursor.atEnd then none
      else
        match readQuotedWord? single (cursor.rest.length + 1) read cursor with
        | none => none
        | some (read, escaped, cursor) =>
            if cursor.sees (if single then '\'' else '"') then some (read.reverse, cursor.advance 1)
            else
              match readGap? 0 cursor.rest.length { broken := escaped } cursor with
              | none => none
              | some (gap, cursor) =>
                  readQuotedWords? single fuel (gap.fold.reverse ++ read) cursor

def readQuoted? (single : Bool) (cursor : Cursor) : Option (List Char × Cursor) :=
  readQuotedWords? single (cursor.rest.length + 1) [] (cursor.advance 1)

/-! ## Block scalars -/

/-- Which line breaks stay at the end of a block. -/
inductive Chomping where
  | strip
  | clip
  | keep
deriving DecidableEq

def Chomping.of? : Option Char → Option Chomping
  | some '-' => some strip
  | some '+' => some keep
  | _ => none

def indentationDigit? (c : Option Char) : Option Nat :=
  (c.bind (Text.digitOf? 10))

/-- Read the header of a block: an indicator of chomping and a digit for the indentation, in either
order and each optional, then nothing but a comment. Zero is no indentation, and stands for none given.
-/
def readBlockHeader? (cursor : Cursor) : Option (Chomping × Nat × Cursor) :=
  let cursor := cursor.advance 1
  let finish (chomping : Chomping) (indentation : Nat) (count : Nat) :
      Option (Chomping × Nat × Cursor) :=
    (cursor.advance count).finishLine?.map fun cursor => (chomping, indentation, cursor)
  match Chomping.of? (cursor.peek 0), indentationDigit? (cursor.peek 0) with
  | some chomping, _ =>
      match indentationDigit? (cursor.peek 1) with
      | some 0 => none
      | some indentation => finish chomping indentation 2
      | none => finish chomping 0 1
  | none, some 0 => none
  | none, some indentation =>
      match Chomping.of? (cursor.peek 1) with
      | some chomping => finish chomping indentation 2
      | none => finish .clip indentation 1
  | none, none => finish .clip 0 0

/-- Pass over indentation and empty lines, and tell the line breaks. An indentation that is not known
is that of the first line with text, or of a longer empty line before it, but at least `least`. -/
def readBlockBreaks? (least : Nat) :
    Nat → Nat → Nat → List Char → Cursor → Option (Nat × List Char × Cursor)
  | 0, _, _, _, _ => none
  | fuel + 1, indentation, longest, breaks, cursor =>
      let spaces := (cursor.rest.takeWhile fun c => c = ' ').length
      let cursor := cursor.advance
        (if indentation = 0 then spaces else min spaces (indentation - cursor.column))
      let longest := max longest cursor.column
      if cursor.sees '\t' ∧ (indentation = 0 ∨ cursor.column < indentation) then none
      else if cursor.seesBreak then
        let (lineBreak, cursor) := cursor.takeBreak
        readBlockBreaks? least fuel indentation longest (breaks ++ lineBreak) cursor
      else some (if indentation = 0 then max longest least else indentation, breaks, cursor)

/-- What is known of the lines of a block read so far. -/
structure BlockLines where
  read : List Char
  /-- The line break after the last line. -/
  lineBreak : List Char
  /-- The line breaks of empty lines after it. -/
  breaks : List Char
  /-- Whether the last line starts with a blank. -/
  afterBlank : Bool

def readBlockLines? (folded : Bool) (least indentation : Nat) :
    Nat → BlockLines → Cursor → Option (BlockLines × Cursor)
  | 0, _, _ => none
  | fuel + 1, lines, cursor =>
      if cursor.column ≠ indentation ∨ cursor.atEnd then some (lines, cursor)
      else
        let blank := cursor.seesBlank
        let joint :=
          if folded && lines.lineBreak = ['\n'] && !lines.afterBlank && !blank then
            (if lines.breaks.isEmpty then [' '] else [])
          else lines.lineBreak
        let line := cursor.rest.takeWhile fun c => !isBreak c
        let (lineBreak, cursor) := (cursor.advance line.length).takeBreak
        match readBlockBreaks? least (cursor.rest.length + 1) indentation 0 [] cursor with
        | none => none
        | some (_, breaks, cursor) =>
            readBlockLines? folded least indentation fuel
              ⟨lines.read ++ joint ++ lines.breaks ++ line, lineBreak, breaks, blank⟩ cursor

/-- Read a block scalar inside a block collection at a column, or at -1 outside of any. -/
def readBlock? (folded : Bool) (outer : Int) (cursor : Cursor) : Option (List Char × Cursor) := do
  let (chomping, increment, cursor) ← readBlockHeader? cursor
  let asked := if increment = 0 then 0 else (max outer 0).toNat + increment
  let least := max (outer + 1).toNat 1
  let (indentation, breaks, cursor) ←
    readBlockBreaks? least (cursor.rest.length + 1) asked 0 [] cursor
  let (lines, cursor) ←
    readBlockLines? folded least indentation (cursor.rest.length + 1) ⟨[], [], breaks, false⟩ cursor
  let ending := match chomping with
    | .strip => []
    | .clip => lines.lineBreak
    | .keep => lines.lineBreak ++ lines.breaks
  return (lines.read ++ ending, cursor)

end LanguageGraph.Yaml
