/-
# Yaml.Token — the tokens of a YAML text

A text is cut into tokens from left to right. Blocks have no brackets: a deeper column opens one and a
shallower column closes it, so the lexer keeps the columns of the open blocks. Nor is a key known as
one before its colon comes; the lexer remembers where the last possible key stands, on each level of
nesting, and puts the key's token there later. Such a key must fit on one line and in 1024 characters
(`Lexer.dropStaleKeys?`).
-/
import LanguageGraph.Yaml.Scalar

namespace LanguageGraph.Yaml

set_option autoImplicit false

inductive Token where
  | versionDirective (major minor : Nat)
  | tagDirective (handle expansion : String)
  | documentStart
  | documentEnd
  | blockSequenceStart
  | blockMappingStart
  | blockEnd
  | flowSequenceStart
  | flowSequenceEnd
  | flowMappingStart
  | flowMappingEnd
  | blockEntry
  | flowEntry
  | key
  | value
  | alias (name : String)
  | anchor (name : String)
  | tag (handle suffix : String)
  | scalar (style : Style) (text : String)
deriving DecidableEq

/-! ## Names, tags and directives -/

def takeName (cursor : Cursor) : List Char × Cursor :=
  let name := cursor.rest.takeWhile isNameChar
  (name, cursor.advance name.length)

/-- How many bytes a UTF-8 sequence has that starts with a byte. -/
def sequenceLength? (byte : Nat) : Option Nat :=
  if byte < 0x80 then some 1
  else if 0xC0 ≤ byte ∧ byte < 0xE0 then some 2
  else if 0xE0 ≤ byte ∧ byte < 0xF0 then some 3
  else if 0xF0 ≤ byte ∧ byte < 0xF8 then some 4
  else none

/-- Read a byte that is written as a percent sign and two hexadecimal digits. -/
def readByte? (text : List Char) : Option (Nat × List Char) :=
  match text with
  | '%' :: first :: second :: rest =>
      (Text.valueOfDigits? 16 [first, second]).map fun byte => (byte, rest)
  | _ => none

def readContinuation? : Nat → List Char → Option (List Char × List Char)
  | 0, text => some ([], text)
  | count + 1, text =>
      match readByte? text with
      | some (byte, rest) =>
          if 0x80 ≤ byte ∧ byte < 0xC0 then
            (readContinuation? count rest).map fun (bytes, rest) => (Char.ofNat byte :: bytes, rest)
          else none
      | none => none

/-- Read one character that is written byte by byte; the bytes are kept as they are. -/
def readEscapedBytes? (text : List Char) : Option (List Char × List Char) :=
  match readByte? text with
  | some (byte, rest) =>
      match sequenceLength? byte with
      | some count =>
          (readContinuation? (count - 1) rest).map fun (bytes, rest) =>
            (Char.ofNat byte :: bytes, rest)
      | none => none
  | none => none

/-- Whether a character may stand in a tag; a tag in angle brackets may hold a few more. -/
def isTagChar (verbatim : Bool) (c : Char) : Bool :=
  isNameChar c || ";/?:@&=+$.%!~*'()".toList.contains c || (verbatim && ",[]".toList.contains c)

def readTagChars? (verbatim : Bool) : Nat → List Char → List Char → Option (List Char × List Char)
  | 0, read, text => some (read.reverse, text)
  | fuel + 1, read, text =>
      match text with
      | [] => some (read.reverse, [])
      | c :: rest =>
          if c = '%' then
            match readEscapedBytes? text with
            | some (bytes, rest) => readTagChars? verbatim fuel (bytes.reverse ++ read) rest
            | none => none
          else if isTagChar verbatim c then readTagChars? verbatim fuel (c :: read) rest
          else some (read.reverse, text)

/-- Read a tag that goes on from what was taken for its handle. It must not be empty; a NUL, which can
only be written byte by byte, ends it early, and what follows is passed over. -/
def readTag? (verbatim : Bool) (handle : List Char) (cursor : Cursor) :
    Option (List Char × Cursor) :=
  match readTagChars? verbatim cursor.rest.length [] cursor.rest with
  | some (chars, rest) =>
      let count := cursor.rest.length - rest.length
      if handle.isEmpty && count = 0 then none
      else
        some ((handle.drop 1 ++ chars).takeWhile fun c => c ≠ '\x00', cursor.advance count)
  | none => none

/-- Read a tag handle: an exclamation mark, and a name between two of them. Where the second one is
missing it was no handle; in a directive only the single mark may do without. -/
def readHandle? (directive : Bool) (cursor : Cursor) : Option (List Char × Cursor) :=
  if cursor.sees '!' then
    let (name, cursor) := takeName (cursor.advance 1)
    if cursor.sees '!' then some ('!' :: name ++ ['!'], cursor.advance 1)
    else if directive && !name.isEmpty then none
    else some ('!' :: name, cursor)
  else none

def readTagToken? (inFlow : Bool) (cursor : Cursor) : Option (Token × Cursor) := do
  let (handle, suffix, cursor) ←
    if cursor.peek 1 = some '<' then
      match readTag? true [] (cursor.advance 2) with
      | some (suffix, cursor) =>
          if cursor.sees '>' then some (([] : List Char), suffix, cursor.advance 1) else none
      | none => none
    else
      match readHandle? false cursor with
      | none => none
      | some (handle, cursor) =>
          if 2 ≤ handle.length ∧ handle.getLast? = some '!' then
            (readTag? false [] cursor).map fun (suffix, cursor) => (handle, suffix, cursor)
          else
            (readTag? false handle cursor).map fun (suffix, cursor) =>
              if suffix.isEmpty then ([], ['!'], cursor) else (['!'], suffix, cursor)
  if endsWord (cursor.peek 0) || (inFlow && cursor.sees ',') then
    some (.tag (String.ofList handle) (String.ofList suffix), cursor)
  else none

def readAnchorToken? (cursor : Cursor) : Option (Token × Cursor) :=
  let isAlias := cursor.sees '*'
  let (name, cursor) := takeName (cursor.advance 1)
  if name.isEmpty then none
  else if endsWord (cursor.peek 0) || cursor.seesOneOf ['?', ':', ',', ']', '\x7d', '%', '@', '\u0060']
  then
    let name := String.ofList name
    some (if isAlias then .alias name else .anchor name, cursor)
  else none

/-- Read a number of a version, of at most nine digits. -/
def readVersionNumber? (cursor : Cursor) : Option (Nat × Cursor) :=
  let digits := cursor.rest.takeWhile Char.isDigit
  if digits.length ≤ 9 then
    (Text.number? 10 digits).map fun number => (number, cursor.advance digits.length)
  else none

/-- The token of a directive, which takes its whole line. -/
def readDirective? (cursor : Cursor) : Option (Token × Cursor) := do
  let (name, cursor) := takeName (cursor.advance 1)
  if endsWord (cursor.peek 0) then
    let cursor := cursor.advanceWhile isBlank
    let (token, cursor) ←
      match String.ofList name with
      | "YAML" => do
          let (major, cursor) ← readVersionNumber? cursor
          if cursor.sees '.' then
            let (minor, cursor) ← readVersionNumber? (cursor.advance 1)
            some (Token.versionDirective major minor, cursor)
          else none
      | "TAG" => do
          let (handle, cursor) ← readHandle? true cursor
          if cursor.seesBlank then
            let (expansion, cursor) ← readTag? true [] (cursor.advanceWhile isBlank)
            if endsWord (cursor.peek 0) then
              some (.tagDirective (String.ofList handle) (String.ofList expansion), cursor)
            else none
          else none
      | _ => none
    let cursor ← cursor.finishLine?
    some (token, cursor)
  else none

/-! ## The lexer -/

/-- A place where a key may turn out to have been. -/
structure PossibleKey where
  /-- Whether there must be a key, for want of anything else that could stand there. -/
  required : Bool
  /-- How many tokens come before it. -/
  token : Nat
  index : Nat
  line : Nat
  column : Nat

/-- The state between two tokens. -/
structure Lexer where
  cursor : Cursor
  tokens : List Token
  /-- The possible key on the current level of flow collections. -/
  key : Option PossibleKey
  /-- The possible keys on the levels around, the nearest first. -/
  outerKeys : List (Option PossibleKey)
  /-- Whether a key may start at the next token. -/
  keyAllowed : Bool
  /-- The column of the innermost block, -1 outside of any. -/
  indent : Int
  /-- The columns of the blocks around it, the nearest first. -/
  outerIndents : List Int

namespace Lexer

def start (text : List Char) : Lexer :=
  ⟨.start text, [], none, [], true, -1, []⟩

def inFlow (lexer : Lexer) : Bool :=
  !lexer.outerKeys.isEmpty

def emit (lexer : Lexer) (token : Token) : Lexer :=
  { lexer with tokens := lexer.tokens ++ [token] }

/-- Give up a possible key, unless it is required. -/
def dropKey? (lexer : Lexer) : Option Lexer :=
  if lexer.key.any PossibleKey.required then none else some { lexer with key := none }

/-- Whether a possible key has come too far from its place. -/
def isStale (cursor : Cursor) (key : PossibleKey) : Bool :=
  key.line < cursor.line || key.index + 1024 < cursor.index

/-- Give up every possible key that is on an earlier line or too far back, unless it is required. -/
def dropStaleKeys? (lexer : Lexer) : Option Lexer :=
  let stale (key : Option PossibleKey) : Bool := key.any (isStale lexer.cursor)
  let fresh (key : Option PossibleKey) : Option PossibleKey := if stale key then none else key
  if (lexer.key :: lexer.outerKeys).any fun key => stale key && key.any PossibleKey.required then none
  else some { lexer with key := fresh lexer.key, outerKeys := lexer.outerKeys.map fresh }

/-- Remember that a key may start here, if one may. A key is required where a token stands at the
column of its block. -/
def saveKey? (lexer : Lexer) : Option Lexer :=
  if lexer.keyAllowed then
    lexer.dropKey?.map fun lexer =>
      { lexer with
        key := some {
          required := !lexer.inFlow && lexer.indent = lexer.cursor.column
          token := lexer.tokens.length
          index := lexer.cursor.index
          line := lexer.cursor.line
          column := lexer.cursor.column } }
  else some lexer

/-- Open a block at a column deeper than that of the current one, before the token at a position. -/
def openBlock (lexer : Lexer) (column : Nat) (position : Nat) (token : Token) : Lexer :=
  if !lexer.inFlow && lexer.indent < column then
    { lexer with
      indent := column
      outerIndents := lexer.indent :: lexer.outerIndents
      tokens := lexer.tokens.insertIdx position token }
  else lexer

/-- The columns of the blocks that stay open at a column, and how many are closed. -/
def closedAt (column : Int) : Int → List Int → Int × List Int × Nat
  | indent, [] => (indent, [], 0)
  | indent, outer :: others =>
      if column < indent then
        let (indent, others, count) := closedAt column outer others
        (indent, others, count + 1)
      else (indent, outer :: others, 0)

def closeBlocks (lexer : Lexer) (column : Int) : Lexer :=
  if lexer.inFlow then lexer
  else
    let (indent, others, count) := closedAt column lexer.indent lexer.outerIndents
    { lexer with
      indent := indent
      outerIndents := others
      tokens := lexer.tokens ++ List.replicate count .blockEnd }

/-- Pass over blanks, comments and line breaks. Tabs count as blanks except where a key may start in a
block; a byte order mark may start a line, and takes a column there. -/
def skipToToken : Nat → Lexer → Lexer
  | 0, lexer => lexer
  | fuel + 1, lexer =>
      let cursor := lexer.cursor
      let cursor :=
        if cursor.column = 0 ∧ cursor.sees '\ufeff' then cursor.advance 1 else cursor
      let tabs := lexer.inFlow || !lexer.keyAllowed
      let cursor := cursor.advanceWhile fun c => c = ' ' || (tabs && c = '\t')
      let cursor := if cursor.sees '#' then cursor.advanceWhile fun c => !isBreak c else cursor
      if cursor.seesBreak then
        skipToToken fuel
          { lexer with
            cursor := cursor.takeBreak.2
            keyAllowed := lexer.keyAllowed || !lexer.inFlow }
      else { lexer with cursor := cursor }

def take (lexer : Lexer) (count : Nat) (token : Token) : Lexer :=
  { lexer with cursor := lexer.cursor.advance count }.emit token

def took (lexer : Lexer) (token : Token) (cursor : Cursor) : Lexer :=
  { lexer with cursor := cursor }.emit token

def openFlow? (lexer : Lexer) (token : Token) : Option Lexer :=
  lexer.saveKey?.map fun lexer =>
    { lexer with
      key := none
      outerKeys := lexer.key :: lexer.outerKeys
      keyAllowed := true }.take 1 token

def closeFlow? (lexer : Lexer) (token : Token) : Option Lexer :=
  lexer.dropKey?.map fun lexer =>
    match lexer.outerKeys with
    | key :: others =>
        { lexer with key := key, outerKeys := others, keyAllowed := false }.take 1 token
    | [] => { lexer with keyAllowed := false }.take 1 token

def flowEntry? (lexer : Lexer) : Option Lexer :=
  lexer.dropKey?.map fun lexer => { lexer with keyAllowed := true }.take 1 .flowEntry

def blockEntry? (lexer : Lexer) : Option Lexer :=
  if !lexer.inFlow && !lexer.keyAllowed then none
  else
    let lexer := lexer.openBlock lexer.cursor.column lexer.tokens.length .blockSequenceStart
    lexer.dropKey?.map fun lexer => { lexer with keyAllowed := true }.take 1 .blockEntry

def key? (lexer : Lexer) : Option Lexer :=
  if !lexer.inFlow && !lexer.keyAllowed then none
  else
    let lexer := lexer.openBlock lexer.cursor.column lexer.tokens.length .blockMappingStart
    lexer.dropKey?.map fun lexer => { lexer with keyAllowed := !lexer.inFlow }.take 1 .key

/-- Read the colon before a value. If a key was possible, it was one. -/
def value? (lexer : Lexer) : Option Lexer :=
  match lexer.key with
  | some key =>
      let lexer := { lexer with tokens := lexer.tokens.insertIdx key.token .key }
      let lexer := lexer.openBlock key.column key.token .blockMappingStart
      some ({ lexer with key := none, keyAllowed := false }.take 1 .value)
  | none =>
      if !lexer.inFlow && !lexer.keyAllowed then none
      else
        let lexer := lexer.openBlock lexer.cursor.column lexer.tokens.length .blockMappingStart
        some ({ lexer with keyAllowed := !lexer.inFlow }.take 1 .value)

/-- Read a token before which a key may start and after which none may. -/
def node? (lexer : Lexer) (read? : Cursor → Option (Token × Cursor)) : Option Lexer :=
  match lexer.saveKey? with
  | some lexer =>
      (read? lexer.cursor).map fun (token, cursor) =>
        { lexer with keyAllowed := false }.took token cursor
  | none => none

def quoted? (lexer : Lexer) (single : Bool) : Option Lexer :=
  lexer.node? fun cursor =>
    (readQuoted? single cursor).map fun (text, cursor) =>
      (.scalar (if single then .singleQuoted else .doubleQuoted) (String.ofList text), cursor)

/-- Read a plain scalar. A line break after it allows a key. -/
def plain? (lexer : Lexer) : Option Lexer :=
  match lexer.saveKey? with
  | some lexer =>
      (readPlain? lexer.inFlow (lexer.indent + 1).toNat lexer.cursor).map
        fun (text, broken, cursor) =>
          { lexer with keyAllowed := broken }.took (.scalar .plain (String.ofList text)) cursor
  | none => none

def block? (lexer : Lexer) (folded : Bool) : Option Lexer :=
  match lexer.dropKey? with
  | some lexer =>
      (readBlock? folded lexer.indent lexer.cursor).map fun (text, cursor) =>
        { lexer with keyAllowed := true }.took
          (.scalar (if folded then .folded else .literal) (String.ofList text)) cursor
  | none => none

/-- Read a token that closes all blocks. -/
def outermost? (lexer : Lexer) (read? : Cursor → Option (Token × Cursor)) : Option Lexer :=
  match (lexer.closeBlocks (-1)).dropKey? with
  | some lexer =>
      (read? lexer.cursor).map fun (token, cursor) =>
        { lexer with keyAllowed := false }.took token cursor
  | none => none

/-- The characters that start no plain scalar. -/
def indicators : List Char :=
  ['-', '?', ':', ',', '[', ']', '\x7b', '\x7d', '#', '&', '*', '!', '|', '>', '\'', '"', '%', '@',
   '\u0060']

def read? (lexer : Lexer) (c : Char) : Option Lexer :=
  let cursor := lexer.cursor
  let next := cursor.peek 1
  if cursor.column = 0 ∧ c = '%' then lexer.outermost? readDirective?
  else if cursor.seesMark '-' then
    lexer.outermost? fun cursor => some (.documentStart, cursor.advance 3)
  else if cursor.seesMark '.' then
    lexer.outermost? fun cursor => some (.documentEnd, cursor.advance 3)
  else if c = '[' then lexer.openFlow? .flowSequenceStart
  else if c = '\x7b' then lexer.openFlow? .flowMappingStart
  else if c = ']' then lexer.closeFlow? .flowSequenceEnd
  else if c = '\x7d' then lexer.closeFlow? .flowMappingEnd
  else if c = ',' then lexer.flowEntry?
  else if c = '-' ∧ endsWord next then lexer.blockEntry?
  else if c = '?' ∧ (lexer.inFlow || endsWord next) then lexer.key?
  else if c = ':' ∧ (lexer.inFlow || endsWord next) then lexer.value?
  else if c = '*' ∨ c = '&' then lexer.node? readAnchorToken?
  else if c = '!' then lexer.node? (readTagToken? lexer.inFlow)
  else if c = '|' ∧ !lexer.inFlow then lexer.block? false
  else if c = '>' ∧ !lexer.inFlow then lexer.block? true
  else if c = '\'' then lexer.quoted? true
  else if c = '"' then lexer.quoted? false
  else if !(endsWord (some c)) ∧ !(indicators.contains c) then lexer.plain?
  else if c = '-' ∧ !(next.any isBlank) then lexer.plain?
  else if !lexer.inFlow ∧ (c = '?' ∨ c = ':') ∧ !(endsWord next) then lexer.plain?
  else none

/-- Read all tokens from here on. Every step passes over a character at least. -/
def run? : Nat → Lexer → Option (List Token)
  | 0, _ => none
  | fuel + 1, lexer =>
      match (skipToToken (lexer.cursor.rest.length + 1) lexer).dropStaleKeys? with
      | none => none
      | some lexer =>
          let lexer := lexer.closeBlocks lexer.cursor.column
          match lexer.cursor.peek 0 with
          | none => (lexer.closeBlocks (-1)).dropKey?.map Lexer.tokens
          | some c =>
              match lexer.read? c with
              | none => none
              | some lexer => run? fuel lexer

end Lexer

def tokens? (text : String) : Option (List Token) :=
  let chars := text.toList
  if chars.all isAllowed then (Lexer.start chars).run? (chars.length + 1) else none

end LanguageGraph.Yaml
