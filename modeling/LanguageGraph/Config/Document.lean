/-
# Config.Document — settings in a YAML document

Settings are a mapping from names to scalars. A document without content leaves every default. A name
may stand once, and no other names may. The author is any scalar, word for word; whether orphans are
refused is one of six plain words, and the capacity a plain number of at most 64 bits, in decimal
without leading zeros or in hexadecimal, octal or binary.
-/
import LanguageGraph.Config.Basic
import LanguageGraph.Yaml.Node

namespace LanguageGraph

set_option autoImplicit false

namespace Config

/-- Why settings cannot be loaded. -/
inductive LoadError where
  /-- There is no such file. -/
  | notFound
  /-- The file is a directory. -/
  | isADirectory
  /-- The file is not text in UTF-8. -/
  | invalidText
  /-- The text is no YAML document of settings. -/
  | malformed
deriving DecidableEq

/-- The text of a scalar that may stand for something else than itself: a plain one, or a literal block
with the tag of what is expected. -/
def literalText? (expectedTag : String) : Yaml.Node → Option String
  | .scalar _ _ .plain text => some text
  | .scalar _ tag .literal text => if tag = some expectedTag then some text else none
  | _ => none

def readText? : Yaml.Node → Option String
  | .scalar _ _ _ text => some text
  | _ => none

/-- Read one of the words for yes and no. -/
def readBool? (node : Yaml.Node) : Option Bool :=
  match literalText? "tag:yaml.org,2002:bool" node with
  | some "true" => some true
  | some "True" => some true
  | some "TRUE" => some true
  | some "false" => some false
  | some "False" => some false
  | some "FALSE" => some false
  | _ => none

/-- Drop one plus sign. -/
def unsigned : List Char → List Char
  | '+' :: rest => rest
  | text => text

/-- Read a number of at most 64 bits. -/
def numberOf? (text : List Char) : Option Nat :=
  let number? : Option Nat := match unsigned text with
    | '0' :: 'x' :: digits => Text.number? 16 digits
    | '0' :: 'o' :: digits => Text.number? 8 digits
    | '0' :: 'b' :: digits => Text.number? 2 digits
    | '0' :: _ :: _ => none
    | digits => Text.number? 10 digits
  number?.filter fun number => number < Text.wordLimit

def readNumber? (node : Yaml.Node) : Option Nat :=
  (literalText? "tag:yaml.org,2002:int" node).bind fun text => numberOf? text.toList

/-- Read pairs of a document into settings; the names that were read before must not come again. -/
def ofPairs? (document : Yaml.Node) (config : Config) (names : List String) :
    List (Yaml.Node × Yaml.Node) → Option Config
  | [] => some config
  | (key, value) :: pairs => do
      let name ← (document.target? key).bind readText?
      let value ← document.target? value
      let config ←
        if name ∈ names then none
        else
          match name with
          | "default_author" => (readText? value).map fun text => { config with defaultAuthor := text }
          | "reject_orphans" => (readBool? value).map fun bool => { config with rejectOrphans := bool }
          | "history_capacity" =>
              (readNumber? value).map fun number => { config with historyCapacity := number }
          | _ => none
      ofPairs? document config (name :: names) pairs

/-- Read settings from a document. An empty plain scalar is one without settings; an empty one between
quotation marks, or in a block, is not. -/
def ofNode? (document : Yaml.Node) : Option Config :=
  match document with
  | .mapping _ pairs => ofPairs? document default [] pairs
  | .scalar _ _ .plain "" => some default
  | _ => none

def ofYaml (text : String) : Except LoadError Config :=
  match Yaml.Node.ofText? text with
  | none => .error .malformed
  | some none => .ok default
  | some (some node) =>
      match ofNode? node with
      | some config => .ok config
      | none => .error .malformed

/-- What stands at a path. -/
inductive Source where
  | missing
  | directory
  | file (bytes : ByteArray)

def load : Source → Except LoadError Config
  | .missing => .error .notFound
  | .directory => .error .isADirectory
  | .file bytes =>
      match String.fromUTF8? bytes with
      | some text => ofYaml text
      | none => .error .invalidText

end Config

end LanguageGraph
