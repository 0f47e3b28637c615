/-
# Yaml.Node — what a YAML text describes

Tokens describe documents; a text with settings holds at most one. A node is a scalar, a sequence or a
mapping, or an alias of one. What is left out, such as the value after a colon at the end of a line, is
the empty plain scalar.

Anchors count by number. A name that marks a node gets the count of the names that are in use by then,
and an alias has the number that its name has where the alias stands. An alias stands for the last node
of the document with its number (`target?`), in the order in which nodes start. That need not be the
node its name marked: a name used again gets a new number without adding to the names, and the next
name gets that number too.
-/
import LanguageGraph.Yaml.Token

namespace LanguageGraph.Yaml

set_option autoImplicit false

/-- A node of a document; `mark` is the number of the anchor before it. -/
inductive Node where
  | scalar (mark : Option Nat) (tag : Option String) (style : Style) (text : String)
  | sequence (mark : Option Nat) (items : List Node)
  | mapping (mark : Option Nat) (pairs : List (Node × Node))
  | alias (number : Nat)

namespace Node

/-- The scalar that nothing stands for. -/
def blank : Node :=
  scalar none none .plain ""

/-! ## Aliases -/

mutual

/-- The nodes of a document with their numbers, in the order in which they start. -/
def marked : Node → List (Nat × Node)
  | scalar mark tag style text => (mark.map fun number => (number, scalar mark tag style text)).toList
  | sequence mark items =>
      (mark.map fun number => (number, sequence mark items)).toList ++ markedItems items
  | mapping mark pairs =>
      (mark.map fun number => (number, mapping mark pairs)).toList ++ markedPairs pairs
  | .alias _ => []

def markedItems : List Node → List (Nat × Node)
  | [] => []
  | item :: items => marked item ++ markedItems items

/-- The numbered nodes in the pairs of a mapping, each key before its value. -/
def markedPairs : List (Node × Node) → List (Nat × Node)
  | [] => []
  | (key, value) :: pairs => marked key ++ marked value ++ markedPairs pairs

end

/-- What a node of a document stands for: an alias for the last node with its number, any other node
for itself. -/
def target? (document : Node) : Node → Option Node
  | .alias number => document.marked.reverse.lookup number
  | node => some node

/-! ## Reading -/

/-- What is left to read: tokens, and the numbers of the names that anchors gave. -/
structure State where
  tokens : List Token
  numbers : List (String × Nat)

/-- Give the name of an anchor its number: the count of the names in use, itself included if it is one
of them. -/
def State.mark (state : State) : Option String → Option Nat × State
  | some name =>
      let number := state.numbers.length
      (some number,
        { state with numbers := (name, number) :: state.numbers.filter fun (other, _) => other ≠ name })
  | none => (none, state)

/-- The anchor and the tag before a node, in either order, and the tokens after them. -/
def properties : List Token → Option String × Option (String × String) × List Token
  | .anchor name :: .tag handle suffix :: rest => (some name, some (handle, suffix), rest)
  | .anchor name :: rest => (some name, none, rest)
  | .tag handle suffix :: .anchor name :: rest => (some name, some (handle, suffix), rest)
  | .tag handle suffix :: rest => (none, some (handle, suffix), rest)
  | rest => (none, none, rest)

/-- The tag that a handle and a suffix stand for, when the handle is declared. -/
def expand? (handles : List (String × String)) : String × String → Option String
  | ("", suffix) => some suffix
  | (handle, suffix) => (handles.lookup handle).map fun expansion => expansion ++ suffix

/-- Whether a value is left out in a block mapping: the next token belongs to what follows. -/
def leavesOut : List Token → Bool
  | .key :: _ => true
  | .value :: _ => true
  | .blockEnd :: _ => true
  | _ => false

mutual

/-- Read a node; `inBlock` tells whether block collections may stand here, and `unindented` whether the
items of a sequence may stand at the column of the mapping around it. The first argument bounds the
depth of calls. -/
def read? (handles : List (String × String)) :
    Nat → Bool → Bool → State → Option (Node × State)
  | 0, _, _, _ => none
  | fuel + 1, inBlock, unindented, state =>
      match state.tokens with
      | .alias name :: rest =>
          (state.numbers.lookup name).map fun number =>
            (.alias number, { state with tokens := rest })
      | tokens =>
          let (anchor, tag, tokens) := properties tokens
          let (mark, state) := state.mark anchor
          let after (rest : List Token) : State := { state with tokens := rest }
          match tag.mapM (expand? handles) with
          | none => none
          | some tag =>
              match tokens with
              | .scalar style text :: rest =>
                  some (scalar mark tag style text, after rest)
              | .flowSequenceStart :: rest =>
                  (readFlowItems? handles fuel true [] (after rest)).map
                    fun (items, state) => (sequence mark items, state)
              | .flowMappingStart :: rest =>
                  (readFlowPairs? handles fuel true [] (after rest)).map
                    fun (pairs, state) => (mapping mark pairs, state)
              | .blockSequenceStart :: rest =>
                  if inBlock then
                    (readBlockItems? handles fuel true [] (after rest)).map
                      fun (items, state) => (sequence mark items, state)
                  else none
              | .blockMappingStart :: rest =>
                  if inBlock then
                    (readBlockPairs? handles fuel [] (after rest)).map
                      fun (pairs, state) => (mapping mark pairs, state)
                  else none
              | .blockEntry :: _ =>
                  if unindented then
                    (readBlockItems? handles fuel false [] (after tokens)).map
                      fun (items, state) => (sequence mark items, state)
                  else if anchor.isSome || tag.isSome then
                    some (scalar mark tag .plain "", after tokens)
                  else none
              | _ =>
                  if anchor.isSome || tag.isSome then
                    some (scalar mark tag .plain "", after tokens)
                  else none

/-- Read a node, or take it as left out. -/
def readOrBlank? (handles : List (String × String)) :
    Nat → Bool → Bool → Bool → State → Option (Node × State)
  | 0, _, _, _, _ => none
  | fuel + 1, leftOut, inBlock, unindented, state =>
      if leftOut then some (blank, state) else read? handles fuel inBlock unindented state

/-- Read the items of a block sequence after those read before, which come in reverse. A sequence that
is `indented` has an end of its own. -/
def readBlockItems? (handles : List (String × String)) :
    Nat → Bool → List Node → State → Option (List Node × State)
  | 0, _, _, _ => none
  | fuel + 1, indented, items, state =>
      match state.tokens with
      | .blockEntry :: rest =>
          let leftOut := match rest with
            | .blockEntry :: _ => true
            | .blockEnd :: _ => true
            | rest => !indented && leavesOut rest
          match readOrBlank? handles fuel leftOut true false { state with tokens := rest } with
          | some (item, state) => readBlockItems? handles fuel indented (item :: items) state
          | none => none
      | .blockEnd :: rest =>
          if indented then some (items.reverse, { state with tokens := rest })
          else some (items.reverse, state)
      | _ => if indented then none else some (items.reverse, state)

def readBlockPairs? (handles : List (String × String)) :
    Nat → List (Node × Node) → State → Option (List (Node × Node) × State)
  | 0, _, _ => none
  | fuel + 1, pairs, state =>
      match state.tokens with
      | .blockEnd :: rest => some (pairs.reverse, { state with tokens := rest })
      | .key :: rest =>
          match readOrBlank? handles fuel (leavesOut rest) true true { state with tokens := rest } with
          | none => none
          | some (key, state) =>
              match state.tokens with
              | .value :: rest =>
                  match readOrBlank? handles fuel (leavesOut rest) true true
                      { state with tokens := rest } with
                  | some (value, state) => readBlockPairs? handles fuel ((key, value) :: pairs) state
                  | none => none
              | _ => readBlockPairs? handles fuel ((key, blank) :: pairs) state
      | _ => none

/-- Read the items of a flow sequence after those read before, which come in reverse. An item may be a
single pair, which is a mapping. -/
def readFlowItems? (handles : List (String × String)) :
    Nat → Bool → List Node → State → Option (List Node × State)
  | 0, _, _, _ => none
  | fuel + 1, first, items, state =>
      let tokens? : Option (List Token) := match state.tokens, first with
        | .flowSequenceEnd :: _, _ => some state.tokens
        | tokens, true => some tokens
        | .flowEntry :: rest, false => some rest
        | _, false => none
      match tokens? with
      | none => none
      | some (.flowSequenceEnd :: rest) => some (items.reverse, { state with tokens := rest })
      | some (.key :: rest) =>
          let keyLeftOut := match rest with
            | .value :: _ => true
            | .flowEntry :: _ => true
            | .flowSequenceEnd :: _ => true
            | _ => false
          match readOrBlank? handles fuel keyLeftOut false false { state with tokens := rest } with
          | none => none
          | some (key, state) =>
              match state.tokens with
              | .value :: rest =>
                  let valueLeftOut := match rest with
                    | .flowEntry :: _ => true
                    | .flowSequenceEnd :: _ => true
                    | _ => false
                  match readOrBlank? handles fuel valueLeftOut false false
                      { state with tokens := rest } with
                  | some (value, state) =>
                      readFlowItems? handles fuel false (mapping none [(key, value)] :: items) state
                  | none => none
              | _ => readFlowItems? handles fuel false (mapping none [(key, blank)] :: items) state
      | some tokens =>
          match read? handles fuel false false { state with tokens := tokens } with
          | some (item, state) => readFlowItems? handles fuel false (item :: items) state
          | none => none

def readFlowPairs? (handles : List (String × String)) :
    Nat → Bool → List (Node × Node) → State → Option (List (Node × Node) × State)
  | 0, _, _, _ => none
  | fuel + 1, first, pairs, state =>
      let leftOut : List Token → Bool
        | .flowEntry :: _ => true
        | .flowMappingEnd :: _ => true
        | _ => false
      let tokens? : Option (List Token) := match state.tokens, first with
        | .flowMappingEnd :: _, _ => some state.tokens
        | tokens, true => some tokens
        | .flowEntry :: rest, false => some rest
        | _, false => none
      match tokens? with
      | none => none
      | some (.flowMappingEnd :: rest) => some (pairs.reverse, { state with tokens := rest })
      | some (.key :: rest) =>
          let keyLeftOut := match rest with
            | .value :: _ => true
            | rest => leftOut rest
          match readOrBlank? handles fuel keyLeftOut false false { state with tokens := rest } with
          | none => none
          | some (key, state) =>
              match state.tokens with
              | .value :: rest =>
                  match readOrBlank? handles fuel (leftOut rest) false false
                      { state with tokens := rest } with
                  | some (value, state) =>
                      readFlowPairs? handles fuel false ((key, value) :: pairs) state
                  | none => none
              | _ => readFlowPairs? handles fuel false ((key, blank) :: pairs) state
      | some tokens =>
          match read? handles fuel false false { state with tokens := tokens } with
          | some (key, state) => readFlowPairs? handles fuel false ((key, blank) :: pairs) state
          | none => none

end

/-! ## Documents -/

/-- The handles that need no declaration. -/
def knownHandles : List (String × String) :=
  [("!", "!"), ("!!", "tag:yaml.org,2002:")]

/-- Read the directives before a document: at most one version, which must be known, and each handle
once. The handles declared before come first. -/
def readDirectives? (version : Bool) (handles : List (String × String)) :
    List Token → Option (List (String × String) × List Token)
  | .versionDirective major minor :: rest =>
      if !version && major = 1 && (minor = 1 || minor = 2) then readDirectives? true handles rest
      else none
  | .tagDirective handle expansion :: rest =>
      if (handles.lookup handle).isSome then none
      else readDirectives? version ((handle, expansion) :: handles) rest
  | rest => some (handles, rest)

/-- Read the node of a document that starts by a mark, which may be left out. -/
def readMarked? (handles : List (String × String)) (tokens : List Token) :
    Option (Node × List Token) :=
  match tokens with
  | [] => some (blank, [])
  | .versionDirective _ _ :: _ => some (blank, tokens)
  | .tagDirective _ _ :: _ => some (blank, tokens)
  | .documentStart :: _ => some (blank, tokens)
  | .documentEnd :: _ => some (blank, tokens)
  | _ =>
      (read? handles (4 * tokens.length + 4) true false ⟨tokens, []⟩).map fun (node, state) =>
        (node, state.tokens)

/-- Read the first document, when there is one. -/
def readDocument? (tokens : List Token) : Option (Option Node × List Token) :=
  match tokens with
  | [] => some (none, [])
  | .versionDirective _ _ :: _ | .tagDirective _ _ :: _ | .documentStart :: _ =>
      match readDirectives? false [] tokens with
      | some (handles, .documentStart :: rest) =>
          (readMarked? (handles ++ knownHandles) rest).map fun (node, rest) => (some node, rest)
      | _ => none
  | _ =>
      (read? knownHandles (4 * tokens.length + 4) true false ⟨tokens, []⟩).map
        fun (node, state) => (some node, state.tokens)

/-- The node of the one document of a text; none for a text without a document. A text that is not
YAML, or has a second document, has no answer. -/
def ofText? (text : String) : Option (Option Node) := do
  let tokens ← tokens? text
  let (node, rest) ← readDocument? tokens
  if rest.all fun token => token = .documentEnd then some node else none

end Node

end LanguageGraph.Yaml
