/-
# Proofs.Controller.Codec — an exported history is the history

Whatever an entry records is decoded from its JSON as it was, and so is every list of entries
(`HistoryEntry.ofJson?_toJson`). Then two entries, operations, elements or edge maps that differ have
JSON that differs, and an exported history is replayed as the history is (`json_faithful`).

A text has room for all of that. An operation is four objects and arrays deep, and stands one or two deep
in an export, where a hundred and more may nest; so a value is read from every text that denotes its JSON.
The text that is written denotes it, as long as no number needs more than 64 bits
(`HistoryEntry.InWords`).
-/
import LanguageGraph.Controller.Codec
import LanguageGraph.Controller.Replay
import LanguageGraph.Proofs.Operation.Codec

namespace LanguageGraph

set_option autoImplicit false

@[simp] theorem Warning.ofJson?_toJson (warning : Warning) : ofJson? warning.toJson = some warning := by
  cases warning
  simp [ofJson?, toJson]

namespace HistoryEntry

/-- The fields of an entry besides the stamps, which may be left off. -/
def leadingFields (entry : HistoryEntry) : List (String × Json) :=
  [("sequence", .nat entry.sequence), ("operation", entry.operation.toJson),
   ("author", .string entry.author), ("applied_at", entry.appliedAt.toJson),
   ("warnings", .list Warning.toJson entry.warnings),
   ("compensates", .nullable Json.nat entry.compensates)]

theorem record?_toJson (entry : HistoryEntry) :
    entry.toJson.record? fieldNames false = some ⟨false, entry.leadingFields ++
      Operation.listField "edge_stamps" EdgeStamp.toJson entry.edgeStamps⟩ := by
  apply Json.record?_object
  · cases entry.edgeStamps <;> simp [Operation.listField, fieldNames]
  · cases entry.edgeStamps <;> simp [Operation.listField]

@[simp] theorem ofJson?_toJson (entry : HistoryEntry) : ofJson? entry.toJson = some entry := by
  have undone : (⟨false, entry.leadingFields ++ Operation.listField "edge_stamps" EdgeStamp.toJson
      entry.edgeStamps⟩ : Json.Record).nullable? "compensates" Json.nat? = some entry.compensates :=
    Json.nullable?_nullable Json.nat?_nat Json.nat_ne_null (by simp [leadingFields, List.lookup_cons])
  have listed : (⟨false, entry.leadingFields ++ Operation.listField "edge_stamps" EdgeStamp.toJson
      entry.edgeStamps⟩ : Json.Record).defaulted? "edge_stamps" (Json.list? EdgeStamp.ofJson?) [] =
        some entry.edgeStamps :=
    Operation.defaulted?_listField EdgeStamp.ofJson?_toJson rfl entry.edgeStamps
  rw [ofJson?, record?_toJson]
  simp only [Option.bind_eq_bind, Option.bind_some, undone, listed]
  simp [leadingFields, Json.Record.required?, List.lookup_cons, Json.string?,
    Json.list?_list Warning.ofJson?_toJson]

theorem listOfJson?_listToJson (entries : List HistoryEntry) :
    listOfJson? (listToJson entries) = some entries :=
  Json.list?_list ofJson?_toJson entries

/-- There is room for an entry wherever in an export it stands. -/
theorem ofJsonAt?_toJson {level : Nat} (shallow : level ≤ 122) (entry : HistoryEntry) :
    ofJsonAt? level entry.toJson = some entry := by
  obtain ⟨depth, room⟩ : ∃ depth, Json.nestingLimit - 1 - level = depth + 4 :=
    ⟨122 - level, by simp [Json.nestingLimit]; omega⟩
  rw [ofJsonAt?, record?_toJson, room]
  simp [leadingFields, List.lookup_cons, Operation.fits_toJson]

theorem ofText?_of_json (text : String) (entry : HistoryEntry)
    (denotes : Json.ofText? text = some entry.toJson) : ofText? text = some entry := by
  simp [ofText?, denotes, ofJsonAt?_toJson]

theorem listOfText?_of_json (text : String) (entries : List HistoryEntry)
    (denotes : Json.ofText? text = some (listToJson entries)) : listOfText? text = some entries := by
  simp [listOfText?, denotes, listToJson, Json.list?_list (ofJsonAt?_toJson _)]

/-- Every number in an entry has at most 64 bits. -/
structure InWords (entry : HistoryEntry) : Prop where
  sequence : entry.sequence < Text.wordLimit
  compensates : ∀ target ∈ entry.compensates, target < Text.wordLimit
  named : ∀ stamp ∈ entry.operation.namedStamps, stamp.number < Text.wordLimit
  added : ∀ stamp ∈ entry.edgeStamps, stamp.number < Text.wordLimit

theorem InWords.plain_toJson {entry : HistoryEntry} (words : entry.InWords) :
    entry.toJson.plain = true := by
  have warned : (Json.list Warning.toJson entry.warnings).plain = true :=
    Json.plain_list fun warning _ => by
      cases warning
      simp [Warning.toJson, ElementId.toJson, Json.plain, Json.plainFields]
  have undone : (Json.nullable Json.nat entry.compensates).plain = true := by
    cases target : entry.compensates with
    | none => rfl
    | some target' => simpa [Json.nullable, Json.nat, Json.plain] using words.compensates target' target
  have stamped : (Json.list EdgeStamp.toJson entry.edgeStamps).plain = true :=
    Json.plain_list fun stamp member => by
      simpa [EdgeStamp.toJson, Json.nat, Json.plain] using words.added stamp member
  apply Json.plain_object
  cases listed : entry.edgeStamps <;>
    simp [listed ▸ stamped, Operation.listField, Json.nat, Json.plain, Timestamp.toJson,
      words.sequence, Operation.plain_toJson words.named, warned, undone]

/-- A history that was written is read as it was, with its layout or without blanks. -/
theorem listOfText?_written {entries : List HistoryEntry} (words : ∀ entry ∈ entries, entry.InWords) :
    listOfText? (listToJson entries).layout = some entries ∧
      listOfText? (listToJson entries).text = some entries := by
  have plain : (listToJson entries).plain = true :=
    Json.plain_list fun entry member => (words entry member).plain_toJson
  exact ⟨listOfText?_of_json _ entries (Json.ofText?_layout plain),
    listOfText?_of_json _ entries (Json.ofText?_text plain)⟩

end HistoryEntry

/-- **No JSON loses anything: entries, operations, elements, edge maps and lists of entries are decoded
as they were, also from a text of their JSON, and look different when they are. A history that is written
out is read as it was, and replayed as it would have been.** -/
theorem json_faithful :
    Json.Faithful HistoryEntry.toJson HistoryEntry.ofJson? HistoryEntry.ofText? ∧
      Json.Faithful Operation.toJson Operation.ofJson? Operation.ofText? ∧
      Json.Faithful Element.toJson Element.ofJson? Element.ofText? ∧
      Json.Faithful EdgeMap.toJson EdgeMap.ofJson? EdgeMap.ofText? ∧
      Json.Faithful HistoryEntry.listToJson HistoryEntry.listOfJson? HistoryEntry.listOfText? ∧
      (∀ entries : List HistoryEntry, (∀ entry ∈ entries, entry.InWords) →
        HistoryEntry.listOfText? (HistoryEntry.listToJson entries).layout = some entries ∧
          HistoryEntry.listOfText? (HistoryEntry.listToJson entries).text = some entries) ∧
      ∀ (clock : Nat → Occasion) (config : Config) (entries : List HistoryEntry),
        (HistoryEntry.listOfJson? (HistoryEntry.listToJson entries)).map
            (fun decoded => Controller.replay clock decoded config) =
          some (Controller.replay clock entries config) := by
  refine ⟨Json.faithful_of_decoded HistoryEntry.ofJson?_toJson HistoryEntry.ofText?_of_json,
    Json.faithful_of_decoded Operation.ofJson?_toJson Operation.ofText?_of_json,
    Json.faithful_of_decoded Element.ofJson?_toJson Element.ofText?_of_json,
    Json.faithful_of_decoded EdgeMap.ofJson?_toJson EdgeMap.ofText?_of_json,
    Json.faithful_of_decoded HistoryEntry.listOfJson?_listToJson HistoryEntry.listOfText?_of_json,
    fun entries words => HistoryEntry.listOfText?_written words, ?_⟩
  intro clock config entries
  rw [HistoryEntry.listOfJson?_listToJson, Option.map_some]

/-- A class that nothing holds gets two equal edges to itself, of which the first is taken out again; the
last entry lists an edge type with nothing under it. -/
def HistoryEntry.listWithEveryField : List HistoryEntry :=
  [{ sequence := 1
     operation := .newElement (.clazz ⟨.ofNat 7, "List\n\"\x01"⟩) none (.ofDestinations .typeOf [])
     author := "demo", appliedAt := .epoch
     warnings := [.orphanedElement (.ofNat 7)], compensates := none, edgeStamps := [] },
   { sequence := 2
     operation := .newEdge (.ofNat 7) (.ofDestinations .typeOf [.ofNat 7, .ofNat 7])
     author := "", appliedAt := .epoch
     warnings := [], compensates := none, edgeStamps := [⟨0⟩, ⟨1⟩] },
   { sequence := 3
     operation := .removeEdge (.ofNat 7) (.ofDestinations .typeOf [.ofNat 7]) [⟨0⟩]
     author := "demo", appliedAt := .epoch
     warnings := [], compensates := some 2, edgeStamps := [] },
   { sequence := 4
     operation := .newEdge (.ofNat 7) ⟨[(.typeOf, [])], by decide⟩
     author := "demo", appliedAt := .epoch
     warnings := [], compensates := none, edgeStamps := [] }]

theorem json_faithful_everyField :
    (∀ entry ∈ HistoryEntry.listWithEveryField, entry.InWords) ∧
      HistoryEntry.listOfText? (HistoryEntry.listToJson HistoryEntry.listWithEveryField).layout =
        some HistoryEntry.listWithEveryField := by
  have words : ∀ entry ∈ HistoryEntry.listWithEveryField, entry.InWords := by
    simp only [HistoryEntry.listWithEveryField, List.forall_mem_cons, List.not_mem_nil]
    refine ⟨⟨by decide, ?_, ?_, ?_⟩, ⟨by decide, ?_, ?_, ?_⟩, ⟨by decide, ?_, ?_, ?_⟩,
      ⟨by decide, ?_, ?_, ?_⟩, by simp⟩ <;> simp [Operation.namedStamps, Text.wordLimit]
  exact ⟨words, (json_faithful.2.2.2.2.2.1 _ words).1⟩

end LanguageGraph
