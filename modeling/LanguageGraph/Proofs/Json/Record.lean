/-
# Proofs.Json.Record — what was written into a record is found there

An encoding that can be decoded loses nothing (`Faithful`). Lists and values that may be missing are
encoded as faithfully as what is in them, and an object with known fields is the record of these fields,
with or without a tag in front.

How deep a list or an object nests is told by what is in it (`fits_list`, `fits_object`).
-/
import LanguageGraph.Json.Reader
import LanguageGraph.Json.Record
import Mathlib.Logic.Function.Basic

namespace LanguageGraph.Json

set_option autoImplicit false

variable {α : Type} {encode : α → Json} {decode : Json → Option α} {read : String → Option α}

/-- No value is lost in its JSON. -/
structure Faithful (encode : α → Json) (decode : Json → Option α) (read : String → Option α) :
    Prop where
  /-- What was encoded is decoded as it was. -/
  decoded : ∀ value, decode (encode value) = some value
  /-- Values that differ are encoded differently. -/
  distinct : Function.Injective encode
  /-- A value is read from every text of its JSON. -/
  read : ∀ text value, ofText? text = some (encode value) → read text = some value

theorem faithful_of_decoded (decoded : ∀ value, decode (encode value) = some value)
    (reads : ∀ text value, ofText? text = some (encode value) → read text = some value) :
    Faithful encode decode read where
  decoded := decoded
  distinct first second same :=
    Option.some.inj (by rw [← decoded first, same, decoded second])
  read := reads

/-! ## Lists and missing values -/

@[simp] theorem nat?_nat (value : Nat) : (nat value).nat? = some value := rfl

theorem nat_ne_null (value : Nat) : nat value ≠ null := by
  simp [nat]

theorem list?_list (decoded : ∀ value, decode (encode value) = some value) (values : List α) :
    (list encode values).list? decode = some values := by
  rw [list, list?]
  induction values with
  | nil => rfl
  | cons value values ih => simp [decoded, ih]

theorem nullable?_nullable (decoded : ∀ value, decode (encode value) = some value)
    (given : ∀ value, encode value ≠ null) {record : Record} {name : String} {value : Option α}
    (found : record.fields.lookup name = some (nullable encode value)) :
    record.nullable? name decode = some value := by
  cases value with
  | none => simp [Record.nullable?, found, nullable]
  | some value =>
      rw [Record.nullable?, found, nullable]
      split
      · rename_i is_null
        exact absurd (Option.some.inj is_null) (given value)
      · rename_i other is_value
        rw [← Option.some.inj is_value, decoded]
        rfl
      · rename_i missing
        cases missing

/-! ## Objects -/

/-- An object with known fields, each once, is the record of its fields. -/
theorem record?_object {names : List String} {fields : List (String × Json)}
    (known : ∀ name ∈ fields.map Prod.fst, name ∈ names) (once : (fields.map Prod.fst).Nodup) :
    (object fields).record? names false = some ⟨false, fields⟩ := by
  have all : fields.filter (fun field => field.1 ∈ names) = fields :=
    List.filter_eq_self.2 fun field member => by simpa using known _ (List.mem_map_of_mem member)
  simp [record?, all, once]

/-- A tag is taken from the fields behind it. -/
theorem tagged?_object {tag : String} {value : Json} {fields : List (String × Json)}
    (untagged : tag ∉ fields.map Prod.fst) :
    (object ((tag, value) :: fields)).tagged? tag = some (value, object fields) := by
  have other : ∀ field ∈ fields, field.1 ≠ tag := fun field member is_tag =>
    untagged (is_tag ▸ List.mem_map_of_mem member)
  have none_of_them : fields.filter (fun field => field.1 = tag) = [] :=
    List.filter_eq_nil_iff.2 fun field member => by simpa using other field member
  simpa [tagged?, none_of_them] using fun name value member => other (name, value) member

/-! ## Depth -/

theorem fits_list {depth : Nat} (each : ∀ value, (encode value).fits depth = true)
    (values : List α) : (list encode values).fits (depth + 1) = true := by
  rw [list, fits]
  induction values with
  | nil => rfl
  | cons value values ih => simp [fitsItems, each, ih]

theorem fits_object {depth : Nat} {fields : List (String × Json)}
    (each : ∀ field ∈ fields, field.2.fits depth = true) :
    (object fields).fits (depth + 1) = true := by
  rw [fits]
  induction fields with
  | nil => rfl
  | cons field fields ih =>
      simp only [List.forall_mem_cons] at each
      simp [fitsFields, each.1, ih each.2]

end LanguageGraph.Json
