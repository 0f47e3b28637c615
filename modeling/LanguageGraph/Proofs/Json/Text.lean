/-
# Proofs.Json.Text — values read back from their text

What is written without blanks and what is laid out differ in blanks only: before items and fields,
before closing brackets and after colons. Both are cases of one text (`chars`), and that text is read
as the value it was written for, whatever follows (`read_chars`), if the value has nothing in it that
cannot be written (`plain`).

Reading counts its calls. A value takes fewer than two for each of its characters, for every call but
the first sees a character that no other sees.
-/
import LanguageGraph.Proofs.Json.Scalar

namespace LanguageGraph.Json

set_option autoImplicit false

/-! ## Values that can be written -/

mutual

/-- Whether a value is written as what it is: nothing is unreadable, and numbers are natural and of at
most 64 bits. -/
def plain : Json → Bool
  | number (.natural value) => decide (value < Text.wordLimit)
  | number (.other _) => false
  | array items => plainItems items
  | object fields => plainFields fields
  | unreadable => false
  | _ => true

def plainItems : List Json → Bool
  | [] => true
  | item :: items => plain item && plainItems items

def plainFields : List (String × Json) → Bool
  | [] => true
  | (_, value) :: fields => plain value && plainFields fields

end

theorem plain_list {α : Type} {encode : α → Json} {values : List α}
    (each : ∀ value ∈ values, (encode value).plain = true) : (list encode values).plain = true := by
  rw [list, plain]
  induction values with
  | nil => rfl
  | cons value values ih =>
      simp only [List.forall_mem_cons] at each
      simp [plainItems, each.1, ih each.2]

theorem plain_object {fields : List (String × Json)}
    (each : ∀ field ∈ fields, field.2.plain = true) : (object fields).plain = true := by
  rw [plain]
  induction fields with
  | nil => rfl
  | cons field fields ih =>
      simp only [List.forall_mem_cons] at each
      simp [plainFields, each.1, ih each.2]

/-! ## Texts -/

/-- The line break and the blanks before a line at a depth; nothing without a layout. -/
def gap : Option Nat → List Char
  | none => []
  | some depth => (newline depth).toList

/-- The blank after a colon; nothing without a layout. -/
def colonGap : Option Nat → List Char
  | none => []
  | some _ => [' ']

mutual

/-- The characters of a value, laid out at a depth or without blanks. -/
def chars (depth : Option Nat) : Json → List Char
  | array items =>
      '[' :: (itemsChars (depth.map (· + 1)) items ++
        ((if items.isEmpty then [] else gap depth) ++ [']']))
  | object fields =>
      '\x7b' :: (fieldsChars (depth.map (· + 1)) fields ++
        ((if fields.isEmpty then [] else gap depth) ++ ['\x7d']))
  | value => (text value).toList

def itemsChars (depth : Option Nat) : List Json → List Char
  | [] => []
  | item :: items =>
      gap depth ++ (chars depth item ++ ((comma items).toList ++ itemsChars depth items))

def fieldsChars (depth : Option Nat) : List (String × Json) → List Char
  | [] => []
  | (name, value) :: fields =>
      gap depth ++ ((stringText name).toList ++ (':' :: (colonGap depth ++ (chars depth value ++
        ((comma fields).toList ++ fieldsChars depth fields)))))

end

mutual

theorem toList_text (value : Json) : (text value).toList = chars none value := by
  cases value with
  | array items => simp [text, chars, toList_itemsText items, gap]
  | object fields => simp [text, chars, toList_fieldsText fields, gap]
  | _ => simp [chars]

theorem toList_itemsText (items : List Json) : (itemsText items).toList = itemsChars none items := by
  cases items with
  | nil => simp [itemsText, itemsChars]
  | cons item items => simp [itemsText, itemsChars, toList_text item, toList_itemsText items, gap]

theorem toList_fieldsText (fields : List (String × Json)) :
    (fieldsText fields).toList = fieldsChars none fields := by
  cases fields with
  | nil => simp [fieldsText, fieldsChars]
  | cons field fields =>
      obtain ⟨name, value⟩ := field
      simp [fieldsText, fieldsChars, toList_text value, toList_fieldsText fields, gap, colonGap]

end

mutual

theorem toList_layoutAt (depth : Nat) (value : Json) :
    (layoutAt depth value).toList = chars (some depth) value := by
  cases value with
  | array items =>
      cases items <;> simp [layoutAt, chars, itemsChars, toList_layoutItems, gap]
  | object fields =>
      cases fields <;> simp [layoutAt, chars, fieldsChars, toList_layoutFields, gap]
  | _ => simp [layoutAt, chars]

theorem toList_layoutItems (depth : Nat) (items : List Json) :
    (layoutItems depth items).toList = itemsChars (some depth) items := by
  cases items with
  | nil => simp [layoutItems, itemsChars]
  | cons item items =>
      simp [layoutItems, itemsChars, toList_layoutAt depth item, toList_layoutItems depth items, gap]

theorem toList_layoutFields (depth : Nat) (fields : List (String × Json)) :
    (layoutFields depth fields).toList = fieldsChars (some depth) fields := by
  cases fields with
  | nil => simp [layoutFields, fieldsChars]
  | cons field fields =>
      obtain ⟨name, value⟩ := field
      simp [layoutFields, fieldsChars, toList_layoutAt depth value,
        toList_layoutFields depth fields, gap, colonGap]

end

/-! ## Reading -/

/-- Whether a character may stand between the parts of a text. -/
def isSpace (c : Char) : Bool :=
  c = ' ' || c = '\t' || c = '\n' || c = '\r'

theorem isSpace_of_mem_gap {depth : Option Nat} : ∀ c ∈ gap depth, isSpace c = true := by
  cases depth with
  | none => simp [gap]
  | some depth => simp +contextual [gap, newline, isSpace]

theorem isSpace_of_mem_colonGap {depth : Option Nat} : ∀ c ∈ colonGap depth, isSpace c = true := by
  cases depth <;> simp [colonGap, isSpace]

theorem skipSpace_append {blanks : List Char} (blank : ∀ c ∈ blanks, isSpace c = true)
    (text : List Char) : skipSpace (blanks ++ text) = skipSpace text :=
  List.dropWhile_append_of_pos blank

theorem skipSpace_cons {c : Char} (solid : isSpace c = false) (text : List Char) :
    skipSpace (c :: text) = c :: text :=
  List.dropWhile_cons_of_neg (by simpa [isSpace] using solid)

theorem readValue?_append {blanks : List Char} (blank : ∀ c ∈ blanks, isSpace c = true)
    (fuel : Nat) (text : List Char) : readValue? fuel (blanks ++ text) = readValue? fuel text := by
  cases fuel with
  | zero => rfl
  | succ fuel => simp only [readValue?, skipSpace_append blank]

theorem chars_string (depth : Option Nat) (value : String) :
    chars depth (string value) = '"' :: (escapedChars value.toList ++ ['"']) := by
  simp [chars, text, toList_stringText]

theorem chars_nat (depth : Option Nat) (value : Nat) :
    chars depth (nat value) = Text.digits 10 value := by
  simp [nat, chars, text, Number.text, Text.decimal]

/-- A number starts with a digit, as nothing else does. -/
theorem decimal_eq_cons (value : Nat) :
    ∃ c digits, Text.digits 10 value = c :: digits ∧ isDigit c = true := by
  obtain ⟨c, digits, written⟩ := List.exists_cons_of_ne_nil (Text.digits_ne_nil 10 value)
  exact ⟨c, digits, written, isDigit_of_value (valueOfDigits?_decimal value) c (by simp [written])⟩

theorem isSpace_of_isDigit {c : Char} (digit : isDigit c = true) : isSpace c = false := by
  by_contra space
  simp only [isSpace, Bool.not_eq_false, Bool.or_eq_true, decide_eq_true_eq] at space
  rcases space with ((rfl | rfl) | rfl) | rfl <;> exact absurd digit (by decide)

theorem readItems?_append {blanks : List Char} (blank : ∀ c ∈ blanks, isSpace c = true)
    (fuel : Nat) (before : List Json) (text : List Char) :
    readItems? fuel before (blanks ++ text) = readItems? fuel before text := by
  cases fuel with
  | zero => rfl
  | succ fuel => simp only [readItems?, readValue?_append blank]

theorem readFields?_append {blanks : List Char} (blank : ∀ c ∈ blanks, isSpace c = true)
    (fuel : Nat) (before : Option (List (String × Json))) (text : List Char) :
    readFields? fuel before (blanks ++ text) = readFields? fuel before text := by
  cases fuel with
  | zero => rfl
  | succ fuel => simp only [readFields?, skipSpace_append blank]

/-- The text of a value starts with no blank, and with no closing bracket. -/
theorem chars_eq_cons (depth : Option Nat) {value : Json} (plain : value.plain = true) :
    ∃ c text, chars depth value = c :: text ∧ isSpace c = false ∧ c ≠ ']' := by
  cases value with
  | null => exact ⟨_, _, rfl, by decide, by decide⟩
  | bool value => cases value <;> exact ⟨_, _, rfl, by decide, by decide⟩
  | string value => exact ⟨_, _, chars_string depth value, by decide, by decide⟩
  | array items => exact ⟨_, _, rfl, by decide, by decide⟩
  | object fields => exact ⟨_, _, rfl, by decide, by decide⟩
  | unreadable => cases plain
  | number number =>
      cases number with
      | other spelling => cases plain
      | natural value =>
          obtain ⟨c, digits, written, digit⟩ := decimal_eq_cons value
          refine ⟨c, digits, (chars_nat depth value).trans written, isSpace_of_isDigit digit, ?_⟩
          rintro rfl
          exact absurd digit (by decide)

theorem readValue?_digits {value : Nat} (fits : value < Text.wordLimit) {rest : List Char}
    (ends : Ends rest) (fuel : Nat) :
    readValue? (fuel + 1) (Text.digits 10 value ++ rest) = some (nat value, rest) := by
  have spelled := readSpelling?_digits value ends
  obtain ⟨c, digits, written, digit⟩ := decimal_eq_cons value
  rw [readValue?, written, List.cons_append, skipSpace_cons (isSpace_of_isDigit digit)]
  rw [written, List.cons_append] at spelled
  have other : ∀ c' ∈ ['n', 't', 'f', '"', '[', '\x7b'], c ≠ c' := by
    rintro c' member rfl
    simp only [List.mem_cons, List.not_mem_nil, or_false] at member
    rcases member with rfl | rfl | rfl | rfl | rfl | rfl <;> exact absurd digit (by decide)
  simp only [List.mem_cons, List.not_mem_nil, or_false, forall_eq_or_imp, forall_eq] at other
  obtain ⟨n, t, f, quote, bracket, brace⟩ := other
  have number := value_digits fits
  rw [written] at number
  simp [n, t, f, quote, bracket, brace, spelled, number]

/-! ## Reading what was written -/

/-- With so many calls, every value is read from its text. -/
def ReadsValues (fuel : Nat) : Prop :=
  ∀ (value : Json) (depth : Option Nat) (rest : List Char), value.plain = true → Ends rest →
    2 * (chars depth value).length ≤ fuel →
      readValue? fuel (chars depth value ++ rest) = some (value, rest)

/-- With so many calls, all items of an array are read, up to its closing bracket. -/
def ReadsItems (fuel : Nat) : Prop :=
  ∀ (item : Json) (items before : List Json) (depth : Option Nat) (blanks rest : List Char),
    plainItems (item :: items) = true → (∀ c ∈ blanks, isSpace c = true) →
      2 * (itemsChars depth (item :: items)).length + 1 ≤ fuel →
        readItems? fuel before (itemsChars depth (item :: items) ++ (blanks ++ ']' :: rest)) =
          some (array (before.reverse ++ item :: items), rest)

/-- With so many calls, all fields of an object are read, up to its closing brace. -/
def ReadsFields (fuel : Nat) : Prop :=
  ∀ (field : String × Json) (fields before : List (String × Json)) (depth : Option Nat)
    (blanks rest : List Char), plainFields (field :: fields) = true →
      (∀ c ∈ blanks, isSpace c = true) →
      2 * (fieldsChars depth (field :: fields)).length + 1 ≤ fuel →
        readFields? fuel (some before)
            (fieldsChars depth (field :: fields) ++ (blanks ++ '\x7d' :: rest)) =
          some (object (before.reverse ++ field :: fields), rest)

/-- What separates and closes is no part of a number. -/
theorem ends_cons {c : Char} (stop : c ∈ [',', ']', '\x7d']) (rest : List Char) : Ends (c :: rest) := by
  simp only [List.mem_cons, List.not_mem_nil, or_false] at stop
  rcases stop with rfl | rfl | rfl <;> simp [Ends, isDigit]

theorem ends_append {blanks : List Char} (blank : ∀ c ∈ blanks, isSpace c = true) {c : Char}
    (stop : c ∈ [',', ']', '\x7d']) (rest : List Char) : Ends (blanks ++ c :: rest) := by
  cases blanks with
  | nil => exact ends_cons stop rest
  | cons first blanks =>
      have space := blank first List.mem_cons_self
      simp only [isSpace, Bool.or_eq_true, decide_eq_true_eq] at space
      rcases space with ((rfl | rfl) | rfl) | rfl <;> simp [Ends, isDigit]

theorem readsItems_succ {fuel : Nat} (values : ReadsValues fuel) (others : ReadsItems fuel) :
    ReadsItems (fuel + 1) := by
  intro item items before depth blanks rest plain blank enough
  simp only [plainItems, Bool.and_eq_true] at plain
  rw [itemsChars] at enough ⊢
  simp only [List.length_append] at enough
  rw [readItems?, List.append_assoc, readValue?_append isSpace_of_mem_gap]
  cases items with
  | nil =>
      have read := values item depth (blanks ++ ']' :: rest) plain.1
        (ends_append blank (by simp) rest) (by omega)
      simp [itemsChars, comma, read, skipSpace_append blank, skipSpace_cons, isSpace]
  | cons next items =>
      have read := values item depth (',' :: (itemsChars depth (next :: items) ++
        (blanks ++ ']' :: rest))) plain.1 (ends_cons (by simp) _) (by omega)
      have more := others next items (item :: before) depth blanks rest plain.2 blank
        (by simp [comma] at enough; omega)
      simp [comma, read, skipSpace_cons, isSpace, more]

theorem readsFields_succ {fuel : Nat} (values : ReadsValues fuel) (others : ReadsFields fuel) :
    ReadsFields (fuel + 1) := by
  intro field fields before depth blanks rest plain blank enough
  obtain ⟨name, value⟩ := field
  simp only [plainFields, Bool.and_eq_true] at plain
  rw [fieldsChars] at enough ⊢
  simp only [List.length_append, List.length_cons] at enough
  rw [readFields?, List.append_assoc, skipSpace_append isSpace_of_mem_gap, toList_stringText]
  cases fields with
  | nil =>
      have read := values value depth (blanks ++ '\x7d' :: rest) plain.1
        (ends_append blank (by simp) rest) (by omega)
      simp [fieldsChars, comma, skipSpace_cons, isSpace, readString?_stringText,
        readValue?_append isSpace_of_mem_colonGap, read, skipSpace_append blank, objectOf]
  | cons next fields =>
      have read := values value depth (',' :: (fieldsChars depth (next :: fields) ++
        (blanks ++ '\x7d' :: rest))) plain.1 (ends_cons (by simp) _) (by omega)
      have more := others next fields ((name, value) :: before) depth blanks rest plain.2 blank
        (by simp [comma] at enough; omega)
      simp [comma, skipSpace_cons, isSpace, readString?_stringText,
        readValue?_append isSpace_of_mem_colonGap, read, more]

theorem readsValues_succ {fuel : Nat} (items : ReadsItems fuel) (fields : ReadsFields fuel) :
    ReadsValues (fuel + 1) := by
  intro value depth rest plain ends enough
  cases value with
  | null => simp [chars, text, readValue?, skipSpace_cons, isSpace]
  | bool value => cases value <;> simp [chars, text, readValue?, skipSpace_cons, isSpace]
  | string value =>
      simp [chars_string, readValue?, skipSpace_cons, isSpace, readString?_stringText]
  | number number =>
      cases number with
      | other spelling => cases plain
      | natural value =>
          have written : chars depth (number (.natural value)) = Text.digits 10 value := chars_nat depth value
          rw [written]
          exact readValue?_digits (by simpa [Json.plain] using plain) ends fuel
  | unreadable => cases plain
  | array list =>
      rw [chars, List.cons_append, readValue?, skipSpace_cons (by decide)]
      cases list with
      | nil => simp [itemsChars, skipSpace_cons, isSpace]
      | cons item list =>
          simp only [Json.plain] at plain
          have read := items item list [] (depth.map (· + 1)) (gap depth) rest plain
            isSpace_of_mem_gap (by simp [chars] at enough; omega)
          simp only [plainItems, Bool.and_eq_true] at plain
          obtain ⟨c, more, written, solid, other⟩ := chars_eq_cons (depth.map (· + 1)) plain.1
          rw [itemsChars, List.append_assoc, readItems?_append isSpace_of_mem_gap, written] at read
          simpa [itemsChars, written, skipSpace_append isSpace_of_mem_gap, skipSpace_cons solid,
            other] using read
  | object list =>
      rw [chars, List.cons_append, readValue?, skipSpace_cons (by decide)]
      cases list with
      | nil => simp [fieldsChars, skipSpace_cons, isSpace]
      | cons field list =>
          simp only [Json.plain] at plain
          have read := fields field list [] (depth.map (· + 1)) (gap depth) rest plain
            isSpace_of_mem_gap (by simp [chars] at enough; omega)
          rw [fieldsChars, List.append_assoc, readFields?_append isSpace_of_mem_gap,
            toList_stringText] at read
          simpa [fieldsChars, toList_stringText, skipSpace_append isSpace_of_mem_gap, skipSpace_cons,
            isSpace] using read

/-- With two calls for each character, all that was written is read, whatever follows. -/
theorem reads (fuel : Nat) : ReadsValues fuel ∧ ReadsItems fuel ∧ ReadsFields fuel := by
  induction fuel with
  | zero =>
      refine ⟨?_, ?_, ?_⟩
      · intro value depth rest plain ends enough
        obtain ⟨c, more, written, -⟩ := chars_eq_cons depth plain
        simp [written] at enough
      · intro item items before depth blanks rest plain blank enough
        omega
      · intro field fields before depth blanks rest plain blank enough
        omega
  | succ fuel ih =>
      obtain ⟨values, items, fields⟩ := ih
      exact ⟨readsValues_succ items fields, readsItems_succ values items,
        readsFields_succ values fields⟩

theorem ofText?_of_chars {text : String} {value : Json} {depth : Option Nat}
    (written : text.toList = chars depth value) (plain : value.plain = true) :
    ofText? text = some value := by
  have read := (reads (2 * text.toList.length + 2)).1 value depth [] plain (by simp [Ends])
    (by rw [written]; omega)
  rw [List.append_nil, ← written] at read
  simp [ofText?, read, skipSpace]

/-- **A value that can be written is read from its text without blanks.** -/
theorem ofText?_text {value : Json} (plain : value.plain = true) :
    ofText? (text value) = some value :=
  ofText?_of_chars (toList_text value) plain

/-- **A value that can be written is read from its laid out text.** -/
theorem ofText?_layout {value : Json} (plain : value.plain = true) :
    ofText? (layout value) = some value :=
  ofText?_of_chars (toList_layoutAt 0 value) plain

end LanguageGraph.Json
