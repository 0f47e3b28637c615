/-
# Proofs.Json.Scalar — strings and numbers read back

A string is written piece by piece (`pieceOf`): a control character without a letter of its own becomes
a code unit, every other character stays a character. Both are read as the piece they were written for,
and the pieces together denote the string (`readString?_stringText`).

A natural number of at most 64 bits is read as itself when what follows it could not be a part of it
(`readSpelling?_decimal`): its digits make up the whole significand, which no binary64 is too small for.
-/
import LanguageGraph.Json.Reader
import LanguageGraph.Json.Writer
import LanguageGraph.Proofs.Text.Digits

namespace LanguageGraph.Json

set_option autoImplicit false

variable {c : Char} {rest : List Char}

/-! ## Strings -/

/-- The piece of a string for which a character is written. -/
def pieceOf (c : Char) : StringPart :=
  if c.toNat < 0x20 ∧ c ∉ ['\x08', '\x0c', '\n', '\r', '\t'] then .unit c.toNat else .char c

def escapedChars (chars : List Char) : List Char :=
  chars.flatMap fun c => (escapedChar c).toList

theorem toList_stringText (value : String) :
    (stringText value).toList = '"' :: (escapedChars value.toList ++ ['"']) := by
  have folded : ∀ (chars : List Char) (text : String),
      (chars.foldl (fun text c => text ++ escapedChar c) text).toList =
        text.toList ++ escapedChars chars := by
    intro chars
    induction chars with
    | nil => simp [escapedChars]
    | cons c chars ih => simp [ih, escapedChars]
  simp [stringText, folded]

/-- Four hexadecimal digits are a code unit. -/
theorem readParts?_unit {code : Nat} (small : code < 0x20) (parts : List StringPart)
    (text : List Char) :
    readParts? parts ('\\' :: 'u' :: (Text.paddedDigits 16 4 code ++ text)) =
      readParts? (.unit code :: parts) text := by
  have read := Text.valueOfDigits?_paddedDigits (by decide : 0 < 16) (by decide) 4 code
  rw [Nat.mod_eq_of_lt (by omega)] at read
  simp only [Text.paddedDigits, List.nil_append, List.cons_append] at read ⊢
  rw [readParts?, read]

/-- A character is read as the piece for which it is written. -/
theorem readParts?_escapedChar (parts : List StringPart) (c : Char) (text : List Char) :
    readParts? parts ((escapedChar c).toList ++ text) = readParts? (pieceOf c :: parts) text := by
  by_cases short : c ∈ ['"', '\\', '\x08', '\x0c', '\n', '\r', '\t']
  · simp only [List.mem_cons, List.not_mem_nil, or_false] at short
    rcases short with rfl | rfl | rfl | rfl | rfl | rfl | rfl <;> rfl
  · simp only [List.mem_cons, List.not_mem_nil, or_false, not_or] at short
    obtain ⟨quote, backslash, backspace, feed, line, back, tab⟩ := short
    simp only [escapedChar, pieceOf, quote, backslash, backspace, feed, line, back, tab, if_false,
      List.mem_cons, List.not_mem_nil, or_self, not_false_eq_true, and_true]
    split
    · rename_i control
      simpa using readParts?_unit control parts text
    · rename_i visible
      simp [readParts?, backslash, visible]

theorem readParts?_escapedChars (parts : List StringPart) (chars text : List Char) :
    readParts? parts (escapedChars chars ++ '"' :: text) =
      some (parts.reverse ++ chars.map pieceOf, text) := by
  induction chars generalizing parts with
  | nil => simp [escapedChars, readParts?]
  | cons c chars ih =>
      have first := readParts?_escapedChar parts c (escapedChars chars ++ '"' :: text)
      simp only [escapedChars, List.flatMap_cons, List.append_assoc] at first ih ⊢
      rw [first, ih]
      simp

/-- A code unit outside the surrogates is a character by itself. -/
theorem joinParts?_pieceOf (before : List Char) (c : Char) (parts : List StringPart) :
    joinParts? before (pieceOf c :: parts) = joinParts? (c :: before) parts := by
  rw [pieceOf]
  split
  · rename_i control
    have low : ¬ (0xD800 ≤ c.toNat) := by omega
    have low' : ¬ (0xDC00 ≤ c.toNat) := by omega
    cases parts with
    | nil => simp [joinParts?, low, Char.ofNat_toNat]
    | cons next parts => cases next <;> simp [joinParts?, low, low', Char.ofNat_toNat]
  · simp [joinParts?]

theorem joinParts?_pieces (before chars : List Char) :
    joinParts? before (chars.map pieceOf) = some (before.reverse ++ chars) := by
  induction chars generalizing before with
  | nil => simp [joinParts?]
  | cons c chars ih => simp [joinParts?_pieceOf, ih]

theorem readString?_stringText (value : String) (rest : List Char) :
    readString? (escapedChars value.toList ++ '"' :: rest) = some (some value, rest) := by
  simp [readString?, readParts?_escapedChars, joinParts?_pieces]

/-! ## Numbers -/

/-- What follows a number is no part of it. -/
def Ends (rest : List Char) : Prop :=
  ∀ c ∈ rest.head?, isDigit c = false ∧ c ∉ ['.', 'e', 'E']

theorem isDigit_of_value {digits : List Char} {value : Nat}
    (known : Text.valueOfDigits? 10 digits = some value) : ∀ c ∈ digits, isDigit c = true := by
  intro c member
  have code := Text.code_of_decimal_digit (Text.digitOf?_of_value known c member)
  simp [isDigit, code]

theorem takeDigits?_digits {digits : List Char} {value : Nat} (some_digits : digits ≠ [])
    (known : Text.valueOfDigits? 10 digits = some value) (ends : Ends rest) :
    takeDigits? (digits ++ rest) = some (digits, rest) := by
  have all := isDigit_of_value known
  have stops : rest.takeWhile isDigit = [] ∧ rest.dropWhile isDigit = rest := by
    cases rest with
    | nil => simp
    | cons c rest => simp [(ends c rfl).1]
  rw [takeDigits?, List.takeWhile_append_of_pos all, List.dropWhile_append_of_pos all, stops.1,
    stops.2, List.append_nil]
  simp [some_digits]

theorem valueOfDigits?_decimal (value : Nat) :
    Text.valueOfDigits? 10 (Text.digits 10 value) = some value :=
  Text.valueOfDigits?_digits (by decide) (by decide) value

/-- No number but zero is written with a leading zero. -/
theorem digits_eq_cons {value : Nat} (positive : value ≠ 0) :
    ∃ c digits, Text.digits 10 value = c :: digits ∧ c ≠ '0' := by
  have one_digit : ∀ value < 10, value ≠ 0 → Nat.digitChar value ≠ '0' := by decide
  induction value using Nat.strongRecOn with
  | ind value ih =>
      rw [Text.digits, Nat.toDigits_eq_if (by decide)]
      split
      · rename_i small
        exact ⟨_, [], rfl, one_digit value small positive⟩
      · obtain ⟨c, digits, written, leading⟩ := ih (value / 10) (by omega) (by omega)
        rw [Text.digits] at written
        exact ⟨c, _, by rw [written, List.cons_append], leading⟩

theorem takeWhole?_digits (value : Nat) (ends : Ends rest) :
    takeWhole? (Text.digits 10 value ++ rest) = some (Text.digits 10 value, rest) := by
  by_cases zero : value = 0
  · subst zero
    rfl
  · obtain ⟨c, digits, written, leading⟩ := digits_eq_cons zero
    have all := takeDigits?_digits (Text.digits_ne_nil 10 value) (valueOfDigits?_decimal value) ends
    rw [written, List.cons_append] at all ⊢
    rw [takeWhole?, all]
    simpa using leading

theorem takeFraction?_of_ends (ends : Ends rest) : takeFraction? rest = some (none, rest) := by
  cases rest with
  | nil => rfl
  | cons c rest =>
      have other := (ends c rfl).2
      rw [takeFraction?]
      simp_all

theorem takeExponent?_of_ends (ends : Ends rest) : takeExponent? rest = some (none, rest) := by
  cases rest with
  | nil => rfl
  | cons c rest =>
      have other := (ends c rfl).2
      simp only [List.mem_cons, List.not_mem_nil, or_false, not_or] at other
      simp [takeExponent?, other.2.1, other.2.2]

/-- The spelling of a natural number. -/
theorem readSpelling?_digits (value : Nat) (ends : Ends rest) :
    readSpelling? (Text.digits 10 value ++ rest) =
      some (⟨false, Text.digits 10 value, none, none⟩, rest) := by
  have whole := takeWhole?_digits value ends
  have digit := isDigit_of_value (valueOfDigits?_decimal value)
  obtain ⟨c, digits, written⟩ := List.exists_cons_of_ne_nil (Text.digits_ne_nil 10 value)
  rw [written, List.cons_append] at whole ⊢
  have unsigned : c ≠ '-' := by
    rintro rfl
    exact absurd (digit '-' (by simp [written])) (by decide)
  simp [readSpelling?, unsigned, whole, takeFraction?_of_ends ends, takeExponent?_of_ends ends]

theorem valueOf_digit {c : Char} {value : Nat} (digit : Text.digitOf? 10 c = some value) :
    valueOf [c] = value := by
  simp [valueOf, Text.valueOfDigits?, digit]

theorem appendDigits_concat {significand total : Nat} {digits : List Char} {c : Char}
    (before : appendDigits significand digits = (total, []))
    (fits : total * 10 + valueOf [c] < Text.wordLimit) :
    appendDigits significand (digits ++ [c]) = (total * 10 + valueOf [c], []) := by
  induction digits generalizing significand with
  | nil =>
      obtain ⟨rfl, -⟩ := Prod.mk.inj before
      simp [appendDigits, fits]
  | cons digit digits ih =>
      rw [appendDigits] at before
      split at before
      · rename_i longer
        rw [List.cons_append, appendDigits, if_pos longer]
        exact ih before
      · cases (Prod.mk.inj before).2

/-- All digits of a word are in its significand. -/
theorem appendDigits_of_value {digits : List Char} {value : Nat}
    (known : Text.valueOfDigits? 10 digits = some value) (fits : value < Text.wordLimit) :
    appendDigits 0 digits = (value, []) := by
  induction digits using List.reverseRecOn generalizing value with
  | nil =>
      cases known
      rfl
  | append_singleton digits c ih =>
      rw [Text.valueOfDigits?_concat] at known
      obtain ⟨total, before, last⟩ := Option.bind_eq_some_iff.1 known
      obtain ⟨lowest, digit, rfl⟩ := Option.map_eq_some_iff.1 last
      rw [← valueOf_digit digit] at fits ⊢
      exact appendDigits_concat (ih before (by omega)) fits

theorem rounded_le (value : Nat) : rounded value ≤ 2 * value + 1 := by
  have unit_le : Nat.pow 2 (value.log2 - 52) ≤ value + 1 := by
    by_cases zero : value = 0
    · subst zero
      decide
    · calc
        2 ^ (value.log2 - 52) ≤ 2 ^ value.log2 := Nat.pow_le_pow_right (by decide) (Nat.sub_le _ _)
        _ ≤ value + 1 := Nat.le_succ_of_le (Nat.log2_self_le zero)
  have whole := Nat.div_mul_le_self value (Nat.pow 2 (value.log2 - 52))
  simp only [rounded]
  split
  · rw [Nat.succ_mul]
    omega
  · omega

/-- No word is beyond a binary64. -/
theorem overflows_word {value : Nat} (fits : value < Text.wordLimit) : overflows value 0 = false := by
  have near := rounded_le value
  have one : rounded (Nat.pow 10 0) = 1 := by decide
  have far : 2 * Text.wordLimit < overflowBound := by decide +kernel
  have within : rounded value * rounded (Nat.pow 10 0) < overflowBound := by
    rw [one]
    omega
  simpa [overflows] using within

theorem value_digits {value : Nat} (fits : value < Text.wordLimit) :
    (⟨false, Text.digits 10 value, none, none⟩ : Spelling).value = nat value := by
  have whole := appendDigits_of_value (valueOfDigits?_decimal value) fits
  simp [Spelling.value, whole, appendDigits, overflows_word fits]

end LanguageGraph.Json
