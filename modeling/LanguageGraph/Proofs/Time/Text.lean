/-
# Proofs.Time.Text — times read back

A time that was written is read as itself (`Timestamp.ofText?_text`). Each number of it ends where its
digits end, for a separator, the point or the zone follows (`readNumber?_of_spells`); a year of more than
four digits has its sign; and the fraction lacks only digits that are zeros.
-/
import LanguageGraph.Time.Text
import LanguageGraph.Proofs.Text.Digits

namespace LanguageGraph

set_option autoImplicit false

namespace Date

theorem month_le (date : Date) : date.month ≤ 12 := by
  have bounds := date.day_bounds
  simp only [daysInMonth] at bounds
  grind

theorem day_le (date : Date) : date.day ≤ 31 := by
  have bounds := date.day_bounds
  simp only [daysInMonth] at bounds
  grind

end Date

namespace Timestamp

/-- Digits with which a number may be written. -/
structure Spells (digits : List Char) (value : Nat) : Prop where
  nonempty : digits ≠ []
  value : Text.valueOfDigits? 10 digits = some value

variable {digits rest : List Char} {value count most : Nat} {separator : Char}

theorem spells_paddedDigits (some_digits : 0 < count) (small : value < 10 ^ count) :
    Spells (Text.paddedDigits 10 count value) value where
  nonempty := List.ne_nil_of_length_pos (by simpa using some_digits)
  value := by
    rw [Text.valueOfDigits?_paddedDigits (by decide) (by decide), Nat.mod_eq_of_lt small]

theorem spells_digits (value : Nat) : Spells (Text.digits 10 value) value where
  nonempty := Text.digits_ne_nil 10 value
  value := Text.valueOfDigits?_digits (by decide) (by decide) value

/-! ## Numbers and blanks -/

theorem isBlank_of_isDigit {c : Char} (digit : isDigit c = true) : Text.isBlank c = false := by
  have code := Text.code_of_decimal_digit digit
  rw [Text.isBlank, Bool.eq_false_iff, Ne, Text.Ranges.contains_iff]
  simp [Text.blankRanges]
  omega

theorem skipBlanks_cons (solid : Text.isBlank separator = false) (rest : List Char) :
    Text.skipBlanks (separator :: rest) = separator :: rest := by
  simp [Text.skipBlanks, solid]

namespace Spells

theorem isDigit (spells : Spells digits value) : ∀ c ∈ digits, isDigit c = true :=
  Text.digitOf?_of_value spells.value

theorem skipBlanks (spells : Spells digits value) (rest : List Char) :
    Text.skipBlanks (digits ++ rest) = digits ++ rest := by
  cases digits with
  | nil => exact absurd rfl spells.nonempty
  | cons first others => exact skipBlanks_cons (isBlank_of_isDigit (spells.isDigit first (by simp))) _

theorem takeWhile (spells : Spells digits value) (ends : rest.takeWhile Timestamp.isDigit = []) :
    (digits ++ rest).takeWhile Timestamp.isDigit = digits := by
  rw [List.takeWhile_append_of_pos spells.isDigit, ends, List.append_nil]

theorem number? (spells : Spells digits value) : Text.number? 10 digits = some value := by
  simp [Text.number?, spells.nonempty, spells.value]

/-- All the digits are read, when no more follow. -/
theorem readNumber? (spells : Spells digits value) (short : digits.length ≤ most)
    (ends : rest.takeWhile Timestamp.isDigit = []) :
    readNumber? most (digits ++ rest) = some (value, rest) := by
  simp [Timestamp.readNumber?, spells.takeWhile ends, List.take_of_length_le short, spells.number?]

theorem readLongNumber? (spells : Spells digits value)
    (ends : rest.takeWhile Timestamp.isDigit = []) :
    readLongNumber? (digits ++ rest) = some (value, rest) :=
  spells.readNumber? (by simp) ends

theorem readPart? (spells : Spells digits value) (short : digits.length ≤ 2)
    (ends : rest.takeWhile Timestamp.isDigit = []) (solid : Text.isBlank separator = false) :
    readPart? separator (separator :: (digits ++ rest)) = some (value, rest) := by
  simp [Timestamp.readPart?, skipBlanks_cons solid, spells.skipBlanks, spells.readNumber? short ends]

/-- A year without a sign is one of four digits. -/
theorem readYear? (spells : Spells digits value) (short : digits.length ≤ 4)
    (ends : rest.takeWhile Timestamp.isDigit = []) :
    readYear? (digits ++ rest) = some ((value : Int), rest) := by
  have number := spells.readNumber? short ends
  rw [Timestamp.readYear?, spells.skipBlanks]
  cases digits with
  | nil => exact absurd rfl spells.nonempty
  | cons first others =>
      have digit := spells.isDigit first (by simp)
      split
      · rename_i sign
        rw [(List.cons.inj sign).1] at digit
        exact absurd digit (by decide)
      · rename_i sign
        rw [(List.cons.inj sign).1] at digit
        exact absurd digit (by decide)
      · rw [number]
        rfl

/-- A fraction is counted in units of its last digit. -/
theorem readFraction? (spells : Spells digits value) (short : digits.length ≤ 9)
    (ends : rest.takeWhile Timestamp.isDigit = []) :
    readFraction? ('.' :: (digits ++ rest)) = some (value * 10 ^ (9 - digits.length), rest) := by
  simp [Timestamp.readFraction?, spells.takeWhile ends, List.take_of_length_le short, spells.number?]

end Spells

/-! ## The parts of a written time -/

theorem readYear?_yearText (year : Int) (ends : rest.takeWhile isDigit = []) :
    readYear? (yearText year ++ rest) = some (year, rest) := by
  rw [yearText]
  generalize size : (if year.natAbs < 10000 then Text.paddedDigits 10 4 year.natAbs
      else Text.digits 10 year.natAbs) = digits
  have spells : Spells digits year.natAbs := by
    subst size
    split
    · rename_i few
      exact spells_paddedDigits (by decide) few
    · exact spells_digits year.natAbs
  split
  · rename_i negative
    have signed : (year.natAbs : Int) = -year := by omega
    rw [List.cons_append, Timestamp.readYear?, skipBlanks_cons (by decide)]
    simp [spells.readLongNumber? ends, signed]
  · split
    · rename_i many
      have unsigned : (year.natAbs : Int) = year := by omega
      rw [List.cons_append, Timestamp.readYear?, skipBlanks_cons (by decide)]
      simp only [spells.readLongNumber? ends, Option.map_some, unsigned]
    · have unsigned : (year.natAbs : Int) = year := by omega
      have few : year.natAbs < 10000 := by omega
      rw [if_pos few] at size
      have four : digits.length ≤ 4 := by simp [← size]
      rw [spells.readYear? four ends, unsigned]

/-- Two digits after a separator are a part of the date or of the time. -/
theorem readPart?_two (small : value < 100) (ends : rest.takeWhile isDigit = [])
    (solid : Text.isBlank separator = false) :
    readPart? separator (separator :: (Text.paddedDigits 10 2 value ++ rest)) = some (value, rest) :=
  (spells_paddedDigits (by decide) small).readPart? (by simp) ends solid

theorem readFraction?_fractionText {nanosecond : Nat} (small : nanosecond < 1000000000) :
    readFraction? (fractionText nanosecond ++ ['Z']) = some (nanosecond, ['Z']) := by
  -- Whichever digits are written, those left off are zeros.
  have written : ∀ count unit, 0 < count → count ≤ 9 → unit = 10 ^ (9 - count) →
      nanosecond % unit = 0 → nanosecond / unit < 10 ^ count →
      readFraction? ('.' :: (Text.paddedDigits 10 count (nanosecond / unit) ++ ['Z'])) =
        some (nanosecond, ['Z']) := by
    intro count unit some_digits most is_unit whole fits
    rw [(spells_paddedDigits some_digits fits).readFraction? (by simpa using most) rfl,
      Text.length_paddedDigits, ← is_unit, Nat.div_mul_cancel (Nat.dvd_of_mod_eq_zero whole)]
  rw [fractionText]
  split
  · rename_i zero
    rw [zero]
    rfl
  · split
    · rename_i milli
      exact written 3 1000000 (by decide) (by decide) rfl milli (by omega)
    · split
      · rename_i micro
        exact written 6 1000 (by decide) (by decide) rfl micro (by omega)
      · have nano := written 9 1 (by decide) (by decide) rfl (Nat.mod_one _) (by omega)
        rwa [Nat.div_one] at nano

/-- The zone ends the digits before it, with or without a fraction. -/
theorem takeWhile_fractionText (nanosecond : Nat) :
    (fractionText nanosecond ++ ['Z']).takeWhile isDigit = [] := by
  rw [fractionText]
  split
  · rfl
  · split
    · rfl
    · split <;> rfl

/-- **A written time is read as itself.** -/
@[simp] theorem ofText?_text (time : Timestamp) : ofText? time.text = some time := by
  obtain ⟨hour, minute, second, nanosecond⟩ := time.bounds
  have month := time.date.month_le
  have day := time.date.day_le
  let two := Text.paddedDigits 10 2
  have parts : time.text.toList = yearText time.date.year ++ ('-' :: (two time.date.month ++
      ('-' :: (two time.date.day ++ ('T' :: (two time.hour ++ (':' :: (two time.minute ++
        (':' :: (two time.second ++ (fractionText time.nanosecond ++ ['Z']))))))))))) := by
    simp [text, two]
  have hours : Spells (two time.hour) time.hour := spells_paddedDigits (by decide) (by omega)
  -- Part by part, as they were written.
  rw [ofText?, parts, readYear?_yearText _ rfl, Option.bind_eq_bind, Option.bind_some]
  dsimp only
  rw [readPart?_two (by omega) rfl (by decide), Option.bind_eq_bind, Option.bind_some]
  dsimp only
  rw [readPart?_two (by omega) rfl (by decide), Option.bind_eq_bind, Option.bind_some]
  simp only [readDivider?, true_or, if_true, Option.bind_eq_bind, Option.bind_some]
  rw [hours.skipBlanks, hours.readNumber? (by simp [two]) rfl, Option.bind_some]
  dsimp only
  rw [readPart?_two (by omega) rfl (by decide), Option.bind_some]
  dsimp only
  rw [readPart?_two (by omega) (takeWhile_fractionText _) (by decide), Option.bind_some]
  dsimp only
  rw [readFraction?_fractionText nanosecond, Option.bind_some]
  have zone : readZone? (Text.skipBlanks ['Z']) = some (0, []) := rfl
  have nothing_more : Text.skipBlanks [] = [] := rfl
  simp [zone, nothing_more, Date.of?_self, of?_self, atOffset?_zero]

end Timestamp

end LanguageGraph
