/-
# Proofs.Element.Id — identities read back

An identity that was written is read as itself (`ElementId.ofText?_text`): thirty-two digits, with four
hyphens between them, are told from the other spellings by their number alone.
-/
import LanguageGraph.Element.Id
import LanguageGraph.Proofs.Text.Digits

namespace LanguageGraph.ElementId

set_option autoImplicit false

theorem ofNat_toNat (id : ElementId) : ofNat id.toNat = id := by
  simp [ofNat, toNat]

theorem length_hyphenate {digits : List Char} (all : digits.length = 32) :
    (hyphenate digits).length = 36 := by
  simp [hyphenate, all]

/-- What is left without the hyphens are the digits between which they were put. -/
theorem unhyphenate?_hyphenate {digits : List Char} (all : digits.length = 32) :
    unhyphenate? (hyphenate digits) = some digits := by
  have joined (first count : Nat) : (digits.drop first).take count ++ digits.drop (first + count) =
      digits.drop first := by
    rw [← List.drop_drop, List.take_append_drop]
  have groups : (hyphenate digits).take 8 ++ ((hyphenate digits).drop 9).take 4 ++
      ((hyphenate digits).drop 14).take 4 ++ ((hyphenate digits).drop 19).take 4 ++
      (hyphenate digits).drop 24 = digits := by
    simp [hyphenate, List.drop_append, List.drop_take, all]
    rw [joined 16 4, joined 12 4, joined 8 4, List.take_append_drop]
  simp only [unhyphenate?, groups]
  exact if_pos ⟨length_hyphenate all, trivial⟩

theorem ofDigits?_paddedDigits (id : ElementId) :
    ofDigits? (Text.paddedDigits 16 32 id.toNat) = some id := by
  have whole : id.toNat % 16 ^ 32 = id.toNat := Nat.mod_eq_of_lt id.bits.isLt
  rw [ofDigits?, if_pos (Text.length_paddedDigits 16 32 id.toNat),
    Text.valueOfDigits?_paddedDigits (by decide) (by decide), whole, Option.map_some, ofNat_toNat]

/-- **A written identity is read as itself.** -/
@[simp] theorem ofText?_text (id : ElementId) : ofText? id.text = some id := by
  have all := Text.length_paddedDigits 16 32 id.toNat
  have length := length_hyphenate all
  simp only [ofText?, text, String.toList_ofList, length]
  rw [ofHyphenated?, unhyphenate?_hyphenate all, Option.bind_some, ofDigits?_paddedDigits]

end LanguageGraph.ElementId
