import Mathlib
import SimplexTableau.Text.Blank
import SimplexTableau.Text.Digit
import SimplexTableau.Text.Phrase
import SimplexTableau.Text.Word

/-!
# Classes of characters

Digits, blanks and the first characters of names exclude each other, and no blank is a word
character. Neither digits nor blanks are letters in any case.
-/

namespace SimplexTableau.Text

variable {c d : Char}

lemma ne_of_class {p : Char → Bool} (hd : p d = false) (hc : p c = true) : c ≠ d := by
  rintro rfl
  rw [hc] at hd
  cases hd

/-- The intervals in which the codes of the blanks lie. -/
def blankRanges : List (ℕ × ℕ) :=
  [(9, 13), (28, 32), (0x85, 0x85), (0xA0, 0xA0), (0x1680, 0x1680), (0x2000, 0x200A),
    (0x2028, 0x2029), (0x202F, 0x202F), (0x205F, 0x205F), (0x3000, 0x3000)]

lemma exists_range_of_isBlank (h : isBlank c = true) :
    ∃ r ∈ blankRanges, r.1 ≤ c.toNat ∧ c.toNat ≤ r.2 := by
  simp only [isBlank, isSpace, Bool.or_eq_true, Bool.and_eq_true, decide_eq_true_eq] at h
  simp only [blankRanges, List.exists_mem_cons_iff, List.not_mem_nil, false_and, exists_false,
    or_false]
  omega

-- Intervals are compared instead of characters: there are too many pairs of those to decide.
lemma wordRanges_apart :
    ∀ s ∈ wordRanges.toList, ∀ r ∈ blankRanges, r.2 < s.1 ∨ s.2 < r.1 := by
  decide +kernel

lemma zeroDigits_apart : ∀ z ∈ zeroDigits, ∀ r ∈ blankRanges, r.2 < z ∨ z + 10 ≤ r.1 := by
  decide +kernel

lemma toNat_of_isAlpha (h : c.isAlpha = true) :
    65 ≤ c.toNat ∧ c.toNat ≤ 90 ∨ 97 ≤ c.toNat ∧ c.toNat ≤ 122 := by
  simp only [Char.isAlpha, Char.isUpper, Char.isLower, Bool.or_eq_true, Bool.and_eq_true,
    decide_eq_true_eq, UInt32.le_iff_toNat_le, ge_iff_le] at h
  exact h

lemma toNat_of_isAlphanum (h : c.isAlphanum = true) :
    48 ≤ c.toNat ∧ c.toNat ≤ 57 ∨ 65 ≤ c.toNat ∧ c.toNat ≤ 90 ∨
      97 ≤ c.toNat ∧ c.toNat ≤ 122 := by
  obtain h | h := (Bool.or_eq_true _ _).mp h
  · exact .inr (toNat_of_isAlpha h)
  · simp only [Char.isDigit, Bool.and_eq_true, decide_eq_true_eq, UInt32.le_iff_toNat_le,
      ge_iff_le] at h
    exact .inl h

lemma isBlank_of_isWord (h : isWord c = true) : isBlank c = false := by
  by_contra hb
  obtain ⟨r, hr, hlow, hhigh⟩ := exists_range_of_isBlank (by simpa using hb)
  unfold isWord at h
  dsimp only at h
  split_ifs at h with hascii
  · have hfirst : ∀ r ∈ blankRanges, r.2 < 48 ∨ 128 ≤ r.1 := by decide
    have := hfirst r hr
    simp only [Bool.or_eq_true, decide_eq_true_eq] at h
    rcases h with h | rfl
    · have := toNat_of_isAlphanum h
      omega
    · exact absurd hb (by decide)
  · rw [← Array.any_toList, List.any_eq_true] at h
    obtain ⟨s, hs, h⟩ := h
    have := wordRanges_apart s hs r hr
    simp only [Bool.and_eq_true, decide_eq_true_eq] at h
    omega

lemma exists_zero_of_isDigit (h : isDigit c = true) :
    48 ≤ c.toNat ∧ c.toNat ≤ 57 ∨ ∃ z ∈ zeroDigits, z ≤ c.toNat ∧ c.toNat < z + 10 := by
  unfold isDigit digit? at h
  dsimp only at h
  split_ifs at h with hascii hrange
  · exact .inl hrange
  · simp at h
  · rw [Option.isSome_map] at h
    obtain ⟨z, hz⟩ := Option.isSome_iff_exists.mp h
    exact .inr ⟨z, List.mem_of_find?_eq_some hz, by simpa using List.find?_some hz⟩

/-- Digits beyond ASCII come after all letters with more than one case. -/
lemma toNat_of_isDigit (h : isDigit c = true) : 48 ≤ c.toNat ∧ c.toNat ≤ 57 ∨ 0x660 ≤ c.toNat := by
  obtain h | ⟨z, hz, hle, -⟩ := exists_zero_of_isDigit h
  · exact .inl h
  · have hzero : ∀ z ∈ zeroDigits, 0x660 ≤ z := by decide
    exact .inr ((hzero z hz).trans hle)

lemma isBlank_of_isDigit (h : isDigit c = true) : isBlank c = false := by
  by_contra hb
  obtain ⟨r, hr, hlow, hhigh⟩ := exists_range_of_isBlank (by simpa using hb)
  obtain h | ⟨z, hz, hle, hlt⟩ := exists_zero_of_isDigit h
  · have hfirst : ∀ r ∈ blankRanges, r.2 < 48 ∨ 57 < r.1 := by decide
    have := hfirst r hr
    omega
  · have := zeroDigits_apart z hz r hr
    omega

lemma isDigit_of_isBlank (h : isBlank c = true) : isDigit c = false := by
  by_contra hd
  rw [isBlank_of_isDigit (by simpa using hd)] at h
  cases h

lemma isSpace_of_isDigit (h : isDigit c = true) : isSpace c = false :=
  (Bool.or_eq_false_iff.mp (isBlank_of_isDigit h)).1

lemma toNat_of_isNameStart (h : isNameStart c = true) :
    65 ≤ c.toNat ∧ c.toNat ≤ 90 ∨ c.toNat = 95 ∨ 97 ≤ c.toNat ∧ c.toNat ≤ 122 := by
  simp only [isNameStart, Bool.or_eq_true, decide_eq_true_eq] at h
  obtain h | rfl := h
  · have := toNat_of_isAlpha h
    tauto
  · exact .inr (.inl rfl)

lemma isWord_of_isNameStart (h : isNameStart c = true) : isWord c = true := by
  have := toNat_of_isNameStart h
  rw [isWord]
  simp only [show c.toNat < 128 by omega, if_true]
  simp only [isNameStart, Bool.or_eq_true] at h
  simp only [Char.isAlphanum, Bool.or_eq_true]
  tauto

lemma isNameStart_of_isDigit (h : isDigit c = true) : isNameStart c = false := by
  by_contra hc
  have := toNat_of_isNameStart (by simpa using hc)
  have := toNat_of_isDigit h
  omega

lemma isBlank_of_isNameStart (h : isNameStart c = true) : isBlank c = false :=
  isBlank_of_isWord (isWord_of_isNameStart h)

lemma isDigit_of_isNameStart (h : isNameStart c = true) : isDigit c = false := by
  by_contra hd
  rw [isNameStart_of_isDigit (by simpa using hd)] at h
  cases h

lemma toLower_eq_self (h : c.toNat < 65 ∨ 90 < c.toNat) : c.toLower = c := by
  have hupper : ¬ (c.val ≥ 'A'.val ∧ c.val ≤ 'Z'.val) := by
    rintro ⟨hge, hle⟩
    rw [ge_iff_le, UInt32.le_iff_toNat_le] at hge
    rw [UInt32.le_iff_toNat_le] at hle
    have : 'A'.val.toNat = 65 := rfl
    have : 'Z'.val.toNat = 90 := rfl
    have : c.toNat = c.val.toNat := rfl
    omega
  unfold Char.toLower
  exact dif_neg hupper

lemma toLower_of_isDigit (h : isDigit c = true) : c.toLower = c := by
  have := toNat_of_isDigit h
  exact toLower_eq_self (by omega)

lemma sameLetter_of_isDigit (hd : isDigit d = false) (hc : isDigit c = true) :
    sameLetter d c = false := by
  have hcode : ∀ n ∈ [0x130, 0x131, 0x17F, 0x212A], c.toNat ≠ n := by
    have hnone : ∀ n ∈ [0x130, 0x131, 0x17F, 0x212A], isDigit (Char.ofNat n) = false := by decide
    intro n hn hcn
    refine ne_of_class (hnone n hn) hc ?_
    rw [← hcn, Char.ofNat_toNat]
  simp [sameLetter, toLower_of_isDigit hc, ne_of_class hd hc, hcode]

end SimplexTableau.Text
