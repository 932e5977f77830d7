import SimplexTableau.Proofs.Numerals
import SimplexTableau.Proofs.WrittenSpec

/-!
# Reading literals

A literal is a mantissa in ASCII digits that has a digit in front of its point. So under a sign it
reads as the double nearest to it.
-/

namespace SimplexTableau.Specification.Written

open SimplexTableau.Text SimplexTableau.Decimal

section Digits

variable {ds : List (Fin 10)}

lemma digit?_digitChar (d : Fin 10) : digit? (Nat.digitChar d.val) = some d.val := by
  revert d
  decide

lemma isDigit_of_mem_digitText : ∀ c ∈ digitText ds, isDigit c = true := by
  intro c hc
  obtain ⟨d, -, rfl⟩ := List.mem_map.mp hc
  rw [isDigit, digit?_digitChar]
  rfl

lemma filterMap_digitText : (digitText ds).filterMap digit? = ds.map (·.val) := by
  rw [digitText, List.filterMap_map]
  exact List.filterMap_eq_map_iff_forall_eq_some.mpr fun d _ => digit?_digitChar d

end Digits

section Signs

variable {plus : List Char} {negative : Bool}

lemma isSign_signWith (hplus : plus = [] ∨ plus = ['+']) : IsSign (signWith plus negative) := by
  cases negative
  · exact hplus.imp_right .inl
  · exact .inr (.inr rfl)

lemma signWith_eq_minus_iff (hplus : plus = [] ∨ plus = ['+']) :
    signWith plus negative = ['-'] ↔ negative = true := by
  cases negative <;> obtain rfl | rfl := hplus <;> simp [signWith]

lemma mem_signWith {c : Char} (hplus : plus = [] ∨ plus = ['+'])
    (h : c ∈ signWith plus negative) : c ∈ ['-', '+'] := by
  obtain rfl | rfl := (isSign_signWith hplus).mem h <;> simp

end Signs

namespace Literal

variable {l : Literal} {negative : Bool}

/-- The literal among the numerals in the digits of any script. -/
def mantissa (l : Literal) : Mantissa where
  whole := digitText l.whole
  part := if l.part = [] then none else some (digitText l.part)
  isDigit_whole := isDigit_of_mem_digitText
  isDigit_part := by
    intro ds hds
    split_ifs at hds
    · cases hds
    · obtain rfl := Option.some.inj hds
      exact isDigit_of_mem_digitText

lemma text_mantissa (l : Literal) : l.mantissa.text = l.text := by
  by_cases hp : l.part = [] <;> simp [Mantissa.text, text, mantissa, hp]

lemma decimals_mantissa (l : Literal) : l.mantissa.decimals = digitText l.part := by
  by_cases hp : l.part = [] <;> simp [Mantissa.decimals, mantissa, hp, digitText]

lemma digits_mantissa (l : Literal) : l.mantissa.digits = digitText (l.whole ++ l.part) := by
  rw [Mantissa.digits, decimals_mantissa, mantissa]
  simp only [digitText, List.map_append]

lemma digits_mantissa_ne_nil (l : Literal) : l.mantissa.digits ≠ [] := by
  simp [digits_mantissa, digitText, l.whole_ne_nil]

lemma value_mantissa (l : Literal) : l.mantissa.value = l.value := by
  rw [Mantissa.value, digits_mantissa, filterMap_digitText, decimals_mantissa, digitText,
    List.length_map, value]

lemma signed_mantissa {plus : List Char} (hplus : plus = [] ∨ plus = ['+']) (l : Literal) :
    l.mantissa.signed (signWith plus negative) = l.signed negative := by
  simp only [Mantissa.signed, signed, signWith_eq_minus_iff hplus, value_mantissa]

lemma mem_text {c : Char} (h : c ∈ l.text) : c = '.' ∨ ∃ d : Fin 10, c = Nat.digitChar d.val := by
  unfold text at h
  have hdigit : ∀ {ds}, c ∈ digitText ds → ∃ d : Fin 10, c = Nat.digitChar d.val := by
    intro ds hc
    obtain ⟨d, -, rfl⟩ := List.mem_map.mp hc
    exact ⟨d, rfl⟩
  split_ifs at h with hp
  · exact .inr (hdigit (by simpa using h))
  · rw [List.mem_append, List.mem_cons] at h
    obtain h | h | h := h
    · exact .inr (hdigit h)
    · exact .inl h
    · exact .inr (hdigit h)

lemma forall_text {P : Char → Prop} (hpoint : P '.')
    (hdigit : ∀ d : Fin 10, P (Nat.digitChar d.val)) : ∀ c ∈ l.text, P c := by
  intro c hc
  obtain rfl | ⟨d, rfl⟩ := mem_text hc
  · exact hpoint
  · exact hdigit d

lemma forall_signed {P : Char → Prop} {plus : List Char} (hplus : plus = [] ∨ plus = ['+'])
    (hsign : ∀ c ∈ ['-', '+'], P c) (hpoint : P '.')
    (hdigit : ∀ d : Fin 10, P (Nat.digitChar d.val)) :
    ∀ c ∈ signWith plus negative ++ l.text, P c := by
  intro c hc
  obtain hc | hc := List.mem_append.mp hc
  · exact hsign c (mem_signWith hplus hc)
  · exact forall_text hpoint hdigit c hc

lemma text_eq_cons (l : Literal) :
    ∃ (d : Fin 10) (cs : List Char), l.text = Nat.digitChar d.val :: cs := by
  obtain ⟨d, ds, h⟩ := List.exists_cons_of_ne_nil l.whole_ne_nil
  exact ⟨d, _, by rw [text, h]; rfl⟩

/-- A literal under a minus sign, a plus sign or none reads as its signed value. -/
theorem readFloat?_signed {plus : List Char} (hplus : plus = [] ∨ plus = ['+']) (negative : Bool)
    (l : Literal) : readFloat? (signWith plus negative ++ l.text) = some (l.signed negative) := by
  rw [← text_mantissa, Mantissa.readFloat?_signed (isSign_signWith hplus),
    if_neg l.digits_mantissa_ne_nil, signed_mantissa hplus]

end Literal

end SimplexTableau.Specification.Written
