import SimplexTableau.Proofs.ScannedNumbers
import SimplexTableau.Specification.Reading

/-!
# What an expression is read as

An expression is read as its terms, collected by name, and the sum of the numbers in what is left
when the terms are blanked out. There must be a term, and no coefficient may be a lone point.
Nothing is asked of the characters that belong to neither, so they count no more than blanks.
-/

namespace SimplexTableau.Specification

open SimplexTableau.Text SimplexTableau.Decimal

/-- Among the mantissas that are written, only a lone point has no digit. -/
lemma Mantissa.text_eq_point_iff {m : Mantissa} : m.text = ['.'] ↔ m.digits = [] ∧ m.text ≠ [] := by
  cases hp : m.part with
  | none =>
    have hpoint : m.whole ≠ ['.'] := fun h =>
      absurd (m.isDigit_whole '.' (h ▸ List.mem_cons_self)) (by decide)
    simp [text_of_none hp, digits, decimals, hp, hpoint]
  | some ds => simp [text_of_some hp, digits, decimals, hp, List.append_eq_singleton_iff]

/-- A coefficient has a value unless it is a lone point. -/
theorem TermText.coefficientValue_eq (t : TermText) : coefficientValue t.coefficient =
    if t.mantissa.text = ['.'] then .error (.coefficient (String.ofList t.coefficient))
    else .ok t.value := by
  by_cases hnil : t.mantissa.text = []
  · rw [coefficient, value, hnil, List.append_nil]
    obtain h | h | h := t.isSign <;> rw [h] <;> rfl
  · have hbare : ∀ sign ∈ [[], ['+'], ['-']], t.coefficient ≠ sign := by
      obtain ⟨c, cs, htext⟩ := List.exists_cons_of_ne_nil hnil
      obtain ⟨hplus, hminus⟩ := Mantissa.ne_signs_of_mem_text (htext ▸ List.mem_cons_self)
      rw [coefficient, htext]
      obtain h | h | h := t.isSign <;> simp [h, hplus, hminus]
    simp only [List.forall_mem_cons] at hbare
    obtain ⟨hempty, hplus, hminus, -⟩ := hbare
    rw [coefficientValue, if_neg (by simp [hempty, hplus]), if_neg hminus, coefficient,
      Mantissa.readFloat?_signed t.isSign]
    by_cases hdigits : t.mantissa.digits = []
    · rw [if_pos hdigits, if_pos (Mantissa.text_eq_point_iff.mpr ⟨hdigits, hnil⟩)]
    · rw [if_neg hdigits, if_neg fun h => hdigits (Mantissa.text_eq_point_iff.mp h).1, value,
        if_neg hnil]

/-- The terms of a text, collected by name. -/
def collected (ts : List TermText) : List (String × Float) :=
  ts.foldl (fun terms t => addTerm (String.ofList t.name) t.value terms) []

/-- A text with the terms of its scan blanked out. -/
def blanked (parts : List (TermText ⊕ Char)) : List Char :=
  parts.flatMap (Sum.elim (fun t => List.replicate t.text.length ' ') ([·]))

section Sums

variable {parts : List (TermText ⊕ Char)} {ts : List TermText} {form : List (String × Float)}

lemma foldl_addTerm_ne_nil (h : form ≠ []) :
    ts.foldl (fun terms t => addTerm (String.ofList t.name) t.value terms) form ≠ [] := by
  have hadd : ∀ {name : String} {value : Float} {terms}, addTerm name value terms ≠ [] := by
    rintro name value (_ | ⟨⟨n, v⟩, terms⟩)
    · exact List.cons_ne_nil _ _
    · rw [addTerm]
      split_ifs <;> exact List.cons_ne_nil _ _
  induction ts generalizing form with
  | nil => exact h
  | cons t ts ih => exact ih hadd

lemma collected_eq_nil_iff : collected ts = [] ↔ ts = [] := by
  cases ts with
  | nil => simp [collected]
  | cons t ts =>
    have hfirst : addTerm (String.ofList t.name) t.value [] ≠ [] := List.cons_ne_nil _ _
    simpa [collected] using foldl_addTerm_ne_nil hfirst

lemma sumTerms_eq_ok_iff (acc : List (String × Float)) :
    sumTerms (parts.map TermText.piece) acc = .ok form ↔
      (∀ t ∈ tokens parts, t.mantissa.text ≠ ['.']) ∧
        form = (tokens parts).foldl
          (fun terms t => addTerm (String.ofList t.name) t.value terms) acc := by
  induction parts generalizing acc with
  | nil =>
    rw [List.map_nil, sumTerms, Except.ok.injEq]
    simp [tokens, eq_comm]
  | cons part parts ih =>
    cases part with
    | inr c =>
      have htokens : tokens (.inr c :: parts) = tokens parts := rfl
      rw [htokens, List.map_cons, ← ih]
      rfl
    | inl t =>
      have htokens : tokens (.inl t :: parts) = t :: tokens parts := rfl
      have hpiece : TermText.piece (.inl t) = .term t.term := rfl
      rw [htokens, List.forall_mem_cons, List.foldl_cons, and_assoc, ← ih, List.map_cons, hpiece,
        sumTerms, TermText.term, t.coefficientValue_eq]
      by_cases hpoint : t.mantissa.text = ['.']
      · simp [hpoint, bind, Except.bind]
      · simp [hpoint, bind, Except.bind]

lemma leftOver_pieces : leftOver (parts.map TermText.piece) = blanked parts := by
  rw [leftOver, blanked, List.flatMap_map]
  refine List.flatMap_congr fun part _ => ?_
  cases part <;> rfl

lemma filterMap_numerals (ns : List NumberText) :
    (ns.map NumberText.numeral).filterMap readFloat? = ns.map NumberText.value := by
  rw [List.filterMap_map]
  exact List.filterMap_eq_map_iff_forall_eq_some.mpr fun n _ => n.readFloat?_numeral

end Sums

section Others

variable {cs : List Char}

lemma Scan.isNameStart_others {parts : List (TermText ⊕ Char)} (h : Scan TermText.text cs parts) :
    ∀ c ∈ others parts, isNameStart c = false := by
  refine h.forall_others fun c rest hnone => ?_
  by_contra hc
  have hname : isName [c] = true := by simpa [isName] using hc
  exact hnone ⟨[], [], ⟨[], none, by simp, by simp⟩, [], [c], .inl rfl, by simp, by simp, hname⟩
    ⟨rest, rfl⟩

lemma Scan.isDigit_others {parts : List (NumberText ⊕ Char)} (h : Scan NumberText.text cs parts) :
    ∀ c ∈ others parts, isDigit c = false := by
  refine h.forall_others fun c rest hnone => ?_
  by_contra hc
  exact hnone ⟨[], [], ⟨[c], none, by simpa using hc, by simp⟩, .inl rfl, by simp, by simp,
    by simp⟩ ⟨rest, rfl⟩

end Others

/-- An expression is accepted if it has a term and no coefficient that is a lone point, and then
only its terms and numbers count. No term starts at a character that is passed over, and no number
at one that is passed over when the terms are blanked out; nothing else is asked of them. -/
theorem expression?_eq_ok_iff (text : List Char) :
    ∃ terms numbers, Scan TermText.text (text.filter (· ≠ '*')) terms ∧
      Scan NumberText.text (blanked terms) numbers ∧
      (∀ c ∈ others terms, isNameStart c = false) ∧ (∀ c ∈ others numbers, isDigit c = false) ∧
      ∀ form, expression? text = .ok form ↔
        tokens terms ≠ [] ∧ (∀ t ∈ tokens terms, t.mantissa.text ≠ ['.']) ∧
          form = ⟨collected (tokens terms),
            ((tokens numbers).map NumberText.value).foldl (· + ·) 0⟩ := by
  obtain ⟨terms, hterms⟩ := exists_scan TermText.text_ne_nil (text.filter (· ≠ '*'))
  obtain ⟨nums, hnums⟩ := exists_scan NumberText.text_ne_nil (blanked terms)
  refine ⟨terms, nums, hterms, hnums, hterms.isNameStart_others, hnums.isDigit_others,
    fun form => ?_⟩
  rw [expression?, pieces_of_scan hterms, leftOver_pieces, numbers_of_scan hnums,
    filterMap_numerals]
  simp only [bind, Except.bind]
  cases hsum : sumTerms (terms.map TermText.piece) [] with
  | error fault =>
    have hpoint : ¬ ∀ t ∈ tokens terms, t.mantissa.text ≠ ['.'] := by
      intro h
      have hok : sumTerms (terms.map TermText.piece) [] = .ok (collected (tokens terms)) :=
        (sumTerms_eq_ok_iff []).mpr ⟨h, rfl⟩
      rw [hsum] at hok
      cases hok
    exact iff_of_false (fun h => by cases h) fun h => hpoint h.2.1
  | ok found =>
    obtain ⟨hpoint, rfl⟩ := (sumTerms_eq_ok_iff []).mp hsum
    rw [← collected]
    by_cases hnil : tokens terms = []
    · simp [hnil, collected]
    · have hne : collected (tokens terms) ≠ [] := mt collected_eq_nil_iff.mp hnil
      have hempty : (collected (tokens terms)).isEmpty = false := by simpa using hne
      simp only [hempty]
      rw [if_neg Bool.false_ne_true]
      constructor
      · rintro ⟨⟩
        exact ⟨hnil, hpoint, rfl⟩
      · rintro ⟨-, -, rfl⟩
        rfl

/-- A concatenation of blanks, terms and numbers. -/
inductive Spelled : List Char → Prop where
  | nil : Spelled []
  | blank {c : Char} {rest : List Char} (hc : isBlank c = true) (h : Spelled rest) :
      Spelled (c :: rest)
  | term (t : TermText) {rest : List Char} (h : Spelled rest) : Spelled (t.text ++ rest)
  | number (n : NumberText) {rest : List Char} (h : Spelled rest) : Spelled (n.text ++ rest)

/-- Blanks, digits, word characters, signs and points. -/
def IsPlain (c : Char) : Prop :=
  isBlank c = true ∨ isDigit c = true ∨ isWord c = true ∨ c = '+' ∨ c = '-' ∨ c = '.'

section Characters

variable {cs : List Char} {c : Char}

lemma IsSign.isPlain {sign : List Char} (h : IsSign sign) (hc : c ∈ sign) : IsPlain c := by
  obtain rfl | rfl := h.mem hc <;> simp [IsPlain]

lemma Mantissa.isPlain {m : Mantissa} (hc : c ∈ m.text) : IsPlain c := by
  obtain hc | rfl := mem_text hc
  · exact .inr (.inl hc)
  · simp [IsPlain]

lemma isPlain_of_isName {name : List Char} (h : isName name = true) (hc : c ∈ name) :
    IsPlain c := by
  obtain ⟨d, ds, rfl, hd, hds⟩ := isName_eq_cons h
  obtain rfl | hc := List.mem_cons.mp hc
  · exact .inr (.inr (.inl (isWord_of_isNameStart hd)))
  · exact .inr (.inr (.inl (hds c hc)))

lemma Spelled.isPlain (h : Spelled cs) : ∀ c ∈ cs, IsPlain c := by
  induction h with
  | nil => simp
  | blank hc _ ih => exact List.forall_mem_cons.mpr ⟨.inl hc, ih⟩
  | term t _ ih =>
    intro c hc
    simp only [TermText.text, List.mem_append] at hc
    obtain (hc | hc | hc | hc | hc) | hc := hc
    · exact t.isSign.isPlain hc
    · exact .inl (t.isBlank_gap c hc)
    · exact Mantissa.isPlain hc
    · exact .inl (t.isBlank_space c hc)
    · exact isPlain_of_isName t.isName_name hc
    · exact ih c hc
  | number n _ ih =>
    intro c hc
    simp only [NumberText.text, List.mem_append] at hc
    obtain (hc | hc | hc) | hc := hc
    · exact n.isSign.isPlain hc
    · exact .inl (n.isBlank_gap c hc)
    · exact Mantissa.isPlain hc
    · exact ih c hc

end Characters

/-- An exclamation mark is passed over, and with it an inequality turns into an equation. -/
theorem expression?_exclamation :
    expression? "x !".toList = .ok ⟨[("x", 1)], 0⟩ ∧
      ¬ Spelled ("x !".toList.filter (· ≠ '*')) ∧
      read "max x subject to x != 4" = .ok ⟨.max, [1], [⟨"c1", [1], .eq, 4⟩]⟩ := by
  refine ⟨by rfl, fun h => ?_, by rfl⟩
  have hplain : IsPlain '!' := h.isPlain '!' (by decide)
  exact absurd hplain (by unfold IsPlain; decide)

end SimplexTableau.Specification
