import SimplexTableau.Proofs.Expressions

/-!
# Constants on the left

A numeral without a name is found as a number, and there a point counts only between digits. So a
numeral with a digit in front of its point is the same number as a coefficient, as a bound and as a
constant that is moved over to the right. One that starts with its point is not: of the constant,
only the decimals are found, and they are read as a whole number.
-/

namespace SimplexTableau.Specification

open SimplexTableau.Text SimplexTableau.Decimal

section Terms

variable {t : TermText} {cs rest : List Char}

lemma pieces_of_notMem (h : ∀ c ∈ cs, isNameStart c = false) : pieces 0 cs = cs.map .stray := by
  induction cs with
  | nil => rfl
  | cons c cs ih =>
    have hnone : termAt? (c :: cs) = none := by
      rw [Option.eq_none_iff_forall_ne_some]
      intro found hfound
      obtain ⟨u, hu⟩ := exists_of_termAt? hfound
      obtain ⟨d, ds, hname, hd, -⟩ := isName_eq_cons u.isName_name
      have hmem : d ∈ u.text := by simp [TermText.text, hname]
      rw [h d (hu.subset hmem)] at hd
      cases hd
    rw [pieces_stray hnone, ih (List.forall_mem_cons.mp h).2, List.map_cons]

lemma sumTerms_stray (cs : List Char) (terms : List (String × Float)) :
    sumTerms (cs.map .stray) terms = .ok terms := by
  induction cs with
  | nil => rfl
  | cons c cs ih => exact ih

lemma expression?_of_notMem (h : ∀ c ∈ cs, isNameStart c = false) (hstar : ∀ c ∈ cs, c ≠ '*') :
    expression? cs = .error (.noVariables (String.ofList cs)) := by
  have hfilter : cs.filter (· ≠ '*') = cs :=
    List.filter_eq_self.mpr fun c hc => decide_eq_true (hstar c hc)
  rw [expression?, hfilter, pieces_of_notMem h, sumTerms_stray]
  rfl

lemma expression?_term (hpoint : t.mantissa.text ≠ ['.'])
    (hfront : ∀ c ∈ rest.head?, isWord c = false) (hrest : ∀ c ∈ rest, isNameStart c = false)
    (hstar : ∀ c ∈ t.text ++ rest, c ≠ '*') :
    expression? (t.text ++ rest) = .ok ⟨[(String.ofList t.name, 0 + t.value)],
      ((numbers 0 (List.replicate t.text.length ' ' ++ rest)).filterMap readFloat?).foldl
        (· + ·) 0⟩ := by
  have hfilter : (t.text ++ rest).filter (· ≠ '*') = t.text ++ rest :=
    List.filter_eq_self.mpr fun c hc => decide_eq_true (hstar c hc)
  have hpieces : pieces 0 (t.text ++ rest) = .term t.term :: rest.map .stray := by
    rw [pieces_term t.text_ne_nil (t.termAt?_text hfront) rfl, pieces_of_notMem hrest]
  have hleft : leftOver (.term t.term :: rest.map .stray) =
      List.replicate t.text.length ' ' ++ rest := by
    simp [leftOver, List.flatMap_map, TermText.term]
  have hvalue : coefficientValue t.term.coefficient = .ok t.value := by
    rw [TermText.term, t.coefficientValue_eq, if_neg hpoint]
  rw [expression?, hfilter, hpieces, hleft, sumTerms, hvalue]
  simp only [bind, Except.bind, sumTerms_stray]
  rfl

end Terms

namespace Mantissa

variable {m : Mantissa}

/-- The constant that a numeral is taken for: of one that starts with its point, only the decimals
count. -/
def constant (m : Mantissa) : Float :=
  if m.whole = [] then nearestDouble (ofDigits (m.decimals.filterMap digit?)) 0 else m.value

lemma exists_number (h : m.whole ≠ []) : ∃ (n : NumberText) (rest : List Char),
    '+' :: ' ' :: m.text = n.text ++ rest ∧ (rest = [] ∨ rest = ['.']) ∧ n.value = m.value := by
  have hplus : IsSign ['+'] := .inr (.inl rfl)
  have hblank : ∀ c ∈ [' '], isBlank c = true := by simp [isBlank, isSpace]
  by_cases hp : m.part = some []
  · refine ⟨⟨['+'], [' '], ⟨m.whole, none, m.isDigit_whole, by simp⟩, hplus, hblank, h, by simp⟩,
      ['.'], ?_, .inr rfl, ?_⟩
    · simp [NumberText.text, text, hp]
    · simp [NumberText.value, signed, value, digits, decimals, hp]
  · exact ⟨⟨['+'], [' '], m, hplus, hblank, h, hp⟩, [], by simp [NumberText.text], .inl rfl, rfl⟩

lemma numbers_constant (h : m.digits ≠ []) :
    ∃ n : NumberText, numbers 0 ('+' :: ' ' :: m.text) = [n.numeral] ∧ n.value = m.constant := by
  by_cases hwhole : m.whole = []
  · obtain ⟨ds, hp, hne⟩ : ∃ ds, m.part = some ds ∧ ds ≠ [] := by
      cases hp : m.part with
      | none => simp [digits, decimals, hwhole, hp] at h
      | some ds => exact ⟨ds, rfl, by simpa [digits, decimals, hwhole, hp] using h⟩
    have htext : m.text = '.' :: ds := by rw [text_of_some hp, hwhole, List.nil_append]
    let n : NumberText :=
      ⟨[], [], ⟨ds, none, m.isDigit_part ds hp, by simp⟩, .inl rfl, by simp, hne, by simp⟩
    have hpoint : ∀ c ∈ ('.' :: ds).head?, isBlank c = false ∧ isDigit c = false := by
      rintro c ⟨⟩
      decide
    have hsigned : numberAt? ('+' :: ' ' :: '.' :: ds) = none :=
      numberAt?_eq_none fun c hc => (hpoint c hc).2
    have hbare : numberAt? ('.' :: ds) = none := numberAt?_eq_none fun c hc => (hpoint c hc).2
    have hblank : numbers 0 ([' '] ++ '.' :: ds) = numbers 0 ('.' :: ds) :=
      numbers_blanks (by simp [isBlank, isSpace]) hpoint
    have hend : numbers 0 (n.text ++ []) = [n.numeral] := numbers_number_end (.inl rfl)
    refine ⟨n, ?_, ?_⟩
    · rw [htext, numbers_stray hsigned, ← List.singleton_append, hblank, numbers_stray hbare,
        ← hend]
      simp [n, NumberText.text, Mantissa.text]
    · simp [n, NumberText.value, signed, value, constant, hwhole, digits, decimals, hp]
  · obtain ⟨n, rest, htext, hrest, hvalue⟩ := exists_number hwhole
    exact ⟨n, by rw [htext, numbers_number_end hrest], by rw [hvalue, constant, if_neg hwhole]⟩

end Mantissa

section Expressions

variable {name : List Char} {m : Mantissa}

lemma IsPlain.notMem {c : Char} (h : IsPlain c) : c ∉ ['*', '|', '<', '>', '='] := by
  intro hc
  have hnone : ∀ d ∈ ['*', '|', '<', '>', '='], ¬ IsPlain d := by
    simp only [List.forall_mem_cons]
    unfold IsPlain
    refine ⟨by decide, by decide, by decide, by decide, by decide, by simp⟩
  exact hnone c hc h

/-- A name by itself. -/
def TermText.named (name : List Char) (h : isName name = true) : TermText :=
  ⟨[], [], ⟨[], none, by simp, by simp⟩, [], name, .inl rfl, by simp, by simp, h⟩

/-- A numeral, a blank and a name. -/
def TermText.scaled (m : Mantissa) (name : List Char) (h : isName name = true) : TermText :=
  ⟨[], [], m, [' '], name, .inl rfl, by simp, by simp [isBlank, isSpace], h⟩

lemma TermText.isPlain (t : TermText) : ∀ c ∈ t.text, IsPlain c := by
  have := (Spelled.term t .nil).isPlain
  rwa [List.append_nil] at this

lemma numbers_replicate (n : ℕ) : numbers 0 (List.replicate n ' ' ++ []) = [] := by
  rw [List.append_nil]
  refine numbers_of_isBlank fun c hc => ?_
  obtain rfl := (List.mem_replicate.mp hc).2
  decide

lemma expression?_whole (t : TermText) (hpoint : t.mantissa.text ≠ ['.']) :
    expression? t.text = .ok ⟨[(String.ofList t.name, 0 + t.value)], 0⟩ := by
  have hstar : ∀ c ∈ t.text ++ [], c ≠ '*' := by
    rintro c hc rfl
    rw [List.append_nil] at hc
    exact (t.isPlain _ hc).notMem (by decide)
  have := expression?_term hpoint (by simp) (by simp) hstar
  rw [List.append_nil, numbers_replicate] at this
  exact this

theorem expression?_name (h : isName name = true) :
    expression? name = .ok ⟨[(String.ofList name, 1)], 0⟩ := by
  have hone : (0 : Float) + 1 = 1 := by decide +kernel
  have := expression?_whole (.named name h) (by simp [TermText.named, Mantissa.text])
  have hvalue : (TermText.named name h).value = 1 := rfl
  rw [hvalue, hone] at this
  exact this

/-- A numeral in front of a name is read as the double that it denotes. -/
theorem expression?_numeral (hdigits : m.digits ≠ []) (h : isName name = true) :
    expression? (m.text ++ ' ' :: name) = .ok ⟨[(String.ofList name, m.value)], 0⟩ := by
  have hpoint : m.text ≠ ['.'] := fun htext => hdigits (Mantissa.text_eq_point_iff.mp htext).1
  have hne : m.text ≠ [] := fun htext => hdigits (Mantissa.text_eq_nil_iff.mp htext).1
  have := expression?_whole (.scaled m name h) hpoint
  have hvalue : (TermText.scaled m name h).value = m.value := by
    simp [TermText.value, TermText.scaled, hne, Mantissa.signed]
  rw [hvalue, m.unsigned_value.zero_add] at this
  exact this

/-- A numeral behind a name is found as a constant. -/
theorem expression?_constant (hdigits : m.digits ≠ []) (h : isName name = true) :
    expression? (name ++ ' ' :: '+' :: ' ' :: m.text) =
      .ok ⟨[(String.ofList name, 1)], m.constant⟩ := by
  obtain ⟨n, hnumbers, hvalue⟩ := Mantissa.numbers_constant hdigits
  have hone : (0 : Float) + 1 = 1 := by decide +kernel
  have hzero : 0 + m.constant = m.constant := by
    refine Double.Unsigned.zero_add ?_
    unfold Mantissa.constant
    split_ifs
    · exact Double.unsigned_nearestDouble _ _
    · exact m.unsigned_value
  have hrest : ∀ c ∈ ' ' :: '+' :: ' ' :: m.text, IsPlain c ∧ isNameStart c = false := by
    simp only [List.forall_mem_cons]
    refine ⟨⟨.inl (by decide), by decide⟩, ⟨by simp [IsPlain], by decide⟩,
      ⟨.inl (by decide), by decide⟩, fun c hc => ⟨Mantissa.isPlain hc, ?_⟩⟩
    obtain hc | rfl := Mantissa.mem_text hc
    · exact isNameStart_of_isDigit hc
    · decide
  have hstar : ∀ c ∈ (TermText.named name h).text ++ ' ' :: '+' :: ' ' :: m.text, c ≠ '*' := by
    rintro c hc rfl
    obtain hc | hc := List.mem_append.mp hc
    · exact (TermText.isPlain _ _ hc).notMem (by decide)
    · exact (hrest _ hc).1.notMem (by decide)
  have hread := expression?_term (t := .named name h) (by simp [TermText.named, Mantissa.text])
    (by rintro c ⟨⟩; decide) (fun c hc => (hrest c hc).2) hstar
  have hblank : ∀ c ∈ List.replicate (TermText.named name h).text.length ' ' ++ [' '],
      isBlank c = true := by
    simp only [← List.replicate_succ', List.mem_replicate]
    rintro c ⟨-, rfl⟩
    decide
  have hplus : ∀ c ∈ ('+' :: ' ' :: m.text).head?, isBlank c = false ∧ isDigit c = false := by
    rintro c ⟨⟩
    decide
  have hleft := numbers_blanks hblank hplus
  rw [List.append_assoc, List.singleton_append] at hleft
  rw [hleft, hnumbers] at hread
  have hvalue' : (TermText.named name h).value = 1 := rfl
  simp only [hvalue', hone, List.filterMap_cons, n.readFloat?_numeral, List.filterMap_nil,
    List.foldl_cons, List.foldl_nil, hvalue, hzero] at hread
  exact hread

end Expressions

end SimplexTableau.Specification
