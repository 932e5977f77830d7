import SimplexTableau.Proofs.Coefficients
import SimplexTableau.Proofs.Expressions
import SimplexTableau.Proofs.Literals

/-!
# Reading sums

A summand is one term: its sign, its literal and its name, with the blanks between them. The name
ends where no word character follows, and the blank before the next sign belongs to no term.
So the terms of a sum are its summands, only blanks are left over, and a sum has no constant.
-/

namespace SimplexTableau.Specification.Written

open SimplexTableau.Text SimplexTableau.Decimal

section Characters

variable {c : Char}

lemma isWord_of_isIdentifierChar (h : isIdentifierChar c = true) : isWord c = true := by
  have hascii : c.toNat < 128 := by
    simp only [isIdentifierChar, Bool.or_eq_true, decide_eq_true_eq] at h
    obtain h | rfl := h
    · have := toNat_of_isAlphanum h
      omega
    · decide
  rw [isWord]
  simp only [hascii, if_true]
  exact h

lemma isBlank_of_isIdentifierChar (h : isIdentifierChar c = true) : isBlank c = false :=
  isBlank_of_isWord (isWord_of_isIdentifierChar h)

lemma isIdentifierChar_of_isNameStart (h : isNameStart c = true) : isIdentifierChar c = true := by
  simp only [isNameStart, Bool.or_eq_true] at h
  simp only [isIdentifierChar, Char.isAlphanum, Bool.or_eq_true]
  tauto

end Characters

namespace Name

variable {n : Name}

lemma isIdentifierChar_of_mem {c : Char} (h : c ∈ n.text) : isIdentifierChar c = true := by
  obtain rfl | h := List.mem_cons.mp h
  · exact isIdentifierChar_of_isNameStart n.isNameStart_first
  · exact List.all_eq_true.mp n.all_rest c h

lemma isName_text (n : Name) : isName n.text = true := by
  rw [text, isName, n.isNameStart_first, Bool.true_and, List.all_eq_true]
  exact fun c hc => isWord_of_isIdentifierChar (List.all_eq_true.mp n.all_rest c hc)

end Name

namespace Summand

variable {s : Summand} {plus gap rest : List Char}

/-- The term that a summand is read as after a sign and a gap. -/
def term (plus gap : List Char) (s : Summand) : Term where
  coefficient := signWith plus s.negative ++ s.literal.text
  name := s.name.text
  width := (signWith plus s.negative ++ gap ++ s.body).length

lemma body_eq_cons (s : Summand) :
    ∃ (d : Fin 10) (cs : List Char), s.body = Nat.digitChar d.val :: cs := by
  obtain ⟨d, cs, h⟩ := s.literal.text_eq_cons
  exact ⟨d, _, by rw [body, h]; rfl⟩

lemma exists_termText (hplus : plus = [] ∧ gap = [] ∨ plus = ['+'] ∧ gap = [' ']) (s : Summand) :
    ∃ t : TermText, t.text = signWith plus s.negative ++ gap ++ s.body ∧
      t.term = s.term plus gap ∧ t.value = s.value ∧ t.mantissa.text ≠ ['.'] := by
  have hsign : plus = [] ∨ plus = ['+'] := hplus.imp And.left And.left
  have hspace : ∀ c ∈ [' '], isBlank c = true := by simp [isBlank, isSpace]
  have hgap : ∀ c ∈ gap, isBlank c = true := by
    obtain ⟨-, rfl⟩ | ⟨-, rfl⟩ := hplus
    · simp
    · exact hspace
  let t : TermText :=
    { sign := signWith plus s.negative
      gap := gap
      mantissa := s.literal.mantissa
      space := [' ']
      name := s.name.text
      isSign := isSign_signWith hsign
      isBlank_gap := hgap
      isBlank_space := hspace
      isName_name := s.name.isName_text }
  have htext : t.text = signWith plus s.negative ++ gap ++ s.body := by
    simp [t, TermText.text, body, Literal.text_mantissa]
  have hdigits := s.literal.digits_mantissa_ne_nil
  have hne : s.literal.mantissa.text ≠ [] := fun h => hdigits (Mantissa.text_eq_nil_iff.mp h).1
  refine ⟨t, htext, ?_, ?_, fun h => hdigits (Mantissa.text_eq_point_iff.mp h).1⟩
  · rw [TermText.term, term, TermText.coefficient, htext, Literal.text_mantissa]
  · rw [TermText.value, if_neg hne, Literal.signed_mantissa hsign, value]

/-- A summand is read as a term if its name ends where it is written. -/
lemma termAt?_eq (hplus : plus = [] ∧ gap = [] ∨ plus = ['+'] ∧ gap = [' '])
    (hrest : ∀ c ∈ rest.head?, isWord c = false) :
    termAt? (signWith plus s.negative ++ gap ++ s.body ++ rest) = some (s.term plus gap) := by
  obtain ⟨t, htext, hterm, -⟩ := s.exists_termText hplus
  rw [← htext, ← hterm, t.termAt?_text hrest]

lemma coefficientValue_term (hplus : plus = [] ∧ gap = [] ∨ plus = ['+'] ∧ gap = [' '])
    (s : Summand) : coefficientValue (s.term plus gap).coefficient = .ok s.value := by
  obtain ⟨t, -, hterm, hvalue, hpoint⟩ := s.exists_termText hplus
  have hcoefficient : t.coefficient = (s.term plus gap).coefficient :=
    congrArg Term.coefficient hterm
  rw [← hcoefficient, t.coefficientValue_eq, if_neg hpoint, hvalue]

lemma termAt?_blank (s : Summand) (rest : List Char) :
    termAt? (' ' :: (signWith ['+'] s.negative ++ rest)) = none := by
  cases s.negative <;> rfl

lemma pieces_eq (hplus : plus = [] ∧ gap = [] ∨ plus = ['+'] ∧ gap = [' '])
    (hrest : ∀ c ∈ rest.head?, isWord c = false) :
    pieces 0 (signWith plus s.negative ++ gap ++ s.body ++ rest) =
      .term (s.term plus gap) :: pieces 0 rest := by
  refine pieces_term ?_ (s.termAt?_eq hplus hrest) rfl
  simp [body]

end Summand

namespace Sum

lemma head?_more (more : List Summand) :
    ∀ c ∈ (more.flatMap Summand.joined).head?, isWord c = false := by
  intro c hc
  cases more with
  | nil => cases hc
  | cons s more =>
    obtain rfl : ' ' = c := by simpa [Summand.joined] using hc
    decide

/-- One term for each summand, with the blanks between them. -/
theorem pieces_text (e : Sum) :
    pieces 0 e.text = .term (e.first.term [] []) ::
      e.more.flatMap fun s => [.stray ' ', .term (s.term ['+'] [' '])] := by
  have hmore : ∀ more : List Summand, pieces 0 (more.flatMap Summand.joined) =
      more.flatMap fun s => [.stray ' ', .term (s.term ['+'] [' '])] := by
    intro more
    induction more with
    | nil => rfl
    | cons s more ih =>
      have hjoined : s.joined ++ more.flatMap Summand.joined =
          ' ' :: (signWith ['+'] s.negative ++ [' '] ++ s.body ++ more.flatMap Summand.joined) := by
        simp [Summand.joined]
      have hblank : termAt? (' ' :: (signWith ['+'] s.negative ++ [' '] ++ s.body ++
          more.flatMap Summand.joined)) = none := by
        simpa using s.termAt?_blank _
      rw [List.flatMap_cons, List.flatMap_cons, hjoined, pieces_stray hblank,
        Summand.pieces_eq (.inr ⟨rfl, rfl⟩) (head?_more _), ih]
      rfl
  have hfirst := e.first.pieces_eq (.inl ⟨rfl, rfl⟩) (head?_more e.more)
  rw [List.append_nil, hmore] at hfirst
  exact hfirst

lemma mem_text {e : Sum} {c : Char} (h : c ∈ e.text) :
    isIdentifierChar c = true ∨ c ∈ ['+', '-', '.', ' '] := by
  have hsign : ∀ {plus negative}, (plus = [] ∨ plus = ['+']) → c ∈ signWith plus negative →
      c ∈ ['+', '-', '.', ' '] := by
    intro plus negative hplus hc
    have := mem_signWith hplus hc
    simp only [List.mem_cons] at this ⊢
    tauto
  have hbody : ∀ {s : Summand}, c ∈ s.body →
      isIdentifierChar c = true ∨ c ∈ ['+', '-', '.', ' '] := by
    intro s hc
    obtain hc | hc := List.mem_append.mp hc
    · exact Literal.forall_text (P := fun c => isIdentifierChar c = true ∨ c ∈ ['+', '-', '.', ' '])
        (by decide) (by decide) c hc
    · obtain rfl | hc := List.mem_cons.mp hc
      · exact .inr (by decide)
      · exact .inl (Name.isIdentifierChar_of_mem hc)
  simp only [text, List.mem_append, List.mem_flatMap] at h
  obtain (h | h) | ⟨s, -, h⟩ := h
  · exact .inr (hsign (.inl rfl) h)
  · exact hbody h
  · obtain h | h := List.mem_append.mp h
    · obtain rfl | h := List.mem_cons.mp h
      · exact .inr (by decide)
      · exact .inr (hsign (.inr rfl) h)
    · obtain rfl | h := List.mem_cons.mp h
      · exact .inr (by decide)
      · exact hbody h

lemma not_mem_text {e : Sum} {c : Char} (h : isIdentifierChar c = false)
    (hmark : c ∉ ['+', '-', '.', ' ']) : c ∉ e.text := by
  intro hc
  obtain hc | hc := mem_text hc
  · rw [h] at hc
    cases hc
  · exact hmark hc

end Sum

lemma isBlank_of_mem_leftOver {ps : List Piece} (h : ∀ c, .stray c ∈ ps → isBlank c = true) :
    ∀ c ∈ leftOver ps, isBlank c = true := by
  intro c hc
  obtain ⟨p, hp, hc⟩ := List.mem_flatMap.mp hc
  cases p with
  | term t =>
    obtain rfl := (List.mem_replicate.mp hc).2
    decide
  | stray d =>
    obtain rfl := List.mem_singleton.mp hc
    exact h c hp

namespace Sum

variable {e : Sum}

lemma sumTerms_pieces : sumTerms (pieces 0 e.text) [] = .ok e.terms := by
  have hmore : ∀ (more : List Summand) (terms : List (String × Float)),
      sumTerms (more.flatMap fun s => [.stray ' ', .term (s.term ['+'] [' '])]) terms =
        .ok (more.foldl (fun terms s => addTerm s.name.string s.value terms) terms) := by
    intro more
    induction more with
    | nil => intro terms; rfl
    | cons s more ih =>
      intro terms
      have hvalue := s.coefficientValue_term (.inr ⟨rfl, rfl⟩)
      rw [List.flatMap_cons, List.cons_append, List.cons_append, List.nil_append, sumTerms,
        sumTerms, hvalue]
      exact ih _
  have hvalue := e.first.coefficientValue_term (.inl ⟨rfl, rfl⟩)
  rw [e.pieces_text, sumTerms, hvalue]
  exact hmore _ _

lemma isBlank_leftOver : ∀ c ∈ leftOver (pieces 0 e.text), isBlank c = true := by
  apply isBlank_of_mem_leftOver
  intro c hc
  rw [e.pieces_text] at hc
  obtain ⟨-, rfl⟩ : (∃ s, s ∈ e.more) ∧ c = ' ' := by simpa using hc
  decide

/-- A sum is read as its collected terms, with no constant. -/
theorem expression?_text (e : Sum) : expression? e.text = .ok ⟨e.terms, 0⟩ := by
  have hfilter : e.text.filter (· ≠ '*') = e.text := by
    refine List.filter_eq_self.mpr fun c hc => decide_eq_true ?_
    rintro rfl
    exact not_mem_text (by decide) (by decide) hc
  have hne : e.terms.isEmpty = false := by simp [terms_ne_nil]
  rw [expression?, hfilter, numbers_of_isBlank isBlank_leftOver, sumTerms_pieces]
  simp only [bind, Except.bind, hne]
  rfl

end Sum

end SimplexTableau.Specification.Written
