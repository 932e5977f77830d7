import SimplexTableau.Proofs.Phrases
import SimplexTableau.Proofs.Terms

/-!
# Where a specification is cut

No separator starts at a mark of a sum, and none inside a name that is followed by a blank and by
another character than `t`. So both cuts of a specification leave sums and clauses whole.
-/

namespace SimplexTableau.Specification.Written

open SimplexTableau.Text

/-- The characters of literals, signs and relations, and the blank. -/
def marks : List Char :=
  ['0', '1', '2', '3', '4', '5', '6', '7', '8', '9', '+', '-', '.', ' ', '<', '=', '>']

/-- Separators that leave sums whole. -/
structure Apart (width : Option Char → List Char → ℕ) : Prop where
  mark : ∀ c ∈ marks, ∀ before rest, width before (c :: rest) = 0
  name : ∀ (n : Name) before rest, Resumes rest → Inert width before n.text rest

lemma Name.isWord_text (n : Name) : ∀ c ∈ n.text, isWord c = true :=
  fun _ hc => isWord_of_isIdentifierChar (isIdentifierChar_of_mem hc)

theorem apart_introductionWidth : Apart introductionWidth where
  mark := by
    have h : ∀ c ∈ marks, sameLetter 's' c = false := by simp [marks, sameLetter]
    exact fun c hc before rest => introductionWidth_of_ne (h c hc)
  name := by
    exact fun n before rest hrest => inert_introductionWidth_word n.isWord_text (.inr hrest)

theorem apart_separatorWidth : Apart separatorWidth where
  mark := by
    intro c hc before rest
    have hmarks : ∀ c ∈ marks, c ≠ ',' ∧ c ≠ ';' ∧ sameLetter 'a' c = false := by
      simp [marks, sameLetter]
    obtain ⟨hcomma, hsemicolon, ha⟩ := hmarks c hc
    exact separatorWidth_eq_zero hcomma hsemicolon (by simp [afterPhrase?, ha])
  name := by
    rintro n before _ ⟨d, rest, rfl, -⟩
    exact inert_separatorWidth_word n.isWord_text n.ne_and

lemma resumes_sign (negative : Bool) (rest : List Char) :
    Resumes (' ' :: (signWith ['+'] negative ++ rest)) := by
  cases negative
  · exact ⟨'+', rest, rfl, by decide⟩
  · exact ⟨'-', rest, rfl, by decide⟩

lemma resumes_relation (s : Sign) (rest : List Char) : Resumes (' ' :: (s.text ++ rest)) := by
  cases s <;> exact ⟨_, _, rfl, by decide⟩

lemma resumes_more (ss : List Summand) {rest : List Char} (hrest : Resumes rest) :
    Resumes (ss.flatMap Summand.joined ++ rest) := by
  cases ss with
  | nil => exact hrest
  | cons s ss =>
    have := resumes_sign s.negative (' ' :: (s.body ++ (ss.flatMap Summand.joined ++ rest)))
    simpa [Summand.joined] using this

namespace Apart

variable {width : Option Char → List Char → ℕ} {before : Option Char} {rest : List Char}

lemma marks (h : Apart width) {w : List Char} (hw : ∀ c ∈ w, c ∈ marks) :
    Inert width before w rest :=
  inert_of_forall fun c hc => h.mark c (hw c hc)

lemma literal (h : Apart width) (l : Literal) : Inert width before l.text rest :=
  h.marks (Literal.forall_text (P := (· ∈ Written.marks)) (by simp [Written.marks])
    (by decide +kernel))

lemma sign (h : Apart width) {plus : List Char} (hplus : plus = [] ∨ plus = ['+'])
    (negative : Bool) : Inert width before (signWith plus negative) rest := by
  have hmarks : ∀ c ∈ ['-', '+'], c ∈ Written.marks := by simp [Written.marks]
  exact h.marks fun c hc => hmarks c (mem_signWith hplus hc)

lemma blank (h : Apart width) {w : List Char} (hw : Inert width (some ' ') w rest) :
    Inert width before (' ' :: w) rest :=
  ⟨h.mark ' ' (by simp [Written.marks]) _ _, hw⟩

lemma body (h : Apart width) (s : Summand) (hrest : Resumes rest) :
    Inert width before s.body rest :=
  inert_append.mpr ⟨h.literal _, h.blank (h.name _ _ _ hrest)⟩

lemma more (h : Apart width) (ss : List Summand) (hrest : Resumes rest) :
    Inert width before (ss.flatMap Summand.joined) rest := by
  induction ss generalizing before with
  | nil => trivial
  | cons s ss ih =>
    refine inert_append.mpr ⟨h.blank (inert_append.mpr ⟨h.sign (.inr rfl) _, h.blank ?_⟩), ih⟩
    exact h.body s (resumes_more ss hrest)

/-- A sum is left whole if it is followed by a blank and another character than `t`. -/
lemma sum (h : Apart width) (e : Sum) (hrest : Resumes rest) : Inert width before e.text rest := by
  refine inert_append.mpr ⟨inert_append.mpr ⟨h.sign (.inl rfl) _, ?_⟩, h.more _ hrest⟩
  exact h.body _ (resumes_more _ hrest)

lemma clause (h : Apart width) (c : Clause) : Inert width before c.text rest := by
  have hsign : ∀ s : Sign, ∀ c ∈ s.text, c ∈ Written.marks := by
    rintro (_ | _) <;> simp [Sign.text, Written.marks]
  have hbound : ∀ {before}, Inert width before (' ' :: c.boundText) rest :=
    h.blank (inert_append.mpr ⟨h.sign (.inl rfl) _, h.literal _⟩)
  refine inert_append.mpr ⟨inert_append.mpr ⟨h.sum _ ?_, h.blank (h.marks (hsign _))⟩, hbound⟩
  exact resumes_relation _ _

end Apart

end SimplexTableau.Specification.Written
