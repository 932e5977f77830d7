import SimplexTableau.Proofs.Characters
import SimplexTableau.Proofs.Cutting
import SimplexTableau.Specification.Reading

/-!
# Where phrases are found

A phrase is not found where one of its characters is missing, and it does not go on behind a blank
that another letter follows than in the phrase. So the constraints are not introduced inside a name:
its last letters may well be the first word of a phrase, but the second word starts with `t`. A name
is no separator unless it is `and` itself, since a word goes on behind the letters of `and`.
-/

namespace SimplexTableau.Specification

open SimplexTableau.Text

section Letters

variable {c p : Char}

lemma isWord_toLower (h : isWord c = true) : isWord c.toLower = true := by
  by_cases hascii : c.toNat < 128
  · have hall : ∀ n < 128, isWord (Char.ofNat n) = true → isWord (Char.ofNat n).toLower = true := by
      decide +kernel
    have := hall c.toNat hascii
    rw [Char.ofNat_toNat] at this
    exact this h
  · rwa [toLower_eq_self (.inr (by omega))]

lemma sameLetter_of_isWord (hp : isWord p = false) (hc : isWord c = true) :
    sameLetter p c = false := by
  have hlower : c.toLower ≠ p := by
    rintro rfl
    rw [isWord_toLower hc] at hp
    cases hp
  have hletters : p ≠ 'i' ∧ p ≠ 's' ∧ p ≠ 'k' := by
    refine ⟨?_, ?_, ?_⟩ <;> rintro rfl <;> exact absurd hp (by decide)
  simp [sameLetter, hlower, hletters]

lemma sameLetter_and {letter : Char} (h : letter ∈ ['a', 'n', 'd']) (c : Char) :
    sameLetter letter c = decide (c.toLower = letter) := by
  simp only [List.mem_cons, List.not_mem_nil, or_false] at h
  obtain rfl | rfl | rfl := h <;> simp [sameLetter]

end Letters

section Phrases

variable {ps w text rest : List Char} {before : Option Char} {c d p : Char}

lemma afterPhrase?_of_mem (hp : p ∈ ps) (h : ∀ c ∈ text, sameLetter p c = false) :
    afterPhrase? ps text = none := by
  induction ps generalizing text with
  | nil => cases hp
  | cons q ps ih =>
    cases text with
    | nil => rfl
    | cons c text =>
      obtain ⟨hc, htext⟩ := List.forall_mem_cons.mp h
      obtain rfl | hp := List.mem_cons.mp hp
      · simp [afterPhrase?, hc]
      · simp [afterPhrase?, ih hp htext]

/-- Blanks of the phrase are followed by other letters than `d`, and it does not end in one. -/
def Breaks (d : Char) : List Char → Prop
  | [] => True
  | [p] => sameLetter p ' ' = false
  | p :: q :: ps => (sameLetter p ' ' = false ∨ sameLetter q d = false) ∧ Breaks d (q :: ps)

/-- A phrase that is not found in a text does not go on behind it. -/
lemma afterPhrase?_append (hps : Breaks d ps) (h : afterPhrase? ps text = none) :
    afterPhrase? ps (text ++ ' ' :: d :: rest) = none := by
  induction ps generalizing text with
  | nil => cases h
  | cons p ps ih =>
    cases text with
    | nil =>
      cases ps with
      | nil => simp [afterPhrase?, show sameLetter p ' ' = false from hps]
      | cons q ps =>
        obtain hp | hq := hps.1
        · simp [afterPhrase?, hp]
        · simp [afterPhrase?, hq]
    | cons c text =>
      have hrest : Breaks d ps := by
        cases ps with
        | nil => trivial
        | cons q ps => exact hps.2
      simp only [List.cons_append, afterPhrase?] at h ⊢
      split_ifs at h ⊢
      · exact ih hrest h
      · rfl

/-- The phrases that introduce the constraints. -/
def introductions : List String :=
  ["subject to", "such that", "s.t."]

lemma firstPhrase?_eq_none {phrases : List String} :
    firstPhrase? phrases text = none ↔
      ∀ phrase ∈ phrases, afterPhrase? phrase.toList text = none := by
  simp [firstPhrase?, List.findSome?_eq_none_iff]

lemma introductionWidth_eq_zero_iff :
    introductionWidth before text = 0 ↔ firstPhrase? introductions text = none := by
  rw [introductionWidth, ← introductions]
  cases hfound : firstPhrase? introductions text with
  | none => simp
  | some found =>
    obtain ⟨phrase, hphrase, hafter⟩ := List.exists_of_findSome?_eq_some hfound
    obtain ⟨after, -, rfl⟩ := Option.map_eq_some_iff.mp hafter
    have hlength : ∀ phrase ∈ introductions, phrase.length ≠ 0 := by decide
    simpa using hlength phrase hphrase

lemma introductionWidth_of_ne (h : sameLetter 's' c = false) :
    introductionWidth before (c :: rest) = 0 := by
  refine introductionWidth_eq_zero_iff.mpr (firstPhrase?_eq_none.mpr ?_)
  simp [introductions, afterPhrase?, h]

/-- A blank and then another character than `t`. -/
def Resumes (text : List Char) : Prop :=
  ∃ d rest, text = ' ' :: d :: rest ∧ sameLetter 't' d = false

lemma firstPhrase?_append (hrest : rest = [] ∨ Resumes rest)
    (h : firstPhrase? introductions text = none) :
    firstPhrase? introductions (text ++ rest) = none := by
  obtain rfl | ⟨d, more, rfl, hd⟩ := hrest
  · rwa [List.append_nil]
  · have hletter : d.toLower ≠ 't' := by simpa [sameLetter] using hd
    have hbreaks : ∀ phrase ∈ introductions, Breaks d phrase.toList := by
      simp [introductions, Breaks, sameLetter, hletter]
    rw [firstPhrase?_eq_none] at h ⊢
    exact fun phrase hphrase => afterPhrase?_append (hbreaks phrase hphrase) (h phrase hphrase)

/-- Every phrase has a character that is no word character. -/
lemma firstPhrase?_word (hw : ∀ c ∈ w, isWord c = true) : firstPhrase? introductions w = none := by
  have hmissing : ∀ phrase ∈ introductions, ∃ p ∈ phrase.toList, isWord p = false := by
    simp only [introductions, List.forall_mem_cons]
    exact ⟨⟨' ', by decide, by decide⟩, ⟨' ', by decide, by decide⟩, ⟨'.', by decide, by decide⟩,
      by simp⟩
  refine firstPhrase?_eq_none.mpr fun phrase hphrase => ?_
  obtain ⟨p, hp, hpw⟩ := hmissing phrase hphrase
  exact afterPhrase?_of_mem hp fun c hc => sameLetter_of_isWord hpw (hw c hc)

/-- Where the letters of `and` stand, they are no separator if a word goes on. -/
lemma separatorWidth_eq_zero (hcomma : c ≠ ',') (hsemicolon : c ≠ ';')
    (h : ∀ after ∈ afterPhrase? ['a', 'n', 'd'] (c :: rest),
      (before.any isWord || after.head?.any isWord) = true) :
    separatorWidth before (c :: rest) = 0 := by
  unfold separatorWidth
  split
  · next heq => exact absurd (List.cons.inj heq).1 hcomma
  · next heq => exact absurd (List.cons.inj heq).1 hsemicolon
  · split
    · next after hafter => rw [if_pos (h after hafter)]
    · rfl

lemma isWord_after_and {after : List Char} (hw : ∀ c ∈ w, isWord c = true)
    (hne : w.map Char.toLower ≠ ['a', 'n', 'd'])
    (h : afterPhrase? ['a', 'n', 'd'] (w ++ ' ' :: rest) = some after) :
    after.head?.any isWord = true := by
  obtain _ | ⟨a, _ | ⟨b, _ | ⟨c, _ | ⟨d, w⟩⟩⟩⟩ := w
  all_goals simp [afterPhrase?, sameLetter_and] at h
  · exact absurd (by simp [h]) hne
  · obtain ⟨-, -, -, rfl⟩ := h
    simp [hw d (by simp)]

end Phrases

section Words

variable {w rest : List Char} {before : Option Char}

/-- The constraints are not introduced inside a word that goes over to another word than the second
one of a phrase. -/
theorem inert_introductionWidth_word (hw : ∀ c ∈ w, isWord c = true)
    (hrest : rest = [] ∨ Resumes rest) : Inert introductionWidth before w rest := by
  induction w generalizing before with
  | nil => trivial
  | cons c w ih =>
    have hnone := firstPhrase?_append hrest (firstPhrase?_word hw)
    exact ⟨introductionWidth_eq_zero_iff.mpr hnone, ih (List.forall_mem_cons.mp hw).2⟩

/-- A word other than `and` is left whole. -/
theorem inert_separatorWidth_word (hw : ∀ c ∈ w, isWord c = true)
    (hne : w.map Char.toLower ≠ ['a', 'n', 'd']) :
    Inert separatorWidth before w (' ' :: rest) := by
  have hmark : ∀ {c}, isWord c = true → c ≠ ',' ∧ c ≠ ';' := by
    intro c hc
    constructor <;> rintro rfl <;> exact absurd hc (by decide)
  have hinside : ∀ {b w}, isWord b = true → (∀ c ∈ w, isWord c = true) →
      Inert separatorWidth (some b) w (' ' :: rest) := by
    intro b w hb hw
    induction w generalizing b with
    | nil => trivial
    | cons c w ih =>
      obtain ⟨hc, hw⟩ := List.forall_mem_cons.mp hw
      refine ⟨separatorWidth_eq_zero (hmark hc).1 (hmark hc).2 fun after _ => ?_, ih hc hw⟩
      simp [hb]
  cases w with
  | nil => trivial
  | cons c w =>
    obtain ⟨hc, hrest⟩ := List.forall_mem_cons.mp hw
    refine ⟨separatorWidth_eq_zero (hmark hc).1 (hmark hc).2 fun after hafter => ?_,
      hinside hc hrest⟩
    rw [isWord_after_and hw hne hafter, Bool.or_true]

lemma exists_and_letters (hw : w.map Char.toLower = ['a', 'n', 'd']) :
    ∃ a n d : Char, w = [a, n, d] ∧ a.toLower = 'a' ∧ n.toLower = 'n' ∧ d.toLower = 'd' := by
  obtain ⟨a, w, rfl, ha, hw⟩ := List.map_eq_cons_iff.mp hw
  obtain ⟨n, w, rfl, hn, hw⟩ := List.map_eq_cons_iff.mp hw
  obtain ⟨d, w, rfl, hd, hw⟩ := List.map_eq_cons_iff.mp hw
  obtain rfl := List.map_eq_nil_iff.mp hw
  exact ⟨a, n, d, rfl, ha, hn, hd⟩

lemma separatorWidth_and (hw : w.map Char.toLower = ['a', 'n', 'd'])
    (hbefore : before.any isWord = false) (hrest : rest.head?.any isWord = false) :
    separatorWidth before (w ++ rest) = w.length := by
  obtain ⟨a, n, d, rfl, ha, hn, hd⟩ := exists_and_letters hw
  have hafter : afterPhrase? ['a', 'n', 'd'] ([a, n, d] ++ rest) = some rest := by
    simp [afterPhrase?, sameLetter_and, ha, hn, hd]
  have hmark : a ≠ ',' ∧ a ≠ ';' := by
    constructor <;> rintro rfl <;> exact absurd ha (by decide)
  unfold separatorWidth
  split
  · next heq => exact absurd (List.cons.inj heq).1 hmark.1
  · next heq => exact absurd (List.cons.inj heq).1 hmark.2
  · rw [hafter]
    simp [hbefore, hrest]

end Words

section Quiet

variable {c : Char} {cs rest : List Char} {before : Option Char}

/-- No separator starts at such a character, whatever follows, nor does one go on to it. -/
def Quiet (c : Char) : Prop :=
  sameLetter 's' c = false ∧ sameLetter 'd' c = false ∧ c ≠ ',' ∧ c ≠ ';'

lemma quiet_of_isDigit (h : isDigit c = true) : Quiet c :=
  ⟨sameLetter_of_isDigit (by decide) h, sameLetter_of_isDigit (by decide) h,
    ne_of_class (by decide) h, ne_of_class (by decide) h⟩

lemma inert_introductionWidth_quiet (h : ∀ c ∈ cs, Quiet c) :
    Inert introductionWidth before cs rest :=
  inert_of_forall fun c hc _ _ => introductionWidth_of_ne (h c hc).1

lemma inert_separatorWidth_quiet (h : ∀ c ∈ cs, Quiet c) : Inert separatorWidth before cs [] := by
  induction cs generalizing before with
  | nil => trivial
  | cons c cs ih =>
    obtain ⟨⟨-, -, hcomma, hsemicolon⟩, hcs⟩ := List.forall_mem_cons.mp h
    refine ⟨?_, ih hcs⟩
    rw [List.append_nil]
    refine separatorWidth_eq_zero hcomma hsemicolon fun after hafter => ?_
    have hnone : afterPhrase? ['a', 'n', 'd'] (c :: cs) = none :=
      afterPhrase?_of_mem (p := 'd') (by decide) fun d hd => (h d hd).2.1
    rw [hnone] at hafter
    cases hafter

end Quiet

end SimplexTableau.Specification
