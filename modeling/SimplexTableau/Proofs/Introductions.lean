import SimplexTableau.Proofs.Phrases

/-!
# Where the constraints are introduced

Only the words of a specification count. The first phrase that introduces constraints ends the
objective, and the next one, if there is one, ends the constraints. What comes behind a second
phrase is not read.
-/

namespace SimplexTableau.Specification

open SimplexTableau.Text

/-- Reads a problem from its objective and its constraints. -/
def readParts (objective constraints : List Char) : Except SpecFault (Problem Float) := do
  let (direction, objective) ← objective? objective
  let found ← (← segments constraints).mapM statements
  let all := found.flatten
  let names := all.foldl (fun names s => addNames names s.terms) (addNames [] objective.terms)
  return assemble direction objective.terms names (all.filter (!·.isNonNegativity))

/-- Words with a blank in front of each. -/
def spaced (ws : List (List Char)) : List Char :=
  ws.flatMap (' ' :: ·)

section Words

variable {cs : List Char} {ws : List (List Char)}

lemma tidy_intercalate (hne : ws ≠ []) (hws : ∀ w ∈ ws, w ≠ [] ∧ ∀ c ∈ w, isBlank c = false) :
    Tidy ([' '].intercalate ws) := by
  induction ws with
  | nil => exact absurd rfl hne
  | cons w ws ih =>
    obtain ⟨⟨hw, hblank⟩, hws⟩ := List.forall_mem_cons.mp hws
    cases ws with
    | nil => simpa using Tidy.word hw hblank
    | cons u ws =>
      rw [List.intercalate_cons_of_ne_nil (List.cons_ne_nil _ _)]
      simpa using Tidy.cons hw hblank (ih (List.cons_ne_nil _ _) hws)

lemma tidy_collapse (h : words cs ≠ []) : Tidy (collapse cs) :=
  tidy_intercalate h fun _ hw => mem_words hw

lemma spaced_eq_cons (h : ws ≠ []) : spaced ws = ' ' :: [' '].intercalate ws := by
  induction ws with
  | nil => exact absurd rfl h
  | cons w ws ih =>
    cases ws with
    | nil => simp [spaced]
    | cons u ws =>
      have hcons : spaced (w :: u :: ws) = ' ' :: (w ++ spaced (u :: ws)) := rfl
      rw [hcons, ih (List.cons_ne_nil _ _), List.intercalate_cons_of_ne_nil (List.cons_ne_nil _ _)]
      simp

lemma filter_collapse (cs : List Char) :
    (collapse cs).filter (· ≠ ' ') = cs.filter (!isBlank ·) := by
  have hintercalate : ∀ ws : List (List Char), (∀ w ∈ ws, ∀ c ∈ w, c ≠ ' ') →
      ([' '].intercalate ws).filter (· ≠ ' ') = ws.flatten := by
    intro ws hws
    induction ws with
    | nil => rfl
    | cons w ws ih =>
      obtain ⟨hw, hws⟩ := List.forall_mem_cons.mp hws
      have hfilter : w.filter (· ≠ ' ') = w :=
        List.filter_eq_self.mpr fun c hc => decide_eq_true (hw c hc)
      cases ws with
      | nil => simpa using hfilter
      | cons u ws =>
        have hblank : [' '].filter (· ≠ ' ') = [] := rfl
        rw [List.intercalate_cons_of_ne_nil (List.cons_ne_nil _ _), List.filter_append,
          List.filter_append, ih hws, hfilter, hblank, List.append_nil, ← List.flatten_cons]
  rw [collapse, hintercalate, flatten_words]
  rintro w hw c hc rfl
  exact absurd ((mem_words hw).2 _ hc) (by decide)

/-- What a collapsed text holds besides spaces is no blank. -/
lemma mem_collapse {c : Char} (h : c ∈ collapse cs) : c = ' ' ∨ c ∈ cs.filter (!isBlank ·) := by
  by_cases hspace : c = ' '
  · exact .inl hspace
  · rw [← filter_collapse]
    exact .inr (List.mem_filter.mpr ⟨h, by simpa using hspace⟩)

/-- To leave out the blanks of a collapsed text is to leave out its spaces. -/
lemma filter_of_infix_collapse {part : List Char} (h : part <:+: collapse cs) :
    part.filter (!isBlank ·) = part.filter (· ≠ ' ') := by
  have hspace : isBlank ' ' = true := by decide
  refine List.filter_congr fun c hc => ?_
  obtain rfl | hmem := mem_collapse (h.subset hc)
  · simp [hspace]
  · have hne : c ≠ ' ' := by
      rintro rfl
      simp [hspace] at hmem
    simpa [hne] using (List.mem_filter.mp hmem).2

lemma collapse_append {a b : List Char} (ha : Tidy a) (hb : words b ≠ []) :
    collapse (a ++ ' ' :: b) = a ++ ' ' :: collapse b := by
  obtain ⟨hne, heq⟩ := ha.intercalate_words
  have hspaced : spaced (words a ++ words b) = spaced (words a) ++ spaced (words b) :=
    List.flatMap_append
  rw [spaced_eq_cons (List.append_ne_nil_of_left_ne_nil hne _), spaced_eq_cons hne,
    spaced_eq_cons hb, heq, List.cons_append, List.cons.injEq] at hspaced
  rw [collapse, words_append_blank (by decide), hspaced.2, collapse]

lemma trim_spaced (cs : List Char) : trim (spaced (words cs)) = collapse cs ∧
    trim (spaced (words cs) ++ [' ']) = collapse cs := by
  have hspace : isBlank ' ' = true := by decide
  have hconcat : trim (spaced (words cs) ++ [' ']) = trim (spaced (words cs)) := strip_concat hspace
  rw [hconcat, and_self]
  by_cases h : words cs = []
  · rw [collapse, h]
    rfl
  · rw [spaced_eq_cons h]
    exact (strip_cons hspace).trans (tidy_collapse h).trim_eq

end Words

section Phrases

variable {before : Option Char} {rest : List Char} {phrase : String}

/-- No phrase in a text introduces constraints. -/
def Unintroduced (text : String) : Prop :=
  ∀ rest, rest <:+ collapse text.toList → firstPhrase? introductions rest = none

instance (text : String) : Decidable (Unintroduced text) :=
  decidable_of_iff (∀ rest ∈ (collapse text.toList).tails, firstPhrase? introductions rest = none)
    (forall_congr' fun _ => by rw [List.mem_tails])

lemma inert_introductionWidth_iff {cs : List Char} :
    Inert introductionWidth before cs rest ↔
      ∀ x, x <:+ cs → x ≠ [] → firstPhrase? introductions (x ++ rest) = none := by
  induction cs generalizing before with
  | nil => simp [Inert]
  | cons c cs ih =>
    rw [Inert, ih, introductionWidth_eq_zero_iff]
    constructor
    · rintro ⟨hc, hcs⟩ x hx hne
      obtain rfl | hx := List.suffix_cons_iff.mp hx
      · exact hc
      · exact hcs x hx hne
    · exact fun hall => ⟨hall _ List.suffix_rfl (List.cons_ne_nil _ _),
        fun x hx hne => hall x (hx.trans (List.suffix_cons _ _)) hne⟩

lemma unintroduced_iff {text : String} :
    Unintroduced text ↔ ∀ before, Inert introductionWidth before (collapse text.toList) [] := by
  simp only [inert_introductionWidth_iff, List.append_nil, forall_const]
  constructor
  · exact fun h x hx _ => h x hx
  · intro h x hx
    by_cases hx' : x = []
    · rw [hx']
      rfl
    · exact h x hx hx'

/-- Behind a text, constraints may be introduced by a word of their own. -/
lemma Unintroduced.inert {text : String} (h : Unintroduced text)
    (hrest : rest = [] ∨ Resumes rest) :
    Inert introductionWidth before (spaced (words text.toList)) rest := by
  have hinert : ∀ before, Inert introductionWidth before (collapse text.toList) rest := by
    exact fun before => inert_introductionWidth_iff.mpr fun x hx _ =>
      firstPhrase?_append hrest (h x hx)
  by_cases hwords : words text.toList = []
  · rw [hwords]
    trivial
  · rw [spaced_eq_cons hwords]
    exact ⟨introductionWidth_of_ne (by decide), hinert _⟩

lemma introductionWidth_phrase (h : phrase ∈ introductions) :
    introductionWidth before (phrase.toList ++ rest) = phrase.toList.length := by
  simp only [introductions, List.mem_cons, List.not_mem_nil, or_false] at h
  obtain rfl | rfl | rfl := h <;> rfl

lemma phrase_eq_cons (h : phrase ∈ introductions) : ∃ cs, phrase.toList = 's' :: cs := by
  simp only [introductions, List.mem_cons, List.not_mem_nil, or_false] at h
  obtain rfl | rfl | rfl := h <;> exact ⟨_, rfl⟩

lemma cut_introduced {text : String} (h : Unintroduced text) (hphrase : phrase ∈ introductions) :
    ∃ last, cut introductionWidth before 0
        (spaced (words text.toList) ++ ' ' :: (phrase.toList ++ rest)) =
      (spaced (words text.toList) ++ [' ']) :: cut introductionWidth last 0 rest := by
  obtain ⟨cs, hcs⟩ := phrase_eq_cons hphrase
  have htext : Inert introductionWidth before (spaced (words text.toList))
      ([' '] ++ (phrase.toList ++ rest)) := by
    refine h.inert (.inr ⟨'s', cs ++ rest, ?_, by decide⟩)
    rw [hcs, List.singleton_append, List.cons_append]
  have hinert : Inert introductionWidth before (spaced (words text.toList) ++ [' '])
      (phrase.toList ++ rest) :=
    inert_append.mpr ⟨htext, introductionWidth_of_ne (by decide), trivial⟩
  have hne : phrase.toList ≠ [] := by rw [hcs]; exact List.cons_ne_nil _ _
  have hcut := cut_separator hinert hne (introductionWidth_phrase hphrase)
  rw [List.append_assoc] at hcut
  exact ⟨_, hcut⟩

end Phrases

section Readings

variable {objective constraints phrase : String}

lemma cut_before {width : Option Char → List Char → ℕ} {cs : List Char}
    (h : ∀ before before' cs, width before cs = width before' cs) (before before' : Option Char) :
    cut width before 0 cs = cut width before' 0 cs := by
  cases cs with
  | nil => rfl
  | cons c cs => simp only [cut, h before before']

lemma read_eq_readParts {spec : String} (h : collapse spec.toList ≠ []) :
    read spec = readParts (trim ((cut introductionWidth none 0 (collapse spec.toList)).headD []))
      (trim ((cut introductionWidth none 0 (collapse spec.toList)).getD 1 [])) := by
  have hempty : (collapse spec.toList).isEmpty = false := by simpa using h
  rw [read, hempty]
  rfl

/-- A blank in front of the first piece does not count. -/
lemma read_of_cut {spec : String} {ws : List (List Char)} (hws : words spec.toList = ws)
    (hne : ws ≠ []) {piece : List Char} {pieces : List (List Char)}
    (hcut : cut introductionWidth none 0 (spaced ws) = piece :: pieces) :
    read spec = readParts (trim piece) (trim (pieces.headD [])) := by
  subst hws
  have hspace : isBlank ' ' = true := by decide
  have hblank : Inert introductionWidth none [' '] (collapse spec.toList) :=
    ⟨introductionWidth_of_ne (by decide), trivial⟩
  have hlead := cut_append hblank
  rw [List.singleton_append, collapse, ← spaced_eq_cons hne, hcut, ← collapse,
    cut_before (fun _ _ _ => rfl) _ none] at hlead
  obtain ⟨first, rest, hrest⟩ := List.exists_cons_of_ne_nil
    (@cut_ne_nil introductionWidth none (collapse spec.toList) 0)
  rw [hrest, List.modifyHead_cons, List.cons.injEq] at hlead
  obtain ⟨rfl, rfl⟩ := hlead
  have htrim : trim ([' '] ++ first) = trim first := strip_cons hspace
  have hsecond : (first :: pieces).getD 1 [] = pieces.headD [] := by cases pieces <;> rfl
  rw [read_eq_readParts (tidy_collapse hne).ne_nil, hrest, htrim, hsecond, List.headD_cons]

lemma read_of_words {spec : String} {rest : List (List Char)} (hobjective : Unintroduced objective)
    (hconstraints : Unintroduced constraints)
    (hwords : words spec.toList =
      words objective.toList ++ (words "subject to".toList ++ (words constraints.toList ++ rest)))
    (hrest : rest = [] ∨ ∃ phrase ∈ introductions, ∃ more,
      spaced rest = ' ' :: (phrase.toList ++ more)) :
    read spec = readParts (collapse objective.toList) (collapse constraints.toList) := by
  have hsubject : "subject to" ∈ introductions := List.mem_cons_self
  have hphrase : spaced (words "subject to".toList) = ' ' :: "subject to".toList := by decide
  have hspaced : spaced (words objective.toList ++ (words "subject to".toList ++
      (words constraints.toList ++ rest))) = spaced (words objective.toList) ++
        ' ' :: ("subject to".toList ++ (spaced (words constraints.toList) ++ spaced rest)) := by
    rw [← List.cons_append, ← hphrase]
    simp only [spaced, List.flatMap_append]
  obtain ⟨last, hcut⟩ := @cut_introduced none
    (spaced (words constraints.toList) ++ spaced rest) _ _ hobjective hsubject
  rw [← hspaced] at hcut
  have hne : words "subject to".toList ≠ [] := by decide
  rw [read_of_cut hwords (List.append_ne_nil_of_right_ne_nil _
    (List.append_ne_nil_of_left_ne_nil hne _)) hcut, (trim_spaced _).2]
  obtain rfl | ⟨phrase, hphrase, more, hmore⟩ := hrest
  · have hnil : spaced [] = [] := rfl
    rw [hnil, List.append_nil, cut_whole (hconstraints.inert (.inl rfl)), List.headD_cons,
      (trim_spaced _).1]
  · obtain ⟨last', hcut'⟩ := @cut_introduced last more _ _ hconstraints hphrase
    rw [hmore, hcut', List.headD_cons, (trim_spaced _).2]

/-- The objective and the constraints are read apart. -/
theorem read_introduced (hobjective : Unintroduced objective)
    (hconstraints : Unintroduced constraints) :
    read (objective ++ " subject to " ++ constraints) =
      readParts (collapse objective.toList) (collapse constraints.toList) := by
  have hspace : isBlank ' ' = true := by decide
  have htext : (objective ++ " subject to " ++ constraints).toList =
      objective.toList ++ ' ' :: ("subject to".toList ++ ' ' :: constraints.toList) := by
    rw [String.toList_append, String.toList_append, List.append_assoc]
    rfl
  refine read_of_words hobjective hconstraints ?_ (.inl rfl)
  rw [htext, words_append_blank hspace, words_append_blank hspace, List.append_nil]

/-- What a second phrase introduces is not read. -/
theorem read_introduced_again {more : String} (hobjective : Unintroduced objective)
    (hconstraints : Unintroduced constraints) (hphrase : phrase ∈ introductions) :
    read (objective ++ " subject to " ++ constraints ++ " " ++ phrase ++ " " ++ more) =
      readParts (collapse objective.toList) (collapse constraints.toList) := by
  have hspace : isBlank ' ' = true := by decide
  have htext : (objective ++ " subject to " ++ constraints ++ " " ++ phrase ++ " " ++ more).toList =
      objective.toList ++ ' ' :: ("subject to".toList ++ ' ' :: (constraints.toList ++
        ' ' :: (phrase.toList ++ ' ' :: more.toList))) := by
    simp only [String.toList_append, List.append_assoc]
    rfl
  have hspaced : spaced (words phrase.toList) = ' ' :: phrase.toList := by
    simp only [introductions, List.mem_cons, List.not_mem_nil, or_false] at hphrase
    obtain rfl | rfl | rfl := hphrase <;> decide
  have hwords : words (objective ++ " subject to " ++ constraints ++ " " ++ phrase ++ " " ++
      more).toList = words objective.toList ++ (words "subject to".toList ++
        (words constraints.toList ++ (words phrase.toList ++ words more.toList))) := by
    rw [htext, words_append_blank hspace, words_append_blank hspace, words_append_blank hspace,
      words_append_blank hspace]
  refine read_of_words hobjective hconstraints hwords
    (.inr ⟨phrase, hphrase, spaced (words more.toList), ?_⟩)
  rw [spaced, List.flatMap_append, ← spaced, ← spaced, hspaced, List.cons_append]

end Readings

end SimplexTableau.Specification
