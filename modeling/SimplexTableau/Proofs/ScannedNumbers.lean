import SimplexTableau.Proofs.Scanning

/-!
# What the scan for numbers takes

The numbers of a text are found by a scan for the longest one wherever one starts. A number ends in
a digit, and blanks in front of what is no number are passed over.
-/

namespace SimplexTableau.Specification

open SimplexTableau.Text SimplexTableau.Decimal

/-- A sign, blanks and a numeral; the sign may be missing, and a point stands between digits. -/
structure NumberText where
  sign : List Char
  gap : List Char
  mantissa : Mantissa
  isSign : IsSign sign
  isBlank_gap : ∀ c ∈ gap, isBlank c = true
  whole_ne_nil : mantissa.whole ≠ []
  part_ne_nil : mantissa.part ≠ some []

namespace NumberText

variable {n : NumberText} {cs rest : List Char}

def text (n : NumberText) : List Char :=
  n.sign ++ (n.gap ++ n.mantissa.text)

/-- The number without blanks. -/
def numeral (n : NumberText) : List Char :=
  n.sign ++ n.mantissa.text

def value (n : NumberText) : Float :=
  n.mantissa.signed n.sign

lemma numeral_eq_filter (n : NumberText) : n.numeral = n.text.filter (!isBlank ·) :=
  (filter_signed n.isSign n.isBlank_gap n.mantissa).symm

lemma text_ne_nil (n : NumberText) : n.text ≠ [] := by
  obtain ⟨c, cs, hwhole⟩ := List.exists_cons_of_ne_nil n.whole_ne_nil
  simp [text, Mantissa.text, hwhole]

lemma readFloat?_numeral (n : NumberText) : readFloat? n.numeral = some n.value := by
  have hdigits : n.mantissa.digits ≠ [] := by simp [Mantissa.digits, n.whole_ne_nil]
  rw [numeral, Mantissa.readFloat?_signed n.isSign, if_neg hdigits, value]

lemma signText_text_append (n : NumberText) (rest : List Char) :
    signText (n.text ++ rest) = (n.sign, n.gap ++ (n.mantissa.text ++ rest)) := by
  have hne : n.mantissa.text ≠ [] := by simp [Mantissa.text, n.whole_ne_nil]
  simp only [text, List.append_assoc]
  refine n.isSign.signText_eq (.append (fun d hd => ne_signs_of_isBlank (n.isBlank_gap d hd)) ?_)
  intro d hd
  rw [List.head?_append_of_ne_nil _ hne] at hd
  exact Mantissa.signless_text d hd

lemma dropWhile_gap (n : NumberText) (rest : List Char) :
    (n.gap ++ (n.mantissa.text ++ rest)).dropWhile isBlank = n.mantissa.text ++ rest := by
  obtain ⟨c, cs, hwhole⟩ := List.exists_cons_of_ne_nil n.whole_ne_nil
  refine dropWhile_run n.isBlank_gap fun d hd => ?_
  obtain rfl : c = d := by simpa [Mantissa.text, hwhole] using hd
  exact isBlank_of_isDigit (n.mantissa.isDigit_whole c (hwhole ▸ List.mem_cons_self))

/-- A number that stands at the front of a text is covered by the one that is found there. -/
lemma numberAt?_append (n : NumberText) (rest : List Char) :
    ∃ text width, numberAt? (n.text ++ rest) = some (text, width) ∧ n.text.length ≤ width := by
  have hsign := n.signText_text_append rest
  have hgap := n.dropWhile_gap rest
  have hdigits := n.mantissa.isDigit_whole
  cases hp : n.mantissa.part with
  | none =>
    rw [Mantissa.text_of_none hp] at hsign hgap
    have htake : (n.mantissa.whole ++ rest).takeWhile isDigit =
        n.mantissa.whole ++ rest.takeWhile isDigit := List.takeWhile_append_of_pos hdigits
    have hdrop : (n.mantissa.whole ++ rest).dropWhile isDigit = rest.dropWhile isDigit :=
      List.dropWhile_append_of_pos hdigits
    have hempty : (n.mantissa.whole ++ rest.takeWhile isDigit).isEmpty = false := by
      simp [n.whole_ne_nil]
    have hlead : n.text.length ≤ (n.text ++ rest).length - (rest.dropWhile isDigit).length := by
      have := (List.dropWhile_suffix (l := rest) isDigit).length_le
      rw [List.length_append]
      omega
    simp only [numberAt?, hsign, hgap, htake, hdrop, hempty]
    rw [if_neg Bool.false_ne_true]
    split
    · split_ifs
      · exact ⟨_, _, rfl, by omega⟩
      · exact ⟨_, _, rfl, by omega⟩
    · exact ⟨_, _, rfl, hlead⟩
  | some ds =>
    have hds := n.mantissa.isDigit_part ds hp
    have hne : ds ≠ [] := fun h => n.part_ne_nil (hp.trans (congrArg some h))
    have hpoint : ∀ d ∈ ('.' :: (ds ++ rest)).head?, isDigit d = false := by
      rintro d ⟨⟩
      decide
    rw [Mantissa.text_of_some hp, List.append_assoc, List.cons_append] at hsign hgap
    have hempty : n.mantissa.whole.isEmpty = false := by
      simp [n.whole_ne_nil]
    have hpart : ((ds ++ rest).takeWhile isDigit).isEmpty = false := by
      rw [List.takeWhile_append_of_pos hds]
      simp [hne]
    have hlead : n.text.length ≤ (n.text ++ rest).length - ('.' :: (ds ++ rest)).length + 1 +
        ((ds ++ rest).takeWhile isDigit).length := by
      rw [List.takeWhile_append_of_pos hds]
      simp only [List.length_append, List.length_cons, text, Mantissa.text_of_some hp]
      omega
    simp only [numberAt?, hsign, hgap, takeWhile_run hdigits hpoint, dropWhile_run hdigits hpoint,
      hempty, hpart]
    exact ⟨_, _, rfl, hlead⟩

lemma exists_of_numberAt? {text : List Char} {width : ℕ} (h : numberAt? cs = some (text, width)) :
    ∃ n : NumberText, n.text <+: cs ∧ text = n.numeral ∧ width = n.text.length := by
  have hdigit : ∀ {cs : List Char}, ∀ c ∈ cs.takeWhile isDigit, isDigit c = true :=
    fun c hc => List.mem_takeWhile_imp hc
  obtain ⟨sign, after, hsign, hsigned, rfl⟩ := exists_signText cs
  have hgap : after = after.takeWhile isBlank ++ after.dropWhile isBlank :=
    List.takeWhile_append_dropWhile.symm
  have hblank : ∀ c ∈ after.takeWhile isBlank, isBlank c = true :=
    fun c hc => List.mem_takeWhile_imp hc
  generalize after.takeWhile isBlank = gap at hgap hblank
  simp only [numberAt?, hsigned] at h
  generalize after.dropWhile isBlank = unsigned at hgap h
  subst hgap
  have hwhole : unsigned = unsigned.takeWhile isDigit ++ unsigned.dropWhile isDigit :=
    List.takeWhile_append_dropWhile.symm
  have hwhole_digit := @hdigit unsigned
  generalize unsigned.takeWhile isDigit = whole at hwhole hwhole_digit h
  generalize unsigned.dropWhile isDigit = rest at hwhole h
  subst hwhole
  split_ifs at h with hempty
  have hne : whole ≠ [] := by simpa using hempty
  have hinteger : (sign ++ whole, (sign ++ (gap ++ (whole ++ rest))).length - rest.length) =
      (text, width) → ∃ n : NumberText, n.text <+: sign ++ (gap ++ (whole ++ rest)) ∧
        text = n.numeral ∧ width = n.text.length := by
    rintro ⟨⟩
    refine ⟨⟨sign, gap, ⟨whole, none, hwhole_digit, by simp⟩, hsign, hblank, hne, by simp⟩, ?_⟩
    rw [NumberText.text, numeral, Mantissa.text_of_none rfl]
    refine ⟨⟨rest, by simp⟩, rfl, ?_⟩
    simp only [List.length_append]
    omega
  split at h
  · next afterPoint =>
    split_ifs at h with hpart
    · exact hinteger (Option.some.inj h)
    · obtain ⟨rfl, rfl⟩ := Prod.mk.inj (Option.some.inj h)
      refine ⟨⟨sign, gap, ⟨whole, some (afterPoint.takeWhile isDigit), hwhole_digit, ?_⟩, hsign,
        hblank, hne, ?_⟩, ?_⟩
      · rintro ds ⟨⟩
        exact hdigit
      · simpa using hpart
      · rw [NumberText.text, numeral, Mantissa.text_of_some rfl]
        refine ⟨⟨afterPoint.dropWhile isDigit, by simp⟩, by simp, ?_⟩
        simp only [List.length_append, List.length_cons]
        omega
  · exact hinteger (Option.some.inj h)

lemma numberAt?_longest
    (hlongest : ∀ u : NumberText, u.text <+: n.text ++ rest → u.text.length ≤ n.text.length) :
    numberAt? (n.text ++ rest) = some (n.numeral, n.text.length) := by
  obtain ⟨text, width, hfound, hle⟩ := n.numberAt?_append rest
  obtain ⟨u, hu, rfl, rfl⟩ := exists_of_numberAt? hfound
  have hlength : u.text.length = n.text.length := le_antisymm (hlongest u hu) hle
  have htext : u.text = n.text :=
    (List.prefix_of_prefix_length_le hu (List.prefix_append _ _) hlength.le).eq_of_length hlength
  rw [hfound, numeral_eq_filter, htext, ← numeral_eq_filter]

end NumberText

section Numbers

variable {a cs rest : List Char}

lemma numbers_skip : numbers a.length (a ++ rest) = numbers 0 rest := by
  induction a with
  | nil => rfl
  | cons c a ih => exact ih

lemma numbers_number {numeral : List Char} (hne : a ≠ [])
    (h : numberAt? (a ++ rest) = some (numeral, a.length)) :
    numbers 0 (a ++ rest) = numeral :: numbers 0 rest := by
  obtain ⟨c, a, rfl⟩ := List.exists_cons_of_ne_nil hne
  rw [List.cons_append] at h ⊢
  simp only [numbers, h, List.length_cons, Nat.add_sub_cancel, numbers_skip]

lemma numbers_stray {c : Char} (h : numberAt? (c :: rest) = none) :
    numbers 0 (c :: rest) = numbers 0 rest := by
  simp only [numbers, h]

/-- The numbers of a text are those of its scan. -/
theorem numbers_of_scan {parts : List (NumberText ⊕ Char)} (h : Scan NumberText.text cs parts) :
    numbers 0 cs = (tokens parts).map NumberText.numeral := by
  induction h with
  | nil => rfl
  | token n hlongest _ ih =>
    rw [numbers_number n.text_ne_nil (NumberText.numberAt?_longest hlongest), ih]
    rfl
  | @other c rest _ hnone _ ih =>
    have hstray : numberAt? (c :: rest) = none := by
      rw [Option.eq_none_iff_forall_ne_some]
      rintro ⟨text, width⟩ hfound
      obtain ⟨n, hn, -⟩ := NumberText.exists_of_numberAt? hfound
      exact hnone n hn
    rw [numbers_stray hstray, ih]
    rfl

end Numbers

section Passing

variable {n : NumberText} {m : Mantissa} {blanks cs rest : List Char}

lemma numberAt?_eq_none (h : ∀ c ∈ ((signText cs).2.dropWhile isBlank).head?, isDigit c = false) :
    numberAt? cs = none := by
  have htake : ((signText cs).2.dropWhile isBlank).takeWhile isDigit = [] :=
    @takeWhile_run isDigit [] _ (by simp) h
  simp [numberAt?, htake]

lemma numbers_blanks (hblanks : ∀ c ∈ blanks, isBlank c = true)
    (hrest : ∀ c ∈ rest.head?, isBlank c = false ∧ isDigit c = false) :
    numbers 0 (blanks ++ rest) = numbers 0 rest := by
  induction blanks with
  | nil => rfl
  | cons c blanks ih =>
    obtain ⟨hc, hblanks'⟩ := List.forall_mem_cons.mp hblanks
    obtain ⟨hplus, hminus⟩ := ne_signs_of_isBlank hc
    have hsign : signText (c :: (blanks ++ rest)) = ([], c :: (blanks ++ rest)) := by
      simp [signText, hplus, hminus]
    have hdrop : (c :: (blanks ++ rest)).dropWhile isBlank = rest :=
      dropWhile_run hblanks fun d hd => (hrest d hd).1
    rw [List.cons_append, numbers_stray, ih hblanks']
    refine numberAt?_eq_none ?_
    rw [hsign, hdrop]
    exact fun d hd => (hrest d hd).2

lemma numbers_of_isBlank (h : ∀ c ∈ blanks, isBlank c = true) : numbers 0 blanks = [] := by
  have := @numbers_blanks blanks [] h (by simp)
  rwa [List.append_nil] at this

lemma NumberText.isDigit_getLast? (n : NumberText) : ∀ c ∈ n.text.getLast?, isDigit c = true := by
  intro c hc
  have hmantissa : n.text.getLast? = n.mantissa.text.getLast? := by
    have hne : n.mantissa.text ≠ [] := fun h => n.whole_ne_nil (by
      have := (Mantissa.text_eq_nil_iff.mp h).1
      exact (List.append_eq_nil_iff.mp this).1)
    rw [text, List.getLast?_append_of_ne_nil _ (by simp [hne]),
      List.getLast?_append_of_ne_nil _ hne]
  rw [hmantissa] at hc
  cases hp : n.mantissa.part with
  | none =>
    rw [Mantissa.text_of_none hp] at hc
    exact n.mantissa.isDigit_whole c (List.mem_of_mem_getLast? hc)
  | some ds =>
    have hne : ds ≠ [] := fun h => n.part_ne_nil (hp.trans (congrArg some h))
    rw [Mantissa.text_of_some hp, List.getLast?_append_of_ne_nil _ (List.cons_ne_nil _ _),
      List.getLast?_cons_of_ne_nil hne] at hc
    exact n.mantissa.isDigit_part ds hp c (List.mem_of_mem_getLast? hc)

lemma numbers_number_end (hrest : rest = [] ∨ rest = ['.']) :
    numbers 0 (n.text ++ rest) = [n.numeral] := by
  have hend : numbers 0 rest = [] := by
    obtain rfl | rfl := hrest <;> rfl
  have hlongest : ∀ u : NumberText, u.text <+: n.text ++ rest → u.text.length ≤ n.text.length := by
    intro u hu
    obtain rfl | rfl := hrest
    · rw [List.append_nil] at hu
      exact hu.length_le
    · obtain h | h := List.prefix_concat_iff.mp hu
      · have := u.isDigit_getLast? '.' (by simp [h])
        exact absurd this (by decide)
      · exact h.length_le
  rw [numbers_number n.text_ne_nil (NumberText.numberAt?_longest hlongest), hend]

end Passing

end SimplexTableau.Specification
