import SimplexTableau.Proofs.Numerals

/-!
# What the scans of an expression take

A scan goes through a text from left to right, takes the longest token wherever one starts, and
passes over every other character. The terms of an expression are found by such a scan: what is
found at the front of a text stands there, and nothing longer does.
-/

namespace SimplexTableau.Specification

open SimplexTableau.Text SimplexTableau.Decimal

section Scans

variable {τ : Type} {text : τ → List Char} {cs rest : List Char}

/-- A text taken apart from left to right: the longest token wherever one starts, and else one
other character. -/
inductive Scan (text : τ → List Char) : List Char → List (τ ⊕ Char) → Prop where
  | nil : Scan text [] []
  | token (t : τ) {rest : List Char} {parts : List (τ ⊕ Char)}
      (hlongest : ∀ u, text u <+: text t ++ rest → (text u).length ≤ (text t).length)
      (h : Scan text rest parts) : Scan text (text t ++ rest) (.inl t :: parts)
  | other (c : Char) {rest : List Char} {parts : List (τ ⊕ Char)}
      (hnone : ∀ u, ¬ text u <+: c :: rest) (h : Scan text rest parts) :
      Scan text (c :: rest) (.inr c :: parts)

/-- The tokens that a scan takes. -/
def tokens (parts : List (τ ⊕ Char)) : List τ :=
  parts.filterMap Sum.getLeft?

/-- The characters that a scan passes over. -/
def others (parts : List (τ ⊕ Char)) : List Char :=
  parts.filterMap Sum.getRight?

lemma exists_longest (h : ∃ t, text t <+: cs) :
    ∃ t, text t <+: cs ∧ ∀ u, text u <+: cs → (text u).length ≤ (text t).length := by
  classical
  let P : ℕ → Prop := fun n => ∃ t, text t <+: cs ∧ (text t).length = n
  obtain ⟨t, ht⟩ := h
  obtain ⟨u, hu, hlength⟩ : P (Nat.findGreatest P cs.length) :=
    Nat.findGreatest_spec ht.length_le ⟨t, ht, rfl⟩
  refine ⟨u, hu, fun v hv => ?_⟩
  rw [hlength]
  exact Nat.le_findGreatest hv.length_le ⟨v, hv, rfl⟩

/-- Every text can be scanned for tokens that are not empty. -/
theorem exists_scan (hne : ∀ t, text t ≠ []) (cs : List Char) : ∃ parts, Scan text cs parts := by
  induction hn : cs.length using Nat.strong_induction_on generalizing cs with
  | _ n ih =>
    by_cases h : ∃ t, text t <+: cs
    · obtain ⟨t, ⟨rest, rfl⟩, hlongest⟩ := exists_longest h
      have hpos := List.length_pos_iff.mpr (hne t)
      obtain ⟨parts, hparts⟩ := ih rest.length (by simp at hn; omega) rest rfl
      exact ⟨_, .token t hlongest hparts⟩
    · cases cs with
      | nil => exact ⟨[], .nil⟩
      | cons c rest =>
        obtain ⟨parts, hparts⟩ := ih rest.length (by simp at hn; omega) rest rfl
        exact ⟨_, .other c (fun u hu => h ⟨u, hu⟩) hparts⟩

/-- No token starts at a character that is passed over. -/
lemma Scan.forall_others {P : Char → Prop} {parts : List (τ ⊕ Char)} (h : Scan text cs parts)
    (hP : ∀ c rest, (∀ t, ¬ text t <+: c :: rest) → P c) : ∀ c ∈ others parts, P c := by
  induction h with
  | nil => exact List.forall_mem_nil _
  | token _ _ _ ih => exact ih
  | other c hnone _ ih => exact List.forall_mem_cons.mpr ⟨hP c _ hnone, ih⟩

end Scans

/-- A signed mantissa is what its text is without blanks. -/
lemma filter_signed {sign gap : List Char} (hs : IsSign sign) (hg : ∀ c ∈ gap, isBlank c = true)
    (m : Mantissa) : (sign ++ (gap ++ m.text)).filter (!isBlank ·) = sign ++ m.text := by
  have hsign : sign.filter (!isBlank ·) = sign := by
    refine List.filter_eq_self.mpr fun c hc => ?_
    obtain rfl | rfl := hs.mem hc <;> decide
  have hgap : gap.filter (!isBlank ·) = [] :=
    List.filter_eq_nil_iff.mpr fun c hc => by simp [hg c hc]
  have hmantissa : m.text.filter (!isBlank ·) = m.text :=
    List.filter_eq_self.mpr fun c hc => by simp [Mantissa.isBlank_of_mem_text hc]
  rw [List.filter_append, List.filter_append, hsign, hgap, hmantissa, List.nil_append]

/-- A sign, a mantissa and a name with blanks in between, where sign and mantissa may be missing. -/
structure TermText where
  sign : List Char
  gap : List Char
  mantissa : Mantissa
  space : List Char
  name : List Char
  isSign : IsSign sign
  isBlank_gap : ∀ c ∈ gap, isBlank c = true
  isBlank_space : ∀ c ∈ space, isBlank c = true
  isName_name : isName name = true

namespace TermText

def text (t : TermText) : List Char :=
  t.sign ++ (t.gap ++ (t.mantissa.text ++ (t.space ++ t.name)))

/-- The sign and the mantissa without blanks. -/
def coefficient (t : TermText) : List Char :=
  t.sign ++ t.mantissa.text

def term (t : TermText) : Term where
  coefficient := t.coefficient
  name := t.name
  width := t.text.length

/-- The signed value of the mantissa, or of one if there is none. -/
def value (t : TermText) : Float :=
  if t.mantissa.text = [] then if t.sign = ['-'] then -1 else 1 else t.mantissa.signed t.sign

end TermText

section Fronts

variable {p : Char → Bool} {a b name rest : List Char} {c : Char}

lemma Signless.append (ha : ∀ c ∈ a, c ≠ '+' ∧ c ≠ '-') (hb : Signless b) : Signless (a ++ b) := by
  cases a with
  | nil => exact hb
  | cons c a =>
    rintro c ⟨⟩
    exact ha c List.mem_cons_self

lemma ne_signs_of_isBlank (h : isBlank c = true) : c ≠ '+' ∧ c ≠ '-' := by
  constructor <;> rintro rfl <;> exact absurd h (by decide)

lemma isName_eq_cons (h : isName name = true) :
    ∃ c cs, name = c :: cs ∧ isNameStart c = true ∧ ∀ d ∈ cs, isWord d = true := by
  cases name with
  | nil => cases h
  | cons c cs =>
    rw [isName, Bool.and_eq_true, List.all_eq_true] at h
    exact ⟨c, cs, rfl, h.1, h.2⟩

lemma front_of_isName (rest : List Char) (h : isName name = true) :
    ∀ c ∈ (name ++ rest).head?, isDigit c = false ∧ isBlank c = false ∧ c ≠ '.' ∧
      c ≠ '+' ∧ c ≠ '-' := by
  obtain ⟨c, cs, rfl, hc, -⟩ := isName_eq_cons h
  rintro c ⟨⟩
  refine ⟨isDigit_of_isNameStart hc, isBlank_of_isNameStart hc, ?_, ?_, ?_⟩ <;>
    rintro rfl <;> exact absurd hc (by decide)

lemma name?_append (h : isName name = true) :
    name? (name ++ rest) = some (name ++ rest.takeWhile isWord, rest.dropWhile isWord) := by
  obtain ⟨c, cs, rfl, hc, hcs⟩ := isName_eq_cons h
  rw [List.cons_append, name?, if_pos hc, List.takeWhile_append_of_pos hcs,
    List.dropWhile_append_of_pos hcs]
  rfl

lemma isWord_of_isName (h : isName name = true) : ∀ c ∈ name, isWord c = true := by
  obtain ⟨c, cs, rfl, hc, hcs⟩ := isName_eq_cons h
  exact List.forall_mem_cons.mpr ⟨isWord_of_isNameStart hc, hcs⟩

lemma tidy_of_isName (h : isName name = true) : Tidy name := by
  obtain ⟨c, cs, rfl, -⟩ := isName_eq_cons h
  exact .word (List.cons_ne_nil _ _) fun d hd => isBlank_of_isWord (isWord_of_isName h d hd)

lemma isName_append (h : isName name = true) (hrest : ∀ c ∈ rest, isWord c = true) :
    isName (name ++ rest) = true := by
  obtain ⟨c, cs, rfl, hc, hcs⟩ := isName_eq_cons h
  rw [List.cons_append, isName, hc, Bool.true_and, List.all_eq_true]
  exact fun d hd => (List.mem_append.mp hd).elim (hcs d) (hrest d)

end Fronts

section Terms

variable {rest : List Char}

/-- The scans of a mantissa, up to where neither a digit nor a point follows: the whole digits, the
point if there is one, the decimals. -/
lemma Mantissa.scans (m : Mantissa) (hrest : ∀ c ∈ rest.head?, isDigit c = false ∧ c ≠ '.') :
    (m.text ++ rest).takeWhile isDigit = m.whole ∧
      ∃ point after, pointText ((m.text ++ rest).dropWhile isDigit) = (point, after) ∧
        after.dropWhile isDigit = rest ∧ m.whole ++ point ++ after.takeWhile isDigit = m.text := by
  have hdigit : ∀ c ∈ rest.head?, isDigit c = false := fun c hc => (hrest c hc).1
  cases hp : m.part with
  | none =>
    have hpoint : pointText rest = ([], rest) := by
      cases rest with
      | nil => rfl
      | cons c rest =>
        unfold pointText
        split
        · next heq => exact absurd (List.cons.inj heq).1 (hrest c rfl).2
        · rfl
    rw [text_of_none hp, takeWhile_run m.isDigit_whole hdigit, dropWhile_run m.isDigit_whole hdigit]
    have htake : rest.takeWhile isDigit = [] := @takeWhile_run isDigit [] rest (by simp) hdigit
    have hdrop : rest.dropWhile isDigit = rest := @dropWhile_run isDigit [] rest (by simp) hdigit
    exact ⟨rfl, [], rest, hpoint, hdrop, by simp [htake]⟩
  | some ds =>
    have hds := m.isDigit_part ds hp
    have hpoint : ∀ c ∈ ('.' :: (ds ++ rest)).head?, isDigit c = false := by
      rintro c ⟨⟩
      decide
    rw [text_of_some hp, List.append_assoc, List.cons_append, takeWhile_run m.isDigit_whole hpoint,
      dropWhile_run m.isDigit_whole hpoint]
    refine ⟨rfl, ['.'], ds ++ rest, rfl, dropWhile_run hds hdigit, ?_⟩
    rw [takeWhile_run hds hdigit]
    simp

namespace TermText

variable {t : TermText}

/-- A term that stands at the front of a text is found there, and its name goes on through the word
characters behind it. -/
theorem termAt?_append (t : TermText) (rest : List Char) :
    termAt? (t.text ++ rest) = some ⟨t.coefficient, t.name ++ rest.takeWhile isWord,
      (t.text ++ rest.takeWhile isWord).length⟩ := by
  have hname := front_of_isName rest t.isName_name
  have hsign : signText (t.text ++ rest) =
      (t.sign, t.gap ++ (t.mantissa.text ++ (t.space ++ (t.name ++ rest)))) := by
    simp only [text, List.append_assoc]
    refine t.isSign.signText_eq (.append ?_ (.append ?_ (.append ?_ ?_)))
    · exact fun c hc => ne_signs_of_isBlank (t.isBlank_gap c hc)
    · exact fun c hc => Mantissa.ne_signs_of_mem_text hc
    · exact fun c hc => ne_signs_of_isBlank (t.isBlank_space c hc)
    · exact fun c hc => (hname c hc).2.2.2
  obtain ⟨space, hspace, hgap⟩ : ∃ space, (∀ c ∈ space, isBlank c = true) ∧
      (t.gap ++ (t.mantissa.text ++ (t.space ++ (t.name ++ rest)))).dropWhile isBlank =
        t.mantissa.text ++ (space ++ (t.name ++ rest)) := by
    cases htext : t.mantissa.text with
    | nil =>
      refine ⟨[], by simp, ?_⟩
      rw [List.nil_append, ← List.append_assoc]
      refine dropWhile_run (fun c hc => ?_) fun c hc => (hname c hc).2.1
      exact (List.mem_append.mp hc).elim (t.isBlank_gap c) (t.isBlank_space c)
    | cons c cs =>
      refine ⟨t.space, t.isBlank_space, dropWhile_run t.isBlank_gap ?_⟩
      rintro c ⟨⟩
      exact Mantissa.isBlank_of_mem_text (htext ▸ List.mem_cons_self)
  have hfront : ∀ c ∈ (space ++ (t.name ++ rest)).head?, isDigit c = false ∧ c ≠ '.' := by
    intro c hc
    rw [List.head?_append, Option.mem_def, Option.or_eq_some_iff] at hc
    obtain hc | ⟨-, hc⟩ := hc
    · have hblank := hspace c (List.mem_of_mem_head? hc)
      exact ⟨isDigit_of_isBlank hblank, by rintro rfl; exact absurd hblank (by decide)⟩
    · exact ⟨(hname c hc).1, (hname c hc).2.2.1⟩
  obtain ⟨hwhole, point, after, hpoint, hafter, htext⟩ := t.mantissa.scans hfront
  have hblank : (space ++ (t.name ++ rest)).dropWhile isBlank = t.name ++ rest :=
    dropWhile_run hspace fun c hc => (hname c hc).2.1
  have hlength := congrArg List.length (List.takeWhile_append_dropWhile (p := isWord) (l := rest))
  rw [List.length_append] at hlength
  simp only [termAt?, hsign, hgap, hwhole, hpoint, hafter, hblank, name?_append t.isName_name]
  congr 2
  · rw [coefficient, ← htext]
    simp
  · rw [List.length_append, List.length_append]
    omega

lemma termAt?_text (t : TermText) (hrest : ∀ c ∈ rest.head?, isWord c = false) :
    termAt? (t.text ++ rest) = some t.term := by
  have htake : rest.takeWhile isWord = [] := @takeWhile_run isWord [] rest (by simp) hrest
  rw [termAt?_append, htake, List.append_nil, List.append_nil]
  rfl

lemma text_ne_nil (t : TermText) : t.text ≠ [] := by
  obtain ⟨c, cs, hname, -⟩ := isName_eq_cons t.isName_name
  simp [text, hname]

lemma termAt?_longest
    (hlongest : ∀ u : TermText, u.text <+: t.text ++ rest → u.text.length ≤ t.text.length) :
    termAt? (t.text ++ rest) = some t.term := by
  let u : TermText :=
    { t with
      name := t.name ++ rest.takeWhile isWord
      isName_name := isName_append t.isName_name fun c hc => (List.mem_takeWhile_imp hc) }
  have htext : u.text = t.text ++ rest.takeWhile isWord := by simp [u, text]
  have hle := hlongest u (htext ▸ (List.prefix_append_right_inj _).mpr (List.takeWhile_prefix _))
  have hnil : rest.takeWhile isWord = [] := by
    rw [htext, List.length_append] at hle
    exact List.length_eq_zero_iff.mp (by omega)
  rw [termAt?_append, hnil, List.append_nil, List.append_nil]
  rfl

end TermText

lemma exists_signText (cs : List Char) :
    ∃ sign after, IsSign sign ∧ signText cs = (sign, after) ∧ cs = sign ++ after := by
  cases cs with
  | nil => exact ⟨[], [], .inl rfl, rfl, rfl⟩
  | cons c cs =>
    by_cases hc : (c = '+' || c = '-') = true
    · refine ⟨[c], cs, ?_, by rw [signText, if_pos hc], rfl⟩
      obtain rfl | rfl : c = '+' ∨ c = '-' := by simpa using hc
      · exact .inr (.inl rfl)
      · exact .inr (.inr rfl)
    · exact ⟨[], c :: cs, .inl rfl, by rw [signText, if_neg hc], rfl⟩

lemma exists_name? {cs name : List Char} (h : name? cs = some (name, rest)) :
    isName name = true ∧ cs = name ++ rest := by
  cases cs with
  | nil => cases h
  | cons c cs =>
    rw [name?] at h
    split_ifs at h with hc
    obtain ⟨rfl, rfl⟩ := Prod.mk.inj (Option.some.inj h)
    refine ⟨?_, by simp⟩
    rw [isName, hc, Bool.true_and, List.all_eq_true]
    exact fun d hd => List.mem_takeWhile_imp hd

lemma exists_mantissa (cs : List Char) :
    ∃ m : Mantissa, ∃ point after, pointText (cs.dropWhile isDigit) = (point, after) ∧
      cs = m.text ++ after.dropWhile isDigit := by
  have hdigit : ∀ {cs : List Char}, ∀ c ∈ cs.takeWhile isDigit, isDigit c = true :=
    fun c hc => List.mem_takeWhile_imp hc
  have hcs : cs = cs.takeWhile isDigit ++ cs.dropWhile isDigit :=
    List.takeWhile_append_dropWhile.symm
  unfold pointText
  split
  · next after hdrop =>
    refine ⟨⟨cs.takeWhile isDigit, some (after.takeWhile isDigit), hdigit, ?_⟩, _, _, rfl, ?_⟩
    · rintro ds ⟨⟩
      exact hdigit
    · rw [Mantissa.text_of_some rfl]
      simp [← hdrop]
  · refine ⟨⟨cs.takeWhile isDigit, none, hdigit, by simp⟩, _, _, rfl, ?_⟩
    rw [Mantissa.text_of_none rfl, List.dropWhile_idempotent]
    exact hcs

/-- Where a term is found, one stands. -/
theorem exists_of_termAt? {cs : List Char} {t : Term} (h : termAt? cs = some t) :
    ∃ u : TermText, u.text <+: cs := by
  have hblank : ∀ {cs : List Char}, ∀ c ∈ cs.takeWhile isBlank, isBlank c = true :=
    fun c hc => List.mem_takeWhile_imp hc
  obtain ⟨sign, unsigned, hsign, hsigned, rfl⟩ := exists_signText cs
  obtain ⟨m, point, after, hpoint, hm⟩ := exists_mantissa (unsigned.dropWhile isBlank)
  simp only [termAt?, hsigned, hpoint] at h
  split at h
  · next name rest hname =>
    obtain ⟨hname, hrest⟩ := exists_name? hname
    refine ⟨⟨sign, unsigned.takeWhile isBlank, m, (after.dropWhile isDigit).takeWhile isBlank, name,
      hsign, hblank, hblank, hname⟩, rest, ?_⟩
    have hspace : after.dropWhile isDigit =
        (after.dropWhile isDigit).takeWhile isBlank ++ (name ++ rest) := by
      rw [← hrest, List.takeWhile_append_dropWhile]
    have hgap : unsigned = unsigned.takeWhile isBlank ++ unsigned.dropWhile isBlank :=
      List.takeWhile_append_dropWhile.symm
    rw [hm, hspace] at hgap
    conv_rhs => rw [hgap]
    simp [TermText.text]
  · cases h

end Terms

section Pieces

variable {a rest : List Char}

lemma pieces_skip : pieces a.length (a ++ rest) = pieces 0 rest := by
  induction a with
  | nil => rfl
  | cons c a ih => exact ih

lemma pieces_term {t : Term} (hne : a ≠ []) (ht : termAt? (a ++ rest) = some t)
    (hwidth : t.width = a.length) : pieces 0 (a ++ rest) = .term t :: pieces 0 rest := by
  obtain ⟨c, a, rfl⟩ := List.exists_cons_of_ne_nil hne
  rw [List.cons_append] at ht ⊢
  simp only [pieces, ht, hwidth, List.length_cons, Nat.add_sub_cancel, pieces_skip]

lemma pieces_stray {c : Char} (h : termAt? (c :: rest) = none) :
    pieces 0 (c :: rest) = .stray c :: pieces 0 rest := by
  simp only [pieces, h]

end Pieces

/-- What a scan takes at a place. -/
def TermText.piece : TermText ⊕ Char → Piece :=
  Sum.elim (.term ·.term) .stray

/-- The terms of a text are those of its scan. -/
theorem pieces_of_scan {cs : List Char} {parts : List (TermText ⊕ Char)}
    (h : Scan TermText.text cs parts) : pieces 0 cs = parts.map TermText.piece := by
  induction h with
  | nil => rfl
  | token t hlongest _ ih =>
    rw [pieces_term t.text_ne_nil (TermText.termAt?_longest hlongest) rfl, ih]
    rfl
  | @other c rest _ hnone _ ih =>
    have hstray : termAt? (c :: rest) = none := by
      rw [Option.eq_none_iff_forall_ne_some]
      intro t ht
      obtain ⟨u, hu⟩ := exists_of_termAt? ht
      exact hnone u hu
    rw [pieces_stray hstray, ih]
    rfl

end SimplexTableau.Specification
