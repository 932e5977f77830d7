import SimplexTableau.Proofs.Characters
import SimplexTableau.Proofs.Cutting
import SimplexTableau.Proofs.Unsigned
import SimplexTableau.Specification.Expression

/-!
# Numerals

A mantissa is a row of digits of any script with an optional point. With a digit in it, it reads as
the double nearest to it, under a sign as well; a lone point reads as no number. Besides digits and
points, what reads as a number holds only signs, underscores and a few letters.
-/

namespace SimplexTableau.Specification

open SimplexTableau.Text SimplexTableau.Decimal

section Runs

variable {p : Char → Bool} {run rest : List Char}

lemma takeWhile_run (hrun : ∀ c ∈ run, p c = true) (hrest : ∀ c ∈ rest.head?, p c = false) :
    (run ++ rest).takeWhile p = run := by
  rw [List.takeWhile_append_of_pos hrun]
  cases rest with
  | nil => simp
  | cons c rest => simp [hrest c rfl]

lemma dropWhile_run (hrun : ∀ c ∈ run, p c = true) (hrest : ∀ c ∈ rest.head?, p c = false) :
    (run ++ rest).dropWhile p = rest := by
  rw [List.dropWhile_append_of_pos hrun]
  cases rest with
  | nil => rfl
  | cons c rest => simp [hrest c rfl]

lemma moreDigits_run (hrun : ∀ c ∈ run, isDigit c = true)
    (hrest : rest = [] ∨ ∃ cs, rest = '.' :: cs) :
    moreDigits (run ++ rest) = (run.filterMap digit?, rest) := by
  induction run with
  | nil =>
    obtain rfl | ⟨cs, rfl⟩ := hrest
    · rfl
    · cases cs <;> rfl
  | cons c run ih =>
    obtain ⟨hc, hrun⟩ := List.forall_mem_cons.mp hrun
    obtain ⟨d, hd⟩ := Option.isSome_iff_exists.mp hc
    have hstep : ∀ cs, moreDigits (c :: cs) = (d :: (moreDigits cs).1, (moreDigits cs).2) := by
      rintro (_ | ⟨c', cs⟩)
      · simp [moreDigits, hd]
      · simp [moreDigits, hd]
    rw [List.cons_append, hstep, ih hrun, List.filterMap_cons_some hd]

lemma digitRun_run (hrun : ∀ c ∈ run, isDigit c = true)
    (hrest : rest = [] ∨ ∃ cs, rest = '.' :: cs) :
    digitRun (run ++ rest) = (run.filterMap digit?, rest) := by
  cases run with
  | nil =>
    obtain rfl | ⟨cs, rfl⟩ := hrest
    · rfl
    · rfl
  | cons c run =>
    obtain ⟨hc, hrun⟩ := List.forall_mem_cons.mp hrun
    obtain ⟨d, hd⟩ := Option.isSome_iff_exists.mp hc
    have hstep : digitRun (c :: (run ++ rest)) =
        (d :: (moreDigits (run ++ rest)).1, (moreDigits (run ++ rest)).2) := by
      simp [digitRun, hd]
    rw [List.cons_append, hstep, moreDigits_run hrun hrest, List.filterMap_cons_some hd]

end Runs

/-- A plus sign, a minus sign or none. -/
def IsSign (sign : List Char) : Prop :=
  sign = [] ∨ sign = ['+'] ∨ sign = ['-']

section Signs

variable {sign rest : List Char} {c : Char}

lemma IsSign.mem (h : IsSign sign) (hc : c ∈ sign) : c = '+' ∨ c = '-' := by
  obtain rfl | rfl | rfl := h
  · cases hc
  · exact .inl (List.mem_singleton.mp hc)
  · exact .inr (List.mem_singleton.mp hc)

/-- A text in front of which a sign is seen as such. -/
def Signless (rest : List Char) : Prop :=
  ∀ c ∈ rest.head?, c ≠ '+' ∧ c ≠ '-'

lemma IsSign.signText_eq (h : IsSign sign) (hrest : Signless rest) :
    signText (sign ++ rest) = (sign, rest) := by
  obtain rfl | rfl | rfl := h
  · cases rest with
    | nil => rfl
    | cons c rest => simp [signText, hrest c rfl]
  · rfl
  · rfl

lemma IsSign.sign_eq (h : IsSign sign) (hrest : Signless rest) :
    Decimal.sign (sign ++ rest) = (decide (sign = ['-']), rest) := by
  obtain rfl | rfl | rfl := h
  · rw [List.nil_append]
    unfold Decimal.sign
    split
    · exact absurd rfl (hrest '-' rfl).2
    · exact absurd rfl (hrest '+' rfl).1
    · rfl
  · rfl
  · rfl

end Signs

/-- Digits of any script with an optional point, on either side of which they may be missing. -/
structure Mantissa where
  whole : List Char
  part : Option (List Char)
  isDigit_whole : ∀ c ∈ whole, isDigit c = true
  isDigit_part : ∀ ds ∈ part, ∀ c ∈ ds, isDigit c = true

namespace Mantissa

/-- The digits behind the point. -/
def decimals (m : Mantissa) : List Char :=
  m.part.getD []

def digits (m : Mantissa) : List Char :=
  m.whole ++ m.decimals

def text (m : Mantissa) : List Char :=
  m.whole ++ (m.part.map ('.' :: ·)).getD []

/-- The double nearest to the number that the digits denote. -/
def value (m : Mantissa) : Float :=
  nearestDouble (ofDigits (m.digits.filterMap digit?)) (-m.decimals.length)

/-- The value under a sign. -/
def signed (sign : List Char) (m : Mantissa) : Float :=
  if sign = ['-'] then -m.value else m.value

variable {m : Mantissa} {sign rest : List Char} {negative : Bool}

lemma text_of_none (h : m.part = none) : m.text = m.whole := by
  simp [text, h]

lemma text_of_some {ds : List Char} (h : m.part = some ds) : m.text = m.whole ++ '.' :: ds := by
  simp [text, h]

lemma mem_text {c : Char} (h : c ∈ m.text) : isDigit c = true ∨ c = '.' := by
  cases hp : m.part with
  | none => exact .inl (m.isDigit_whole c (text_of_none hp ▸ h))
  | some ds =>
    rw [text_of_some hp, List.mem_append, List.mem_cons] at h
    obtain h | rfl | h := h
    · exact .inl (m.isDigit_whole c h)
    · exact .inr rfl
    · exact .inl (m.isDigit_part ds hp c h)

lemma text_eq_nil_iff : m.text = [] ↔ m.digits = [] ∧ m.part = none := by
  cases hp : m.part <;> simp [text, digits, decimals, hp]

theorem unsigned_value (m : Mantissa) : Double.Unsigned m.value :=
  Double.unsigned_nearestDouble _ _

lemma length_values {ds : List Char} (h : ∀ c ∈ ds, isDigit c = true) :
    (ds.filterMap digit?).length = ds.length := by
  induction ds with
  | nil => rfl
  | cons c ds ih =>
    obtain ⟨hc, hds⟩ := List.forall_mem_cons.mp h
    obtain ⟨d, hd⟩ := Option.isSome_iff_exists.mp hc
    rw [List.filterMap_cons_some hd, List.length_cons, List.length_cons, ih hds]

lemma values_eq_nil_iff {ds : List Char} (h : ∀ c ∈ ds, isDigit c = true) :
    ds.filterMap digit? = [] ↔ ds = [] := by
  rw [← List.length_eq_zero_iff, length_values h, List.length_eq_zero_iff]

lemma unsigned?_text : unsigned? negative m.text =
    if m.digits = [] then none
    else some (.finite negative (ofDigits (m.digits.filterMap digit?)) (-m.decimals.length)) := by
  have hwhole := values_eq_nil_iff m.isDigit_whole
  cases hp : m.part with
  | none =>
    have hrun : digitRun (m.whole ++ []) = (m.whole.filterMap digit?, []) :=
      digitRun_run m.isDigit_whole (.inl rfl)
    rw [unsigned?, text_of_none hp, ← List.append_nil m.whole, hrun]
    by_cases hw : m.whole = []
    · simp [hw, digits, decimals, hp]
    · simp [hw, hwhole, exponentPart?, digits, decimals, hp]
  | some ds =>
    have hds := m.isDigit_part ds hp
    have hpart := values_eq_nil_iff hds
    have hrun : digitRun (m.whole ++ '.' :: ds) = (m.whole.filterMap digit?, '.' :: ds) :=
      digitRun_run m.isDigit_whole (.inr ⟨ds, rfl⟩)
    have hrest : digitRun ds = (ds.filterMap digit?, []) := by
      simpa using digitRun_run hds (.inl rfl)
    have hlength := length_values hds
    rw [unsigned?, text_of_some hp, hrun]
    simp only [hrest]
    by_cases h : m.whole = [] ∧ ds = []
    · simp [h, digits, decimals, hp]
    · simp [h, hwhole, hpart, hlength, exponentPart?, digits, decimals, hp]

lemma ne_signs_of_mem_text {c : Char} (h : c ∈ m.text) : c ≠ '+' ∧ c ≠ '-' := by
  obtain hc | rfl := mem_text h
  · exact ⟨ne_of_class (by decide) hc, ne_of_class (by decide) hc⟩
  · decide

lemma isBlank_of_mem_text {c : Char} (h : c ∈ m.text) : isBlank c = false := by
  obtain hc | rfl := mem_text h
  · exact isBlank_of_isDigit hc
  · decide

lemma signless_text : Signless m.text :=
  fun _ hc => ne_signs_of_mem_text (List.mem_of_mem_head? hc)

/-- A mantissa with a digit is read with its sign, its digits and the number of its decimals, and
without a digit there is no number. -/
theorem read?_signed (hsign : IsSign sign) : Numeral.read? (sign ++ m.text) =
    if m.digits = [] then none
    else some (.finite (decide (sign = ['-'])) (ofDigits (m.digits.filterMap digit?))
      (-m.decimals.length)) := by
  have hspace : ∀ c ∈ sign ++ m.text, isSpace c = false := by
    intro c hc
    obtain hc | hc := List.mem_append.mp hc
    · obtain rfl | rfl := hsign.mem hc <;> decide
    · obtain hc | rfl := mem_text hc
      · exact isSpace_of_isDigit hc
      · decide
  have hword : ∀ w ∈ ["inf", "infinity", "nan"], String.ofList (m.text.map Char.toLower) ≠ w := by
    have hfirst : ∀ w ∈ ["inf", "infinity", "nan"],
        w.toList.head? = some 'i' ∨ w.toList.head? = some 'n' := by decide
    rintro w hw rfl
    have hhead := hfirst _ hw
    rw [String.toList_ofList, List.head?_map] at hhead
    cases htext : m.text with
    | nil => simp [htext] at hhead
    | cons c cs =>
      have hc : c.toLower = c := by
        obtain hd | rfl := mem_text (m := m) (c := c) (by simp [htext])
        · exact toLower_of_isDigit hd
        · rfl
      have hnone : 'i' ∉ m.text ∧ 'n' ∉ m.text := by
        constructor <;> intro h <;> exact absurd (mem_text h) (by decide)
      simp only [htext, List.head?_cons, Option.map_some, hc, Option.some.injEq] at hhead
      obtain rfl | rfl := hhead
      · exact hnone.1 (by simp [htext])
      · exact hnone.2 (by simp [htext])
  have hbare : Numeral.bare? (sign ++ m.text) = unsigned? (decide (sign = ['-'])) m.text := by
    rw [Numeral.bare?, hsign.sign_eq signless_text]
    simp [hword]
  rw [Numeral.read?, strip_of_forall hspace, hbare, unsigned?_text]

/-- A mantissa with a digit reads as its value under the sign in front of it. -/
theorem readFloat?_signed (hsign : IsSign sign) :
    readFloat? (sign ++ m.text) = if m.digits = [] then none else some (m.signed sign) := by
  rw [readFloat?, read?_signed hsign]
  split_ifs
  · rfl
  · simp [Numeral.toFloat, signed, value]

end Mantissa

/-- The characters of numerals: digits, signs, points, underscores and the letters of `e` and of the
words for special values. -/
def IsNumeric (c : Char) : Prop :=
  isDigit c = true ∨ c ∈ ['+', '-', '.', '_'] ∨ c.toLower ∈ ['a', 'e', 'f', 'i', 'n', 't', 'y']

section Numerics

variable {cs : List Char} {c : Char}

lemma exists_moreDigits (cs : List Char) :
    ∃ run, cs = run ++ (moreDigits cs).2 ∧ ∀ c ∈ run, IsNumeric c := by
  have hdigit : ∀ {c d}, digit? c = some d → IsNumeric c := fun h => .inl (by simp [isDigit, h])
  fun_induction moreDigits cs with
  | case1 => exact ⟨[], rfl, by simp⟩
  | case2 c d hd => exact ⟨[c], rfl, by simpa using hdigit hd⟩
  | case3 c => exact ⟨[], rfl, by simp⟩
  | case4 c c' cs d hd ds rest hrest ih =>
    obtain ⟨run, hrun, hall⟩ := ih
    rw [hrest] at hrun
    refine ⟨c :: run, congrArg (c :: ·) hrun, ?_⟩
    exact List.forall_mem_cons.mpr ⟨hdigit hd, hall⟩
  | case5 c' cs d hd ds rest hrest _ ih =>
    obtain ⟨run, hrun, hall⟩ := ih
    rw [hrest] at hrun
    refine ⟨'_' :: c' :: run, congrArg (fun cs => '_' :: c' :: cs) hrun, ?_⟩
    exact List.forall_mem_cons.mpr ⟨.inr (.inl (by decide)),
      List.forall_mem_cons.mpr ⟨hdigit hd, hall⟩⟩
  | case6 => exact ⟨[], rfl, by simp⟩

lemma exists_digitRun (cs : List Char) :
    ∃ run, cs = run ++ (digitRun cs).2 ∧ ∀ c ∈ run, IsNumeric c := by
  cases cs with
  | nil => exact ⟨[], rfl, by simp⟩
  | cons c cs =>
    cases hd : digit? c with
    | none => exact ⟨[], by simp [digitRun, hd], by simp⟩
    | some d =>
      obtain ⟨run, hrun, hall⟩ := exists_moreDigits cs
      refine ⟨c :: run, by simpa [digitRun, hd] using hrun, ?_⟩
      exact List.forall_mem_cons.mpr ⟨.inl (by simp [isDigit, hd]), hall⟩

lemma exists_sign (cs : List Char) :
    ∃ s, IsSign s ∧ cs = s ++ (Decimal.sign cs).2 := by
  unfold Decimal.sign
  split
  · exact ⟨['-'], .inr (.inr rfl), rfl⟩
  · exact ⟨['+'], .inr (.inl rfl), rfl⟩
  · exact ⟨[], .inl rfl, rfl⟩

lemma IsSign.isNumeric {s : List Char} (h : IsSign s) (hc : c ∈ s) : IsNumeric c := by
  obtain rfl | rfl := h.mem hc <;> exact .inr (.inl (by decide))

lemma isNumeric_of_bareInt? {n : ℤ} (h : bareInt? cs = some n) : ∀ c ∈ cs, IsNumeric c := by
  obtain ⟨s, hs, hcs⟩ := exists_sign cs
  obtain ⟨run, hrun, hall⟩ := exists_digitRun (Decimal.sign cs).2
  have hend : (digitRun (Decimal.sign cs).2).2 = [] := by
    unfold bareInt? at h
    dsimp only at h
    split at h
    · next heq => rw [heq]
    · cases h
  rw [hend, List.append_nil] at hrun
  rw [hcs, hrun]
  exact fun c hc => (List.mem_append.mp hc).elim hs.isNumeric (hall c)

lemma isNumeric_of_exponentPart? {n : ℤ} (h : exponentPart? cs = some n) :
    ∀ c ∈ cs, IsNumeric c := by
  cases cs with
  | nil => simp
  | cons c cs =>
    rw [exponentPart?] at h
    split_ifs at h with hc
    refine List.forall_mem_cons.mpr ⟨?_, isNumeric_of_bareInt? h⟩
    obtain rfl | rfl : c = 'e' ∨ c = 'E' := by simpa using hc
    · exact .inr (.inr (by decide))
    · exact .inr (.inr (by decide))

lemma isNumeric_of_unsigned? {negative : Bool} {n : Numeral} (h : unsigned? negative cs = some n) :
    ∀ c ∈ cs, IsNumeric c := by
  obtain ⟨whole, hwhole, hall⟩ := exists_digitRun cs
  unfold unsigned? at h
  dsimp only at h
  split_ifs at h with hempty
  obtain ⟨e, he, -⟩ := Option.map_eq_some_iff.mp h
  have hrest := isNumeric_of_exponentPart? he
  rw [hwhole]
  refine fun c hc => (List.mem_append.mp hc).elim (hall c) fun hc => ?_
  split at hrest
  · next after hafter =>
    obtain ⟨part, hpart, hpart_all⟩ := exists_digitRun after
    rw [hafter, hpart, List.mem_cons, List.mem_append] at hc
    obtain rfl | hc | hc := hc
    · exact .inr (.inl (by decide))
    · exact hpart_all c hc
    · exact hrest c hc
  · exact hrest c hc

/-- A text that reads as a number holds no other characters than those of numerals. -/
theorem isNumeric_of_readFloat? {x : Float} (hspace : ∀ c ∈ cs, isSpace c = false)
    (h : readFloat? cs = some x) : ∀ c ∈ cs, IsNumeric c := by
  obtain ⟨s, hs, hcs⟩ := exists_sign cs
  rw [readFloat?, Numeral.read?, strip_of_forall hspace] at h
  obtain ⟨n, hn, -⟩ := Option.map_eq_some_iff.mp h
  suffices hrest : ∀ c ∈ (Decimal.sign cs).2, IsNumeric c by
    rw [hcs]
    exact fun c hc => (List.mem_append.mp hc).elim hs.isNumeric (hrest c)
  have hword : ∀ w ∈ ["inf", "infinity", "nan"],
      String.ofList ((Decimal.sign cs).2.map Char.toLower) = w →
        ∀ c ∈ (Decimal.sign cs).2, IsNumeric c := by
    have hletters : ∀ w ∈ ["inf", "infinity", "nan"], ∀ c ∈ w.toList,
        c ∈ ['a', 'e', 'f', 'i', 'n', 't', 'y'] := by simp
    rintro w hw rfl c hc
    refine .inr (.inr (hletters _ hw _ ?_))
    rw [String.toList_ofList]
    exact List.mem_map_of_mem hc
  unfold Numeral.bare? at hn
  dsimp only at hn
  split_ifs at hn with hinf hnan
  · obtain h | h : _ = "inf" ∨ _ = "infinity" := by simpa using hinf
    · exact hword "inf" (by simp) h
    · exact hword "infinity" (by simp) h
  · exact hword "nan" (by simp) hnan
  · exact isNumeric_of_unsigned? hn

end Numerics

end SimplexTableau.Specification
