import SimplexTableau.Proofs.Constants
import SimplexTableau.Proofs.Introductions
import SimplexTableau.Proofs.SpecRoundTrip

/-!
# Constants that are moved over

In `max v subject to v + L <= R`, the constraint is found whatever the name, the numeral and the
bound are, unless the name is the separator `and`: no separator starts behind the name, and the
bound has only characters of numerals in it. The constant that is moved over is the one that is
found for the numeral.
-/

namespace SimplexTableau.Specification

open SimplexTableau.Text SimplexTableau.Decimal

section Readings

variable {c : Char} {name bound : List Char} {m : Mantissa} {r : Float}

lemma IsNumeric.quiet (h : IsNumeric c) : Quiet c := by
  have hmarks : ∀ c ∈ ['+', '-', '.', '_'], Quiet c := by simp [Quiet, sameLetter]
  have hletters : ∀ n < 128, (Char.ofNat n).toLower ∈ ['a', 'e', 'f', 'i', 'n', 't', 'y'] →
      sameLetter 's' (Char.ofNat n) = false ∧ sameLetter 'd' (Char.ofNat n) = false ∧
        Char.ofNat n ≠ ',' ∧ Char.ofNat n ≠ ';' := by
    decide +kernel
  obtain h | h | h := h
  · exact quiet_of_isDigit h
  · exact hmarks c h
  · have hascii : c.toNat < 128 := by
      by_contra hlarge
      have hlower : ∀ d ∈ ['a', 'e', 'f', 'i', 'n', 't', 'y'], d.toNat < 128 := by simp
      exact hlarge (hlower c (toLower_eq_self (c := c) (.inr (by omega)) ▸ h))
    have := hletters c.toNat hascii
    rw [Char.ofNat_toNat] at this
    exact this h

lemma dropName_name (h : isName name = true) : dropName name = name := by
  obtain ⟨d, ds, rfl, -, hds⟩ := isName_eq_cons h
  have hrest : ds.dropWhile isBlank = ds := by
    cases ds with
    | nil => rfl
    | cons e ds =>
      exact List.dropWhile_cons_of_neg (by simp [isBlank_of_isWord (hds e List.mem_cons_self)])
  rw [dropName, hrest]
  split_ifs
  · split
    · exact absurd (hds '=' List.mem_cons_self) (by decide)
    · rfl
  · rfl

lemma objective?_name (h : isName name = true) :
    objective? ("max ".toList ++ name) = .ok (.max, ⟨[(String.ofList name, 1)], 0⟩) :=
  Written.objective?_eq rfl (tidy_of_isName h) (dropName_name h) (expression?_name h)

lemma isPlain_plus : ∀ c ∈ '+' :: ' ' :: m.text, IsPlain c :=
  List.forall_mem_cons.mpr ⟨by simp [IsPlain],
    List.forall_mem_cons.mpr ⟨.inl (by decide), fun _ hc => Mantissa.isPlain hc⟩⟩

lemma tidy_plus (hdigits : m.digits ≠ []) : Tidy ('+' :: ' ' :: m.text) := by
  have hplus : Tidy ['+'] := .word (List.cons_ne_nil _ _) (by simp [isBlank, isSpace])
  have htext : Tidy m.text := .word (fun h => hdigits (Mantissa.text_eq_nil_iff.mp h).1)
    fun _ hc => Mantissa.isBlank_of_mem_text hc
  exact hplus.append htext

/-- A bound has a word, since the empty text reads as no number. -/
lemma words_bound_ne_nil (hr : readFloat? (bound.filter (!isBlank ·)) = some r) :
    words bound ≠ [] := by
  intro h
  have hnil : bound.filter (!isBlank ·) = [] := by rw [← flatten_words, h, List.flatten_nil]
  rw [hnil] at hr
  cases hr

lemma quiet_bound (hr : readFloat? (bound.filter (!isBlank ·)) = some r) :
    ∀ c ∈ '+' :: ' ' :: m.text ++ ' ' :: '<' :: '=' :: ' ' :: collapse bound, Quiet c := by
  have hmark : ∀ c ∈ ['+', ' ', '<', '=', '.'], Quiet c := by simp [Quiet, sameLetter]
  have hspace : ∀ c ∈ bound.filter (!isBlank ·), isSpace c = false := by
    intro c hc
    have hblank : isBlank c = false := by simpa using (List.mem_filter.mp hc).2
    exact (Bool.or_eq_false_iff.mp hblank).1
  have hbound : ∀ c ∈ collapse bound, Quiet c := by
    intro c hc
    obtain rfl | hmem := mem_collapse hc
    · exact hmark ' ' (by simp)
    · exact (isNumeric_of_readFloat? hspace hr c hmem).quiet
  have htext : ∀ c ∈ m.text, Quiet c := by
    intro c hc
    obtain hc | rfl := Mantissa.mem_text hc
    · exact quiet_of_isDigit hc
    · exact hmark '.' (by simp)
  simp only [List.cons_append, List.mem_cons, List.mem_append]
  rintro c (rfl | rfl | hc | rfl | rfl | rfl | rfl | hc)
  · exact hmark _ (by simp)
  · exact hmark _ (by simp)
  · exact htext c hc
  · exact hmark _ (by simp)
  · exact hmark _ (by simp)
  · exact hmark _ (by simp)
  · exact hmark _ (by simp)
  · exact hbound c hc

lemma statements_bound {lhs : List Char} (htidy : Tidy lhs) (hplain : ∀ c ∈ lhs, IsPlain c)
    (hr : readFloat? (bound.filter (!isBlank ·)) = some r) :
    statements (lhs ++ ' ' :: '<' :: '=' :: ' ' :: collapse bound) =
      (expression? lhs).map fun form => [⟨form.terms, .le, r - form.constant⟩] := by
  have hsign : ∀ c ∈ lhs, c ∉ ['<', '>', '='] := by
    intro c hc hmem
    refine (hplain c hc).notMem ?_
    simp only [List.mem_cons] at hmem ⊢
    tauto
  have hbar : ∀ c ∈ lhs, c ≠ '|' := by
    rintro c hc rfl
    exact (hplain _ hc).notMem (by decide)
  have hbound : Tidy (collapse bound) := tidy_collapse (words_bound_ne_nil hr)
  exact Written.statements_eq .le htidy hbound hsign hbar (by rw [filter_collapse, hr])

lemma isNameStart_plus : ∀ c ∈ '+' :: ' ' :: m.text, isNameStart c = false := by
  refine List.forall_mem_cons.mpr ⟨by decide, List.forall_mem_cons.mpr ⟨by decide, fun c hc => ?_⟩⟩
  obtain hc | rfl := Mantissa.mem_text hc
  · exact isNameStart_of_isDigit hc
  · decide

/-- A constraint with a constant is one segment, unless its name is the separator `and`. -/
lemma segments_constant {tail : List Char} (hname : isName name = true)
    (htail : ∀ c ∈ tail, Quiet c) (htidy : Tidy tail) (hplus : tail.head? = some '+') :
    segments (name ++ ' ' :: tail) =
      .ok [if name.map Char.toLower = ['a', 'n', 'd'] then tail else name ++ ' ' :: tail] := by
  have hblank : Inert separatorWidth (lastOr none name) (' ' :: tail) [] :=
    inert_separatorWidth_quiet (List.forall_mem_cons.mpr ⟨by simp [Quiet, sameLetter], htail⟩)
  have hsegment : ∀ {segment}, Tidy segment → isName segment = false →
      gather [] [segment] = .ok [segment] := fun ht hn =>
    Written.gather_eq_ok (List.forall_mem_singleton.mpr ⟨ht.ne_nil, hn⟩)
  by_cases hand : name.map Char.toLower = ['a', 'n', 'd']
  · have hcut := @cut_separator separatorWidth none [] (' ' :: tail) name trivial
      (tidy_of_isName hname).ne_nil (separatorWidth_and hand rfl rfl)
    have htrim : trim (' ' :: tail) = tail := (strip_cons (by decide)).trans htidy.trim_eq
    have hnot : isName tail = false := by
      cases tail with
      | nil => rfl
      | cons c tail =>
        obtain rfl : c = '+' := Option.some.inj hplus
        rfl
    rw [segments, ← List.nil_append (name ++ _), hcut, List.nil_append, cut_whole hblank,
      if_pos hand, List.map_cons, List.map_singleton, htrim]
    exact hsegment htidy hnot
  · have hwhole : Inert separatorWidth none (name ++ ' ' :: tail) [] := by
      refine inert_append.mpr ⟨?_, hblank⟩
      exact inert_separatorWidth_word (isWord_of_isName hname) hand
    have htext : Tidy (name ++ ' ' :: tail) := (tidy_of_isName hname).append htidy
    have hnot : isName (name ++ ' ' :: tail) = false := by
      by_contra h
      exact absurd (isWord_of_isName (by simpa using h) ' ' (by simp)) (by decide)
    rw [segments, cut_whole hwhole, if_neg hand, List.map_singleton, htext.trim_eq]
    exact hsegment htext hnot

lemma assemble_one (name : String) (rhs : Float) :
    assemble .max [(name, 1)] (addNames (addNames [] [(name, (1 : Float))]) [(name, (1 : Float))])
      [⟨[(name, 1)], .le, rhs⟩] = ⟨.max, [1], [⟨"c1", [1], .le, rhs⟩]⟩ := by
  have hnames : addNames (addNames [] [(name, (1 : Float))]) [(name, (1 : Float))] = [name] := by
    simp [addNames]
  have hone : coefficientOf [(name, (1 : Float))] name = 1 := by simp [coefficientOf]
  have hid : toString "c" ++ Nat.repr 1 = "c1" := by decide
  rw [assemble, hnames, List.map_singleton, hone]
  simp [hone, hid]

lemma readParts_constant (hdigits : m.digits ≠ []) (hname : isName name = true)
    (hr : readFloat? (bound.filter (!isBlank ·)) = some r) :
    readParts ("max ".toList ++ name)
        (name ++ ' ' :: ('+' :: ' ' :: m.text ++ ' ' :: '<' :: '=' :: ' ' :: collapse bound)) =
      if name.map Char.toLower = ['a', 'n', 'd'] then
        .error (.noVariables (String.ofList ('+' :: ' ' :: m.text)))
      else .ok ⟨.max, [1], [⟨"c1", [1], .le, r - m.constant⟩]⟩ := by
  have hplus := tidy_plus hdigits
  have htail : Tidy ('+' :: ' ' :: m.text ++ ' ' :: '<' :: '=' :: ' ' :: collapse bound) := by
    have hle : Tidy ['<', '='] := .word (List.cons_ne_nil _ _) (by simp [isBlank, isSpace])
    exact hplus.append (hle.append (tidy_collapse (words_bound_ne_nil hr)))
  have hsegments := segments_constant hname (quiet_bound hr) htail rfl
  rw [readParts, objective?_name hname, hsegments]
  by_cases hand : name.map Char.toLower = ['a', 'n', 'd']
  · have hstar : ∀ c ∈ '+' :: ' ' :: m.text, c ≠ '*' := by
      rintro c hc rfl
      exact (isPlain_plus _ hc).notMem (by decide)
    have hstatements := statements_bound hplus isPlain_plus hr
    rw [expression?_of_notMem isNameStart_plus hstar] at hstatements
    rw [if_pos hand, if_pos hand]
    simp only [bind, Except.bind, List.mapM_cons, hstatements]
    rfl
  · have hlhs : Tidy (name ++ ' ' :: '+' :: ' ' :: m.text) := (tidy_of_isName hname).append hplus
    have hplain : ∀ c ∈ name ++ ' ' :: '+' :: ' ' :: m.text, IsPlain c := by
      intro c hc
      obtain hc | hc := List.mem_append.mp hc
      · exact isPlain_of_isName hname hc
      · obtain rfl | hc := List.mem_cons.mp hc
        · exact .inl (by decide)
        · exact isPlain_plus c hc
    have hstatements := statements_bound hlhs hplain hr
    rw [expression?_constant hdigits hname, List.append_assoc, List.cons_append] at hstatements
    rw [if_neg hand, if_neg hand]
    simp only [bind, Except.bind, List.mapM_cons, List.mapM_nil, hstatements]
    exact congrArg Except.ok (assemble_one _ _)

lemma quiet_blank : Quiet ' ' := by
  simp [Quiet, sameLetter]

lemma collapse_objective {name : String} (hname : isName name.toList = true) :
    collapse ("max " ++ name).toList = "max ".toList ++ name.toList := by
  have hmax : Tidy ['m', 'a', 'x'] := .word (List.cons_ne_nil _ _) (by simp [isBlank, isSpace])
  have htext : ("max " ++ name).toList = ['m', 'a', 'x'] ++ ' ' :: name.toList := by
    rw [String.toList_append]
    rfl
  rw [htext, (hmax.append (tidy_of_isName hname)).collapse_eq]
  rfl

lemma collapse_constraint {name bound : String} (hdigits : m.digits ≠ [])
    (hname : isName name.toList = true) (hwords : words bound.toList ≠ []) :
    collapse (name ++ " + " ++ String.ofList m.text ++ " <= " ++ bound).toList =
      name.toList ++
        ' ' :: ('+' :: ' ' :: m.text ++ ' ' :: '<' :: '=' :: ' ' :: collapse bound.toList) := by
  have hle : Tidy ['<', '='] := .word (List.cons_ne_nil _ _) (by simp [isBlank, isSpace])
  have htidy := (tidy_of_isName hname).append ((tidy_plus hdigits).append hle)
  have htext : (name ++ " + " ++ String.ofList m.text ++ " <= " ++ bound).toList =
      name.toList ++ ' ' :: ('+' :: ' ' :: m.text ++ ' ' :: ['<', '=']) ++ ' ' :: bound.toList := by
    simp [String.toList_append]
  rw [htext, collapse_append htidy hwords]
  simp

/-- A numeral denotes the same double in front of a name and as a bound. As a constant on the left
it counts as that double if a digit stands in front of its point, and as its decimals, read as a
whole number, if none does. No variable can be named `and`. -/
theorem read_constant {name bound : String} {r : Float} (m : Mantissa) (hdigits : m.digits ≠ [])
    (hname : isName name.toList = true)
    (hbound : readFloat? (bound.toList.filter (!isBlank ·)) = some r) :
    readFloat? m.text = some m.value ∧
      expression? (m.text ++ ' ' :: name.toList) = .ok ⟨[(name, m.value)], 0⟩ ∧
      read ("max " ++ name ++ " subject to " ++ name ++ " + " ++ String.ofList m.text ++ " <= " ++
          bound) =
        if name.toList.map Char.toLower = "and".toList then
          .error (.noVariables ("+ " ++ String.ofList m.text))
        else .ok ⟨.max, [1], [⟨"c1", [1], .le, r -
          if m.whole = [] then nearestDouble (ofDigits (m.decimals.filterMap digit?)) 0
          else m.value⟩]⟩ := by
  have hread : readFloat? m.text = some m.value := by
    have := @Mantissa.readFloat?_signed m [] (.inl rfl)
    rwa [List.nil_append, if_neg hdigits] at this
  have hword := isWord_of_isName hname
  have hquiet := quiet_bound (m := m) hbound
  have hobjective : Unintroduced ("max " ++ name) := by
    rw [unintroduced_iff, collapse_objective hname]
    refine fun before => inert_append.mpr ⟨inert_introductionWidth_quiet ?_,
      inert_introductionWidth_word hword (.inl rfl)⟩
    simp [Quiet, sameLetter]
  have hcollapse := collapse_constraint hdigits hname (words_bound_ne_nil hbound)
  have hconstraint :
      Unintroduced (name ++ " + " ++ String.ofList m.text ++ " <= " ++ bound) := by
    rw [unintroduced_iff, hcollapse]
    refine fun before => inert_append.mpr
      ⟨inert_introductionWidth_word hword (.inr ⟨'+', _, rfl, by decide⟩),
        inert_introductionWidth_quiet (List.forall_mem_cons.mpr ⟨quiet_blank, hquiet⟩)⟩
  have hparts := readParts_constant hdigits hname hbound
  rw [← hcollapse, ← collapse_objective hname, ← read_introduced hobjective hconstraint] at hparts
  refine ⟨hread, ?_, ?_⟩
  · have := expression?_numeral hdigits hname
    rwa [String.ofList_toList] at this
  · have hspec : "max " ++ name ++ " subject to " ++ name ++ " + " ++ String.ofList m.text ++
        " <= " ++ bound = "max " ++ name ++ " subject to " ++
          (name ++ " + " ++ String.ofList m.text ++ " <= " ++ bound) := by
      simp only [String.append_assoc]
    have hplus : String.ofList ('+' :: ' ' :: m.text) = "+ " ++ String.ofList m.text := by
      simp [← String.toList_inj]
    rw [hspec, hparts, hplus]
    rfl

/-- The numeral `2.5`. -/
def Mantissa.twoAndAHalf : Mantissa where
  whole := ['2']
  part := some ['5']
  isDigit_whole := List.forall_mem_singleton.mpr (by decide)
  isDigit_part := by
    rintro ds ⟨⟩
    exact List.forall_mem_singleton.mpr (by decide)

theorem read_constant_decimals :
    Mantissa.twoAndAHalf.digits ≠ [] ∧ isName "x".toList = true ∧
      readFloat? ("1 0".toList.filter (!isBlank ·)) = some 10 ∧
      expression? "2.5 x".toList = .ok ⟨[("x", 2.5)], 0⟩ ∧
      read "max x subject to x + 2.5 <= 1 0" = .ok ⟨.max, [1], [⟨"c1", [1], .le, 7.5⟩]⟩ := by
  have hdigits : Mantissa.twoAndAHalf.digits ≠ [] := by decide
  have hname : isName "x".toList = true := by decide
  have hbound : readFloat? ("1 0".toList.filter (!isBlank ·)) = some 10 := by rfl
  have hvalue : Mantissa.twoAndAHalf.value = 2.5 := by rfl
  obtain ⟨-, hterm, hread⟩ := read_constant Mantissa.twoAndAHalf hdigits hname hbound
  rw [hvalue] at hterm
  rw [if_neg (by decide), if_neg (by decide), hvalue,
    show (10 : Float) - 2.5 = 7.5 by decide +kernel] at hread
  exact ⟨hdigits, hname, hbound, hterm, hread⟩

/-- As a coefficient and as a bound, `.5` is a half, but `x + .5 <= 2` is read as `x <= -3`. -/
theorem read_constant_point :
    expression? ".5 x".toList = .ok ⟨[("x", 0.5)], 0⟩ ∧ readFloat? ".5".toList = some 0.5 ∧
      read "max x subject to x + .5 <= 2" = .ok ⟨.max, [1], [⟨"c1", [1], .le, -3⟩]⟩ ∧
      (-3 : Float) ≠ 2 - 0.5 :=
  ⟨by rfl, by rfl, by rfl, by decide +kernel⟩

end Readings

end SimplexTableau.Specification
