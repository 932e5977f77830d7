import SimplexTableau.Proofs.ConstantBounds
import SimplexTableau.Proofs.Segments
import SimplexTableau.Proofs.Tokens

/-!
# Lists of variables

A list of variables is names with gaps between them. The last name and a bound on it make one token,
and every name in front of it makes one of its own. So the names are gathered in front of the bound,
and found again as the variables that it applies to. No phrase that introduces constraints starts in
a list or goes over to the next name.
-/

namespace SimplexTableau.Specification

open SimplexTableau.Text SimplexTableau.Decimal Written

section Characters

variable {c : Char} {w rest : List Char} {before : Option Char}

lemma sameLetter_of_isBlank (h : isBlank c = true) :
    sameLetter 's' c = false ∧ sameLetter 'd' c = false ∧ sameLetter 't' c = false := by
  have hlower : c.toLower = c := by
    obtain ⟨r, hr, hlow, hhigh⟩ := exists_range_of_isBlank h
    have hletters : ∀ r ∈ blankRanges, r.2 < 65 ∨ 90 < r.1 := by decide
    have := hletters r hr
    exact toLower_eq_self (by omega)
  have hne : ∀ d ∈ ['s', 'd', 't'], c ≠ d := by
    rintro d hd rfl
    fin_cases hd <;> exact absurd h (by decide)
  have hlong : c.toNat ≠ 0x17F := by
    intro hcode
    rw [← Char.ofNat_toNat c, hcode] at h
    exact absurd h (by decide)
  simp only [List.forall_mem_cons] at hne
  simp [sameLetter, hlower, hne, hlong]

lemma quiet_of_isBlank (h : isBlank c = true) : Quiet c :=
  ⟨(sameLetter_of_isBlank h).1, (sameLetter_of_isBlank h).2.1,
    by rintro rfl; exact absurd h (by decide), by rintro rfl; exact absurd h (by decide)⟩

lemma silent_word (hw : ∀ c ∈ w, isWord c = true) : Silent w := by
  intro blank before
  by_cases hne : w = []
  · rw [hne]
    trivial
  · have hsqueeze : squeeze blank (w ++ []) = w ++ squeeze false [] :=
      squeeze_word (fun c hc => isBlank_of_isWord (hw c hc)) hne
    rw [List.append_nil] at hsqueeze
    rw [hsqueeze]
    exact inert_append.mpr ⟨inert_introductionWidth_word hw (.inl rfl), trivial⟩

lemma inert_of_steady {width : Option Char → List Char → ℕ} (h : Steady width w rest) :
    Inert width before w rest ↔ Inert width before w [] := by
  induction w generalizing before with
  | nil => exact Iff.rfl
  | cons c w ih =>
    have htail : Steady width w rest := fun x hx => h x (hx.trans (List.suffix_cons _ _))
    rw [Inert, Inert, ih htail, h _ List.suffix_rfl (List.cons_ne_nil _ _), List.append_nil]

end Characters

section Gaps

variable {before : Option Char} {gap rest : List Char} {blank : Bool}

lemma Gap.sameLetter (h : Gap before gap rest) : ∀ c ∈ gap, sameLetter 's' c = false := by
  induction h with
  | nil => simp
  | blank hc _ ih => exact List.forall_mem_cons.mpr ⟨(sameLetter_of_isBlank hc).1, ih⟩
  | separator hsep _ ih =>
    refine List.forall_mem_append.mpr ⟨?_, ih⟩
    cases hsep with
    | comma => simp [Text.sameLetter]
    | semicolon => simp [Text.sameLetter]
    | word hw =>
      intro c hc
      have hlower : c.toLower ∈ ['a', 'n', 'd'] := hw ▸ List.mem_map_of_mem hc
      have hcode : c.toNat ≠ 0x17F := by
        intro hcode
        rw [← Char.ofNat_toNat c, hcode] at hlower
        exact absurd hlower (by decide)
      simp only [List.mem_cons, List.not_mem_nil, or_false] at hlower
      obtain h | h | h := hlower <;> simp [Text.sameLetter, h, hcode]

/-- No phrase goes over to a gap, since no separator goes on in one. -/
lemma Gap.stops (h : Gap before gap rest) (hparts : Parting gap ∨ rest = []) :
    (∀ blank, Stops (squeeze blank (gap ++ rest))) ∧
      ∀ c ∈ (squeeze true (gap ++ rest)).head?, Text.sameLetter 't' c = false := by
  induction h with
  | nil =>
    obtain ⟨c, hc, -⟩ | rfl := hparts
    · cases hc
    · exact ⟨fun _ => stops_nil, by simp [squeeze]⟩
  | @blank before c gap rest hc _ ih =>
    obtain ⟨hstops, hhead⟩ := ih (hparts.imp_left (by
      rintro ⟨d, hd, hblank⟩
      obtain rfl | hd := List.mem_cons.mp hd
      · rw [hc] at hblank
        cases hblank
      · exact ⟨d, hd, hblank⟩))
    rw [List.cons_append, squeeze_blank hc]
    refine ⟨fun blank => ?_, hhead⟩
    cases blank with
    | true =>
      rw [squeeze_blank hc]
      exact hstops true
    | false =>
      rw [squeeze_space hc]
      cases hsqueeze : squeeze true (gap ++ rest) with
      | nil => exact stops_space
      | cons d ds => exact stops_pair (.inl rfl) (hhead d (by rw [hsqueeze]; rfl))
  | @separator before sep gap rest hsep _ _ =>
    have hsqueeze : ∀ blank, squeeze blank (sep ++ gap ++ rest) =
        sep ++ squeeze false (gap ++ rest) := fun blank => by
      rw [List.append_assoc, squeeze_word hsep.isBlank_eq_false hsep.ne_nil]
    simp only [hsqueeze, forall_const]
    cases hsep with
    | comma =>
      exact ⟨stops_cons (by simp [innerLetters, Text.sameLetter]), by simp [Text.sameLetter]⟩
    | semicolon =>
      exact ⟨stops_cons (by simp [innerLetters, Text.sameLetter]), by simp [Text.sameLetter]⟩
    | word hw =>
      obtain ⟨a, n, d, rfl, ha, hn, -⟩ := exists_and_letters hw
      exact ⟨stops_pair (.inr ha) (by simp [Text.sameLetter, hn]), by simp [Text.sameLetter, ha]⟩

end Gaps

lemma isName_of_mem {names : List Name} {w : List Char} (h : w ∈ names.map Name.text) :
    isName w = true := by
  obtain ⟨n, -, rfl⟩ := List.mem_map.mp h
  exact n.isName_text

/-- Names with gaps between them. -/
inductive Listed : List Name → List Char → Prop where
  | one (n : Name) : Listed [n] n.text
  | cons {n : Name} {names : List Name} {gap text : List Char} (hgap : Divides n.text gap text)
      (h : Listed names text) : Listed (n :: names) (n.text ++ (gap ++ text))

namespace Listed

variable {names : List Name} {text rest : List Char}

lemma ne_nil (h : Listed names text) : text ≠ [] := by
  cases h with
  | one n => exact List.cons_ne_nil _ _
  | cons => exact List.append_ne_nil_of_left_ne_nil (List.cons_ne_nil _ _) _

lemma names_ne_nil (h : Listed names text) : names ≠ [] := by
  cases h <;> simp

lemma inert_text (n : Name) {before : Option Char} : Inert separatorWidth before n.text [] := by
  have hsteady : Steady separatorWidth n.text [' '] := steady_separatorWidth (.inr (by decide))
  exact (inert_of_steady hsteady).mp (inert_separatorWidth_word n.isWord_text n.ne_and)

lemma tokensOf_text (n : Name) : tokensOf none n.text = [n.text] := by
  have hcollapse : collapse n.text = n.text := n.tidy.collapse_eq
  rw [tokensOf, cut_whole (inert_text n), List.map_singleton, hcollapse]
  simp [Name.text]

lemma exists_tokensOf (h : Listed names text) (rest : List Char) :
    ∃ init last, names = init ++ [last] ∧ tokensOf none (text ++ rest) =
      init.map Name.text ++ tokensOf none (last.text ++ rest) := by
  induction h with
  | one n => exact ⟨[], n, rfl, rfl⟩
  | @cons n names gap text hgap h ih =>
    obtain ⟨init, last, rfl, htokens⟩ := ih
    refine ⟨n :: init, last, rfl, ?_⟩
    rw [List.append_assoc, List.append_assoc, (hgap.append_right h.ne_nil).tokensOf_eq,
      tokensOf_text, htokens]
    rfl

lemma tokensOf_trail (h : Listed names text) {trail : List Char} (htrail : Divides text trail []) :
    tokensOf none (text ++ trail) = names.map Name.text := by
  obtain ⟨init, last, rfl, htokens⟩ := h.exists_tokensOf []
  have htrimmed := htrail.tokensOf_eq
  rw [List.append_nil, tokensOf_nil, List.append_nil] at htrimmed
  rw [List.append_nil, List.append_nil, tokensOf_text] at htokens
  rw [htrimmed, htokens, List.map_append, List.map_singleton]

lemma silent (h : Listed names text) (hrest : Silent rest)
    (hstops : ∀ blank, Stops (squeeze blank rest)) : Silent (text ++ rest) := by
  induction h with
  | one n => exact (silent_word n.isWord_text).append hrest (.inr hstops)
  | @cons n names gap text hgap h ih =>
    have hparting := hgap.parting (List.cons_ne_nil _ _) h.ne_nil
    have hgap : Gap n.text.getLast? gap (text ++ rest) := (hgap.append_right h.ne_nil).isGap
    rw [List.append_assoc, List.append_assoc]
    exact (silent_word n.isWord_text).append (ih.prepend hgap.sameLetter)
      (.inr (hgap.stops (.inl hparting)).1)

end Listed

/-- A relation and a finite bound, as they stand behind a variable. -/
structure Comparison where
  pad : List Char
  sign : Sign
  bound : List Char
  rhs : Float
  isBlank_pad : ∀ c ∈ pad, isBlank c = true
  readFloat?_bound : readFloat? (bound.filter (!isBlank ·)) = some rhs
  isFinite_rhs : rhs.isFinite = true

namespace Comparison

variable {c : Comparison} {n : Name} {names : List Name}

def text (c : Comparison) : List Char :=
  c.pad ++ (c.sign.text ++ c.bound)

/-- What the comparison says of a variable. -/
def statement (c : Comparison) (n : Name) : Statement Float :=
  ⟨[(n.string, 1)], c.sign.relation, c.rhs⟩

lemma sign_eq_cons (s : Sign) : ∃ d ds, s.text = d :: ds ∧ d ∈ ['<', '>', '='] := by
  cases s <;> exact ⟨_, _, rfl, by simp⟩

lemma bound_cases (c : Comparison) : ∀ d ∈ c.bound, isBlank d = true ∨ IsNumeric d := by
  intro d hd
  by_cases hblank : isBlank d = true
  · exact .inl hblank
  · have hspace : ∀ e ∈ c.bound.filter (!isBlank ·), isSpace e = false := by
      intro e he
      have he : isBlank e = false := by simpa using (List.mem_filter.mp he).2
      exact (Bool.or_eq_false_iff.mp he).1
    exact .inr (isNumeric_of_readFloat? hspace c.readFloat?_bound d
      (List.mem_filter.mpr ⟨hd, by simpa using hblank⟩))

lemma notMem_signs (c : Comparison) {lead : List Char} (hlead : IsEdge lead) :
    ∀ d ∈ (lead ++ collapse c.bound).head?, d ∉ ['<', '>', '='] := by
  have hnumeric : ∀ d ∈ ['<', '>', '='], ¬ IsNumeric d := by
    rintro d hd (h | h | h) <;> fin_cases hd <;> exact absurd h (by decide)
  rintro d hd hsign
  obtain rfl | rfl := hlead
  · have hblank : d ≠ ' ' := by
      rintro rfl
      simp at hsign
    have hmem := List.mem_filter.mp ((mem_collapse (List.mem_of_mem_head? hd)).resolve_left hblank)
    obtain h | h := c.bound_cases d hmem.1
    · rw [h] at hmem
      exact absurd hmem.2 (by decide)
    · exact hnumeric d hsign h
  · obtain rfl := Option.some.inj hd
    simp at hsign

lemma quiet (c : Comparison) : ∀ d ∈ c.text, Quiet d := by
  have hsign : ∀ d ∈ c.sign.text, Quiet d := by
    cases c.sign <;> simp [Sign.text, Quiet, sameLetter]
  refine List.forall_mem_append.mpr ⟨fun d hd => quiet_of_isBlank (c.isBlank_pad d hd),
    List.forall_mem_append.mpr ⟨hsign, fun d hd => ?_⟩⟩
  exact (c.bound_cases d hd).elim quiet_of_isBlank IsNumeric.quiet

lemma isWord_head (c : Comparison) : ∀ d ∈ c.text.head?, isWord d = false := by
  intro d hd
  cases hpad : c.pad with
  | nil =>
    obtain ⟨e, es, hsign, he⟩ := sign_eq_cons c.sign
    rw [text, hpad, hsign] at hd
    obtain rfl := Option.some.inj hd
    fin_cases he <;> decide
  | cons e pad =>
    rw [text, hpad] at hd
    obtain rfl := Option.some.inj hd
    exact isWord_of_isBlank (c.isBlank_pad e (hpad ▸ List.mem_cons_self))

lemma squeeze_text (c : Comparison) (blank : Bool) :
    squeeze blank c.text = squeeze blank c.pad ++ (c.sign.text ++ squeeze false c.bound) := by
  have hsign : ∀ d ∈ c.sign.text, isBlank d = false := by
    cases c.sign <;> simp [Sign.text, isBlank, isSpace]
  have hne : c.sign.text ≠ [] := by cases c.sign <;> simp [Sign.text]
  rw [text, squeeze_append, squeeze_word hsign hne]

lemma stops (c : Comparison) (rest : List Char) (blank : Bool) :
    Stops (squeeze blank (c.text ++ rest)) := by
  obtain ⟨d, ds, hsign, hd⟩ := sign_eq_cons c.sign
  have hinner : ∀ p ∈ innerLetters, sameLetter p d = false := by
    fin_cases hd <;> simp [innerLetters, sameLetter]
  rw [squeeze_append, squeeze_text, hsign]
  have hedge : IsEdge (squeeze blank c.pad) := isEdge_squeeze c.isBlank_pad
  obtain hpad | hpad := hedge
  · rw [hpad]
    exact stops_cons hinner
  · rw [hpad]
    exact stops_pair (.inl rfl) (hinner 't' (by decide))

lemma tokensOf_text (c : Comparison) (n : Name) :
    tokensOf none (n.text ++ c.text) = [collapse (n.text ++ c.text)] := by
  have hsteady : Steady separatorWidth n.text c.text := by
    refine steady_separatorWidth (.inr ?_)
    cases hhead : c.text.head? with
    | none => rfl
    | some d => exact c.isWord_head d hhead
  have hinert : Inert separatorWidth none (n.text ++ c.text) [] := by
    refine inert_append.mpr ⟨?_, inert_separatorWidth_quiet c.quiet⟩
    rw [List.append_nil]
    exact (inert_of_steady hsteady).mpr (Listed.inert_text n)
  have hne : collapse (n.text ++ c.text) ≠ [] := by
    refine (tidy_collapse fun hwords => ?_).ne_nil
    have hfirst := isBlank_of_words_eq_nil hwords n.first (by simp [Name.text])
    rw [isBlank_of_isNameStart n.isNameStart_first] at hfirst
    cases hfirst
  rw [tokensOf, cut_whole hinert, List.map_singleton]
  simp [hne]

lemma exists_collapse_text (c : Comparison) (n : Name) : ∃ lead, IsEdge lead ∧
    collapse (n.text ++ c.text) = n.text ++ (squeeze false c.pad ++
      (c.sign.text ++ (lead ++ collapse c.bound))) := by
  obtain ⟨lead, trail, hlead, htrail, hbound⟩ := exists_squeeze false c.bound
  refine ⟨lead, hlead, ?_⟩
  have htidy : Tidy (collapse c.bound) := tidy_collapse (words_bound_ne_nil c.readFloat?_bound)
  have hsqueeze : squeeze true (n.text ++ c.text) = n.text ++ (squeeze false c.pad ++
      (c.sign.text ++ (lead ++ collapse c.bound))) ++ trail := by
    rw [squeeze_word (fun d hd => isBlank_of_isWord (n.isWord_text d hd)) (List.cons_ne_nil _ _),
      squeeze_text, hbound]
    simp only [List.append_assoc]
  rw [← trim_squeeze true, hsqueeze, htrail.trim_concat]
  refine strip_eq_self ?_ ?_
  · rintro d hd
    obtain rfl : n.first = d := by simpa [Name.text] using hd
    exact isBlank_of_isNameStart n.isNameStart_first
  · intro d hd
    refine htidy.getLast? d ?_
    simpa [List.getLast?_append_of_ne_nil, htidy.ne_nil] using hd

end Comparison

section Groups

variable {names : List (List Char)} {n m : List Char} {rest : List Char}

lemma relationAt?_text (s : Sign) (h : ∀ c ∈ rest.head?, c ∉ ['<', '>', '=']) :
    relationAt? (s.text ++ rest) = some (s.relation, rest) := by
  cases s with
  | eq =>
    cases rest with
    | nil => rfl
    | cons c rest =>
      have hc := h c rfl
      simp only [List.mem_cons, List.not_mem_nil, or_false, not_or] at hc
      simp only [Sign.text, List.singleton_append]
      unfold relationAt?
      split <;> simp_all [Sign.relation]
  | _ => rfl

lemma splitBars_marked (hnames : ∀ m ∈ names, isName m = true) (hn : isName n = true) :
    (splitBars (marked '|' names (' ' :: n))).map trim = names ++ [n] := by
  induction names with
  | nil =>
    have hwhole : splitBars (' ' :: n) = [' ' :: n] := by
      refine cut_whole (inert_of_forall fun c hc _ _ => ?_)
      have hbar : c ≠ '|' := by
        obtain rfl | hc := List.mem_cons.mp hc
        · decide
        · exact ne_of_class (by decide) (isWord_of_isName hn c hc)
      simp [hbar]
    have htrim : trim (' ' :: n) = n := (strip_cons (by decide)).trans (tidy_of_isName hn).trim_eq
    rw [marked, List.foldr_nil, hwhole, List.map_singleton, htrim, List.nil_append]
  | cons m names ih =>
    obtain ⟨hm, hnames⟩ := List.forall_mem_cons.mp hnames
    have hsplit := splitBars_name (marked '|' names (' ' :: n)) (.inr rfl) hm
    rw [List.singleton_append, ← marked_cons] at hsplit
    rw [hsplit, ih hnames, List.cons_append]

lemma leftSides_marked (hm : isName m = true) (hnames : ∀ m ∈ names, isName m = true)
    (hn : isName n = true) :
    leftSides (m ++ ' ' :: '|' :: marked '|' names (' ' :: n)) =
      .ok ((m :: (names ++ [n])).map fun name => ⟨[(String.ofList name, 1)], 0⟩) := by
  have hsplit := splitBars_name (marked '|' names (' ' :: n)) (.inl rfl) hm
  rw [List.nil_append, splitBars_marked hnames hn] at hsplit
  have hall : (m :: (names ++ [n])).all isName = true := by
    rw [List.all_eq_true]
    exact List.forall_mem_cons.mpr ⟨hm, List.forall_mem_append.mpr
      ⟨hnames, List.forall_mem_singleton.mpr hn⟩⟩
  rw [leftSides, hsplit]
  simp only [hall, Bool.and_true]
  rw [if_pos (by simp)]
  rfl

lemma trim_marked (hm : isName m = true) (hn : isName n = true) {trail : List Char}
    (htrail : IsEdge trail) :
    trim (m ++ ' ' :: '|' :: marked '|' names (' ' :: (n ++ trail))) =
      m ++ ' ' :: '|' :: marked '|' names (' ' :: n) := by
  have hassoc : m ++ ' ' :: '|' :: marked '|' names (' ' :: (n ++ trail)) =
      (m ++ ' ' :: '|' :: marked '|' names (' ' :: n)) ++ trail := by
    rw [@marked_append (' ' :: (n ++ trail)), @marked_append (' ' :: n)]
    simp
  obtain ⟨c, cs, rfl, hc, -⟩ := isName_eq_cons hm
  rw [hassoc, htrail.trim_concat]
  refine strip_eq_self ?_ fun d hd => ?_
  · rintro d ⟨⟩
    exact isBlank_of_isNameStart hc
  · rw [@marked_append (' ' :: n)] at hd
    refine (tidy_of_isName hn).getLast? d ?_
    have hne := (tidy_of_isName hn).ne_nil
    simpa [List.getLast?_append_of_ne_nil, List.getLast?_cons_of_ne_nil, hne] using hd

end Groups

namespace Comparison

/-- Names with bars between them and a comparison behind the last fall into the names, the relation
and the bound. -/
lemma group_text (c : Comparison) (first last : Name) (names : List Name) {lead : List Char}
    (hcollapse : collapse (last.text ++ c.text) = last.text ++ (squeeze false c.pad ++
      (c.sign.text ++ (lead ++ collapse c.bound)))) :
    Group.text ⟨(first :: names).map Name.text, collapse (last.text ++ c.text)⟩ =
      (first.text ++ ' ' :: '|' :: marked '|' (names.map Name.text)
        (' ' :: (last.text ++ squeeze false c.pad))) ++
          (c.sign.text ++ (lead ++ collapse c.bound)) := by
  have hcons : ' ' :: Group.text
      ⟨(first :: names).map Name.text, collapse (last.text ++ c.text)⟩ =
        ' ' :: (first.text ++ ' ' :: '|' :: marked '|' (names.map Name.text)
          (' ' :: collapse (last.text ++ c.text))) := Group.cons_text _
  rw [(List.cons.inj hcons).2, hcollapse, marked_append,
    @marked_append (' ' :: (last.text ++ squeeze false c.pad))]
  simp

lemma notMem_signs_marked (first last : Name) (names : List Name) {trail : List Char}
    (htrail : IsEdge trail) : ∀ d ∈ first.text ++ ' ' :: '|' ::
      marked '|' (names.map Name.text) (' ' :: (last.text ++ trail)), d ∉ ['<', '>', '='] := by
  have hname : ∀ n : Name, ∀ d ∈ n.text, d ∉ ['<', '>', '='] := by
    intro n d hd hsign
    have hword := n.isWord_text d hd
    fin_cases hsign <;> exact absurd hword (by decide)
  have hmarked : ∀ d ∈ marked '|' (names.map Name.text) [], d ∉ ['<', '>', '='] := by
    refine forall_marked (by simp) (by simp) fun m hm => ?_
    obtain ⟨n, -, rfl⟩ := List.mem_map.mp hm
    exact hname n
  have hedge : ∀ d ∈ trail, d ∉ ['<', '>', '='] := by
    obtain rfl | rfl := htrail <;> simp
  rw [marked_append]
  simp only [List.forall_mem_append, List.forall_mem_cons]
  exact ⟨hname first, by simp, by simp, hmarked, by simp, hname last, hedge⟩

/-- A comparison behind two names or more is read as one statement for each of them. -/
theorem statements_group (c : Comparison) {init : List Name} (hinit : init ≠ []) (last : Name) :
    statements (Group.text ⟨init.map Name.text, collapse (last.text ++ c.text)⟩) =
      .ok ((init ++ [last]).map c.statement) := by
  obtain ⟨first, names, rfl⟩ := List.exists_cons_of_ne_nil hinit
  obtain ⟨lead, hlead, hcollapse⟩ := c.exists_collapse_text last
  have hbound : Tidy (collapse c.bound) := tidy_collapse (words_bound_ne_nil c.readFloat?_bound)
  have hpad : IsEdge (squeeze false c.pad) := isEdge_squeeze c.isBlank_pad
  have hne : c.sign.text ++ (lead ++ collapse c.bound) ≠ [] := by
    obtain ⟨d, ds, hsign, -⟩ := sign_eq_cons c.sign
    simp [hsign]
  have hsplit := splitRelation?_append (notMem_signs_marked first last names hpad) hne
    (relationAt?_text c.sign (c.notMem_signs hlead))
  have hright : trim (lead ++ collapse c.bound) = collapse c.bound := by
    rw [hlead.trim_append, trim_collapse]
  have hleft : trim (first.text ++ ' ' :: '|' :: marked '|' (names.map Name.text)
      (' ' :: (last.text ++ squeeze false c.pad))) =
        first.text ++ ' ' :: '|' :: marked '|' (names.map Name.text) (' ' :: last.text) :=
    trim_marked first.isName_text last.isName_text hpad
  have hempty : ((first.text ++ ' ' :: '|' :: marked '|' (names.map Name.text)
      (' ' :: last.text)).isEmpty || (collapse c.bound).isEmpty) = false := by
    simp [hbound.ne_nil]
  rw [statements, c.group_text first last names hcollapse, hsplit]
  simp only [hleft, hright, hempty, filter_collapse, c.readFloat?_bound,
    leftSides_marked first.isName_text (fun _ => isName_of_mem) last.isName_text, bind, Except.bind]
  rw [if_neg Bool.false_ne_true]
  have hlist : first.text :: (names.map Name.text ++ [last.text]) =
      (first :: names ++ [last]).map Name.text := by
    simp
  refine congrArg Except.ok ?_
  rw [hlist, List.map_map, List.map_map]
  refine List.map_congr_left fun n _ => ?_
  simp only [Function.comp_apply, Double.sub_zero]
  rfl

end Comparison

end SimplexTableau.Specification
