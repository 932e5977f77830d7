import SimplexTableau.Proofs.Entries
import SimplexTableau.Proofs.Introductions
import SimplexTableau.Proofs.Scanning
import SimplexTableau.Proofs.SpecRoundTrip

/-!
# Bare names in front of a segment

Bare names are gathered and put in front of the segment that follows, set off by bars. The relation
sign is searched for behind them, so they belong to the left-hand side. There they are found again,
between the bars if all of it is names, and else as terms of an expression with commas in it.
-/

namespace SimplexTableau.Specification

open SimplexTableau.Text SimplexTableau.Decimal

/-- Bare names and the segment that they belong to. -/
structure Group where
  names : List (List Char)
  segment : List Char

namespace Group

def tokens (g : Group) : List (List Char) :=
  g.names ++ [g.segment]

/-- The names in front of the segment, set off by bars. -/
def text (g : Group) : List Char :=
  " | ".toList.intercalate g.tokens

end Group

section Gathering

variable {pending tokens segments : List (List Char)}

/-- Every token that is not empty goes into a group. -/
lemma exists_groups (hpending : ∀ n ∈ pending, isName n = true)
    (h : gather pending tokens = .ok segments) : ∃ groups : List Group,
      pending ++ tokens.filter (· ≠ []) = groups.flatMap Group.tokens ∧
      segments = groups.map Group.text ∧
      ∀ g ∈ groups, (∀ n ∈ g.names, isName n = true) ∧ isName g.segment = false := by
  induction tokens generalizing pending segments with
  | nil =>
    cases pending with
    | nil =>
      obtain rfl : [] = segments := Except.ok.inj h
      exact ⟨[], rfl, rfl, by simp⟩
    | cons n pending => cases h
  | cons token tokens ih =>
    rw [gather] at h
    split_ifs at h with hempty hname
    · obtain rfl : token = [] := by simpa using hempty
      exact ih hpending h
    · have hmore : ∀ n ∈ pending ++ [token], isName n = true :=
        List.forall_mem_append.mpr ⟨hpending, List.forall_mem_singleton.mpr hname⟩
      have hne : token ≠ [] := by simpa using hempty
      obtain ⟨groups, htokens, hrest⟩ := ih hmore h
      refine ⟨groups, ?_, hrest⟩
      rw [← htokens, List.filter_cons_of_pos (by simpa using hne), List.append_assoc,
        List.singleton_append]
    · cases hsegments : gather [] tokens with
      | error fault =>
        rw [hsegments] at h
        cases h
      | ok rest =>
        rw [hsegments] at h
        obtain rfl := Except.ok.inj h
        have hne : token ≠ [] := by simpa using hempty
        obtain ⟨groups, htokens, rfl, hgroups⟩ := ih (by simp) hsegments
        refine ⟨⟨pending, token⟩ :: groups, ?_, rfl, ?_⟩
        · rw [List.flatMap_cons, ← htokens, List.filter_cons_of_pos (by simpa using hne)]
          simp [Group.tokens]
        · exact List.forall_mem_cons.mpr ⟨⟨hpending, by simpa using hname⟩, hgroups⟩

end Gathering

section Splitting

variable {a b cs rest : List Char} {n : List Char} {names : List (List Char)}

/-- Names with a blank in front of each and a blank and a mark behind. -/
def marked (mark : Char) (names : List (List Char)) (rest : List Char) : List Char :=
  names.foldr (fun n cs => ' ' :: (n ++ ' ' :: mark :: cs)) rest

/-- Removes the blanks at the end of a text. -/
def trimEnd (cs : List Char) : List Char :=
  (cs.reverse.dropWhile isBlank).reverse

lemma trim_eq_trimEnd : trim cs = trimEnd (cs.dropWhile isBlank) :=
  rfl

lemma trimEnd_append {c : Char} (hc : isBlank c = false) :
    trimEnd (a ++ c :: b) = a ++ c :: trimEnd b := by
  have hstop : (c :: a.reverse).dropWhile isBlank = c :: a.reverse :=
    List.dropWhile_cons_of_neg (by simp [hc])
  rw [trimEnd, List.reverse_append, List.reverse_cons, List.append_assoc, List.singleton_append,
    List.dropWhile_append, hstop]
  cases hb : b.reverse.dropWhile isBlank with
  | nil => simp [trimEnd, hb]
  | cons d ds => simp [trimEnd, hb]

lemma marked_cons {mark : Char} :
    marked mark (n :: names) rest = ' ' :: (n ++ ' ' :: mark :: marked mark names rest) :=
  rfl

lemma marked_append {mark : Char} : marked mark names rest = marked mark names [] ++ rest := by
  induction names with
  | nil => rfl
  | cons n names ih =>
    rw [marked_cons, marked_cons, ih]
    simp

lemma trimEnd_marked {mark : Char} (hmark : isBlank mark = false) :
    trimEnd (marked mark names rest) = marked mark names (trimEnd rest) := by
  induction names with
  | nil => rfl
  | cons n names ih =>
    have hcons : marked mark (n :: names) rest =
        (' ' :: n ++ [' ']) ++ mark :: marked mark names rest := by
      simp [marked_cons]
    rw [hcons, trimEnd_append hmark, ih, marked_cons]
    simp

lemma Group.cons_text (g : Group) : ' ' :: g.text = marked '|' g.names (' ' :: g.segment) := by
  obtain ⟨names, segment⟩ := g
  rw [Group.text, Group.tokens]
  dsimp only
  induction names with
  | nil => simp [marked]
  | cons n names ih =>
    have hne : names ++ [segment] ≠ [] := by simp
    have hbar : " | ".toList = [' ', '|', ' '] := rfl
    rw [List.cons_append, List.intercalate_cons_of_ne_nil hne, marked_cons, ← ih, hbar]
    simp

lemma forall_marked {P : Char → Prop} {mark : Char} (hblank : P ' ') (hmark : P mark)
    (hnames : ∀ n ∈ names, ∀ c ∈ n, P c) : ∀ c ∈ marked mark names [], P c := by
  induction names with
  | nil => simp [marked]
  | cons n names ih =>
    obtain ⟨hn, hnames⟩ := List.forall_mem_cons.mp hnames
    simp only [marked_cons, List.forall_mem_cons, List.forall_mem_append]
    exact ⟨hblank, hn, hblank, hmark, ih hnames⟩

/-- The left-hand side of a segment still has the bare names in front. -/
lemma exists_leftSide {g : Group} {before after : List Char} {r : Relation}
    (hnames : g.names = n :: names) (hisName : ∀ n ∈ g.names, isName n = true)
    (h : splitRelation? g.text = some (before, r, after)) :
    ∃ tail, trim before = n ++ ' ' :: '|' :: marked '|' names tail := by
  have hspace : isBlank ' ' = true := by decide
  have hbar : isBlank '|' = false := by decide
  have hquiet : ∀ c ∈ marked '|' g.names [], c ∉ ['<', '>', '='] := by
    refine forall_marked (by simp) (by simp) fun n hn c hc => ?_
    have hword := isWord_of_isName (hisName n hn) c hc
    simp only [List.mem_cons, List.not_mem_nil, or_false, not_or]
    exact ⟨ne_of_class (by decide) hword, ne_of_class (by decide) hword,
      ne_of_class (by decide) hword⟩
  have hpass := Written.splitRelation?_pass (' ' :: g.segment) hquiet
  have hblank : splitRelation? (' ' :: g.text) = some (' ' :: before, r, after) := by
    simp [splitRelation?, relationAt?, h]
  rw [← marked_append, ← g.cons_text, hblank] at hpass
  obtain ⟨⟨b, r', after'⟩, -, hbefore⟩ := Option.map_eq_some_iff.mp hpass.symm
  obtain ⟨hbefore, -⟩ := Prod.mk.inj hbefore
  rw [← marked_append, hnames, marked_cons] at hbefore
  have htidy : (n ++ ' ' :: '|' :: marked '|' names b).dropWhile isBlank =
      n ++ ' ' :: '|' :: marked '|' names b := by
    obtain ⟨d, ds, rfl, hd, -⟩ := isName_eq_cons (hisName n (hnames ▸ List.mem_cons_self))
    exact List.dropWhile_cons_of_neg (by simp [isBlank_of_isNameStart hd])
  have hcons : n ++ ' ' :: '|' :: marked '|' names b =
      (n ++ [' ']) ++ '|' :: marked '|' names b := by
    simp
  obtain rfl := (List.cons.inj hbefore).2
  refine ⟨trimEnd b, ?_⟩
  rw [trim_eq_trimEnd, htidy, hcons, trimEnd_append hbar, trimEnd_marked hbar]
  simp

lemma splitBars_name {lead : List Char} (rest : List Char) (hlead : lead = [] ∨ lead = [' '])
    (hn : isName n = true) :
    (splitBars (lead ++ (n ++ ' ' :: '|' :: rest))).map trim = n :: (splitBars rest).map trim := by
  have hspace : isBlank ' ' = true := by decide
  have hwidth : ∀ cs : List Char, ∀ before before',
      cut (fun _ rest => if List.head? rest = some '|' then 1 else 0) before 0 cs =
        cut (fun _ rest => if List.head? rest = some '|' then 1 else 0) before' 0 cs :=
    fun cs before before' => cut_before (fun _ _ _ => rfl) before before'
  have hinert : Inert (fun _ rest => if List.head? rest = some '|' then 1 else 0) none
      (lead ++ n ++ [' ']) (['|'] ++ rest) := by
    refine inert_of_forall fun c hc _ _ => ?_
    have hbar : c ≠ '|' := by
      rintro rfl
      simp only [List.mem_append, List.mem_singleton, Char.reduceEq, or_false] at hc
      obtain hc | hc := hc
      · obtain rfl | rfl := hlead <;> simp at hc
      · exact absurd (isWord_of_isName hn _ hc) (by decide)
    simp [hbar]
  have hcut := cut_separator hinert (List.cons_ne_nil _ _) rfl
  have htext : lead ++ (n ++ ' ' :: '|' :: rest) = lead ++ n ++ [' '] ++ (['|'] ++ rest) := by simp
  have htrim : trim (lead ++ n ++ [' ']) = n := by
    refine (strip_concat hspace).trans ?_
    obtain rfl | rfl := hlead
    · exact (tidy_of_isName hn).trim_eq
    · exact (strip_cons hspace).trans (tidy_of_isName hn).trim_eq
  rw [splitBars, htext, hcut, List.map_cons, htrim, hwidth rest _ none]

lemma mem_splitBars (hn : isName n = true) (hnames : ∀ n ∈ names, isName n = true) :
    ∀ m ∈ n :: names, m ∈ (splitBars (n ++ ' ' :: '|' :: marked '|' names rest)).map trim := by
  have hmarked : ∀ m ∈ names, m ∈ (splitBars (marked '|' names rest)).map trim := by
    induction names with
    | nil => simp
    | cons n' names ih =>
      obtain ⟨hn', hnames⟩ := List.forall_mem_cons.mp hnames
      have hsplit := splitBars_name (marked '|' names rest) (.inr rfl) hn'
      rw [List.singleton_append, ← marked_cons] at hsplit
      rw [hsplit]
      exact List.forall_mem_cons.mpr ⟨List.mem_cons_self,
        fun m hm => List.mem_cons_of_mem _ (ih hnames m hm)⟩
  have hsplit := splitBars_name (marked '|' names rest) (.inl rfl) hn
  rw [List.nil_append] at hsplit
  rw [hsplit]
  exact List.forall_mem_cons.mpr ⟨List.mem_cons_self,
    fun m hm => List.mem_cons_of_mem _ (hmarked m hm)⟩

end Splitting

section Names

variable {cs gap n rest : List Char} {names : List (List Char)} {ps : List Piece}

lemma pieces_name (rest : List Char) (hgap : ∀ c ∈ gap, isBlank c = true) (hn : isName n = true) :
    ∃ t : Term, t.name = n ∧
      pieces 0 (gap ++ (n ++ ' ' :: ',' :: rest)) =
        .term t :: .stray ' ' :: .stray ',' :: pieces 0 rest := by
  let t : TermText :=
    ⟨[], gap, ⟨[], none, by simp, by simp⟩, [], n, .inl rfl, hgap, by simp, hn⟩
  have htext : gap ++ (n ++ ' ' :: ',' :: rest) = t.text ++ ' ' :: ',' :: rest := by
    simp [t, TermText.text, Mantissa.text]
  have hfound : termAt? (t.text ++ ' ' :: ',' :: rest) = some t.term := by
    refine t.termAt?_text ?_
    rintro c ⟨⟩
    decide
  have hblank : termAt? (' ' :: ',' :: rest) = none := rfl
  have hcomma : termAt? (',' :: rest) = none := rfl
  refine ⟨t.term, rfl, ?_⟩
  rw [htext, pieces_term t.text_ne_nil hfound rfl, pieces_stray hblank, pieces_stray hcomma]

lemma exists_term_marked (rest : List Char) (hn : isName n = true)
    (hnames : ∀ n ∈ names, isName n = true) :
    ∀ m ∈ n :: names, ∃ t : Term, t.name = m ∧
      .term t ∈ pieces 0 (n ++ ' ' :: ',' :: marked ',' names rest) := by
  have hmarked : ∀ m ∈ names, ∃ t : Term, t.name = m ∧
      .term t ∈ pieces 0 (marked ',' names rest) := by
    induction names with
    | nil => simp
    | cons n' names ih =>
      obtain ⟨hn', hnames⟩ := List.forall_mem_cons.mp hnames
      obtain ⟨t, ht, hpieces⟩ := @pieces_name [' '] n' (marked ',' names rest)
        (by simp [isBlank, isSpace]) hn'
      rw [List.singleton_append, ← marked_cons] at hpieces
      rw [hpieces]
      refine List.forall_mem_cons.mpr ⟨⟨t, ht, List.mem_cons_self⟩, fun m hm => ?_⟩
      obtain ⟨u, hu, hmem⟩ := ih hnames m hm
      exact ⟨u, hu, by simp [hmem]⟩
  obtain ⟨t, ht, hpieces⟩ := @pieces_name [] n (marked ',' names rest) (by simp) hn
  rw [List.nil_append] at hpieces
  rw [hpieces]
  refine List.forall_mem_cons.mpr ⟨⟨t, ht, List.mem_cons_self⟩, fun m hm => ?_⟩
  obtain ⟨u, hu, hmem⟩ := hmarked m hm
  exact ⟨u, hu, by simp [hmem]⟩

lemma mem_names_of_sumTerms {acc form : List (String × Float)} (h : sumTerms ps acc = .ok form) :
    (∀ name ∈ acc.map (·.1), name ∈ form.map (·.1)) ∧
      ∀ t : Term, .term t ∈ ps → String.ofList t.name ∈ form.map (·.1) := by
  induction ps generalizing acc with
  | nil =>
    obtain rfl := Except.ok.inj h
    exact ⟨fun _ hname => hname, by simp⟩
  | cons p ps ih =>
    cases p with
    | stray c =>
      obtain ⟨hacc, hterms⟩ := ih h
      exact ⟨hacc, fun t ht => hterms t (by simpa using ht)⟩
    | term t =>
      rw [sumTerms] at h
      cases hvalue : coefficientValue t.coefficient with
      | error fault =>
        rw [hvalue] at h
        cases h
      | ok value =>
        rw [hvalue] at h
        obtain ⟨hacc, hterms⟩ := ih h
        have hnote : ∀ {known : List String} {name : String},
            (∀ k ∈ known, k ∈ noteName known name) ∧ name ∈ noteName known name := by
          intro known name
          unfold noteName
          split_ifs with hmem
          · exact ⟨fun _ hk => hk, List.contains_iff_mem.mp hmem⟩
          · exact ⟨fun k hk => by simp [hk], by simp⟩
        rw [map_addTerm] at hacc
        refine ⟨fun name hname => hacc name (hnote.1 name hname), fun u hu => ?_⟩
        obtain hu | hu := List.mem_cons.mp hu
        · obtain rfl := Piece.term.inj hu
          exact hacc _ hnote.2
        · exact hterms u hu

lemma mem_names_of_expression? {text : List Char} {form : LinearForm Float} {t : Term}
    (h : expression? text = .ok form) (ht : .term t ∈ pieces 0 (text.filter (· ≠ '*'))) :
    String.ofList t.name ∈ form.terms.map (·.1) := by
  obtain ⟨terms, hsum, h⟩ := bind_eq_ok.mp h
  simp only [bind, Except.bind] at h
  split_ifs at h
  obtain rfl := Except.ok.inj h
  exact (mem_names_of_sumTerms hsum).2 t ht

end Names

end SimplexTableau.Specification
