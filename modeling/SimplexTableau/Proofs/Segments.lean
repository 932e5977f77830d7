import SimplexTableau.Proofs.Groups

/-!
# What becomes of the segments

The constraints of a specification are those between the first phrase that introduces any and the
second one. Between its separators, each text that is no bare name makes at least one statement, and
the bare names in front of it are among the variables of these statements. A statement becomes a
constraint unless it only says that a variable is not negative. Behind a second phrase, nothing is
looked at.
-/

namespace SimplexTableau.Specification

open SimplexTableau.Text SimplexTableau.Decimal

/-- The numerals of a specification lose the spaces that they are written with, and no other
character. -/
theorem numerals_in_words {cs : List Char} :
    (∀ t : TermText, t.text <:+: collapse cs →
      t.coefficient = (t.sign ++ (t.gap ++ t.mantissa.text)).filter (· ≠ ' ')) ∧
    ∀ n : NumberText, n.text <:+: collapse cs → n.numeral = n.text.filter (· ≠ ' ') := by
  refine ⟨fun t ht => ?_, fun n hn => ?_⟩
  · have hnumeral : t.sign ++ (t.gap ++ t.mantissa.text) <:+: collapse cs := by
      refine List.IsInfix.trans ⟨[], t.space ++ t.name, ?_⟩ ht
      simp [TermText.text]
    rw [← filter_of_infix_collapse hnumeral, filter_signed t.isSign t.isBlank_gap]
    rfl
  · rw [← filter_of_infix_collapse hn, NumberText.numeral_eq_filter]

/-- What comes of a group: statements, with the bare names among their variables. -/
structure Group.States (g : Group) (stated : List (Statement Float)) : Prop where
  isName_names : ∀ n ∈ g.names, isName n = true
  isName_segment : isName g.segment = false
  read : statements g.text = .ok stated
  ne_nil : stated ≠ []
  mem_names : ∀ n ∈ g.names, ∃ s ∈ stated, String.ofList n ∈ s.terms.map (·.1)

section Statements

variable {n tail lhs segment : List Char} {names : List (List Char)}
  {forms : List (LinearForm Float)} {stated : List (Statement Float)}

lemma leftSides_eq_ok (h : leftSides lhs = .ok forms) :
    forms = ((splitBars lhs).map trim).map (fun name => ⟨[(String.ofList name, 1)], 0⟩) ∧
        (splitBars lhs).map trim ≠ [] ∨
      ∃ form, forms = [form] ∧
        expression? (lhs.map fun c => if c = '|' then ',' else c) = .ok form := by
  rw [leftSides] at h
  split_ifs at h with hnames
  · have hlength : 1 < ((splitBars lhs).map trim).length := by
      simp only [Bool.and_eq_true, decide_eq_true_eq] at hnames
      exact hnames.1
    exact .inl ⟨(Except.ok.inj h).symm, List.length_pos_iff.mp (by omega)⟩
  · cases hform : expression? (lhs.map fun c => if c = '|' then ',' else c) with
    | error fault =>
      rw [hform] at h
      cases h
    | ok form =>
      rw [hform] at h
      exact .inr ⟨form, (Except.ok.inj h).symm, rfl⟩

lemma filter_map_name (hn : isName n = true) :
    (n.map fun c => if c = '|' then ',' else c).filter (· ≠ '*') = n := by
  have hword := isWord_of_isName hn
  have hmap : (n.map fun c => if c = '|' then ',' else c) = n :=
    (List.map_congr_left fun c hc => if_neg (ne_of_class (by decide) (hword c hc))).trans
      (List.map_id _)
  rw [hmap]
  exact List.filter_eq_self.mpr fun c hc => by simpa using ne_of_class (by decide) (hword c hc)

lemma filter_map_marked (hnames : ∀ n ∈ names, isName n = true) :
    ((marked '|' names tail).map fun c => if c = '|' then ',' else c).filter (· ≠ '*') =
      marked ',' names ((tail.map fun c => if c = '|' then ',' else c).filter (· ≠ '*')) := by
  induction names with
  | nil => rfl
  | cons n names ih =>
    obtain ⟨hn, hnames⟩ := List.forall_mem_cons.mp hnames
    have hname := filter_map_name hn
    rw [marked_cons, marked_cons, ← ih hnames]
    conv_rhs => rw [← hname]
    simp

lemma mem_names_of_leftSides (hn : isName n = true) (hnames : ∀ n ∈ names, isName n = true)
    (h : leftSides (n ++ ' ' :: '|' :: marked '|' names tail) = .ok forms) :
    ∀ m ∈ n :: names, ∃ form ∈ forms, String.ofList m ∈ form.terms.map (·.1) := by
  intro m hm
  obtain ⟨rfl, -⟩ | ⟨form, rfl, hform⟩ := leftSides_eq_ok h
  · exact ⟨_, List.mem_map_of_mem (mem_splitBars hn hnames m hm), by simp⟩
  · obtain ⟨t, rfl, ht⟩ := exists_term_marked ((tail.map fun c =>
      if c = '|' then ',' else c).filter (· ≠ '*')) hn hnames m hm
    refine ⟨form, List.mem_singleton_self _, mem_names_of_expression? hform ?_⟩
    have htext : ((n ++ ' ' :: '|' :: marked '|' names tail).map fun c =>
        if c = '|' then ',' else c).filter (· ≠ '*') = n ++ ' ' :: ',' :: marked ',' names
          ((tail.map fun c => if c = '|' then ',' else c).filter (· ≠ '*')) := by
      rw [List.map_append, List.filter_append, filter_map_name hn, ← filter_map_marked hnames]
      simp
    rw [htext]
    exact ht

lemma statements_eq_ok (h : statements segment = .ok stated) : ∃ before r after forms bound,
    splitRelation? segment = some (before, r, after) ∧ leftSides (trim before) = .ok forms ∧
      stated = forms.map fun form => ⟨form.terms, r, bound - form.constant⟩ := by
  rw [statements] at h
  cases hsplit : splitRelation? segment with
  | none =>
    rw [hsplit] at h
    cases h
  | some found =>
    obtain ⟨before, r, after⟩ := found
    rw [hsplit] at h
    simp only [bind, Except.bind] at h
    split_ifs at h
    cases hbound : readFloat? ((trim after).filter (· ≠ ' ')) with
    | none =>
      rw [hbound] at h
      cases h
    | some bound =>
      rw [hbound] at h
      obtain ⟨forms, hforms, h⟩ := bind_eq_ok.mp h
      exact ⟨before, r, after, forms, bound, rfl, hforms, (Except.ok.inj h).symm⟩

/-- A group that can be read states something, and its bare names are among the variables. -/
theorem Group.states {g : Group} (hnames : ∀ n ∈ g.names, isName n = true)
    (hsegment : isName g.segment = false) (h : statements g.text = .ok stated) :
    g.States stated := by
  obtain ⟨before, r, after, forms, bound, hsplit, hforms, rfl⟩ := statements_eq_ok h
  refine ⟨hnames, hsegment, h, ?_, fun m hm => ?_⟩
  · rw [ne_eq, List.map_eq_nil_iff]
    obtain ⟨rfl, hne⟩ | ⟨form, rfl, -⟩ := leftSides_eq_ok hforms
    · simpa using hne
    · exact List.cons_ne_nil _ _
  · obtain ⟨n, names, hcons⟩ := List.exists_cons_of_ne_nil (List.ne_nil_of_mem hm)
    obtain ⟨tail, htrim⟩ := exists_leftSide hcons hnames hsplit
    rw [htrim] at hforms
    rw [hcons] at hm hnames
    obtain ⟨hn, hrest⟩ := List.forall_mem_cons.mp hnames
    obtain ⟨form, hform, hmem⟩ := mem_names_of_leftSides hn hrest hforms m hm
    exact ⟨_, List.mem_map_of_mem hform, hmem⟩

end Statements

/-- The variables of a problem, by first appearance in its objective and its statements. -/
def mentioned (objective : List (String × Float)) (stated : List (Statement Float)) : List String :=
  stated.foldl (fun names s => addNames names s.terms) (addNames [] objective)

section Traces

variable {objective constraints : List Char} {p : Problem Float}

lemma readParts_eq_ok (h : readParts objective constraints = .ok p) :
    ∃ direction form read found, objective? objective = .ok (direction, form) ∧
      segments constraints = .ok read ∧ read.mapM statements = .ok found ∧
      p = assemble direction form.terms (mentioned form.terms found.flatten)
        (found.flatten.filter (!·.isNonNegativity)) := by
  obtain ⟨⟨direction, form⟩, hobjective, h⟩ := bind_eq_ok.mp h
  obtain ⟨read, hsegments, h⟩ := bind_eq_ok.mp h
  obtain ⟨found, hfound, h⟩ := bind_eq_ok.mp h
  exact ⟨direction, form, read, found, hobjective, hsegments, hfound, (Except.ok.inj h).symm⟩

/-- All tokens of the constraints go into groups that state something. -/
theorem exists_states (h : readParts objective constraints = .ok p) :
    ∃ direction form groups found, objective? objective = .ok (direction, form) ∧
      ((cut separatorWidth none 0 constraints).map trim).filter (· ≠ []) =
        groups.flatMap Group.tokens ∧
      List.Forall₂ Group.States groups found ∧
      p = assemble direction form.terms (mentioned form.terms found.flatten)
        (found.flatten.filter (!·.isNonNegativity)) := by
  obtain ⟨direction, form, read, found, hobjective, hsegments, hfound, hp⟩ := readParts_eq_ok h
  obtain ⟨groups, htokens, rfl, hgroups⟩ := exists_groups (by simp) hsegments
  refine ⟨direction, form, groups, found, hobjective, htokens, ?_, hp⟩
  rw [mapM_eq_ok_iff, List.forall₂_map_left_iff] at hfound
  clear htokens hsegments hp
  induction hfound with
  | nil => exact .nil
  | cons hread _ ih =>
    obtain ⟨⟨hnames, hsegment⟩, hgroups⟩ := List.forall_mem_cons.mp hgroups
    exact .cons (Group.states hnames hsegment hread) (ih hgroups)

lemma exists_constraint {direction : Direction} {terms : List (String × Float)}
    {names : List String} {stated : List (Statement Float)} {s : Statement Float} (h : s ∈ stated) :
    ∃ c ∈ (assemble direction terms names stated).constraints,
      c.coefficients = names.map (coefficientOf s.terms) ∧ c.relation = s.relation ∧
        c.rhs = s.rhs := by
  rw [← List.zipIdx_map_fst 1 stated] at h
  obtain ⟨⟨s, i⟩, hmem, rfl⟩ := List.mem_map.mp h
  exact ⟨_, List.mem_map_of_mem hmem, rfl, rfl, rfl⟩

end Traces

/-- An accepted specification consists of an objective, which is its first piece, and of the groups
that its second piece falls into. Each group states something, with its bare names among the
variables, and each statement is a constraint of the problem unless it says that a variable is not
negative. What comes behind a second phrase that introduces constraints leaves no trace: with it or
without it, the specification is read as the same problem. -/
theorem read_trace {spec : String} {p : Problem Float} (h : read spec = .ok p) :
    (∃ direction form groups found,
      objective? (trim ((cut introductionWidth none 0 (collapse spec.toList)).headD [])) =
        .ok (direction, form) ∧
      ((cut separatorWidth none 0 (trim ((cut introductionWidth none 0
        (collapse spec.toList)).getD 1 []))).map trim).filter (· ≠ []) =
          groups.flatMap Group.tokens ∧
      List.Forall₂ Group.States groups found ∧
      p = assemble direction form.terms (mentioned form.terms found.flatten)
        (found.flatten.filter (!·.isNonNegativity)) ∧
      ∀ s ∈ found.flatten, s.isNonNegativity = true ∨ ∃ c ∈ p.constraints,
        c.coefficients = (mentioned form.terms found.flatten).map (coefficientOf s.terms) ∧
          c.relation = s.relation ∧ c.rhs = s.rhs) ∧
    ∀ objective constraints phrase more : String, Unintroduced objective →
      Unintroduced constraints → phrase ∈ ["subject to", "such that", "s.t."] →
      spec = objective ++ " subject to " ++ constraints ++ " " ++ phrase ++ " " ++ more →
      read (objective ++ " subject to " ++ constraints) = .ok p := by
  have hne : collapse spec.toList ≠ [] := by
    intro hnil
    rw [read, hnil] at h
    cases h
  refine ⟨?_, ?_⟩
  · rw [read_eq_readParts hne] at h
    obtain ⟨direction, form, groups, found, hobjective, htokens, hstates, rfl⟩ := exists_states h
    refine ⟨direction, form, groups, found, hobjective, htokens, hstates, rfl, fun s hs => ?_⟩
    by_cases hnonneg : s.isNonNegativity = true
    · exact .inl hnonneg
    · exact .inr (exists_constraint (List.mem_filter.mpr ⟨hs, by simpa using hnonneg⟩))
  · rintro objective constraints phrase more hobjective hconstraints hphrase rfl
    rw [read_introduced hobjective hconstraints,
      ← read_introduced_again hobjective hconstraints hphrase]
    exact h

theorem read_trace_such_that :
    read "max x subject to x <= 4 such that x <= 2" =
        .ok ⟨.max, [1], [⟨"c1", [1], .le, 4⟩]⟩ ∧
      Unintroduced "max x" ∧ Unintroduced "x <= 4" ∧
      read "max x subject to x <= 4" = .ok ⟨.max, [1], [⟨"c1", [1], .le, 4⟩]⟩ := by
  have hread : read "max x subject to x <= 4 such that x <= 2" =
      .ok ⟨.max, [1], [⟨"c1", [1], .le, 4⟩]⟩ := by rfl
  have hobjective : Unintroduced "max x" := by decide +kernel
  have hconstraints : Unintroduced "x <= 4" := by decide +kernel
  exact ⟨hread, hobjective, hconstraints, (read_trace hread).2 "max x" "x <= 4" "such that" "x <= 2"
    hobjective hconstraints (by simp) (by decide)⟩

/-- A constraint behind a second phrase is lost, and one behind a comma is not. -/
theorem read_trace_lost :
    read "max x subject to x <= 4 such that x <= 2" =
        .ok ⟨.max, [1], [⟨"c1", [1], .le, 4⟩]⟩ ∧
      read "max x subject to x <= 4, x <= 2" =
        .ok ⟨.max, [1], [⟨"c1", [1], .le, 4⟩, ⟨"c2", [1], .le, 2⟩]⟩ :=
  ⟨by rfl, by rfl⟩

end SimplexTableau.Specification
