import SimplexTableau.Proofs.Doubles
import SimplexTableau.Proofs.Separators

/-!
# Specifications read back

A specification in its plain form is read as the problem that it states. Its text is cut at the
phrase that introduces the clauses and at the commas between them, and nowhere else; each clause is
read as one statement, with the relation in any spelling; and the statements are collected in order,
without those that say of a single variable that it is not negative.
-/

namespace SimplexTableau.Specification.Written

open SimplexTableau.Text SimplexTableau.Decimal

section Tidiness

lemma isBlank_signed {plus : List Char} (hplus : plus = [] ∨ plus = ['+']) (negative : Bool)
    (l : Literal) : ∀ c ∈ signWith plus negative ++ l.text, isBlank c = false :=
  Literal.forall_signed (P := fun c => isBlank c = false) hplus (by simp [isBlank, isSpace])
    (by decide) (by decide)

lemma tidy_signed {plus : List Char} (hplus : plus = [] ∨ plus = ['+']) (negative : Bool)
    (l : Literal) : Tidy (signWith plus negative ++ l.text) := by
  obtain ⟨d, cs, hcs⟩ := l.text_eq_cons
  exact .word (by simp [hcs]) (isBlank_signed hplus negative l)

lemma Name.tidy (n : Name) : Tidy n.text :=
  .word (List.cons_ne_nil _ _) fun _ hc =>
    isBlank_of_isIdentifierChar (Name.isIdentifierChar_of_mem hc)

lemma Sign.tidy (s : Sign) : Tidy s.text := by
  refine .word (by cases s <;> simp [Sign.text]) ?_
  cases s <;> simp [Sign.text, isBlank, isSpace]

lemma Sum.tidy (e : Sum) : Tidy e.text := by
  have hmore : ∀ (more : List Summand) {cs : List Char}, Tidy cs →
      Tidy (cs ++ more.flatMap Summand.joined) := by
    intro more
    induction more with
    | nil => simp
    | cons s more ih =>
      intro cs hcs
      have hsign : Tidy (signWith ['+'] s.negative) := by
        refine .word ?_ ?_ <;> cases s.negative <;> simp [signWith, isBlank, isSpace]
      have hs : Tidy (cs ++ s.joined) := by
        have hliteral : Tidy s.literal.text := tidy_signed (.inl rfl) false _
        exact hcs.append (hsign.append (hliteral.append s.name.tidy))
      simpa using ih hs
  refine hmore _ ?_
  have := (tidy_signed (.inl rfl) e.first.negative e.first.literal).append e.first.name.tidy
  simpa [Summand.body] using this

namespace Clause

variable (c : Clause)

lemma tidy_front : Tidy c.front :=
  c.left.tidy.append c.sign.tidy

lemma tidy : Tidy c.text :=
  c.tidy_front.append (tidy_signed (.inl rfl) _ _)

lemma tidy_comma : Tidy (c.text ++ [',']) :=
  c.tidy.append_word (by simp [isBlank, isSpace])

end Clause

lemma intercalate_clauses (c c' : Clause) (cs : List Clause) :
    ", ".toList.intercalate ((c :: c' :: cs).map Clause.text) =
      c.text ++ [','] ++ ' ' :: ", ".toList.intercalate ((c' :: cs).map Clause.text) := by
  rw [List.map_cons, List.intercalate_cons_of_ne_nil (by simp)]
  simp

lemma tidy_clauses (c : Clause) (cs : List Clause) :
    Tidy (", ".toList.intercalate ((c :: cs).map Clause.text)) := by
  induction cs generalizing c with
  | nil => simpa using c.tidy
  | cons c' cs ih =>
    rw [intercalate_clauses]
    exact c.tidy_comma.append (ih c')

end Tidiness

section Statements

lemma relationAt?_of_notMem {c : Char} {cs : List Char} (h : c ∉ ['<', '>', '=']) :
    relationAt? (c :: cs) = none := by
  simp only [List.mem_cons, List.not_mem_nil, or_false, not_or] at h
  obtain ⟨hlt, hgt, heq⟩ := h
  unfold relationAt?
  split <;> simp_all

lemma splitRelation?_pass {a : List Char} (rest : List Char) (ha : ∀ c ∈ a, c ∉ ['<', '>', '=']) :
    splitRelation? (a ++ rest) =
      (splitRelation? rest).map fun (before, r, after) => (a ++ before, r, after) := by
  induction a with
  | nil => simp
  | cons c a ih =>
    obtain ⟨hc, ha⟩ := List.forall_mem_cons.mp ha
    simp only [List.cons_append, splitRelation?, relationAt?_of_notMem hc, ih ha,
      Option.map_map]
    rfl

lemma splitRelation?_append {a rest after : List Char} {r : Relation}
    (ha : ∀ c ∈ a, c ∉ ['<', '>', '=']) (hne : rest ≠ [])
    (hrest : relationAt? rest = some (r, after)) :
    splitRelation? (a ++ rest) = some (a, r, after) := by
  obtain ⟨c, rest, rfl⟩ := List.exists_cons_of_ne_nil hne
  rw [splitRelation?_pass _ ha]
  simp [splitRelation?, hrest]

lemma relationAt?_sign (s : Sign) (rest : List Char) :
    relationAt? (s.text ++ ' ' :: rest) = some (s.relation, ' ' :: rest) := by
  cases s <;> rfl

lemma leftSides_eq {lhs : List Char} (hbar : ∀ c ∈ lhs, c ≠ '|') :
    leftSides lhs = (expression? lhs).map ([·]) := by
  have hsplit : splitBars lhs = [lhs] :=
    cut_whole (inert_of_forall fun c hc _ _ => by simp [hbar c hc])
  have hmap : lhs.map (fun c => if c = '|' then ',' else c) = lhs :=
    (List.map_congr_left fun c hc => if_neg (hbar c hc)).trans (List.map_id _)
  rw [leftSides, hsplit, hmap]
  cases expression? lhs <;> rfl

/-- A segment with one expression on its left makes one statement if the expression can be read. -/
theorem statements_eq {lhs rhs : List Char} {r : Float} (s : Sign) (hlhs : Tidy lhs)
    (hrhs : Tidy rhs) (hsign : ∀ c ∈ lhs, c ∉ ['<', '>', '=']) (hbar : ∀ c ∈ lhs, c ≠ '|')
    (hread : readFloat? (rhs.filter (· ≠ ' ')) = some r) :
    statements (lhs ++ ' ' :: (s.text ++ ' ' :: rhs)) =
      (expression? lhs).map fun form => [⟨form.terms, s.relation, r - form.constant⟩] := by
  have hspace : isBlank ' ' = true := by decide
  have hsplit : splitRelation? (lhs ++ ' ' :: (s.text ++ ' ' :: rhs)) =
      some (lhs ++ [' '], s.relation, ' ' :: rhs) := by
    have hleft : ∀ c ∈ lhs ++ [' '], c ∉ ['<', '>', '='] := by
      intro c hc
      obtain hc | hc := List.mem_append.mp hc
      · exact hsign c hc
      · obtain rfl := List.mem_singleton.mp hc
        decide
    have := splitRelation?_append hleft (by simp) (relationAt?_sign s rhs)
    rwa [List.append_assoc, List.singleton_append] at this
  have hleft : trim (lhs ++ [' ']) = lhs := (strip_concat hspace).trans hlhs.trim_eq
  have hright : trim (' ' :: rhs) = rhs := (strip_cons hspace).trans hrhs.trim_eq
  have hne : (lhs.isEmpty || rhs.isEmpty) = false := by simp [hlhs.ne_nil, hrhs.ne_nil]
  rw [statements, hsplit]
  simp only [hleft, hright, hne, hread, leftSides_eq hbar, bind, Except.bind]
  rw [if_neg Bool.false_ne_true]
  cases expression? lhs <;> rfl

/-- A clause is one statement. -/
theorem statements_text (c : Clause) : statements c.text = .ok [c.statement] := by
  have hbound : Tidy c.boundText := tidy_signed (.inl rfl) _ _
  have hsign : ∀ d ∈ c.left.text, d ∉ ['<', '>', '='] := by
    intro d hd hsign
    simp only [List.mem_cons, List.not_mem_nil, or_false] at hsign
    obtain rfl | rfl | rfl := hsign <;> exact Sum.not_mem_text (by decide) (by decide) hd
  have hbar : ∀ d ∈ c.left.text, d ≠ '|' :=
    fun d hd h => Sum.not_mem_text (by decide) (by decide) (h ▸ hd)
  have hfilter : c.boundText.filter (· ≠ ' ') = c.boundText := by
    refine List.filter_eq_self.mpr fun d hd => decide_eq_true ?_
    rintro rfl
    exact absurd (isBlank_signed (.inl rfl) _ _ _ hd) (by decide)
  have hread : readFloat? (c.boundText.filter (· ≠ ' ')) = some c.rhs := by
    rw [hfilter]
    exact Literal.readFloat?_signed (.inl rfl) _ _
  have htext : c.text = c.left.text ++ ' ' :: (c.sign.text ++ ' ' :: c.boundText) := by
    simp [Clause.text, Clause.front]
  rw [htext, statements_eq c.sign c.left.tidy hbound hsign hbar hread, Sum.expression?_text,
    Except.map, Double.sub_zero]
  rfl

end Statements

section Cuts

lemma Sum.text_eq_cons (e : Sum) : ∃ c cs, e.text = c :: cs ∧ isNameStart c = false ∧
    sameLetter 'z' c = false := by
  obtain ⟨d, cs, hcs⟩ := e.first.body_eq_cons
  have hd : ∀ d : Fin 10, isNameStart (Nat.digitChar d.val) = false ∧
      sameLetter 'z' (Nat.digitChar d.val) = false := by decide +kernel
  rw [text, hcs]
  cases e.first.negative
  · exact ⟨_, _, rfl, hd d⟩
  · exact ⟨_, _, rfl, by decide, by simp [sameLetter]⟩

lemma Clause.isName_text (c : Clause) : isName c.text = false := by
  obtain ⟨d, cs, hcs, hd, -⟩ := c.left.text_eq_cons
  simp [Clause.text, Clause.front, hcs, isName, hd]

lemma gather_eq_ok {tokens : List (List Char)} (h : ∀ t ∈ tokens, t ≠ [] ∧ isName t = false) :
    gather [] tokens = .ok tokens := by
  induction tokens with
  | nil => rfl
  | cons t tokens ih =>
    obtain ⟨⟨hne, hname⟩, htokens⟩ := List.forall_mem_cons.mp h
    have hempty : t.isEmpty = false := by simpa using hne
    rw [gather, hempty, hname, ih htokens]
    simp [bind, Except.bind, pure, Except.pure]

lemma cut_clauses (c : Clause) (cs : List Clause) (before : Option Char) {lead : List Char}
    (hlead : lead = [] ∨ lead = [' ']) :
    cut separatorWidth before 0 (lead ++ ", ".toList.intercalate ((c :: cs).map Clause.text)) =
      (lead ++ c.text) :: cs.map (' ' :: ·.text) := by
  have hinert : ∀ {lead}, lead = [] ∨ lead = [' '] → ∀ {before rest} (c : Clause),
      Inert separatorWidth before (lead ++ c.text) rest := by
    rintro _ (rfl | rfl) before rest c
    · exact apart_separatorWidth.clause c
    · exact apart_separatorWidth.blank (apart_separatorWidth.clause c)
  induction cs generalizing c before lead with
  | nil =>
    have hwhole : Inert separatorWidth before (lead ++ c.text) [] := hinert hlead c
    simpa using cut_whole hwhole
  | cons c' cs ih =>
    have hcomma : separatorWidth (lastOr before (lead ++ c.text))
        ([','] ++ ' ' :: ", ".toList.intercalate ((c' :: cs).map Clause.text)) = [','].length := rfl
    have hcut := cut_separator (hinert hlead c) (List.cons_ne_nil _ _) hcomma
    have hrest : ' ' :: ", ".toList.intercalate ((c' :: cs).map Clause.text) =
      [' '] ++ ", ".toList.intercalate ((c' :: cs).map Clause.text) := rfl
    rw [intercalate_clauses, List.append_assoc, ← List.append_assoc lead, hcut, hrest,
      ih c' _ (.inr rfl)]
    rfl

/-- The commas separate the clauses, and no other separator does. -/
theorem segments_clauses (cs : List Clause) :
    segments (", ".toList.intercalate (cs.map Clause.text)) = .ok (cs.map Clause.text) := by
  cases cs with
  | nil => rfl
  | cons c cs =>
    have htrim : ∀ c : Clause, trim (' ' :: c.text) = c.text :=
      fun c => (strip_cons (by decide)).trans c.tidy.trim_eq
    have hcut := cut_clauses c cs none (.inl rfl)
    rw [List.nil_append, List.nil_append] at hcut
    rw [segments, hcut, List.map_cons, c.tidy.trim_eq, List.map_map]
    simp only [Function.comp_def, htrim]
    refine gather_eq_ok fun t ht => ?_
    obtain ⟨c, -, rfl⟩ := List.mem_map.mp (List.map_cons ▸ ht)
    exact ⟨c.tidy.ne_nil, c.isName_text⟩

/-- The clauses are introduced by the first phrase that introduces any. -/
theorem cut_goal (s : Spec) (rest : List Char) :
    cut introductionWidth none 0 (s.goal ++ ' ' :: ("subject to".toList ++ rest)) =
      (s.goal ++ [' ']) :: cut introductionWidth (some 'o') 0 rest := by
  have hword : ∀ c ∈ (if s.maximise then "maximize " else "minimize ").toList,
      sameLetter 's' c = false := by
    cases s.maximise <;> simp [sameLetter]
  have hinert : Inert introductionWidth none (s.goal ++ [' ']) ("subject to".toList ++ rest) := by
    refine inert_append.mpr ⟨inert_append.mpr ⟨?_, ?_⟩, ?_⟩
    · exact inert_of_forall fun c hc before rest => introductionWidth_of_ne (hword c hc)
    · exact apart_introductionWidth.sum _ ⟨'s', _, rfl, by simp [sameLetter]⟩
    · exact apart_introductionWidth.blank trivial
  have hwidth : introductionWidth (lastOr none (s.goal ++ [' '])) ("subject to".toList ++ rest) =
      "subject to".toList.length := rfl
  have hlast : lastOr none (s.goal ++ [' '] ++ "subject to".toList) = some 'o' := by
    rw [lastOr, List.foldl_append]
    rfl
  have hcut := cut_separator hinert (by simp) hwidth
  rw [hlast, List.append_assoc] at hcut
  exact hcut

lemma inert_clauses (c : Clause) (cs : List Clause) {before : Option Char} :
    Inert introductionWidth before (", ".toList.intercalate ((c :: cs).map Clause.text)) [] := by
  induction cs generalizing c before with
  | nil => simpa using apart_introductionWidth.clause c
  | cons c' cs ih =>
    rw [intercalate_clauses, inert_append, inert_append]
    refine ⟨⟨apart_introductionWidth.clause c, ?_⟩, apart_introductionWidth.blank (ih c')⟩
    exact ⟨introductionWidth_of_ne (by simp [sameLetter]), trivial⟩

end Cuts

lemma objective?_eq {text body : List Char} {direction : Direction} {terms : List (String × Float)}
    (hdirection : direction? text = some (direction, ' ' :: body)) (hbody : Tidy body)
    (hname : dropName body = body) (hread : expression? body = .ok ⟨terms, 0⟩) :
    objective? text = .ok (direction, ⟨terms, 0⟩) := by
  have hdrop : (' ' :: body).dropWhile isBlank = body :=
    @dropWhile_run isBlank [' '] body (by simp [isBlank, isSpace]) hbody.head?
  have hne : body.isEmpty = false := by simpa using hbody.ne_nil
  have hsize : ¬ (1e-12 : Float) < size 0 := by decide +kernel
  rw [objective?, hdirection]
  simp only [hdrop, hname, hbody.trim_eq, hne, hread, bind, Except.bind]
  rw [if_neg Bool.false_ne_true, if_neg hsize]
  rfl

theorem objective?_goal (s : Spec) :
    objective? s.goal = .ok (if s.maximise then .max else .min, ⟨s.objective.terms, 0⟩) := by
  have hdirection : direction? s.goal =
      some (if s.maximise then .max else .min, ' ' :: s.objective.text) := by
    rw [Spec.goal]
    cases s.maximise <;> rfl
  have hname : dropName s.objective.text = s.objective.text := by
    obtain ⟨c, cs, hcs, -, hz⟩ := s.objective.text_eq_cons
    rw [hcs, dropName, if_neg (by simp [hz])]
  exact objective?_eq hdirection s.objective.tidy hname s.objective.expression?_text

/-- The statements of a specification make up the problem that it states. -/
theorem assemble_statements (s : Spec) :
    assemble (if s.maximise then .max else .min) s.objective.terms s.names
      ((s.clauses.map Clause.statement).filter (!·.isNonNegativity)) = s.problem := by
  have hcoefficients : ∀ e : Sum, coefficientOf e.terms = e.coefficient :=
    fun e => funext fun _ => e.coefficientOf_terms
  rw [assemble, Spec.problem, List.filter_map, List.zipIdx_map, List.map_map]
  simp only [Function.comp_def, Clause.isNonNegativity_statement]
  simp only [Clause.statement, hcoefficients, Prod.map, id]

lemma foldl_addNames (cs : List Clause) (known : List String) :
    (cs.map Clause.statement).foldl (fun names s => addNames names s.terms) known.eraseDups =
      (known ++ cs.flatMap (·.left.names)).eraseDups := by
  induction cs generalizing known with
  | nil => simp
  | cons c cs ih =>
    rw [List.map_cons, List.foldl_cons, Clause.statement, Sum.addNames_terms, ih,
      List.flatMap_cons, List.append_assoc]

lemma mapM_statements (cs : List Clause) :
    (cs.map Clause.text).mapM statements = .ok (cs.map fun c => [c.statement]) := by
  induction cs with
  | nil => rfl
  | cons c cs ih =>
    rw [List.map_cons, List.mapM_cons, statements_text, ih]
    rfl

lemma Spec.tidy_goal (s : Spec) : Tidy s.goal := by
  have hmax : Tidy "maximize".toList := .word (by simp) (by simp [isBlank, isSpace])
  have hmin : Tidy "minimize".toList := .word (by simp) (by simp [isBlank, isSpace])
  rw [goal]
  cases s.maximise
  · exact hmin.append s.objective.tidy
  · exact hmax.append s.objective.tidy

/-- The text of a specification once blanks are collapsed. Without clauses, the blank at its end is
dropped. -/
lemma collapse_text (s : Spec) :
    ∃ rest, collapse s.text = s.goal ++ ' ' :: ("subject to".toList ++ rest) ∧
      trim rest = ", ".toList.intercalate (s.clauses.map Clause.text) ∧
      Inert introductionWidth (some 'o') rest [] := by
  have hsubject : Tidy "subject".toList := .word (by simp) (by simp [isBlank, isSpace])
  have hto : Tidy "to".toList := .word (by simp) (by simp [isBlank, isSpace])
  have htidy := s.tidy_goal.append (hsubject.append hto)
  rw [Spec.text]
  cases s.clauses with
  | nil =>
    refine ⟨[], ?_, rfl, trivial⟩
    have h := htidy.collapse_concat
    simpa using h
  | cons c cs =>
    refine ⟨' ' :: ", ".toList.intercalate ((c :: cs).map Clause.text), ?_, ?_, ?_⟩
    · have h := (htidy.append (tidy_clauses c cs)).collapse_eq
      simpa using h
    · exact (strip_cons (by decide)).trans (tidy_clauses c cs).trim_eq
    · exact apart_introductionWidth.blank (inert_clauses c cs)

lemma read_text (s : Spec) : read (String.ofList s.text) = .ok s.problem := by
  obtain ⟨rest, hcollapse, htrim, hrest⟩ := collapse_text s
  have hne : (s.goal ++ ' ' :: ("subject to".toList ++ rest)).isEmpty = false := by simp
  have hcut := cut_goal s rest
  rw [cut_whole hrest] at hcut
  have hgoal : trim (s.goal ++ [' ']) = s.goal :=
    (strip_concat (by decide)).trans s.tidy_goal.trim_eq
  have hnames : addNames [] s.objective.terms = s.objective.names.eraseDups :=
    @Sum.addNames_terms s.objective []
  have hall : (s.clauses.map fun c => [c.statement]).flatten = s.clauses.map Clause.statement := by
    rw [← List.flatMap_def, List.map_eq_flatMap]
  rw [read, String.toList_ofList, hcollapse, hne, hcut]
  simp only [List.headD_cons, List.getD_cons_succ, List.getD_cons_zero, hgoal, htrim,
    objective?_goal, segments_clauses, mapM_statements, hall, hnames, foldl_addNames, bind,
    Except.bind]
  rw [if_neg Bool.false_ne_true]
  exact congrArg Except.ok (assemble_statements s)

lemma read_eq_of_words {a b : String} (h : words a.toList = words b.toList) : read a = read b := by
  rw [read, read, collapse, collapse, h]

/-- A specification is read as the problem that it states, and so is every text with the same
words. -/
theorem read_written (s : Spec) :
    read (String.ofList s.text) = .ok s.problem ∧
      ∀ text : String, words text.toList = words s.text → read text = .ok s.problem := by
  refine ⟨read_text s, fun text h => ?_⟩
  have hwords : words text.toList = words (String.ofList s.text).toList := by
    rw [String.toList_ofList, h]
  rw [read_eq_of_words hwords, read_text]

/-- A repeated name that looks like a power of ten, and a clause that is dropped. -/
def Spec.mixed : Spec where
  maximise := false
  objective := ⟨⟨true, ⟨[2], [5, 0], by decide⟩, ⟨'e', ['5'], by decide, by decide, by decide⟩⟩,
    [⟨false, ⟨[1], [], by decide⟩, ⟨'x', [], by decide, by decide, by decide⟩⟩,
      ⟨true, ⟨[0], [5], by decide⟩, ⟨'e', ['5'], by decide, by decide, by decide⟩⟩]⟩
  clauses :=
    [⟨⟨⟨false, ⟨[1], [], by decide⟩, ⟨'t', [], by decide, by decide, by decide⟩⟩, []⟩, .eqGt, true,
        ⟨[0], [0], by decide⟩⟩,
      ⟨⟨⟨false, ⟨[3], [], by decide⟩, ⟨'e', ['5'], by decide, by decide, by decide⟩⟩, []⟩, .eqLt,
        true, ⟨[4], [], by decide⟩⟩]

theorem read_written_mixed :
    Spec.mixed.text =
        "minimize -2.50 e5 + 1 x - 0.5 e5 subject to 1 t => -0.0, 3 e5 =< -4".toList ∧
      Spec.mixed.problem = ⟨.min, [-3, 1, 0], [⟨"c1", [3, 0, 0], .le, -4⟩]⟩ ∧
      read "minimize -2.50 e5 + 1 x - 0.5 e5\nsubject to\n  1 t => -0.0, 3 e5 =< -4\n" =
        .ok Spec.mixed.problem := by
  exact ⟨by rfl, by rfl, (read_written Spec.mixed).2 _ (by rfl)⟩

end SimplexTableau.Specification.Written
