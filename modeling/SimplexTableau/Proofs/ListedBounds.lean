import SimplexTableau.Proofs.NamedColumns
import SimplexTableau.Proofs.VariableLists

/-!
# Bounds on a list of variables

A list of variables with a bound behind it can be put in front of the constraints of a
specification, behind them or between two of them. It adds one bound for each variable of the list,
or none if the bound only says that the variables are not negative. Columns may be renumbered, but
by variable all other constraints stay as they are. Without a bound, the list is refused at the end.
-/

namespace SimplexTableau.Specification

open SimplexTableau.Text SimplexTableau.Decimal Written

section Gathering

variable {pending p q names : List (List Char)} {segment : List Char}

/-- No bare names are left over at the end of some tokens. -/
def Settled (tokens : List (List Char)) : Prop :=
  ∀ t ∈ tokens.getLast?, isName t = false

/-- Settled tokens are gathered apart from those behind them: no bare names are carried over. -/
lemma exists_gather (hne : ∀ t ∈ p, t ≠ []) (hp : Settled p) (hpending : p = [] → pending = []) :
    ∃ front, ∀ q, gather pending (p ++ q) = (gather [] q).map (front ++ ·) := by
  induction p generalizing pending with
  | nil =>
    obtain rfl := hpending rfl
    refine ⟨[], fun q => ?_⟩
    rw [List.nil_append]
    cases gather [] q <;> rfl
  | cons t p ih =>
    obtain ⟨ht, hne⟩ := List.forall_mem_cons.mp hne
    have hempty : t.isEmpty = false := by simpa using ht
    have htail : p ≠ [] → Settled p := fun hcons => by
      rwa [Settled, ← List.getLast?_cons_of_ne_nil hcons (x := t)]
    by_cases hname : isName t = true
    · have hcons : p ≠ [] := by
        rintro rfl
        rw [hp t rfl] at hname
        cases hname
      obtain ⟨front, hfront⟩ := ih hne (htail hcons) fun h => absurd h hcons
      refine ⟨front, fun q => ?_⟩
      rw [List.cons_append, gather, hempty, hname, ← hfront]
      rfl
    · have hp' : Settled p := by
        by_cases hcons : p = []
        · simp [Settled, hcons]
        · exact htail hcons
      obtain ⟨front, hfront⟩ := ih hne hp' fun _ => rfl
      refine ⟨" | ".toList.intercalate (pending ++ [t]) :: front, fun q => ?_⟩
      have hname : isName t = false := by simpa using hname
      rw [List.cons_append, gather, hempty, hname]
      simp only [Bool.false_eq_true, if_false, hfront]
      cases gather [] q <;> rfl

lemma gather_group (hnames : ∀ n ∈ names, isName n = true) (hsegment : isName segment = false)
    (hne : segment ≠ []) :
    gather pending (names ++ [segment]) = .ok [Group.text ⟨pending ++ names, segment⟩] := by
  induction names generalizing pending with
  | nil =>
    have hempty : segment.isEmpty = false := by simpa using hne
    rw [List.nil_append, gather, hempty, hsegment, List.append_nil]
    rfl
  | cons n names ih =>
    obtain ⟨hn, hnames⟩ := List.forall_mem_cons.mp hnames
    have hempty : n.isEmpty = false := by
      obtain ⟨c, cs, rfl, -⟩ := isName_eq_cons hn
      rfl
    rw [List.cons_append, gather, hempty, hn]
    simp only [if_true, Bool.false_eq_true, if_false, ih hnames, List.append_assoc,
      List.singleton_append]

/-- Names that no segment follows are left over. -/
lemma gather_names (hnames : ∀ n ∈ names, isName n = true) (hne : pending ++ names ≠ []) :
    gather pending names = .error (.dangling ((pending ++ names).map String.ofList)) := by
  induction names generalizing pending with
  | nil =>
    obtain ⟨m, pending, rfl⟩ := List.exists_cons_of_ne_nil (by simpa using hne : pending ≠ [])
    rw [List.append_nil]
    rfl
  | cons n names ih =>
    obtain ⟨hn, hnames⟩ := List.forall_mem_cons.mp hnames
    have hempty : n.isEmpty = false := by
      obtain ⟨c, cs, rfl, -⟩ := isName_eq_cons hn
      rfl
    rw [gather, hempty, hn]
    simp only [if_true, Bool.false_eq_true, if_false]
    rw [ih hnames (by simp), List.append_assoc, List.singleton_append]

/-- So are they if there is more in front of them, maybe with names that it leaves over. -/
lemma exists_gather_names (p pending : List (List Char)) (hnames : ∀ n ∈ names, isName n = true)
    (hne : names ≠ []) : ∃ held, gather pending (p ++ names) =
      .error (.dangling ((held ++ names).map String.ofList)) := by
  induction p generalizing pending with
  | nil => exact ⟨pending, gather_names hnames (by simp [hne])⟩
  | cons t p ih =>
    rw [List.cons_append, gather]
    split_ifs
    · exact ih pending
    · exact ih (pending ++ [t])
    · obtain ⟨held, hgather⟩ := ih []
      exact ⟨held, by rw [hgather]; rfl⟩

end Gathering

section Statements

variable {a b gap : List Char} {x y : List (Statement Float)}

lemma mapM_append_eq_ok_iff {α β ε : Type} {f : α → Except ε β} {l l' : List α} {r : List β} :
    (l ++ l').mapM f = .ok r ↔ ∃ m m', l.mapM f = .ok m ∧ l'.mapM f = .ok m' ∧ r = m ++ m' := by
  rw [List.mapM_append]
  constructor
  · intro h
    obtain ⟨m, hm, h⟩ := bind_eq_ok.mp h
    obtain ⟨m', hm', h⟩ := bind_eq_ok.mp h
    exact ⟨m, m', hm, hm', (Except.ok.inj h).symm⟩
  · rintro ⟨m, m', hm, hm', rfl⟩
    exact bind_eq_ok.mpr ⟨m, hm, bind_eq_ok.mpr ⟨m', hm', rfl⟩⟩

/-- What the constraints in a text state. -/
def statedIn (text : List Char) : Except SpecFault (List (Statement Float)) := do
  let found ← (← gather [] (tokensOf none text)).mapM statements
  return found.flatten

lemma statedIn_eq_ok_iff {text : List Char} : statedIn text = .ok x ↔
    ∃ segments found, gather [] (tokensOf none text) = .ok segments ∧
      segments.mapM statements = .ok found ∧ x = found.flatten := by
  constructor
  · intro h
    obtain ⟨segments, hsegments, h⟩ := bind_eq_ok.mp h
    obtain ⟨found, hfound, h⟩ := bind_eq_ok.mp h
    exact ⟨segments, found, hsegments, hfound, (Except.ok.inj h).symm⟩
  · rintro ⟨segments, found, hsegments, hfound, rfl⟩
    exact bind_eq_ok.mpr ⟨segments, hsegments, bind_eq_ok.mpr ⟨found, hfound, rfl⟩⟩

/-- Constraints on both sides of a gap are stated one after the other. -/
theorem statedIn_append (h : Divides a gap b) (ha : Settled (tokensOf none a)) :
    statedIn (a ++ (gap ++ b)) = .ok x ↔
      ∃ y z, statedIn a = .ok y ∧ statedIn b = .ok z ∧ x = y ++ z := by
  have hne : ∀ t ∈ tokensOf none a, t ≠ [] := fun t ht => by simpa using (List.mem_filter.mp ht).2
  obtain ⟨front, hfront⟩ := exists_gather hne ha fun _ => rfl
  have halone : gather [] (tokensOf none a) = .ok front := by
    have hnil := hfront []
    rw [List.append_nil] at hnil
    simpa [gather, Except.map] using hnil
  simp only [statedIn_eq_ok_iff, h.tokensOf_eq, hfront, halone]
  constructor
  · rintro ⟨segments, found, hsegments, hfound, rfl⟩
    cases hback : gather [] (tokensOf none b) with
    | error fault =>
      rw [hback] at hsegments
      cases hsegments
    | ok back =>
      rw [hback] at hsegments
      obtain rfl := Except.ok.inj hsegments
      obtain ⟨first, second, hfirst, hsecond, rfl⟩ := mapM_append_eq_ok_iff.mp hfound
      exact ⟨_, _, ⟨front, first, rfl, hfirst, rfl⟩, ⟨back, second, rfl, hsecond, rfl⟩,
        List.flatten_append⟩
  · rintro ⟨_, _, ⟨_, first, ⟨⟩, hfirst, rfl⟩, ⟨back, second, hback, hsecond, rfl⟩, rfl⟩
    refine ⟨front ++ back, first ++ second, ?_, ?_, List.flatten_append.symm⟩
    · rw [hback]
      rfl
    · exact mapM_append_eq_ok_iff.mpr ⟨first, second, hfirst, hsecond, rfl⟩

end Statements

section Lists

variable {names : List Name} {list : List Char} {c : Comparison} {a b gap lead trail : List Char}

/-- Names and a comparison behind the last of them state a bound for each. -/
theorem Comparison.statedIn_list (c : Comparison) (hlist : Listed names list)
    (hlength : 2 ≤ names.length) :
    statedIn (list ++ c.text) = .ok (names.map c.statement) ∧
      Settled (tokensOf none (list ++ c.text)) := by
  obtain ⟨init, last, rfl, htokens⟩ := hlist.exists_tokensOf c.text
  obtain ⟨lead, -, hcollapse⟩ := c.exists_collapse_text last
  have hinit : init ≠ [] := by
    rintro rfl
    simp at hlength
  have hsegment : isName (collapse (last.text ++ c.text)) = false := by
    obtain ⟨d, ds, hsign, hd⟩ := Comparison.sign_eq_cons c.sign
    by_contra hname
    have hword := isWord_of_isName (by simpa using hname) d (by simp [hcollapse, hsign])
    fin_cases hd <;> exact absurd hword (by decide)
  have hne : collapse (last.text ++ c.text) ≠ [] := by
    rw [hcollapse]
    exact List.append_ne_nil_of_left_ne_nil (List.cons_ne_nil _ _) _
  have hgather : gather [] (init.map Name.text ++ [collapse (last.text ++ c.text)]) =
      .ok [Group.text ⟨[] ++ init.map Name.text, collapse (last.text ++ c.text)⟩] :=
    gather_group (fun _ => isName_of_mem) hsegment hne
  rw [c.tokensOf_text] at htokens
  rw [htokens, Settled, List.getLast?_concat]
  refine ⟨?_, by simpa using hsegment⟩
  rw [statedIn, htokens, hgather]
  simp only [bind, Except.bind, List.nil_append, List.mapM_cons, List.mapM_nil,
    c.statements_group hinit last]
  simp [pure, Except.pure]

/-- Names that no comparison follows are refused at the end, whatever is in front of them. -/
theorem exists_statedIn_dangling (hlist : Listed names list) (hlead : Divides a lead list)
    (htrail : Divides list trail []) :
    ∃ held : List String, statedIn (a ++ (lead ++ (list ++ trail))) =
        .error (.dangling (held ++ names.map Name.string)) ∧
      (Settled (tokensOf none a) → held = []) := by
  have htokens : tokensOf none (a ++ (lead ++ (list ++ trail))) =
      tokensOf none a ++ names.map Name.text := by
    rw [(hlead.append_right hlist.ne_nil).tokensOf_eq, hlist.tokensOf_trail htrail]
  have hne : names.map Name.text ≠ [] := by simpa using hlist.names_ne_nil
  have hstrings : (names.map Name.text).map String.ofList = names.map Name.string := by
    rw [List.map_map]
    rfl
  by_cases ha : Settled (tokensOf none a)
  · have hkept : ∀ t ∈ tokensOf none a, t ≠ [] :=
      fun t ht => by simpa using (List.mem_filter.mp ht).2
    obtain ⟨front, hfront⟩ := exists_gather hkept ha fun _ => rfl
    have hgather : gather [] (names.map Name.text) =
        .error (.dangling (names.map Name.string)) := by
      rw [gather_names (fun _ => isName_of_mem) hne, List.nil_append, hstrings]
    refine ⟨[], ?_, fun _ => rfl⟩
    rw [statedIn, htokens, hfront, hgather]
    rfl
  · obtain ⟨held, hgather⟩ := exists_gather_names (tokensOf none a) [] (fun _ => isName_of_mem) hne
    refine ⟨held.map String.ofList, ?_, fun h => absurd h ha⟩
    rw [statedIn, htokens, hgather, List.map_append, hstrings]
    rfl

lemma Divides.silent (h : Divides a gap b) (ha : Silent a) (hb : Silent b) :
    Silent (a ++ (gap ++ b)) := by
  refine ha.append (hb.prepend h.isGap.sameLetter) ?_
  by_cases hnil : a = []
  · exact .inl hnil
  · refine .inr (h.isGap.stops ?_).1
    by_cases hb : b = []
    · exact .inr hb
    · exact .inl (h.parting hnil hb)

/-- No phrase starts where a list is put in with a comparison behind it. -/
lemma Comparison.silent_inserted (c : Comparison) (hlist : Listed names list)
    (hlead : Divides a lead list) (htrail : Divides (list ++ c.text) trail b)
    (ha : Silent a) (hb : Silent b) :
    Silent (a ++ (lead ++ ((list ++ c.text) ++ (trail ++ b)))) := by
  have hrest : Silent (trail ++ b) := hb.prepend htrail.isGap.sameLetter
  have hbound : Silent (c.text ++ (trail ++ b)) := hrest.prepend fun d hd => (c.quiet d hd).1
  rw [List.append_assoc list]
  exact (hlead.append_right hlist.ne_nil).silent ha (hlist.silent hbound (c.stops _))

/-- Nor does one start in a list at the end. -/
lemma Listed.silent_end (hlist : Listed names list) (hlead : Divides a lead list)
    (htrail : Divides list trail []) (ha : Silent a) : Silent (a ++ (lead ++ (list ++ trail))) := by
  have hstops := (htrail.isGap.stops (.inr rfl)).1
  have hnil : Silent [] := fun _ _ => trivial
  have hrest : Silent (trail ++ []) := hnil.prepend htrail.isGap.sameLetter
  rw [List.append_nil] at hstops hrest
  exact (hlead.append_right hlist.ne_nil).silent ha (hlist.silent hrest hstops)

/-- A list that is put in with a comparison behind it is stated between what is in front of it and
what is behind it. -/
theorem Comparison.statedIn_inserted (c : Comparison) (hlist : Listed names list)
    (hlength : 2 ≤ names.length) (hlead : Divides a lead list)
    (htrail : Divides (list ++ c.text) trail b) (ha : Settled (tokensOf none a))
    {y z : List (Statement Float)} (hy : statedIn a = .ok y) (hz : statedIn b = .ok z) :
    statedIn (a ++ (lead ++ ((list ++ c.text) ++ (trail ++ b)))) =
      .ok (y ++ (names.map c.statement ++ z)) := by
  obtain ⟨hlisted, hsettled⟩ := c.statedIn_list hlist hlength
  have hlead : Divides a lead ((list ++ c.text) ++ (trail ++ b)) := by
    rw [List.append_assoc]
    exact hlead.append_right hlist.ne_nil
  have hbehind : statedIn ((list ++ c.text) ++ (trail ++ b)) = .ok (names.map c.statement ++ z) :=
    (statedIn_append htrail hsettled).mpr ⟨_, z, hlisted, hz, rfl⟩
  exact (statedIn_append hlead ha).mpr ⟨y, _, hy, hbehind, rfl⟩

end Lists

/-- A place among the constraints of a specification. What a second phrase introduces is apart. -/
structure Place where
  objective : String
  phrase : String
  front : String
  back : String
  tail : String
  unintroduced_objective : Unintroduced objective
  isIntroduction_phrase : IsIntroduction phrase.toList
  unintroduced_front : Unintroduced front
  unintroduced_back : Unintroduced back
  tail_cases : tail = "" ∨ Introduced tail.toList

namespace Place

variable {place : Place} {between : String} {p : Problem Float}

/-- The specification with a text put in at the place. -/
def spec (place : Place) (between : String) : String :=
  place.objective ++ place.phrase ++ place.front ++ between ++ place.back ++ place.tail

/-- The specification up to the place. -/
def opening (place : Place) : String :=
  place.objective ++ place.phrase ++ place.front

/-- The place is in front of all constraints or behind one: behind its relation sign there is no
separator. So it is not in a list of variables. -/
def Free (place : Place) : Prop :=
  place.front = "" ∨
    ∃ piece ∈ (cut separatorWidth none 0 place.front.toList).getLast?, '=' ∈ piece

lemma Free.settled_front (h : place.Free) : Settled (tokensOf none place.front.toList) := by
  obtain h | ⟨piece, hpiece, hmem⟩ := h
  · rw [h]
    simp [Settled]
  · obtain ⟨pieces, hpieces⟩ := List.getLast?_eq_some_iff.mp hpiece
    have hsign : '=' ∈ collapse piece := by
      have hfilter : '=' ∈ (collapse piece).filter (· ≠ ' ') := by
        rw [filter_collapse]
        exact List.mem_filter.mpr ⟨hmem, by decide⟩
      exact (List.mem_filter.mp hfilter).1
    have hkept : [collapse piece].filter (· ≠ []) = [collapse piece] := by
      simp [List.ne_nil_of_mem hsign]
    rw [Settled, tokensOf, hpieces, List.map_append, List.map_singleton, List.filter_append, hkept,
      List.getLast?_concat]
    rintro t ⟨⟩
    by_contra hname
    exact absurd (isWord_of_isName (by simpa using hname) '=' hsign) (by decide)

/-- With no phrase in the text that is put in, the objective and the constraints are read apart. -/
lemma read_spec (h : Silent (place.front.toList ++ (between.toList ++ place.back.toList))) :
    (variablesOf (place.spec between) = do
      let (_, form) ← objective? (collapse place.objective.toList)
      let all ← statedIn (place.front.toList ++ (between.toList ++ place.back.toList))
      return mentioned form.terms all) ∧
    read (place.spec between) = do
      let (direction, form) ← objective? (collapse place.objective.toList)
      let all ← statedIn (place.front.toList ++ (between.toList ++ place.back.toList))
      return stating direction form.terms all := by
  have hspec : (place.spec between).toList = place.objective.toList ++ (place.phrase.toList ++
      ((place.front.toList ++ (between.toList ++ place.back.toList)) ++ place.tail.toList)) := by
    simp [spec, String.toList_append]
  have htail : place.tail.toList = [] ∨ Introduced place.tail.toList :=
    place.tail_cases.imp_left fun h => by rw [h]; rfl
  obtain ⟨hfirst, hsecond, hread⟩ := read_outline (silent_iff.mpr place.unintroduced_objective)
    place.isIntroduction_phrase h htail hspec
  constructor
  · rw [variablesOf, statementsOf, hfirst, hsecond, segments_collapse, statedIn]
  · rw [hread, readParts, segments_collapse, statedIn]
    cases objective? (collapse place.objective.toList) with
    | error fault => rfl
    | ok form =>
      cases gather [] (tokensOf none (place.front.toList ++
        (between.toList ++ place.back.toList))) with
      | error fault => rfl
      | ok read =>
        cases hfound : read.mapM statements <;>
          simp [bind, Except.bind, hfound, pure, Except.pure, stating, mentioned]

lemma read_of_statedIn {direction : Direction} {form : LinearForm Float}
    {all : List (Statement Float)}
    (h : Silent (place.front.toList ++ (between.toList ++ place.back.toList)))
    (hobjective : objective? (collapse place.objective.toList) = .ok (direction, form))
    (hall : statedIn (place.front.toList ++ (between.toList ++ place.back.toList)) = .ok all) :
    variablesOf (place.spec between) = .ok (mentioned form.terms all) ∧
      read (place.spec between) = .ok (stating direction form.terms all) := by
  rw [(place.read_spec h).1, (place.read_spec h).2, hobjective, hall]
  exact ⟨rfl, rfl⟩

lemma exists_of_read (h : Silent (place.front.toList ++ (between.toList ++ place.back.toList)))
    (hread : read (place.spec between) = .ok p) : ∃ direction form all,
      objective? (collapse place.objective.toList) = .ok (direction, form) ∧
      statedIn (place.front.toList ++ (between.toList ++ place.back.toList)) = .ok all ∧
      p = stating direction form.terms all := by
  rw [(place.read_spec h).2] at hread
  obtain ⟨⟨direction, form⟩, hobjective, hread⟩ := bind_eq_ok.mp hread
  obtain ⟨all, hall, hread⟩ := bind_eq_ok.mp hread
  exact ⟨direction, form, all, hobjective, hall, (Except.ok.inj hread).symm⟩

/-- The place at the end of the specification up to it. -/
def last (place : Place) : Place :=
  { place with
    back := ""
    tail := ""
    unintroduced_back := by decide +kernel
    tail_cases := .inl rfl }

lemma spec_last (place : Place) (between : String) :
    place.last.spec between = place.opening ++ between := by
  simp [spec, last, opening]

lemma read_opening {direction : Direction} {form : LinearForm Float} {y : List (Statement Float)}
    (hobjective : objective? (collapse place.objective.toList) = .ok (direction, form))
    (hy : statedIn place.front.toList = .ok y) :
    read place.opening = .ok (stating direction form.terms y) := by
  have hfront := silent_iff.mpr place.unintroduced_front
  have hlast : Silent (place.last.front.toList ++ ("".toList ++ place.last.back.toList)) := by
    simpa [last] using hfront
  have hy' : statedIn (place.last.front.toList ++ ("".toList ++ place.last.back.toList)) =
      .ok y := by
    simpa [last] using hy
  have hread := (place.last.read_of_statedIn hlast hobjective hy').2
  rwa [place.spec_last, String.append_empty] at hread

end Place

section Bounds

variable {names : List Name} {c : Comparison}

/-- A constraint that bounds one variable as the comparison says. -/
structure Comparison.BoundOn (c : Comparison) (vars : List String) (n : Name)
    (bound : Constraint Float) : Prop where
  relation : bound.relation = c.sign.relation
  rhs : bound.rhs = c.rhs
  coefficients : ∀ name, coefficientAt vars bound name = if name = n.string then 1 else 0

/-- From the constraint at `start` on, `p'` has a bound on each variable of a list, unless the bound
only says that the variables are not negative. By name it is `p` in everything else. -/
structure AddsBounds (names : List Name) (c : Comparison) (start : ℕ) (vars vars' : List String)
    (p p' : Problem Float) : Prop where
  columns : vars.Nodup ∧ vars.length = p.numVars
  columns' : vars'.Nodup ∧ vars'.length = p'.numVars
  direction : p'.direction = p.direction
  objective : ∀ name, coefficientOf (vars'.zip p'.objective) name =
    coefficientOf (vars.zip p.objective) name
  constraints : ∃ front bounds back, p'.constraints = front ++ (bounds ++ back) ∧
    List.Forall₂ (SameByName vars vars') (p.constraints.take start) front ∧
    List.Forall₂ (SameByName vars vars') (p.constraints.drop start) back ∧
    if c.sign.relation = .ge ∧ size c.rhs ≤ 1e-12 then bounds = []
    else List.Forall₂ (c.BoundOn vars') names bounds

lemma Comparison.isNonNegativity_statement (c : Comparison) (n : Name) :
    (c.statement n).isNonNegativity =
      decide (c.sign.relation = .ge ∧ size c.rhs ≤ 1e-12) := by
  have hone : (0 : Float) < 1 := by decide +kernel
  have hsize : (size c.rhs).isFinite = true := by
    unfold size
    split_ifs
    · exact (Double.isFinite_neg c.rhs).trans c.isFinite_rhs
    · exact c.isFinite_rhs
  have hle : size c.rhs ≤ 1e-12 ↔ ¬ 1e-12 < size c.rhs :=
    ⟨fun h h' => OrderedScalar.not_le_of_lt h' h,
      Double.le_of_not_lt_of_isFinite hsize (by decide +kernel)⟩
  rw [Statement.isNonNegativity, statement]
  simp [hone, hle]

lemma filter_statements (names : List Name) (c : Comparison) :
    (names.map c.statement).filter (!·.isNonNegativity) =
      if c.sign.relation = .ge ∧ size c.rhs ≤ 1e-12 then [] else names.map c.statement := by
  split_ifs with h
  · refine List.filter_eq_nil_iff.mpr fun s hs => ?_
    obtain ⟨n, -, rfl⟩ := List.mem_map.mp hs
    simp [c.isNonNegativity_statement, h]
  · refine List.filter_eq_self.mpr fun s hs => ?_
    obtain ⟨n, -, rfl⟩ := List.mem_map.mp hs
    simp [c.isNonNegativity_statement, h]

lemma coefficientOf_singleton (n : Name) (name : String) :
    coefficientOf [(n.string, (1 : Float))] name = if name = n.string then 1 else 0 := by
  by_cases h : name = n.string
  · simp [coefficientOf, h]
  · rw [coefficientOf, List.lookup_cons, beq_false_of_ne h, if_neg h]
    rfl

lemma exists_append_of_forall₂ {α β : Type} {R : α → β → Prop} {l : List α} {a b : List β}
    (h : List.Forall₂ R l (a ++ b)) :
    ∃ l₁ l₂, l = l₁ ++ l₂ ∧ List.Forall₂ R l₁ a ∧ List.Forall₂ R l₂ b :=
  ⟨l.take a.length, l.drop a.length, (List.take_append_drop _ _).symm,
    List.forall₂_take_append l a b h, List.forall₂_drop_append l a b h⟩

/-- Statements that a list makes add bounds between those in front of it and those behind it. -/
theorem stating_addsBounds (names : List Name) (c : Comparison) (direction : Direction)
    (objective : List (String × Float)) (y z : List (Statement Float)) :
    AddsBounds names c (stating direction objective y).constraints.length
      (mentioned objective (y ++ z))
      (mentioned objective (y ++ (names.map c.statement ++ z)))
      (stating direction objective (y ++ z))
      (stating direction objective (y ++ (names.map c.statement ++ z))) := by
  have hcolumns : ∀ all, (mentioned objective all).Nodup ∧
      (mentioned objective all).length = (stating direction objective all).numVars :=
    fun all => ⟨nodup_mentioned, by simp [stating, assemble, Problem.numVars]⟩
  have hlength : (stating direction objective y).constraints.length =
      (y.filter (!·.isNonNegativity)).length := by
    simp [stating, assemble]
  rw [hlength]
  refine ⟨hcolumns _, hcolumns _, rfl, fun name => ?_, ?_⟩
  · rw [objective_stating, objective_stating]
  · have hold := stating_restates direction objective (y ++ z)
    have hnew := stating_restates direction objective (y ++ (names.map c.statement ++ z))
    rw [List.filter_append] at hold
    rw [List.filter_append, List.filter_append, filter_statements] at hnew
    obtain ⟨front, rest, hconstraints, hfront, hrest⟩ := exists_append_of_forall₂ hnew
    obtain ⟨bounds, back, rfl, hbounds, hback⟩ := exists_append_of_forall₂ hrest
    refine ⟨front, bounds, back, hconstraints,
      sameByName_of_restates (List.forall₂_take_append _ _ _ hold) hfront,
      sameByName_of_restates (List.forall₂_drop_append _ _ _ hold) hback, ?_⟩
    split_ifs at hbounds ⊢ with h
    · exact List.forall₂_nil_right_iff.mp hbounds
    · rw [List.forall₂_map_right_iff] at hbounds
      exact hbounds.flip.imp fun n bound hbound => ⟨hbound.relation, hbound.rhs,
        fun name => (hbound.coefficients name).trans (coefficientOf_singleton n name)⟩

end Bounds

/-- A list of variables is put in at a place of a specification that is read without it, apart from
what is around it. With a comparison behind it, it adds a bound on each of its variables. With none,
it is refused at the end of the constraints. The place is in front of a second phrase: what that one
introduces is not read. -/
theorem read_listed {names : List Name} {list lead : String} (hlist : Listed names list.toList)
    (place : Place) (hlead : Divides place.front.toList lead.toList list.toList) :
    (∀ (c : Comparison) (gap trail : String) (p : Problem Float), place.Free → 2 ≤ names.length →
      Divides place.front.toList gap.toList place.back.toList →
      Divides (list.toList ++ c.text) trail.toList place.back.toList →
      read (place.spec gap) = .ok p →
      ∃ q vars vars' p', read place.opening = .ok q ∧ variablesOf (place.spec gap) = .ok vars ∧
        variablesOf (place.spec (lead ++ list ++ String.ofList c.text ++ trail)) = .ok vars' ∧
        read (place.spec (lead ++ list ++ String.ofList c.text ++ trail)) = .ok p' ∧
        AddsBounds names c q.constraints.length vars vars' p p') ∧
    ∀ trail : String, place.back = "" → Divides list.toList trail.toList [] →
      (∃ fault, read (place.spec (lead ++ list ++ trail)) = .error fault) ∧
      ∀ (gap : String) (p : Problem Float), place.Free → Divides place.front.toList gap.toList [] →
        read (place.spec gap) = .ok p →
        read (place.spec (lead ++ list ++ trail)) = .error (.dangling (names.map Name.string)) := by
  have hfront := silent_iff.mpr place.unintroduced_front
  have hback := silent_iff.mpr place.unintroduced_back
  constructor
  · intro c gap trail p hfree hlength hgap htrail hread
    have hsilent := hgap.silent hfront hback
    obtain ⟨direction, form, all, hobjective, hall, rfl⟩ := place.exists_of_read hsilent hread
    have hvars := (place.read_of_statedIn hsilent hobjective hall).1
    obtain ⟨y, z, hy, hz, rfl⟩ := (statedIn_append hgap hfree.settled_front).mp hall
    have hopening := place.read_opening hobjective hy
    have hinserted : (lead ++ list ++ String.ofList c.text ++ trail).toList ++ place.back.toList =
        lead.toList ++ ((list.toList ++ c.text) ++ (trail.toList ++ place.back.toList)) := by
      simp [String.toList_append]
    have hsilent' := c.silent_inserted hlist hlead htrail hfront hback
    have hall' := c.statedIn_inserted hlist hlength hlead htrail hfree.settled_front hy hz
    rw [← hinserted] at hsilent' hall'
    obtain ⟨hvars', hread'⟩ := place.read_of_statedIn hsilent' hobjective hall'
    exact ⟨_, _, _, _, hopening, hvars, hvars', hread', stating_addsBounds names c direction _ y z⟩
  · intro trail hend htrail
    have hinserted : (lead ++ list ++ trail).toList ++ place.back.toList =
        lead.toList ++ (list.toList ++ trail.toList) := by
      simp [String.toList_append, hend]
    have hsilent' := hlist.silent_end hlead htrail hfront
    obtain ⟨held, hdangling, hheld⟩ := exists_statedIn_dangling hlist hlead htrail
    rw [← hinserted] at hsilent' hdangling
    constructor
    · rw [(place.read_spec hsilent').2, hdangling]
      cases objective? (collapse place.objective.toList) with
      | error fault => exact ⟨fault, rfl⟩
      | ok found => exact ⟨_, rfl⟩
    · intro gap p hfree hgap hread
      rw [← String.toList_empty, ← hend] at hgap
      obtain ⟨direction, form, all, hobjective, -⟩ :=
        place.exists_of_read (hgap.silent hfront hback) hread
      rw [(place.read_spec hsilent').2, hobjective, hdangling, hheld hfree.settled_front]
      rfl

/-- A place between two constraints. -/
def Place.capacities : Place where
  objective := "maximize 3x1 + 5x2"
  phrase := " subject to "
  front := "x1 <= 4"
  back := "2x2 <= 12"
  tail := ""
  unintroduced_objective := by decide +kernel
  isIntroduction_phrase := ⟨"subject to", by simp [introductions], by decide +kernel⟩
  unintroduced_front := by decide +kernel
  unintroduced_back := by decide +kernel
  tail_cases := .inl rfl

/-- The names `x2` and `x3`. -/
def Written.Name.second : Name :=
  ⟨'x', ['2'], rfl, rfl, by decide⟩

def Written.Name.third : Name :=
  ⟨'x', ['3'], rfl, rfl, by decide⟩

/-- A bound written with another spelling of its relation. -/
def Comparison.atLeast : Comparison where
  pad := [' ']
  sign := .eqGt
  bound := " 2.5".toList
  rhs := 2.5
  isBlank_pad := List.forall_mem_singleton.mpr (by decide)
  readFloat?_bound := by decide +kernel
  isFinite_rhs := by decide +kernel

theorem read_listed_two :
    (∃ p', read "maximize 3x1 + 5x2 subject to x1 <= 4; x2 AND x3 => 2.5 and 2x2 <= 12" = .ok p' ∧
      AddsBounds [.second, .third] .atLeast 1
        ["x1", "x2"] ["x1", "x2", "x3"]
        ⟨.max, [3, 5], [⟨"c1", [1, 0], .le, 4⟩, ⟨"c2", [0, 2], .le, 12⟩]⟩ p') ∧
      read "maximize 3x1 + 5x2 subject to x1 <= 4; x2 AND x3 ," =
        .error (.dangling ["x2", "x3"]) := by
  have hword : IsSeparator (some ' ') "AND".toList " x3".toList :=
    .word (by decide) (by decide) (by decide)
  have hbetween : Divides "x2".toList " AND ".toList "x3".toList :=
    ⟨.blank (by decide) (.separator hword (.blank (by decide) (.nil _ _))),
      fun _ _ => ⟨'A', by decide, by decide⟩⟩
  have hlist : Listed [.second, .third]
      "x2 AND x3".toList :=
    .cons (n := .second) hbetween (.one .third)
  have hlead : Divides Place.capacities.front.toList "; ".toList "x2 AND x3".toList :=
    ⟨.separator (.semicolon _) (.blank (by decide) (.nil _ _)),
      fun _ _ => ⟨';', by decide, by decide⟩⟩
  have hfree : Place.capacities.Free :=
    .inr ⟨"x1 <= 4".toList, by decide +kernel, by decide⟩
  constructor
  · have hgap : Divides Place.capacities.front.toList ", ".toList Place.capacities.back.toList :=
      ⟨.separator (.comma _) (.blank (by decide) (.nil _ _)),
        fun _ _ => ⟨',', by decide, by decide⟩⟩
    have hend : IsSeparator (some ' ') "and".toList (" ".toList ++ Place.capacities.back.toList) :=
      .word (by decide) (by decide) (by decide)
    have htrail : Divides ("x2 AND x3".toList ++ Comparison.atLeast.text) " and ".toList
        Place.capacities.back.toList :=
      ⟨.blank (by decide) (.separator hend (.blank (by decide) (.nil _ _))),
        fun _ _ => ⟨'a', by decide, by decide⟩⟩
    obtain ⟨q, vars, vars', p', hopening, hvars, hvars', hread, hadds⟩ :=
      (read_listed hlist Place.capacities hlead).1 .atLeast ", " " and "
        ⟨.max, [3, 5], [⟨"c1", [1, 0], .le, 4⟩, ⟨"c2", [0, 2], .le, 12⟩]⟩ hfree (by decide)
        hgap htrail (by rfl)
    obtain rfl : ⟨.max, [3, 5], [⟨"c1", [1, 0], .le, 4⟩]⟩ = q :=
      Except.ok.inj (Eq.trans (by rfl) hopening)
    obtain rfl : ["x1", "x2"] = vars := Except.ok.inj (Eq.trans (by rfl) hvars)
    obtain rfl : ["x1", "x2", "x3"] = vars' := Except.ok.inj (Eq.trans (by rfl) hvars')
    exact ⟨p', hread, hadds⟩
  · have hsep : IsSeparator (some ' ') ",".toList [] := .comma _
    have htrail : Divides "x2 AND x3".toList " ,".toList [] :=
      ⟨.blank (by decide) (.separator hsep (.nil _ _)), fun _ h => absurd rfl h⟩
    exact ((read_listed hlist Place.capacities.last hlead).2 " ," rfl htrail).2 "" _ hfree
      ⟨.nil _ _, fun _ h => absurd rfl h⟩ (by rfl)

/-- Behind a second phrase a list adds nothing, and without a comparison it is not refused. -/
theorem read_listed_lost :
    Listed [.second, .third] "x2, x3".toList ∧
      read "max x1 subject to x1 <= 4 such that x1 <= 2" =
        .ok ⟨.max, [1], [⟨"c1", [1], .le, 4⟩]⟩ ∧
      read "max x1 subject to x1 <= 4 such that x1 <= 2, x2, x3 >= 2.5" =
        .ok ⟨.max, [1], [⟨"c1", [1], .le, 4⟩]⟩ ∧
      read "max x1 subject to x1 <= 4 such that x2, x3" =
        .ok ⟨.max, [1], [⟨"c1", [1], .le, 4⟩]⟩ := by
  have hgap : Divides "x2".toList ", ".toList "x3".toList :=
    ⟨.separator (.comma _) (.blank (by decide) (.nil _ _)), fun _ _ => ⟨',', by decide, by decide⟩⟩
  have hlist : Listed [.second, .third] "x2, x3".toList := .cons (n := .second) hgap (.one .third)
  exact ⟨hlist, by rfl, by rfl, by rfl⟩

end SimplexTableau.Specification
