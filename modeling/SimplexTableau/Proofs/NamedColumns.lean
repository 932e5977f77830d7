import SimplexTableau.Proofs.DroppedBounds

/-!
# Columns by name

The columns of a problem that is read from a specification are numbered by the first appearance of
their variables, so a statement that is put in may renumber them. By name, the coefficients of a
constraint are those of the statement that it comes from, whatever the other statements are.
-/

namespace SimplexTableau.Specification

open SimplexTableau.Text

/-- The variables that a specification mentions, in the order of the columns. -/
def variablesOf (spec : String) : Except SpecFault (List String) := do
  let parts := cut introductionWidth none 0 (collapse spec.toList)
  let (_, objective) ← objective? (trim (parts.headD []))
  let all ← statementsOf spec
  return mentioned objective.terms all

/-- The problem that statements make up over the variables that they mention. -/
def stating (direction : Direction) (objective : List (String × Float))
    (all : List (Statement Float)) : Problem Float :=
  assemble direction objective (mentioned objective all) (all.filter (!·.isNonNegativity))

/-- The coefficient of a variable in a constraint whose columns are named by `vars`. -/
def coefficientAt (vars : List String) (c : Constraint Float) (name : String) : Float :=
  coefficientOf (vars.zip c.coefficients) name

/-- The same constraint by name, though the columns may be numbered in another way. -/
structure SameByName (vars vars' : List String) (c c' : Constraint Float) : Prop where
  relation : c'.relation = c.relation
  rhs : c'.rhs = c.rhs
  coefficients : ∀ name, coefficientAt vars' c' name = coefficientAt vars c name

/-- A constraint says what a statement says. -/
structure Restates (vars : List String) (c : Constraint Float) (s : Statement Float) : Prop where
  relation : c.relation = s.relation
  rhs : c.rhs = s.rhs
  coefficients : ∀ name, coefficientAt vars c name = coefficientOf s.terms name

section Names

variable {objective terms : List (String × Float)} {all : List (Statement Float)}
  {s : Statement Float} {name : String} {names : List String} {f : String → Float}

lemma mentioned_eq : mentioned objective all =
    (objective.map (·.1) ++ all.flatMap (·.terms.map (·.1))).eraseDups := by
  have hstatements : ∀ known : List String,
      all.foldl (fun names s => addNames names s.terms) known.eraseDups =
        (known ++ all.flatMap (·.terms.map (·.1))).eraseDups := by
    induction all with
    | nil => simp
    | cons s all ih =>
      intro known
      rw [List.foldl_cons, addNames_eq, foldl_noteName, ih, List.flatMap_cons, List.append_assoc]
  have hobjective : addNames [] objective = (objective.map (·.1)).eraseDups := by
    rw [addNames_eq]
    exact @foldl_noteName [] _
  rw [mentioned, hobjective, hstatements]

lemma nodup_mentioned : (mentioned objective all).Nodup := by
  rw [mentioned_eq]
  generalize objective.map (·.1) ++ all.flatMap (·.terms.map (·.1)) = names
  induction names using List.reverseRecOn with
  | nil => exact List.nodup_nil
  | append_singleton names name ih =>
    rw [eraseDups_concat]
    by_cases h : name ∈ names.eraseDups
    · rwa [noteName_of_mem h]
    · rw [noteName_of_notMem h, ← List.concat_eq_append]
      exact ih.concat h

lemma coefficientOf_of_notMem (h : name ∉ terms.map (·.1)) : coefficientOf terms name = 0 := by
  have hlookup : terms.lookup name = none := by
    induction terms with
    | nil => rfl
    | cons t terms ih =>
      rw [List.map_cons, List.mem_cons, not_or] at h
      rw [List.lookup_cons, beq_false_of_ne h.1]
      exact ih h.2
  rw [coefficientOf, hlookup]
  rfl

lemma coefficientOf_zip (h : name ∈ names) :
    coefficientOf (names.zip (names.map f)) name = f name := by
  have hlookup : (names.zip (names.map f)).lookup name = some (f name) := by
    induction names with
    | nil => cases h
    | cons m names ih =>
      rw [List.map_cons, List.zip_cons_cons, List.lookup_cons]
      by_cases hm : name = m
      · simp [hm]
      · rw [beq_false_of_ne hm]
        exact ih ((List.mem_cons.mp h).resolve_left hm)
  rw [coefficientOf, hlookup]
  rfl

lemma coefficientOf_columns (h : ∀ name ∈ terms.map (·.1), name ∈ names) (name : String) :
    coefficientOf (names.zip (names.map (coefficientOf terms))) name =
      coefficientOf terms name := by
  by_cases hname : name ∈ names
  · exact coefficientOf_zip hname
  · have hzip : name ∉ (names.zip (names.map (coefficientOf terms))).map (·.1) := by
      intro hmem
      obtain ⟨⟨m, x⟩, hm, rfl⟩ := List.mem_map.mp hmem
      exact hname (List.of_mem_zip hm).1
    rw [coefficientOf_of_notMem hzip, coefficientOf_of_notMem fun hmem => hname (h name hmem)]

end Names

section Problems

variable {direction : Direction} {objective : List (String × Float)} {all : List (Statement Float)}

/-- The constraints say, by name, what the statements say that are not dropped. -/
theorem stating_restates (direction : Direction) (objective : List (String × Float))
    (all : List (Statement Float)) :
    List.Forall₂ (Restates (mentioned objective all)) (stating direction objective all).constraints
      (all.filter (!·.isNonNegativity)) := by
  have hnames : ∀ s ∈ all.filter (!·.isNonNegativity), ∀ name ∈ s.terms.map (·.1),
      name ∈ mentioned objective all := by
    intro s hs name hname
    rw [mentioned_eq, List.mem_eraseDups]
    exact List.mem_append_right _ (List.mem_flatMap.mpr ⟨s, (List.mem_filter.mp hs).1, hname⟩)
  have hall : ∀ (kept : List (Statement Float)) (first : ℕ),
      (∀ s ∈ kept, ∀ name ∈ s.terms.map (·.1), name ∈ mentioned objective all) →
      List.Forall₂ (Restates (mentioned objective all))
        ((kept.zipIdx first).map fun (s, i) => ⟨s!"c{i}",
          (mentioned objective all).map (coefficientOf s.terms), s.relation, s.rhs⟩) kept := by
    intro kept
    induction kept with
    | nil => exact fun _ _ => .nil
    | cons s kept ih =>
      intro first h
      obtain ⟨hs, hkept⟩ := List.forall_mem_cons.mp h
      exact .cons ⟨rfl, rfl, coefficientOf_columns hs⟩ (ih (first + 1) hkept)
  exact hall _ 1 hnames

lemma objective_stating (name : String) :
    coefficientOf ((mentioned objective all).zip (stating direction objective all).objective) name =
      coefficientOf objective name := by
  refine coefficientOf_columns (fun name hname => ?_) name
  rw [mentioned_eq, List.mem_eraseDups]
  exact List.mem_append_left _ hname

lemma sameByName_of_restates {vars vars' : List String} {cs cs' : List (Constraint Float)}
    {kept : List (Statement Float)} (h : List.Forall₂ (Restates vars) cs kept)
    (h' : List.Forall₂ (Restates vars') cs' kept) : List.Forall₂ (SameByName vars vars') cs cs' := by
  induction h generalizing cs' with
  | nil =>
    cases h'
    exact .nil
  | cons hc _ ih =>
    cases h' with
    | cons hc' h' =>
      exact .cons ⟨hc'.relation.trans hc.relation.symm, hc'.rhs.trans hc.rhs.symm,
        fun name => (hc'.coefficients name).trans (hc.coefficients name).symm⟩ (ih h')

end Problems

end SimplexTableau.Specification
