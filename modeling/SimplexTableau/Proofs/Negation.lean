import SimplexTableau.Proofs.Mirror

/-!
# Constraints written the other way round

A constraint and its negation have the same standard form, unless the right-hand side is zero: of
two negated right-hand sides exactly one is negative, and negating twice changes nothing. Columns
and rows are laid out after the standard form, and the penalty depends on absolute values only. So
a solution does not depend on which way round its constraints are written.
-/

namespace SimplexTableau

variable {α : Type} [Scalar α]

/-- The problem with the chosen constraints negated. -/
def Problem.turned (p : Problem α) (chosen : ℕ → Bool) : Problem α :=
  { p with constraints := p.constraints.mapIdx fun i c => if chosen i then c.negated else c }

variable [OrderedScalar α]

namespace Constraint

variable (c : Constraint α)

lemma negated_negated : c.negated.negated = c := by
  unfold negated
  simp only [List.map_map, Function.comp_def, OrderedScalar.neg_neg, List.map_id',
    Relation.flipped_flipped]

variable {c}

lemma standardised_negated (h : c.rhs < 0 ∨ 0 < c.rhs) :
    c.negated.standardised = c.standardised := by
  unfold standardised
  have hrhs : c.negated.rhs = -c.rhs := rfl
  rw [hrhs]
  rcases h with hneg | hpos
  · have hpos : (0 : α) < -c.rhs := OrderedScalar.zero_lt_neg.mpr hneg
    rw [if_neg (OrderedScalar.lt_asymm hpos), if_pos hneg]
  · rw [if_pos (OrderedScalar.neg_lt_zero.mpr hpos), if_neg (OrderedScalar.lt_asymm hpos),
      negated_negated]

variable (c)

lemma sizes_negated : List.Forall₂ SameNumber
    (c.negated.coefficients.map size ++ [size c.negated.rhs])
    (c.coefficients.map size ++ [size c.rhs]) := by
  apply List.rel_append
  · rw [negated, List.map_map, List.forall₂_map_left_iff, List.forall₂_map_right_iff,
      List.forall₂_same]
    exact fun x _ => size_neg x
  · exact List.Forall₂.cons (size_neg c.rhs) List.Forall₂.nil

end Constraint

namespace Problem

variable {p : Problem α} {chosen : ℕ → Bool}

lemma standardised_turned
    (h : ∀ i c, p.constraints[i]? = some c → chosen i = true → c.rhs < 0 ∨ 0 < c.rhs) :
    (p.turned chosen).constraints.map Constraint.standardised =
      p.constraints.map Constraint.standardised := by
  apply List.ext_getElem?
  intro i
  rw [List.getElem?_map, List.getElem?_map, turned, List.getElem?_mapIdx]
  cases hi : p.constraints[i]? with
  | none => rfl
  | some c =>
    simp only [Option.map_some, Option.some.injEq]
    split_ifs with hchosen
    · exact Constraint.standardised_negated (h i c hi hchosen)
    · rfl

lemma plainTableau_turned
    (h : ∀ i c, p.constraints[i]? = some c → chosen i = true → c.rhs < 0 ∨ 0 < c.rhs) :
    (p.turned chosen).plainTableau = p.plainTableau := by
  have hrows (q : Problem α) : (q.constraints.mapM fun c => c.standardised.spread q.numVars) =
      (q.constraints.map Constraint.standardised).mapM (·.spread q.numVars) := by
    rw [List.mapM_map]
    rfl
  have hspread : ((p.turned chosen).constraints.mapM fun c => c.standardised.spread p.numVars) =
      p.constraints.mapM fun c => c.standardised.spread p.numVars := by
    have hturned := hrows (p.turned chosen)
    rw [standardised_turned h] at hturned
    exact hturned.trans (hrows p).symm
  have hnum : (p.turned chosen).numVars = p.numVars := rfl
  have hobjective : (p.turned chosen).signedObjective = p.signedObjective := rfl
  simp only [plainTableau, hnum, hobjective, hspread]

variable (p chosen) in
/-- A constraint contributes the same sizes either way round, up to the signs of zeros. -/
lemma sizes_turned : List.Forall₂ SameNumber (p.turned chosen).sizes p.sizes := by
  have hturned : List.Forall₂ (fun c' c : Constraint α => c' = c ∨ c' = c.negated)
      (p.turned chosen).constraints p.constraints := by
    apply List.forall₂_iff_get.mpr
    refine ⟨List.length_mapIdx, fun i hi hi' => ?_⟩
    simp only [turned, List.get_eq_getElem, List.getElem_mapIdx]
    split_ifs
    · exact Or.inr rfl
    · exact Or.inl rfl
  have hsame (l : List α) : List.Forall₂ SameNumber l l :=
    List.forall₂_same.mpr fun x _ => Or.inl rfl
  apply List.rel_append (hsame _)
  apply List.rel_flatMap hturned
  rintro c' c (rfl | rfl)
  · exact hsame _
  · exact c.sizes_negated

/-- Any constraints whose right-hand side is positive or negative can be written the other way
round: the solution stays the same, number by number and with all of its steps. -/
theorem solve_turned
    (h : ∀ i c, p.constraints[i]? = some c → chosen i = true → c.rhs < 0 ∨ 0 < c.rhs)
    (m : Method) (o : SolveOptions α) : (p.turned chosen).solve m o = p.solve m o := by
  have hdirection : (p.turned chosen).direction = p.direction := rfl
  unfold solve
  rw [course_congr (plainTableau_turned h) (scale_congr (p.sizes_turned chosen)), hdirection]

/-- A minimisation in doubles in which three constraints can be written the other way round. -/
def sided : Problem Float where
  direction := .min
  objective := [0.1, 0.7]
  constraints := [⟨"c1", [0.3, 0], .eq, 0.2⟩, ⟨"c2", [-0.1, -1], .le, -0.9⟩,
    ⟨"c3", [1, 0.7], .le, 3⟩, ⟨"c4", [1, -1], .le, 0⟩]

theorem solve_turned_sided :
    (sided.turned (· < 3)).constraints.map (·.relation) = [.eq, .ge, .ge, .le] ∧
      (sided.solve .bigM {}).status = .optimal ∧
      (sided.turned (· < 3)).solve .bigM {} = sided.solve .bigM {} := by
  refine ⟨rfl, by decide +kernel, solve_turned (fun i c hi hchosen => ?_) .bigM {}⟩
  have hlt : i < 3 := of_decide_eq_true hchosen
  interval_cases i
  · cases hi
    exact Or.inr (by decide +kernel)
  · cases hi
    exact Or.inl (by decide +kernel)
  · cases hi
    exact Or.inr (by decide +kernel)

end Problem

end SimplexTableau
