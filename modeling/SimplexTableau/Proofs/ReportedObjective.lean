import SimplexTableau.Proofs.Penalty

/-!
# The reported objective and the reported point

The penalty method reports the right-hand side of an objective row in which artificial variables are
charged. It differs from the objective at the reported point by what is charged for the artificial
variables that are still basic, apart from small values that are reported as zero. The verdict lets
these variables through up to the feasibility tolerance, and the penalty multiplies them.
-/

namespace SimplexTableau

section Reading

lemma clean_neg (x : ℚ) : clean (-x) = -clean x := by
  unfold clean
  rw [size_eq_abs, size_eq_abs, abs_neg]
  split_ifs
  · rw [neg_zero]
  · rfl

lemma lookup_map_name (g : Column → ℚ) {l : List Column} {c : Column} (hc : c ∈ l) :
    (l.map fun d => (d.name, g d)).lookup c.name = some (g c) := by
  induction l with
  | nil => cases hc
  | cons d l ih =>
    rw [List.map_cons, List.lookup_cons]
    by_cases hd : c = d
    · rw [hd, beq_self_eq_true]
    · have hname : (c.name == d.name) = false := beq_false_of_ne (Column.name_injective.ne hd)
      rw [hname]
      exact ih ((List.mem_cons.mp hc).resolve_left hd)

lemma abs_dot_sub_le (a : List ℚ) {x y : List ℚ} {bound : ℚ}
    (h : ∀ j, |x.getD j 0 - y.getD j 0| ≤ bound) :
    |dot a x - dot a y| ≤ bound * (a.map abs).sum := by
  have hsum : (a.map abs).sum = ∑ j ∈ Finset.range a.length, |a.getD j 0| := by
    rw [← sum_getD, List.length_map]
    apply Finset.sum_congr rfl
    intro j hj
    have hlt := Finset.mem_range.mp hj
    rw [List.getD_eq_getElem _ _ (by rwa [List.length_map]), List.getElem_map,
      List.getD_eq_getElem _ _ hlt]
  calc |dot a x - dot a y|
      = |∑ j ∈ Finset.range a.length, a.getD j 0 * (x.getD j 0 - y.getD j 0)| := by
        rw [dot_eq_sum, dot_eq_sum, ← Finset.sum_sub_distrib]
        simp only [mul_sub]
    _ ≤ ∑ j ∈ Finset.range a.length, |a.getD j 0 * (x.getD j 0 - y.getD j 0)| :=
        Finset.abs_sum_le_sum_abs _ _
    _ ≤ ∑ j ∈ Finset.range a.length, bound * |a.getD j 0| := by
        apply Finset.sum_le_sum
        intro j _
        rw [abs_mul, mul_comm]
        exact mul_le_mul_of_nonneg_right (h j) (abs_nonneg _)
    _ = bound * (a.map abs).sum := by
        rw [hsum, Finset.mul_sum]

end Reading

/-- The value that a result reports for a variable, zero if it reports none. -/
def SolveResult.valueOf (r : SolveResult ℚ) (name : String) : ℚ :=
  (r.values.lookup name).getD 0

namespace Problem

/-- The point that a result reports: its values for the decision variables. -/
def reported (p : Problem ℚ) (r : SolveResult ℚ) : List ℚ :=
  (List.range p.numVars).map fun j => r.valueOf (Column.decision j).name

/-- What the penalty method charges for the artificial variables in the last tableau of a course. -/
def residualCharge (p : Problem ℚ) (o : SolveOptions ℚ) (c : Course ℚ) : ℚ :=
  p.charge .bigM o * p.artificialTotal c.final.rowValue

/-- What reporting small values as zero can make up in the objective value and in the objective at
the reported point. -/
def cleanup (p : Problem ℚ) : ℚ :=
  1e-12 * (1 + (p.objective.map abs).sum)

/-- No value of a tableau and not its objective value is small enough to be reported as zero, unless
it is zero. -/
def ReportsExactly (p : Problem ℚ) (t : Tableau ℚ) : Prop :=
  (∀ v ∈ p.columns, clean (t.rowValue v) = t.rowValue v) ∧
    clean (rhsOf t.objective) = rhsOf t.objective

variable {p : Problem ℚ} {m : Method} {o : SolveOptions ℚ} {c : Course ℚ} {t : Tableau ℚ}

lemma charge_nonneg (ho : o.Valid) : 0 ≤ p.charge .bigM o := by
  rw [charge, if_pos rfl]
  unfold SolveOptions.penalty
  cases o.bigM with
  | none =>
    have hle : o.bigMFloor ≤ larger o.bigMFloor (o.bigMScale * p.scale) := by
      unfold larger
      split_ifs with hlt
      · exact hlt.le
      · exact le_rfl
    exact ho.bigMFloor.le.trans hle
  | some penalty =>
    by_cases hbad : Scalar.isFinite penalty = false ∨ penalty ≤ 0
    · simp only [if_pos hbad]
      exact le_rfl
    · simp only [if_neg hbad]
      exact (not_le.mp (not_or.mp hbad).2).le

/-- The decision values of an answer are those of the basic solution, small ones reported as
zero. -/
theorem SameRows.reported_eq (h : p.SameRows t) {r : SolveResult ℚ} (hr : r.values = t.values) :
    p.reported r = decisions p.numVars fun v => clean (t.rowValue v) := by
  apply List.map_congr_left
  intro j hj
  have hmem : Column.decision j ∈ p.columns.filter Column.isVariable := by
    refine List.mem_filter.mpr ⟨mem_layout.mpr (List.mem_range.mp hj), rfl⟩
  rw [SolveResult.valueOf, hr, h.values_eq,
    lookup_map_name (fun v => clean (t.rowValue v)) hmem, Option.getD_some]

lemma abs_dot_clean_sub_le (p : Problem ℚ) (val : Column → ℚ) :
    |dot p.objective (decisions p.numVars fun v => clean (val v)) -
      dot p.objective (decisions p.numVars val)| ≤ 1e-12 * (p.objective.map abs).sum := by
  apply abs_dot_sub_le
  intro j
  simp only [decisions, List.getD_eq_getElem?_getD, List.getElem?_map]
  cases (List.range p.numVars)[j]? with
  | none => norm_num
  | some k => exact (abs_clean_sub_lt _).le

lemma SameRows.artificialTotal_le (h : p.SameRows t) (hcan : t.Canonical) {bound : ℚ}
    (hb : 0 ≤ bound) (hw : t.ArtificialsWithin bound) :
    p.artificialTotal t.rowValue ≤ p.plain.artificial.length * bound := by
  have hlen : ((rowsWhere (· ≠ .le) p.standard).map fun i =>
      t.rowValue (.artificial i)).length = p.plain.artificial.length := by
    rw [List.length_map, plain, List.length_map]
  rw [artificialTotal, ← hlen, ← nsmul_eq_mul]
  apply List.sum_le_card_nsmul
  intro v hv
  obtain ⟨i, hi, rfl⟩ := List.mem_map.mp hv
  have hget := get_idxOf (artificial_mem_columns_iff.mpr hi)
  by_cases hbasic : p.columns.idxOf (.artificial i) ∈ t.basis
  · obtain ⟨k, hk⟩ := List.mem_iff_getElem?.mp hbasic
    rw [h.rowValue_basic hcan hget hk]
    exact hw k _ hk (h.artificial ▸ mem_artificial_iff.mpr ⟨i, hget⟩)
  · rw [Tableau.rowValue, h.columns, Tableau.rawValueAt_nonbasic hbasic]
    exact hb

/-- The right-hand side of the last objective row is the objective at the basic solution less what
is charged for its artificial variables. -/
lemma Courses.bigM_value (hp : p.Valid) (htol : 0 ≤ o.tol) (h : p.Courses .bigM o c)
    (hclean : c.Clean o) :
    rhsOf c.final.objective = p.gain c.final.rowValue - p.residualCharge o c := by
  obtain ⟨hnone, -, hobj, -⟩ := h.bigM_charged hp htol
  obtain ⟨hrows, hcan, -⟩ := h.first_spec hp htol hclean
  rw [residualCharge, Course.final_of_none hnone, hrows.shaped.rhsOf_objective]
  exact hobj.penalised_basic hrows hcan

/-- What is charged for artificial variables that the verdict lets through. -/
lemma Courses.residualCharge_bounds (hp : p.Valid) (ho : o.Valid) (h : p.Courses .bigM o c)
    (hclean : c.Clean o) (hv : c.verdict .bigM o = .optimal) :
    0 ≤ p.residualCharge o c ∧ p.residualCharge o c ≤
      p.charge .bigM o * (p.plain.artificial.length * o.feasibilityTol) := by
  obtain ⟨hnone, -, -, -⟩ := h.bigM_charged hp ho.tol.le
  obtain ⟨hrows, hcan, hn⟩ := h.first_spec hp ho.tol.le hclean
  have hcharge := charge_nonneg (p := p) ho
  have hwithin : c.first.final.ArtificialsWithin o.feasibilityTol := by
    apply hrows.artificialsWithin_of_nil
    rcases h.optimal hv with ⟨-, -, -, hnil⟩ | ⟨second, hs, -⟩
    · rw [Course.final_of_none hnone] at hnil
      exact not_not.mp fun hne => hnil ⟨rfl, hne⟩
    · rw [hnone] at hs
      cases hs
  rw [residualCharge, Course.final_of_none hnone]
  constructor
  · exact mul_nonneg hcharge
      (artificialTotal_nonneg fun _ => hrows.shaped.rawValueAt_nonneg hn _)
  · exact mul_le_mul_of_nonneg_left
      (hrows.artificialTotal_le hcan ho.feasibilityTol.le hwithin) hcharge

/-- Before small values are reported as zero, the objective value misses the objective at the basic
solution by the charge. -/
lemma Courses.bigM_miss (hp : p.Valid) (ho : o.Valid) (h : p.Courses .bigM o c)
    (hclean : c.Clean o) (hv : c.verdict .bigM o = .optimal) :
    |(if p.direction = .min then -rhsOf c.final.objective else rhsOf c.final.objective) -
      dot p.objective (decisions p.numVars c.final.rowValue)| = p.residualCharge o c := by
  have hnonneg := (h.residualCharge_bounds hp ho hclean hv).1
  rw [h.bigM_value hp ho.tol.le hclean, gain, ← abs_of_nonneg hnonneg]
  split_ifs
  · congr 1
    rw [abs_of_nonneg hnonneg]
    ring
  · rw [← abs_neg]
    congr 1
    rw [abs_of_nonneg hnonneg]
    ring

lemma ReportsExactly.eq (h : p.ReportsExactly t) :
    clean (if p.direction = .min then -rhsOf t.objective else rhsOf t.objective) =
        (if p.direction = .min then -rhsOf t.objective else rhsOf t.objective) ∧
      (decisions p.numVars fun v => clean (t.rowValue v)) = decisions p.numVars t.rowValue := by
  constructor
  · split_ifs
    · rw [clean_neg, h.2]
    · exact h.2
  · apply List.map_congr_left
    intro j hj
    exact h.1 _ (mem_layout.mpr (List.mem_range.mp hj))

/-- An optimal answer of the penalty method misses the objective at the reported point by what is
charged for the artificial variables that are still basic, up to small values that are reported as
zero. So it is within one part in a million as far as that charge is. -/
theorem solve_bigM_objective (hp : p.Valid) (ho : o.Valid) (hclean : p.CleanSolve .bigM o)
    (hs : (p.solve .bigM o).status = .optimal) :
    ∃ c z v, p.course .bigM o = .ok c ∧ (p.solve .bigM o).objectiveValue = some z ∧
      v = dot p.objective (p.reported (p.solve .bigM o)) ∧
      0 ≤ p.residualCharge o c ∧
      p.residualCharge o c ≤ p.charge .bigM o * (p.plain.artificial.length * o.feasibilityTol) ∧
      |(|z - v| - p.residualCharge o c)| ≤ p.cleanup ∧
      (p.ReportsExactly c.final → |z - v| = p.residualCharge o c) ∧
      (p.residualCharge o c ≤ 1e-6 * max 1 |v| - p.cleanup → |z - v| ≤ 1e-6 * max 1 |v|) ∧
      (|z - v| ≤ 1e-6 * max 1 |v| → p.residualCharge o c ≤ 1e-6 * max 1 |v| + p.cleanup) := by
  obtain ⟨c, hc, hv, hz, hvalues⟩ := solve_optimal hs
  have hcourses := course_courses hc
  obtain ⟨hnonneg, hbound⟩ := hcourses.residualCharge_bounds hp ho (hclean c hc) hv
  have hmiss := hcourses.bigM_miss hp ho (hclean c hc) hv
  have hrows : p.SameRows c.final := by
    rw [Course.final_of_none (hcourses.bigM_charged hp ho.tol.le).1]
    exact hcourses.first_sameRows hp ho.tol.le
  have hclose : |(|c.objectiveValue p.direction -
      dot p.objective (p.reported (p.solve .bigM o))| - p.residualCharge o c)| ≤ p.cleanup := by
    have hobjective := abs_clean_sub_lt
      (if p.direction = .min then -rhsOf c.final.objective else rhsOf c.final.objective)
    have hpoint := p.abs_dot_clean_sub_le c.final.rowValue
    rw [← hmiss, hrows.reported_eq hvalues, cleanup, mul_add, mul_one]
    refine (abs_abs_sub_abs_le_abs_sub _ _).trans ?_
    rw [sub_sub_sub_comm]
    exact (abs_sub _ _).trans (add_le_add hobjective.le hpoint)
  refine ⟨c, _, _, hc, hz, rfl, hnonneg, hbound, hclose, ?_, ?_, ?_⟩
  · intro hexact
    obtain ⟨hobjective, hpoint⟩ := hexact.eq
    rw [hrows.reported_eq hvalues, hpoint, Course.objectiveValue, hobjective, hmiss]
  · intro hle
    have hupper := (abs_le.mp hclose).2
    linarith
  · intro hle
    have hlower := (abs_le.mp hclose).1
    linarith

theorem solve_bigM_objective_diet :
    ∃ z v, (diet.solve .bigM {}).objectiveValue = some z ∧
      v = dot diet.objective (diet.reported (diet.solve .bigM {})) ∧ v = 48 / 5 ∧
      |z - v| ≤ 1e-6 * max 1 |v| := by
  have hclean : diet.CleanSolve .bigM {} :=
    diet_valid.cleanSolve (by decide +kernel) (by decide +kernel :
      (diet.course .bigM {}).toOption.all (Course.endsClean {} 5) = true)
  have hcharge : (diet.course .bigM {}).toOption.all (diet.residualCharge {} · = 0) = true := by
    decide +kernel
  obtain ⟨c, z, v, hc, hz, hv, -, -, -, -, hclose, -⟩ := solve_bigM_objective diet_valid
    (SolveOptions.valid_default (by decide)) hclean (by decide +kernel)
  have hvalue : dot diet.objective (diet.reported (diet.solve .bigM {})) = 48 / 5 := by
    decide +kernel
  have hsmall : diet.cleanup ≤ 1e-6 := by decide +kernel
  rw [hc] at hcharge
  refine ⟨z, v, hz, hv, hv.trans hvalue, hclose ?_⟩
  rw [of_decide_eq_true hcharge]
  have hone := le_max_left 1 |v|
  linarith

/-- Two bounds on a variable that miss each other by half of the feasibility tolerance. -/
def narrow : Problem ℚ where
  direction := .max
  objective := [1]
  constraints := [⟨"c1", [1], .le, 1⟩, ⟨"c2", [1], .ge, 1 + 5e-6⟩]

/-- The artificial variable of the second bound stays basic with half of the feasibility tolerance,
for which the penalty of a hundred thousand charges one half. The reported objective value is lower
than the value of the reported point by that much. -/
theorem bigM_objective_narrow :
    (narrow.solve .bigM {}).objectiveValue = some (1 / 2) ∧
      narrow.reported (narrow.solve .bigM {}) = [1] ∧
      (narrow.solve .twoPhase {}).objectiveValue = some 1 ∧
      ¬ ∀ p : Problem ℚ, p.Valid → p.CleanSolve .bigM {} →
        (p.solve .bigM {}).status = .optimal → ∃ z v,
          (p.solve .bigM {}).objectiveValue = some z ∧
            v = dot p.objective (p.reported (p.solve .bigM {})) ∧
            |z - v| ≤ 1e-6 * max 1 |v| := by
  have hvalue : (narrow.solve .bigM {}).objectiveValue = some (1 / 2) := by decide +kernel
  have hpoint : narrow.reported (narrow.solve .bigM {}) = [1] := by decide +kernel
  refine ⟨hvalue, hpoint, by decide +kernel, fun hall => ?_⟩
  have hvalid : narrow.Valid := ⟨Or.inl rfl, by simp [narrow], by decide +kernel⟩
  have hclean : narrow.CleanSolve .bigM {} :=
    hvalid.cleanSolve (by decide +kernel) (by decide +kernel :
      (narrow.course .bigM {}).toOption.all (Course.endsClean {} 5) = true)
  obtain ⟨z, v, hz, hv, hle⟩ := hall narrow hvalid hclean (by decide +kernel)
  rw [hvalue] at hz
  cases hz
  have hone : dot narrow.objective [1] = 1 := by decide +kernel
  rw [hpoint, hone] at hv
  rw [hv] at hle
  norm_num at hle

end Problem

end SimplexTableau
