import SimplexTableau.Proofs.BasicSolution
import SimplexTableau.Proofs.CleanSolve
import SimplexTableau.Proofs.Points

/-!
# Feasibility of the answer of a single run

A run on clean columns that starts on a canonical tableau with non-negative right-hand sides ends
on one. Its basic solution balances every constraint, no value is negative, and the penalty method
has checked that no artificial value exceeds the tolerance. So the answer satisfies the problem
up to that tolerance, and exactly if there are no artificial columns.
-/

namespace SimplexTableau

namespace Problem

variable {p : Problem ℚ} {m : Method} {o : SolveOptions ℚ} {t : Tableau ℚ}

/-- The decision values satisfy the problem up to a tolerance, and every slack and surplus value
is the amount of its constraint, up to the artificial value of its row. -/
structure AnswersWithin (p : Problem ℚ) (tol : ℚ) (val : Column → ℚ) : Prop where
  nonneg : ∀ x ∈ decisions p.numVars val, 0 ≤ x
  holds : ∀ c ∈ p.constraints, c.HoldsWithin (decisions p.numVars val) tol
  slack : ∀ (i : ℕ) (c : Constraint ℚ), p.constraints[i]? = some c →
    c.standardised.relation = .le → val (.slack i) = c.gap (decisions p.numVars val)
  surplus : ∀ (i : ℕ) (c : Constraint ℚ), p.constraints[i]? = some c →
    c.standardised.relation = .ge →
      val (.surplus i) = c.gap (decisions p.numVars val) + val (.artificial i)
  artificial : ∀ (i : ℕ) (c : Constraint ℚ), p.constraints[i]? = some c →
    c.standardised.relation ≠ .le → 0 ≤ val (.artificial i) ∧ val (.artificial i) ≤ tol

lemma standard_get {i : ℕ} {c : Constraint ℚ} (hi : p.constraints[i]? = some c) :
    p.standard[i]? = some c.standardised := by
  rw [standard, List.getElem?_map, hi, Option.map_some]

/-- A balanced constraint holds up to a tolerance exactly if its slack value, its surplus value less
the artificial one, or the artificial value of an equation show no violation above it. -/
lemma Balanced.holdsWithin_iff {val : Column → ℚ} (h : p.Balanced val) {i : ℕ} {c : Constraint ℚ}
    (hi : p.standard[i]? = some c) (tol : ℚ) :
    c.HoldsWithin (decisions p.numVars val) tol ↔
      (c.relation = .le → -tol ≤ val (.slack i)) ∧
      (c.relation = .ge → -tol ≤ val (.surplus i) - val (.artificial i)) ∧
      (c.relation = .eq → |val (.artificial i)| ≤ tol) := by
  have hb := h i c hi
  cases hr : c.relation with
  | le =>
    simp only [Constraint.HoldsWithin, Constraint.auxiliary, hr] at hb ⊢
    simp only [forall_const, reduceCtorEq, false_implies, and_true]
    constructor <;> intro hle <;> linarith
  | ge =>
    simp only [Constraint.HoldsWithin, Constraint.auxiliary, hr] at hb ⊢
    simp only [forall_const, reduceCtorEq, false_implies, and_true, true_and]
    constructor <;> intro hle <;> linarith
  | eq =>
    simp only [Constraint.HoldsWithin, Constraint.auxiliary, hr] at hb ⊢
    simp only [forall_const, reduceCtorEq, false_implies, true_and]
    rw [← hb, sub_add_cancel_left, abs_neg]

/-- Balanced values that are not negative answer the problem as far as the artificial values
allow. -/
theorem Balanced.answersWithin {val : Column → ℚ} (h : p.Balanced val) {tol : ℚ} (htol : 0 ≤ tol)
    (hpos : ∀ c ∈ p.columns, c.isVariable = true → 0 ≤ val c)
    (hart : ∀ i, Column.artificial i ∈ p.columns → val (.artificial i) ≤ tol) :
    p.AnswersWithin tol val := by
  have hslack : ∀ {i : ℕ} {c : Constraint ℚ}, p.standard[i]? = some c → c.relation = .le →
      0 ≤ val (.slack i) := fun hi hr => hpos _ (mem_layout.mpr ⟨_, hi, hr⟩) rfl
  have hsurplus : ∀ {i : ℕ} {c : Constraint ℚ}, p.standard[i]? = some c → c.relation = .ge →
      0 ≤ val (.surplus i) := fun hi hr => hpos _ (mem_layout.mpr ⟨_, hi, hr⟩) rfl
  have hartificial : ∀ {i : ℕ} {c : Constraint ℚ}, p.standard[i]? = some c → c.relation ≠ .le →
      0 ≤ val (.artificial i) ∧ val (.artificial i) ≤ tol := by
    intro i c hi hr
    have hmem : Column.artificial i ∈ p.columns := mem_layout.mpr ⟨c, hi, hr⟩
    exact ⟨hpos _ hmem rfl, hart i hmem⟩
  constructor
  · intro x hx
    obtain ⟨j, hj, rfl⟩ := List.mem_map.mp hx
    exact hpos _ (mem_layout.mpr (List.mem_range.mp hj)) rfl
  · intro c hc
    obtain ⟨i, hi⟩ := List.mem_iff_getElem?.mp hc
    have hi' := standard_get hi
    rw [← c.holdsWithin_standardised_iff, h.holdsWithin_iff hi']
    refine ⟨fun hr => ?_, fun hr => ?_, fun hr => ?_⟩
    · have h0 := hslack hi' hr
      linarith
    · have h0 := hsurplus hi' hr
      have h1 := (hartificial hi' (by rw [hr]; simp)).2
      linarith
    · obtain ⟨h0, h1⟩ := hartificial hi' (by rw [hr]; simp)
      rwa [abs_of_nonneg h0]
  · intro i c hi hr
    have hb := h i _ (standard_get hi)
    rw [← c.gap_standardised]
    simp only [Constraint.gap, Constraint.auxiliary, hr] at hb ⊢
    linarith
  · intro i c hi hr
    have hb := h i _ (standard_get hi)
    rw [← c.gap_standardised]
    simp only [Constraint.gap, Constraint.auxiliary, hr] at hb ⊢
    linarith
  · intro i c hi hr
    exact hartificial (standard_get hi) hr

lemma AnswersWithin.feasible {val : Column → ℚ} (h : p.AnswersWithin 0 val) :
    p.Feasible (decisions p.numVars val) where
  length := by rw [decisions, List.length_map, List.length_range]
  nonneg := h.nonneg
  holds c hc := (c.holdsWithin_zero_iff _).mp (h.holds c hc)

/-- The basic solution of a canonical tableau with non-negative right-hand sides answers the
problem if no basic artificial variable exceeds the tolerance. -/
theorem SameRows.answersWithin (hp : p.Valid) (h : p.SameRows t) (hcan : t.Canonical)
    (hn : t.NonnegRhs) {tol : ℚ} (htol : 0 ≤ tol) (hart : t.ArtificialsWithin tol) :
    p.AnswersWithin tol t.rowValue := by
  apply (h.balanced hp hcan).answersWithin htol
  · intro c _ _
    exact h.shaped.rawValueAt_nonneg hn _
  · intro i hi
    have hget := get_idxOf hi
    by_cases hmem : p.columns.idxOf (.artificial i) ∈ t.basis
    · obtain ⟨k, hk⟩ := List.mem_iff_getElem?.mp hmem
      rw [h.rowValue_basic hcan hget hk]
      apply hart k _ hk
      rw [h.artificial]
      exact mem_artificial_iff.mpr ⟨i, hget⟩
    · rw [Tableau.rowValue, h.columns, Tableau.rawValueAt_nonbasic hmem]
      exact htol

lemma SameRows.artificialsWithin_of_le (h : p.SameRows t)
    (hle : ∀ c ∈ p.standard, c.relation = .le) (bound : ℚ) : t.ArtificialsWithin bound := by
  intro k b _ hb
  rw [h.artificial, artificial_eq_nil hle] at hb
  cases hb

lemma StartsOn.single_phase (h : p.StartsOn m o t)
    (hm : m = .bigM ∨ ∀ c ∈ p.standard, c.relation = .le) : t.hasFirstPhase m = false := by
  rcases hm with rfl | hle
  · rfl
  · simp [Tableau.hasFirstPhase, h.same.2.2.2, artificial_eq_nil hle]

/-- An optimal answer of the penalty method, or of any method on a problem whose standardised
constraints are all upper bounds, satisfies the problem up to the tolerance for artificial
values, and exactly if there are none. -/
theorem solve_feasible (hp : p.Valid) (ho : o.Valid) (hclean : p.CleanSolve m o)
    (hm : m = .bigM ∨ ∀ c ∈ p.standard, c.relation = .le)
    (hs : (p.solve m o).status = .optimal) :
    ∃ c, p.course m o = .ok c ∧
      (p.solve m o).values = (p.columns.filter Column.isVariable).map
        (fun v => (v.name, clean (c.final.rowValue v))) ∧
      p.AnswersWithin o.feasibilityTol c.final.rowValue ∧
      ((∀ c ∈ p.standard, c.relation = .le) →
        p.Feasible (decisions p.numVars c.final.rowValue)) := by
  have htol : (0 : ℚ) ≤ o.tol := le_of_lt ho.tol
  have hftol : (0 : ℚ) ≤ o.feasibilityTol := le_of_lt ho.feasibilityTol
  obtain ⟨c, hc, hv, -, hvalues⟩ := solve_optimal hs
  have hcourses := course_courses hc
  obtain ⟨hrows, hcan, hn⟩ := hcourses.first_spec hp htol (hclean c hc)
  have hopt := hcourses.optimal hv
  refine ⟨c, hc, ?_⟩
  rw [hvalues]
  cases hcourses with
  | @single start first ht _ hr =>
    refine ⟨hrows.values_eq, ?_, ?_⟩
    · apply hrows.answersWithin hp hcan hn hftol
      rcases hm with rfl | hle
      · rcases hopt with ⟨-, -, -, hres⟩ | ⟨second, he, -⟩
        · apply hrows.artificialsWithin_of_nil
          by_contra hne
          exact hres ⟨rfl, hne⟩
        · cases he
      · exact hrows.artificialsWithin_of_le hle _
    · intro hle
      apply AnswersWithin.feasible
      exact hrows.answersWithin hp hcan hn le_rfl (hrows.artificialsWithin_of_le hle _)
  | halted ht hphased | handedOver ht hphased =>
    rw [(hp.tableau_startsOn ht).single_phase hm] at hphased
    cases hphased

theorem solve_feasible_diet :
    ∃ c, diet.course .bigM {} = .ok c ∧
      (diet.solve .bigM {}).values =
        [("x1", 4 / 5), ("x2", 18 / 5), ("e1", 0), ("e2", 0), ("a1", 0), ("a2", 0)] ∧
      diet.AnswersWithin 1e-5 c.final.rowValue := by
  have hclean : diet.CleanSolve .bigM {} :=
    diet_valid.cleanSolve (by decide +kernel) (by decide +kernel :
      (diet.course .bigM {}).toOption.all (Course.endsClean {} 5) = true)
  obtain ⟨c, hc, -, hanswer, -⟩ := solve_feasible (o := {}) diet_valid
    (SolveOptions.valid_default (by decide)) hclean (Or.inl rfl) (by decide +kernel)
  exact ⟨c, hc, by decide +kernel, hanswer⟩

end Problem

end SimplexTableau
