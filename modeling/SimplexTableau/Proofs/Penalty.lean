import SimplexTableau.Proofs.Convergence
import SimplexTableau.Proofs.Meaning
import SimplexTableau.Proofs.Unbounded

/-!
# The penalty and the worth of the constraints

The penalty method charges every unit of an artificial variable. Multipliers for the constraint rows
that leave no negative reduced cost bound the objective, and they say what a constraint is worth. If
the charge exceeds this worth by a margin, then the penalty method answers as two phases do; and it
gives an answer only if the charge exceeds the worth up to the tolerance. A charge that is derived
from the largest number of a problem need not exceed it: along a chain of constraints worth
multiplies.
-/

namespace SimplexTableau

namespace Problem

/-- The reduced cost of a column when artificial variables are charged and every constraint row is
added with a multiplier. -/
def reducedCost (p : Problem ℚ) (charge : ℚ) (y : ℕ → ℚ) (j : ℕ) : ℚ :=
  p.penalised charge j + ∑ i ∈ Finset.range p.plain.rows.length, y i * p.plain.entry (i + 1) j

/-- No variable has a reduced cost below the negated slack. -/
def DualWithin (p : Problem ℚ) (charge slack : ℚ) (y : ℕ → ℚ) : Prop :=
  ∀ j, 0 < j → j < p.columns.length - 1 → -slack ≤ p.reducedCost charge y j

/-- The right-hand sides, summed with multipliers. -/
def dualValue (p : Problem ℚ) (y : ℕ → ℚ) : ℚ :=
  ∑ i ∈ Finset.range p.plain.rows.length, y i * p.plain.entry (i + 1) (p.columns.length - 1)

/-- How far multipliers are from showing that a point is best, together with what the tolerance
gives to the point. -/
def dualityGap (p : Problem ℚ) (tol : ℚ) (x : List ℚ) (y : ℕ → ℚ) : ℚ :=
  p.dualValue y - p.completion x .objective + tol * p.amount x

/-- Multipliers show that a penalty exceeds the worth of the constraints by a margin, which makes up
for their gap to a point. -/
structure Dominated (p : Problem ℚ) (o : SolveOptions ℚ) (penalty margin : ℚ) (x : List ℚ)
    (y : ℕ → ℚ) : Prop where
  pos : 0 < margin
  dual : p.DualWithin (penalty - margin) 0 y
  gap : p.dualityGap o.tol x y ≤ o.feasibilityTol * margin

variable {p : Problem ℚ} {o : SolveOptions ℚ} {t : Tableau ℚ} {c : Course ℚ}
  {penalty charge margin : ℚ} {y : ℕ → ℚ} {x : List ℚ} {val : Column → ℚ}

section Duality

lemma penalised_last : p.penalised charge (p.columns.length - 1) = 0 := by
  have hart : p.columns.length - 1 ∉ p.plain.artificial := by
    intro h
    obtain ⟨i, hi⟩ := mem_artificial_iff.mp h
    rw [p.columns_get_last] at hi
    cases hi
  rw [penalised, if_neg hart, plain_entry_zero p.columns_get_last, add_zero]
  rfl

lemma reducedCost_last : p.reducedCost charge y (p.columns.length - 1) = p.dualValue y := by
  rw [reducedCost, penalised_last, zero_add, dualValue]

/-- Multipliers without negative reduced costs bound the objective of balanced values, as far as
the artificial variables are charged. -/
theorem DualWithin.gain_le (hp : p.Valid) (hd : p.DualWithin charge 0 y) (hb : p.Balanced val)
    (hn : ∀ c ∈ p.columns, c.isVariable = true → 0 ≤ val c) :
    p.gain val ≤ p.dualValue y + charge * p.artificialTotal val := by
  have hwidth : 1 < p.columns.length := hp.shaped_plain.width
  have hcombination : (fun j => ∑ i ∈ Finset.range p.plain.rows.length,
      y i * p.plain.entry (i + 1) j) ∈ p.plain.rowSpace :=
    Tableau.mem_rowSpace_iff.mpr ⟨y, fun _ => rfl⟩
  have hrows : ∑ j ∈ Finset.range p.columns.length, (∑ i ∈ Finset.range p.plain.rows.length,
      y i * p.plain.entry (i + 1) j) * p.weight (withObjective val 0) j = 0 :=
    (hp.solves_withObjective_iff.mpr hb).sum_eq_zero hcombination
  have hsum : ∑ j ∈ Finset.range p.columns.length,
      p.reducedCost charge y j * p.weight (withObjective val 0) j =
        charge * p.artificialTotal val - p.gain val := by
    simp only [reducedCost, add_mul, Finset.sum_add_distrib]
    rw [hrows, sum_penalised, withObjective_objective, gain_withObjective,
      artificialTotal_withObjective]
    ring
  have hinner : 0 ≤ ∑ j ∈ Finset.Ico 1 (p.columns.length - 1),
      p.reducedCost charge y j * p.weight val j := by
    apply Finset.sum_nonneg
    intro j hj
    obtain ⟨hpos, hlt⟩ := Finset.mem_Ico.mp hj
    have hget : p.columns[j]? = some p.columns[j] := List.getElem?_eq_getElem (by omega)
    have hcost : 0 ≤ p.reducedCost charge y j := by
      have hle := hd j hpos hlt
      rwa [neg_zero] at hle
    apply mul_nonneg hcost
    rw [weight_of_get hget]
    exact hn _ (List.getElem_mem _) (isVariable_of_get hpos hlt hget)
  rw [weight_withObjective, sum_update_ends hwidth, reducedCost_last] at hsum
  linarith

lemma Dominated.completion_le (hp : p.Valid) (h : p.Dominated o penalty margin x y)
    (hx : p.Feasible x) : p.completion x .objective ≤ p.dualValue y := by
  have hsolves := hx.completes hp hp.plain_trueObjective.1
  have hb := (hp.plain_trueObjective.1.isSolution_iff hp).mp hsolves.rows
  have hgain := h.dual.gain_le hp hb fun c _ hvar => hx.completion_nonneg
    (fun he => by simp [he, Column.isVariable] at hvar)
    (fun he => by simp [he, Column.isVariable] at hvar)
  rw [artificialTotal_completion, mul_zero, add_zero, gain, hx.decisions_completion] at hgain
  exact hgain

lemma ObjectiveIs.penalised_no_ray (hp : p.Valid) (hobj : p.ObjectiveIs (p.penalised penalty) t)
    (hrows : p.SameRows t) (hcan : t.Canonical) (hn : t.NonnegRhs) (hle : charge ≤ penalty)
    (hd : p.DualWithin charge 0 y) {col : ℕ} (hpos : 0 < col) : ¬ t.ImprovingRay col := by
  intro hray
  obtain ⟨θ, hθ, hfar⟩ := hray.exists_lt (t.entry 0 t.rhsCol - p.dualValue y)
  have hnonneg : ∀ c, 0 ≤ t.columnValue (t.along col θ) c := fun _ =>
    hray.along_nonneg hcan hn hθ _
  have hattains : t.Attains (t.along col θ) := hray.attains_along hrows.shaped hcan
  have hgain := hd.gain_le hp (hrows.balanced_of_attains hp hattains) fun c _ _ => hnonneg c
  have hcharge := mul_le_mul_of_nonneg_right hle (artificialTotal_nonneg (p := p) hnonneg)
  have hrhs := hobj.penalised_rhs hrows hattains (hrows.shaped.along_zero hpos)
  rw [hray.objective_along hcan] at hrhs
  linarith

end Duality

section Runs

lemma charge_bigM (hpen : o.penalty p = .ok penalty) : p.charge .bigM o = penalty := by
  rw [Problem.charge, if_pos rfl, hpen]
  rfl

lemma Courses.bigM_charged (hp : p.Valid) (htol : 0 ≤ o.tol) (h : p.Courses .bigM o c) :
    c.second = none ∧ c.start.hasFirstPhase .bigM = false ∧
      p.ObjectiveIs (p.penalised (p.charge .bigM o)) c.first.final ∧
      ∃ k, Tableau.Outcome (singleSetting o) o.maxIters 0 c.start k c.first := by
  cases h with
  | single ht hm hr =>
    obtain ⟨k, hk⟩ := Tableau.run_outcome hr
    have hstart := hp.tableau_startsOn ht
    have hobj := (hstart.objectiveIs_penalised hp hm).pivots (hstart.sameRows hp) htol hk.pivots
    exact ⟨rfl, rfl, hobj, k, hk⟩
  | halted ht hm | handedOver ht hm =>
    rw [(hp.tableau_startsOn ht).single_phase (Or.inl rfl)] at hm
    cases hm

lemma Courses.bigM_run (hp : p.Valid) (htol : 0 ≤ o.tol) (hpen : o.penalty p = .ok penalty)
    (h : p.Courses .bigM o c) :
    c.second = none ∧ c.start.hasFirstPhase .bigM = false ∧
      p.ObjectiveIs (p.penalised penalty) c.first.final ∧
      ∃ k, Tableau.Outcome (singleSetting o) o.maxIters 0 c.start k c.first := by
  rw [← charge_bigM hpen]
  exact h.bigM_charged hp htol

lemma Courses.bigM_ending (hp : p.Valid) (htol : 0 ≤ o.tol) (hpen : o.penalty p = .ok penalty)
    (h : p.Courses .bigM o c) (hclean : c.Clean o) (hlimit : c.first.ending ≠ .limit)
    (hle : charge ≤ penalty) (hd : p.DualWithin charge 0 y) :
    c.first.ending = .optimal := by
  obtain ⟨-, -, hobj, k, hk⟩ := h.bigM_run hp htol hpen
  obtain ⟨hrows, hcan, hn⟩ := h.first_spec hp htol hclean
  cases hend : c.first.ending with
  | optimal => rfl
  | limit => exact (hlimit hend).elim
  | exchange row col => exact (hk.ne_exchange row col hend).elim
  | unbounded col =>
    obtain ⟨hlt, he, hl⟩ := hk.unbounded hend
    have hray := hrows.shaped.improvingRay htol (hclean.first k _ col hlt hk.pivots he) he hl
    exact (hobj.penalised_no_ray hp hrows hcan hn hle hd (Tableau.entering_inside he).1 hray).elim

/-- If the penalty exceeds the worth of the constraints by a margin that makes up for the gap to a
point, then the penalty method finds an optimum within the gap. -/
theorem Courses.bigM_optimal (hp : p.Valid) (ho : o.Valid) (hpen : o.penalty p = .ok penalty)
    (h : p.Courses .bigM o c) (hclean : c.Clean o) (hlimit : c.first.ending ≠ .limit)
    (hdom : p.Dominated o penalty margin x y) (hx : p.Feasible x) :
    c.verdict .bigM o = .optimal ∧
      p.completion x .objective - o.tol * p.amount x ≤ rhsOf c.final.objective ∧
      rhsOf c.final.objective ≤ p.dualValue y := by
  have hend := h.bigM_ending hp ho.tol.le hpen hclean hlimit (sub_le_self _ hdom.pos.le) hdom.dual
  obtain ⟨hnone, hphase, hobj, k, hk⟩ := h.bigM_run hp ho.tol.le hpen
  obtain ⟨hrows, hcan, hn⟩ := h.first_spec hp ho.tol.le hclean
  rw [Course.final_of_none hnone]
  have hstop : c.first.final.entering o.tol [] = none := hk.entering_none hend
  have hlower := TrueObjective.bound hp hrows ⟨_, hobj⟩ (by simp) hstop hx
  have hvalue := hobj.penalised_basic hrows hcan
  have hnonneg : ∀ v, 0 ≤ c.first.final.rowValue v := fun _ => hrows.shaped.rawValueAt_nonneg hn _
  have hgain := hdom.dual.gain_le hp (hrows.balanced hp hcan) fun v _ _ => hnonneg v
  have htotal := artificialTotal_nonneg (p := p) hnonneg
  rw [← hrows.shaped.rhsOf_objective] at hvalue
  rw [sub_mul] at hgain
  have hupper : rhsOf c.first.final.objective ≤
      p.dualValue y - margin * p.artificialTotal c.first.final.rowValue := by
    linarith
  have hresidue : p.artificialTotal c.first.final.rowValue ≤ o.feasibilityTol := by
    have hgap := hdom.gap
    rw [dualityGap] at hgap
    apply le_of_mul_le_mul_left _ hdom.pos
    linarith
  refine ⟨?_, by linarith, ?_⟩
  · have hsmall : c.first.final.ArtificialsWithin o.feasibilityTol := by
      intro k b hb hart
      exact (hrows.artificialsWithin_total hcan hn k b hb hart).trans hresidue
    have hnil := hrows.basicArtificials_eq_nil hsmall
    simp only [Course.verdict, hnone, hphase, hend, Course.final, hnil]
    simp
  · have hcharged := mul_nonneg hdom.pos.le htotal
    linarith

/-- An optimal answer of the penalty method comes with multipliers that show it, up to the
tolerance. -/
theorem Courses.bigM_multipliers (hp : p.Valid) (ho : o.Valid) (hpen : o.penalty p = .ok penalty)
    (h : p.Courses .bigM o c) (hv : c.verdict .bigM o = .optimal) :
    ∃ y, p.DualWithin penalty o.tol y ∧ p.dualValue y = rhsOf c.final.objective := by
  obtain ⟨hnone, -, hobj, k, hk⟩ := h.bigM_run hp ho.tol.le hpen
  have hrows := h.first_sameRows hp ho.tol.le
  have hend : c.first.ending = .optimal := by
    rcases h.optimal hv with ⟨-, -, hend, -⟩ | ⟨second, hs, -⟩
    · exact hend
    · rw [hnone] at hs
      cases hs
  obtain ⟨r, hr, hentry⟩ := hobj
  obtain ⟨y, hy⟩ := Tableau.mem_rowSpace_iff.mp hr
  have hcost : ∀ j, j < p.columns.length → c.first.final.entry 0 j = p.reducedCost penalty y j := by
    intro j hj
    rw [hentry j hj, hy, reducedCost]
  have hwidth : 1 < p.columns.length := hp.shaped_plain.width
  have hstop : c.first.final.entering o.tol [] = none := hk.entering_none hend
  refine ⟨y, ?_, ?_⟩
  · intro j hpos hlt
    rw [← hcost j (by omega)]
    exact hrows.shaped.entering_none hstop hpos (hrows.rhsCol_eq ▸ hlt) (by simp)
  · rw [Course.final_of_none hnone, hrows.shaped.rhsOf_objective, hrows.rhsCol_eq,
      hcost _ (by omega), reducedCost_last]

lemma AnswersWithin.artificialTotal_eq (h : p.AnswersWithin 0 val) : p.artificialTotal val = 0 := by
  apply List.sum_eq_zero
  intro v hv
  obtain ⟨i, hi, rfl⟩ := List.mem_map.mp hv
  obtain ⟨a, ha, hr⟩ := mem_rowsWhere.mp hi
  rw [standard, List.getElem?_map] at ha
  obtain ⟨b, hb, rfl⟩ := Option.map_eq_some_iff.mp ha
  obtain ⟨hlow, hhigh⟩ := h.artificial i b hb (by simpa using hr)
  exact le_antisymm hhigh hlow

lemma Courses.twoPhase_answer (hp : p.Valid) (htol : 0 ≤ o.tol) (h : p.Courses .twoPhase o c)
    (hclean : c.Clean o) (hv : c.verdict .twoPhase o = .optimal)
    (hzero : ∀ second ∈ c.second, rhsOf c.first.final.objective = 0) :
    p.Feasible (decisions p.numVars c.final.rowValue) ∧
      p.completion (decisions p.numVars c.final.rowValue) .objective =
        rhsOf c.final.objective := by
  obtain ⟨hrows, ⟨penalty, hobj⟩, -⟩ := h.final_spec hp htol hv
  have hanswer : p.AnswersWithin 0 c.final.rowValue := by
    rcases h.optimal hv with ⟨hnone, hm, -, -⟩ | ⟨second, hs, -⟩
    · exact h.answersWithin_of_none hp htol hclean hnone hm le_rfl
    · obtain ⟨hn, hw⟩ := h.second_at_zero hp htol hclean hs (hzero second hs)
      rw [Course.final_of_mem hs]
      exact h.answersWithin hp htol hclean hs le_rfl hn hw
  have hvalue := hobj.penalised_basic hrows (h.final_canonical hp htol hclean)
  rw [hanswer.artificialTotal_eq, mul_zero, sub_zero, ← hrows.shaped.rhsOf_objective] at hvalue
  exact ⟨hanswer.feasible, hvalue.symm⟩

end Runs

section Upper

lemma Valid.course_of_le (hp : p.Valid) (hle : ∀ c ∈ p.standard, c.relation = .le) :
    p.course .bigM o = p.course .twoPhase o := by
  have hnil := artificial_eq_nil hle
  have htableau : ∀ m, p.tableau m o = .ok p.plain := by
    intro m
    rw [hp.tableau_eq_prepared, if_pos hnil]
  have hphase : ∀ m, p.plain.hasFirstPhase m = false := by
    intro m
    simp [Tableau.hasFirstPhase, hnil]
  simp only [course, htableau, bind, Except.bind, hphase]

/-- Without artificial variables the penalty method does what two phases do. -/
theorem Valid.solve_of_le (hp : p.Valid) (htol : 0 ≤ o.tol)
    (hle : ∀ c ∈ p.standard, c.relation = .le) : p.solve .bigM o = p.solve .twoPhase o := by
  have hsame := hp.course_of_le (o := o) hle
  unfold solve
  rw [hsame]
  cases hc : p.course .twoPhase o with
  | error e => rfl
  | ok c =>
    have hcourses := course_courses hc
    have hrows := hcourses.first_sameRows hp htol
    have hnil := hrows.basicArtificials_eq_nil (hrows.artificialsWithin_of_le hle o.feasibilityTol)
    have hverdict : c.verdict .bigM o = c.verdict .twoPhase o := by
      cases hcourses with
      | @single start first ht hm =>
        have hm' : start.hasFirstPhase .bigM = false := rfl
        simp [Course.verdict, Course.final, hm, hm', hnil]
      | halted ht hm | handedOver ht hm =>
        rw [(hp.tableau_startsOn ht).single_phase (Or.inr hle)] at hm
        cases hm
    simp only [Course.result, Course.feasibleBasis, hverdict]

end Upper

lemma abs_objectiveValue_sub_le (c c' : Course ℚ) (d : Direction) :
    |c'.objectiveValue d - c.objectiveValue d| ≤
      |rhsOf c'.final.objective - rhsOf c.final.objective| + 2e-12 := by
  have hclean := abs_lt.mp (abs_clean_sub_lt
    (if d = .min then -rhsOf c.final.objective else rhsOf c.final.objective))
  have hclean' := abs_lt.mp (abs_clean_sub_lt
    (if d = .min then -rhsOf c'.final.objective else rhsOf c'.final.objective))
  have hdiff := abs_le.mp (le_refl |rhsOf c'.final.objective - rhsOf c.final.objective|)
  unfold Course.objectiveValue
  rw [abs_le]
  dsimp only
  split_ifs at hclean hclean' ⊢
  · constructor <;> linarith
  · constructor <;> linarith

/-- Without artificial variables the penalty method and two phases give the same result. If the
penalty exceeds the worth of the constraints by a margin, then they agree on status and objective
value, provided that the first phase ends at zero, that all columns are clean and that the margin
makes up for the gap to the answer of two phases. And the penalty method gives an optimal answer
only if the penalty exceeds the worth of the constraints up to the tolerance. -/
theorem solve_bigM_agrees (hp : p.Valid) (ho : o.Valid) (hpen : o.penalty p = .ok penalty) :
    ((∀ c ∈ p.standard, c.relation = .le) → p.solve .bigM o = p.solve .twoPhase o) ∧
    (∀ (c : Course ℚ) (margin : ℚ) (y : ℕ → ℚ), p.course .twoPhase o = .ok c →
      (p.solve .twoPhase o).status = .optimal → ¬ p.HitsLimit .bigM o →
      p.CleanSolve .twoPhase o → p.CleanSolve .bigM o →
      (∀ second ∈ c.second, rhsOf c.first.final.objective = 0) →
      p.Dominated o penalty margin (decisions p.numVars c.final.rowValue) y →
      ∃ z z' gap, (p.solve .twoPhase o).objectiveValue = some z ∧
        (p.solve .bigM o).status = .optimal ∧ (p.solve .bigM o).objectiveValue = some z' ∧
        gap = p.dualityGap o.tol (decisions p.numVars c.final.rowValue) y ∧
        |z' - z| ≤ gap + 2e-12 ∧
        (gap ≤ 999e-9 * max 1 |z| → |z' - z| ≤ 1e-6 * max 1 |z|)) ∧
    ((p.solve .bigM o).status = .optimal → ∃ y z, p.DualWithin penalty o.tol y ∧
      (p.solve .bigM o).objectiveValue = some z ∧
      |z - (if p.direction = .min then -p.dualValue y else p.dualValue y)| < 1e-12) := by
  refine ⟨hp.solve_of_le ho.tol.le, ?_, ?_⟩
  · intro c margin y hc hs hlimit hclean hclean' hzero hdom
    obtain ⟨c₂, hc₂, hv, hz, -⟩ := solve_optimal hs
    rw [hc] at hc₂
    cases hc₂
    obtain ⟨hx, hvalue⟩ :=
      (course_courses hc).twoPhase_answer hp ho.tol.le (hclean c hc) hv hzero
    obtain ⟨c', hc'⟩ := hp.course_total (m := .bigM) fun _ => ⟨penalty, hpen⟩
    have hcourses' := course_courses hc'
    have hend : c'.first.ending ≠ .limit := by
      intro hend
      exact hlimit (hcourses'.hitsLimit_iff.mpr
        (Or.inl ⟨(hcourses'.bigM_run hp ho.tol.le hpen).1, hend⟩))
    obtain ⟨hv', hlow, hhigh⟩ :=
      hcourses'.bigM_optimal hp ho hpen (hclean' c' hc') hend hdom hx
    have hstatus : (p.solve .bigM o).status = .optimal := by
      rw [solve_status hc', hv']
      rfl
    obtain ⟨c₂, hc₂, -, hz', -⟩ := solve_optimal hstatus
    rw [hc'] at hc₂
    cases hc₂
    have hdiff : |rhsOf c'.final.objective - rhsOf c.final.objective| ≤
        p.dualityGap o.tol (decisions p.numVars c.final.rowValue) y := by
      have hamount : 0 ≤ o.tol * p.amount (decisions p.numVars c.final.rowValue) :=
        mul_nonneg ho.tol.le hx.amount_nonneg
      have hbest := hdom.completion_le hp hx
      rw [hvalue] at hlow hbest
      rw [dualityGap, hvalue, abs_le]
      constructor <;> linarith
    have hclose := (abs_objectiveValue_sub_le c c' p.direction).trans
      (add_le_add_left hdiff _)
    refine ⟨_, _, _, hz, hstatus, hz', rfl, hclose, fun hle => ?_⟩
    have hone := le_max_left 1 |c.objectiveValue p.direction|
    linarith
  · intro hs
    obtain ⟨c, hc, hv, hz, -⟩ := solve_optimal hs
    obtain ⟨y, hd, hvalue⟩ := (course_courses hc).bigM_multipliers hp ho hpen hv
    refine ⟨y, _, hd, hz, ?_⟩
    rw [hvalue]
    exact abs_clean_sub_lt _

theorem solve_bigM_agrees_diet :
    ∃ z', (diet.solve .twoPhase {}).objectiveValue = some (48 / 5) ∧
      (diet.solve .bigM {}).status = .optimal ∧
      (diet.solve .bigM {}).objectiveValue = some z' ∧
      |z' - 48 / 5| ≤ 1e-6 * max 1 |(48 / 5 : ℚ)| ∧ ∃ y, diet.DualWithin 100000 1e-9 y := by
  have hpen : ({} : SolveOptions ℚ).penalty diet = .ok 100000 := by decide +kernel
  obtain ⟨-, hagrees, hneeds⟩ :=
    solve_bigM_agrees diet_valid (SolveOptions.valid_default (by decide)) hpen
  have hends : ∀ m ∈ [Method.twoPhase, .bigM],
      (diet.course m {}).toOption.all (Course.endsClean {} 5) = true := by
    decide +kernel
  have hclean : ∀ m ∈ [Method.twoPhase, .bigM], diet.CleanSolve m {} := fun m hm =>
    diet_valid.cleanSolve (by decide +kernel) (hends m hm)
  have hdual : diet.DualWithin (100000 - 99999) 0 fun i => if i = 0 then -3 / 5 else -4 / 5 := by
    have hcosts : ∀ j < 7, 0 < j → -0 ≤ diet.reducedCost (100000 - 99999)
        (fun i => if i = 0 then -3 / 5 else -4 / 5) j := by
      decide +kernel
    exact fun j hpos hlt => hcosts j hlt hpos
  obtain ⟨c, hc, hend⟩ := exists_ok_of_any (by decide +kernel :
    (diet.course .twoPhase {}).toOption.any (fun c =>
      decide (rhsOf c.first.final.objective = 0) &&
        decide (decisions 2 c.final.rowValue = [4 / 5, 18 / 5])) = true)
  rw [Bool.and_eq_true] at hend
  have hpoint : decisions diet.numVars c.final.rowValue = [4 / 5, 18 / 5] :=
    of_decide_eq_true hend.2
  have hgap : diet.dualityGap 1e-9 [4 / 5, 18 / 5] (fun i => if i = 0 then -3 / 5 else -4 / 5) =
      22 / 5 * 1e-9 := by
    decide +kernel
  have hlimit : (diet.solve .bigM {}).steps.getLast?.map (·.kind) = some .optimal := by
    decide +kernel
  have hdom : diet.Dominated {} 100000 99999 (decisions diet.numVars c.final.rowValue)
      (fun i => if i = 0 then -3 / 5 else -4 / 5) :=
    ⟨by norm_num, hdual, by rw [hpoint, hgap]; norm_num⟩
  obtain ⟨z, z', gap, hz, hs, hz', rfl, -, hclose⟩ := hagrees c _ _ hc (by decide +kernel)
    (by rw [HitsLimit, hlimit]; simp) (hclean _ (by simp)) (hclean _ (by simp))
    (fun _ _ => of_decide_eq_true hend.1) hdom
  have hvalue : (diet.solve .twoPhase {}).objectiveValue = some (48 / 5) := by decide +kernel
  rw [hvalue] at hz
  cases hz
  rw [hpoint, hgap] at hclose
  obtain ⟨y, -, hy, -⟩ := hneeds hs
  exact ⟨z', hvalue, hs, hz', hclose (by norm_num), y, hy⟩

/-- A unit of each variable needs a hundred of the one before it. -/
def chain : Problem ℚ where
  direction := .min
  objective := [1, 0, 0, 0]
  constraints := [⟨"c1", [1, -100, 0, 0], .ge, 0⟩, ⟨"c2", [0, 1, -100, 0], .ge, 0⟩,
    ⟨"c3", [0, 0, 1, -100], .ge, 0⟩, ⟨"c4", [0, 0, 0, 1], .ge, 1⟩]

/-- The last constraint of the chain is worth a million, which is what the penalty comes to. So the
penalty method leaves its artificial variable positive and reports the problem as infeasible. -/
theorem bigM_infeasible_chain :
    (chain.solve .twoPhase {}).objectiveValue = some 1000000 ∧
      (chain.solve .bigM {}).status = .infeasible ∧
      ¬ ∀ p : Problem ℚ, p.Valid → (p.solve .twoPhase {}).status = .optimal →
        ¬ p.HitsLimit .twoPhase {} → ¬ p.HitsLimit .bigM {} →
          (p.solve .bigM {}).status = .optimal ∧
            ∃ z z', (p.solve .twoPhase {}).objectiveValue = some z ∧
              (p.solve .bigM {}).objectiveValue = some z' ∧ |z' - z| ≤ 1e-6 * max 1 |z| := by
  have hinfeasible : (chain.solve .bigM {}).status = .infeasible := by decide +kernel
  refine ⟨by decide +kernel, hinfeasible, fun hall => ?_⟩
  have hvalid : chain.Valid := ⟨Or.inr rfl, by simp [chain], by decide +kernel⟩
  have hlimit : ∀ m ∈ [Method.twoPhase, .bigM],
      (chain.solve m {}).steps.getLast?.map (·.kind) = some .optimal := by
    decide +kernel
  have hends : ∀ m ∈ [Method.twoPhase, .bigM], ¬ chain.HitsLimit m {} := by
    intro m hm
    rw [HitsLimit, hlimit m hm]
    simp
  obtain ⟨hoptimal, -⟩ := hall chain hvalid (by decide +kernel) (hends _ (by simp))
    (hends _ (by simp))
  rw [hinfeasible] at hoptimal
  cases hoptimal

end Problem

end SimplexTableau
