import SimplexTableau.Proofs.BasicSolution
import SimplexTableau.Proofs.Points

/-!
# Optimality of the answer

A point that satisfies all constraints, completed by its slack and surplus amounts, solves the
constraint rows of every tableau of a solution. On it the last objective row bounds the objective:
no entry that counts is below the negated tolerance. Whether the tableau has unit columns for its
basis plays no part.
-/

namespace SimplexTableau

section Sums

lemma sum_range_ends {n : ℕ} (hn : 0 < n) (f : ℕ → ℚ) :
    ∑ j ∈ Finset.range (n + 1), f j =
      f 0 + ∑ j ∈ Finset.range (n - 1), f (j + 1) + f n := by
  obtain ⟨k, rfl⟩ : ∃ k, n = k + 1 := ⟨n - 1, by omega⟩
  rw [Finset.sum_range_succ, Finset.sum_range_succ', Nat.add_sub_cancel, add_comm (f 0)]

lemma map_rowsWhere {β : Type} (test : Relation → Bool) (rows : List (Constraint ℚ))
    (f : Constraint ℚ → β) (d : β) :
    ((rowsWhere test rows).map fun i => (rows[i]?.map f).getD d) =
      (rows.filter fun c => test c.relation).map f := by
  have hzip : rows.filter (fun c => test c.relation) =
      (rows.zipIdx.filter fun (c, _) => test c.relation).map Prod.fst := by
    conv_lhs => rw [← List.zipIdx_map_fst 0 rows, List.filter_map]
    rfl
  rw [hzip, rowsWhere, List.map_map, List.map_map]
  apply List.map_congr_left
  rintro ⟨c, i⟩ hmem
  have hi : rows[i]? = some c := List.mk_mem_zipIdx_iff_getElem?.mp (List.mem_filter.mp hmem).1
  simp [hi]

lemma sum_gaps (rows : List (Constraint ℚ)) (x : List ℚ) :
    ((rows.filter fun c => c.relation = .le).map (·.gap x)).sum +
      ((rows.filter fun c => c.relation = .ge).map (·.gap x)).sum = (rows.map (·.gap x)).sum := by
  induction rows with
  | nil => simp
  | cons c rows ih =>
    rw [List.map_cons, List.sum_cons, ← ih]
    cases h : c.relation
    · simp only [List.filter_cons, h, decide_true, if_true, reduceCtorEq, decide_false,
        Bool.false_eq_true, if_false, List.map_cons, List.sum_cons]
      ring
    · simp only [List.filter_cons, h, decide_true, if_true, reduceCtorEq, decide_false,
        Bool.false_eq_true, if_false, List.map_cons, List.sum_cons]
      ring
    · have hgap : c.gap x = 0 := by simp only [Constraint.gap, h]
      simp only [List.filter_cons, h, reduceCtorEq, decide_false, Bool.false_eq_true, if_false,
        hgap, zero_add]

end Sums

namespace Tableau

/-- When no column enters, the inner entries of the objective row weigh at least the negated
tolerance against weights that are not negative and vanish on the blocked columns. -/
lemma Shaped.inner_bound {t : Tableau ℚ} (h : t.Shaped) {tol : ℚ} {blocked : List ℕ}
    (hn : t.entering tol blocked = none) {w : ℕ → ℚ}
    (hw : ∀ j, 0 < j → j < t.rhsCol → 0 ≤ w j) (hb : ∀ j ∈ blocked, w j = 0) :
    -(tol * ∑ j ∈ Finset.range (t.rhsCol - 1), w (j + 1)) ≤
      ∑ j ∈ Finset.range (t.rhsCol - 1), t.entry 0 (j + 1) * w (j + 1) := by
  rw [Finset.mul_sum, ← Finset.sum_neg_distrib]
  apply Finset.sum_le_sum
  intro j hj
  have hj' : j + 1 < t.rhsCol := by
    have hlt := Finset.mem_range.mp hj
    omega
  by_cases hmem : j + 1 ∈ blocked
  · rw [hb _ hmem, mul_zero, mul_zero, neg_zero]
  · have he := h.entering_none hn (Nat.succ_pos j) hj' hmem
    have hmul := mul_le_mul_of_nonneg_right he (hw _ (Nat.succ_pos j) hj')
    rwa [neg_mul] at hmul

end Tableau

namespace Problem

variable {p : Problem ℚ}

/-- The sum of the components of a point and of its slack and surplus amounts. -/
def amount (p : Problem ℚ) (x : List ℚ) : ℚ :=
  x.sum + (p.constraints.map (·.gap x)).sum

lemma Feasible.amount_nonneg {x : List ℚ} (hx : p.Feasible x) : 0 ≤ p.amount x := by
  apply add_nonneg (List.sum_nonneg hx.nonneg)
  apply List.sum_nonneg
  intro v hv
  obtain ⟨c, hc, rfl⟩ := List.mem_map.mp hv
  exact (hx.holds c hc).gap_nonneg

/-- The value of each column at a point, all artificial variables being zero. -/
def completion (p : Problem ℚ) (x : List ℚ) : Column → ℚ
  | .objective => (if p.direction = .min then -1 else 1) * dot p.objective x
  | .decision j => x.getD j 0
  | .slack i | .surplus i => (p.standard[i]?.map (·.gap x)).getD 0
  | .artificial _ => 0
  | .rhs => -1

lemma Feasible.decisions_completion {x : List ℚ} (hx : p.Feasible x) :
    decisions p.numVars (p.completion x) = x := by
  apply List.ext_getElem
  · rw [decisions, List.length_map, List.length_range, hx.length]
  · intro j hj hj'
    simp [decisions, completion, List.getElem?_eq_getElem hj']

lemma Feasible.holds_standard {x : List ℚ} (hx : p.Feasible x) {c : Constraint ℚ}
    (hc : c ∈ p.standard) : c.Holds x := by
  obtain ⟨d, hd, rfl⟩ := List.mem_map.mp hc
  exact (d.holds_standardised_iff x).mpr (hx.holds d hd)

/-- A point that satisfies all constraints solves the constraint rows. -/
theorem Feasible.solves (hp : p.Valid) {x : List ℚ} (hx : p.Feasible x) :
    p.plain.Solves (p.weight (p.completion x)) := by
  apply (hp.plain_solves_iff _).mpr
  intro i c hi
  have hholds := hx.holds_standard (List.mem_of_getElem? hi)
  rw [hx.decisions_completion]
  unfold Constraint.Holds at hholds
  cases hr : c.relation <;> simp only [hr] at hholds <;>
    simp only [Constraint.auxiliary, hr, completion, hi, Option.map_some, Option.getD_some,
      Constraint.gap]
  · ring
  · ring
  · rw [hholds]
    ring

lemma Feasible.completion_nonneg {x : List ℚ} (hx : p.Feasible x) {c : Column}
    (ho : c ≠ .objective) (hr : c ≠ .rhs) : 0 ≤ p.completion x c := by
  have hgap : ∀ i : ℕ, 0 ≤ (p.standard[i]?.map (Constraint.gap · x)).getD 0 := by
    intro i
    cases hi : p.standard[i]? with
    | none => exact le_rfl
    | some c => exact (hx.holds_standard (List.mem_of_getElem? hi)).gap_nonneg
  cases c with
  | objective => exact (ho rfl).elim
  | rhs => exact (hr rfl).elim
  | decision j =>
    by_cases hj : j < x.length
    · simp only [completion, List.getD_eq_getElem _ _ hj]
      exact hx.nonneg _ (List.getElem_mem hj)
    · simp only [completion, List.getD_eq_default _ _ (not_lt.mp hj)]
      exact le_rfl
  | slack i => exact hgap i
  | surplus i => exact hgap i
  | artificial i => exact le_rfl

lemma Feasible.sum_weight {x : List ℚ} (hx : p.Feasible x) :
    (p.columns.map (p.completion x)).sum =
      p.completion x .objective + p.amount x + p.completion x .rhs := by
  have hdec : ((List.range p.numVars).map fun j => p.completion x (.decision j)).sum = x.sum := by
    have he := congrArg List.sum hx.decisions_completion
    exact he
  have hgaps : (p.standard.map (·.gap x)).sum = (p.constraints.map (·.gap x)).sum := by
    rw [standard, List.map_map]
    congr 2
    funext c
    exact c.gap_standardised x
  have hart : ((rowsWhere (· ≠ .le) p.standard).map fun i => p.completion x (.artificial i)).sum
      = 0 := by
    simp [completion]
  rw [columns, sum_layout, hdec, hart]
  simp only [completion, map_rowsWhere]
  rw [amount, ← hgaps, ← sum_gaps p.standard x]
  ring

lemma weight_completion_zero (p : Problem ℚ) (x : List ℚ) :
    p.weight (p.completion x) 0 = p.completion x .objective :=
  weight_of_get p.columns_get_zero

lemma weight_completion_last (p : Problem ℚ) (x : List ℚ) :
    p.weight (p.completion x) (p.columns.length - 1) = -1 := by
  rw [weight_of_get p.columns_get_last]
  rfl

lemma weight_completion_artificial {x : List ℚ} {j : ℕ} (hj : j ∈ p.plain.artificial) :
    p.weight (p.completion x) j = 0 := by
  obtain ⟨i, hi⟩ := mem_artificial_iff.mp hj
  rw [weight_of_get hi]
  rfl

lemma artificialTotal_completion (x : List ℚ) : p.artificialTotal (p.completion x) = 0 := by
  simp [artificialTotal, completion]

lemma Feasible.weight_nonneg {x : List ℚ} (hx : p.Feasible x) {j : ℕ} (hj : 0 < j)
    (hj' : j < p.columns.length - 1) : 0 ≤ p.weight (p.completion x) j := by
  have hget : p.columns[j]? = some p.columns[j] := List.getElem?_eq_getElem (by omega)
  rw [weight_of_get hget]
  apply hx.completion_nonneg
  · intro h0
    exact hj.ne' (eq_zero_of_get (h0 ▸ hget))
  · intro hr
    exact hj'.ne (eq_last_of_get (hr ▸ hget))

lemma Feasible.sum_inner_weight {x : List ℚ} (hx : p.Feasible x) {n : ℕ} (hn : 0 < n)
    (hlen : p.columns.length = n + 1) :
    ∑ j ∈ Finset.range (n - 1), p.weight (p.completion x) (j + 1) = p.amount x := by
  have htotal := sum_getD (p.columns.map (p.completion x))
  have hrange := sum_range_ends hn (p.weight (p.completion x))
  have hlast := p.weight_completion_last x
  have hrhs : p.completion x .rhs = -1 := rfl
  rw [hlen, Nat.add_sub_cancel] at hlast
  rw [hx.sum_weight, List.length_map, hlen, hrhs] at htotal
  rw [p.weight_completion_zero x, hlast] at hrange
  have heq := hrange.symm.trans htotal
  linarith

/-- On a tableau on which no column enters, the right-hand side of the objective row bounds the
objective of every point that satisfies all constraints, up to what the tableau charges besides. -/
theorem ObjectiveIs.bound (hp : p.Valid) {t : Tableau ℚ} {f : ℕ → ℚ} (hrows : p.SameRows t)
    (hobj : p.ObjectiveIs f t) (hf : f 0 = 1) {tol : ℚ} {blocked : List ℕ}
    (hb : ∀ j ∈ blocked, j ∈ p.plain.artificial) (hn : t.entering tol blocked = none)
    {x : List ℚ} (hx : p.Feasible x) :
    p.completion x .objective ≤ rhsOf t.objective + tol * p.amount x +
      ∑ j ∈ Finset.range p.columns.length, f j * p.weight (p.completion x) j := by
  have hlen : p.columns.length = t.rhsCol + 1 := by
    rw [hrows.shaped.rhsCol_add_one, hrows.columns]
  have hlast : p.weight (p.completion x) t.rhsCol = -1 := by
    rw [hrows.rhsCol_eq]
    exact p.weight_completion_last x
  have hsum := hobj.sum_eq (hx.solves hp)
  rw [hlen, sum_range_ends hrows.shaped.rhsCol_pos, hobj.entry_zero, hf,
    p.weight_completion_zero x, hlast, ← hrows.shaped.rhsOf_objective] at hsum
  have hbound := hrows.shaped.inner_bound hn
    (fun j hj hj' => hx.weight_nonneg hj (hrows.rhsCol_eq ▸ hj'))
    (fun j hj => weight_completion_artificial (hb j hj))
  rw [hx.sum_inner_weight hrows.shaped.rhsCol_pos hlen] at hbound
  rw [hlen]
  linarith

theorem TrueObjective.bound (hp : p.Valid) {t : Tableau ℚ} (hrows : p.SameRows t)
    (hobj : p.TrueObjective t) {tol : ℚ} {blocked : List ℕ}
    (hb : ∀ j ∈ blocked, j ∈ p.plain.artificial) (hn : t.entering tol blocked = none)
    {x : List ℚ} (hx : p.Feasible x) :
    p.completion x .objective ≤ rhsOf t.objective + tol * p.amount x := by
  obtain ⟨penalty, hobj⟩ := hobj
  have hbound := hobj.bound hp hrows (p.penalised_zero penalty) hb hn hx
  have hgain : p.gain (p.completion x) = p.completion x .objective := by
    rw [gain, hx.decisions_completion]
    rfl
  rwa [sum_penalised, hgain, artificialTotal_completion, sub_self, mul_zero, add_zero,
    add_zero] at hbound

variable {m : Method} {o : SolveOptions ℚ}

/-- An optimal answer bounds the objective of every point that satisfies all constraints. The
bound is as sharp as the tolerance of the selection test and the clean-up of reported values
allow. -/
theorem solve_bounds (hp : p.Valid) (ho : o.Valid) (hs : (p.solve m o).status = .optimal) :
    ∃ z, (p.solve m o).objectiveValue = some z ∧ ∀ x, p.Feasible x →
      (p.direction = .max → dot p.objective x ≤ z + o.tol * p.amount x + 1e-12) ∧
      (p.direction = .min → z - o.tol * p.amount x - 1e-12 ≤ dot p.objective x) := by
  have htol : (0 : ℚ) ≤ o.tol := le_of_lt ho.tol
  obtain ⟨c, hc, hv, hz, -⟩ := solve_optimal hs
  obtain ⟨hrows, hobj, blocked, hb, hn⟩ := (course_courses hc).final_spec hp htol hv
  refine ⟨c.objectiveValue p.direction, hz, fun x hx => ?_⟩
  have hbound := hobj.bound hp hrows hb hn hx
  constructor
  · intro hmax
    have hclean := abs_lt.mp (abs_clean_sub_lt (rhsOf c.final.objective))
    simp only [completion, hmax, reduceCtorEq, if_false, one_mul] at hbound
    simp only [Course.objectiveValue, hmax, reduceCtorEq, if_false]
    linarith [hclean.1]
  · intro hmin
    have hclean := abs_lt.mp (abs_clean_sub_lt (-rhsOf c.final.objective))
    simp only [completion, hmin, if_true, neg_one_mul] at hbound
    simp only [Course.objectiveValue, hmin, if_true]
    linarith [hclean.2]

theorem solve_bounds_diet :
    (diet.solve .twoPhase {}).objectiveValue = some (48 / 5) ∧
      48 / 5 - 1e-9 * diet.amount [2, 4] - 1e-12 ≤ dot diet.objective [2, 4] := by
  have hfeasible : diet.Feasible [2, 4] := ⟨rfl, by decide +kernel, by
    intro c hc
    simp only [diet, List.mem_cons, List.not_mem_nil, or_false] at hc
    rcases hc with rfl | rfl <;> norm_num [Constraint.Holds, dot]⟩
  obtain ⟨z, hz, hbound⟩ := solve_bounds (m := .twoPhase) (o := {}) diet_valid
    (SolveOptions.valid_default (by decide)) (by decide +kernel)
  have hvalue : (diet.solve .twoPhase {}).objectiveValue = some (48 / 5) := by decide +kernel
  rw [hvalue] at hz
  cases hz
  exact ⟨hvalue, (hbound _ hfeasible).2 rfl⟩

end Problem

end SimplexTableau
