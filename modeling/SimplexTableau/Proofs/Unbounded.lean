import Mathlib.Algebra.Order.Archimedean.Basic
import SimplexTableau.Proofs.TwoPhase

/-!
# Unbounded answers

A column that improves the objective and has no pivot row is a ray: the basic solution can be moved
along it as far as one likes. No basic variable falls below zero, artificial variables stay where
they are, and the objective value grows with the distance. So an answer 'unbounded' that comes from
such a column is right, provided that the tableau is canonical and its artificial variables are at
zero.
-/

namespace SimplexTableau

namespace Tableau

/-- A column that improves the objective and has no positive entry in a constraint row. -/
structure ImprovingRay (t : Tableau ℚ) (c : ℕ) : Prop where
  inside : c < t.rhsCol
  objective : t.entry 0 c < 0
  rows : ∀ i, t.entry (i + 1) c ≤ 0

/-- The basic solution, moved along a column that is not basic. -/
def along (t : Tableau ℚ) (c : ℕ) (θ : ℚ) (j : ℕ) : ℚ :=
  if j = c then θ
  else if j ∈ t.basis then
    t.entry (t.basis.idxOf j + 1) t.rhsCol - θ * t.entry (t.basis.idxOf j + 1) c
  else 0

variable {t : Tableau ℚ} {tol θ : ℚ} {blocked : List ℕ} {c i b : ℕ}

lemma Rectangular.improvingRay (h : t.Rectangular) (htol : 0 ≤ tol)
    (hclean : t.CleanColumn tol c) (he : t.entering tol blocked = some c)
    (hl : t.leaving tol c = none) : t.ImprovingRay c where
  inside := by
    have hin := (entering_inside he).2.1
    rw [h.objective] at hin
    exact Nat.lt_sub_of_add_lt hin
  objective := by
    have hlt := (h.entering_least he).1
    linarith
  rows i := by
    by_cases hi : i + 1 ≤ t.rows.length
    · have hle := leaving_none hl (i + 1) (Nat.succ_pos i) hi
      rcases hclean.entry (i + 1) with hzero | hlt
      · exact hzero.le
      · by_contra hpos
        rw [abs_of_pos (not_le.mp hpos)] at hlt
        exact absurd hle (not_le.mpr hlt)
    · exact (entry_of_lt (not_le.mp hi) c).le

lemma ImprovingRay.not_mem_basis (h : t.ImprovingRay c) (hcan : t.Canonical) : c ∉ t.basis := by
  intro hb
  obtain ⟨i, hi⟩ := List.mem_iff_getElem?.mp hb
  exact h.objective.ne (hcan.objective i c hi)

lemma ImprovingRay.along_basic (h : t.ImprovingRay c) (hcan : t.Canonical)
    (hb : t.basis[i]? = some b) :
    t.along c θ b = t.entry (i + 1) t.rhsCol - θ * t.entry (i + 1) c := by
  have hmem : b ∈ t.basis := List.mem_of_getElem? hb
  have hne : b ≠ c := by
    rintro rfl
    exact h.not_mem_basis hcan hmem
  have hget : t.basis[t.basis.idxOf b]? = some b := by
    rw [List.getElem?_eq_getElem (List.idxOf_lt_length_iff.mpr hmem), List.getElem_idxOf]
  rw [along, if_neg hne, if_pos hmem, hcan.basis_unique hget hb]

lemma along_nonbasic {j : ℕ} (hj : j ≠ c) (hb : j ∉ t.basis) : t.along c θ j = 0 := by
  rw [along, if_neg hj, if_neg hb]

lemma Shaped.along_zero (h : t.Shaped) (hc : 0 < c) : t.along c θ 0 = 0 :=
  along_nonbasic hc.ne fun hb => (h.inside 0 hb).1.ne rfl

/-- The ray column contributes its entry times the distance, and the basic columns contribute what
they would without it. -/
lemma ImprovingRay.sum_along (h : t.ImprovingRay c) (k : ℕ) :
    ∑ j ∈ Finset.range t.rhsCol, t.entry k j * t.along c θ j =
      ∑ j ∈ Finset.range t.rhsCol, t.entry k j * Function.update (t.along c θ) c 0 j +
        θ * t.entry k c := by
  have hterm : ∀ j, t.entry k j * t.along c θ j =
      t.entry k j * Function.update (t.along c θ) c 0 j +
        if j = c then θ * t.entry k c else 0 := by
    intro j
    by_cases hj : j = c
    · rw [hj, Function.update_self, if_pos rfl, along, if_pos rfl]
      ring
    · rw [Function.update_of_ne hj, if_neg hj, add_zero]
  rw [Finset.sum_congr rfl fun j _ => hterm j, Finset.sum_add_distrib, Finset.sum_ite_eq',
    if_pos (Finset.mem_range.mpr h.inside)]

lemma update_along_nonbasic (j : ℕ) (hb : j ∉ t.basis) :
    Function.update (t.along c θ) c 0 j = 0 := by
  by_cases hj : j = c
  · rw [hj, Function.update_self]
  · rw [Function.update_of_ne hj, along_nonbasic hj hb]

/-- Every row holds along the ray: what the ray column adds, the basic variable gives up. -/
theorem ImprovingRay.attains_along (h : t.ImprovingRay c) (ht : t.Shaped) (hcan : t.Canonical) :
    t.Attains (t.along c θ) := by
  intro i hi
  obtain ⟨b, hb⟩ : ∃ b, t.basis[i]? = some b := ⟨_, List.getElem?_eq_getElem (ht.basis ▸ hi)⟩
  have hne : b ≠ c := by
    rintro rfl
    exact h.not_mem_basis hcan (List.mem_of_getElem? hb)
  rw [h.sum_along, ht.sum_row hcan update_along_nonbasic hb, Function.update_of_ne hne,
    h.along_basic hcan hb]
  ring

lemma ImprovingRay.objective_along (h : t.ImprovingRay c) (hcan : t.Canonical) :
    ∑ j ∈ Finset.range t.rhsCol, t.entry 0 j * t.along c θ j = θ * t.entry 0 c := by
  rw [h.sum_along, hcan.sum_objective update_along_nonbasic, zero_add]

lemma ImprovingRay.exists_lt (h : t.ImprovingRay c) (bound : ℚ) :
    ∃ θ : ℚ, 0 ≤ θ ∧ θ * t.entry 0 c < bound := by
  have hgrowth : 0 < -t.entry 0 c := neg_pos.mpr h.objective
  obtain ⟨n, hn⟩ := exists_nat_gt (-bound / -t.entry 0 c)
  have hfar : -bound < n * -t.entry 0 c := (div_lt_iff₀ hgrowth).mp hn
  exact ⟨n, Nat.cast_nonneg n, by linarith⟩

lemma ImprovingRay.along_nonneg (h : t.ImprovingRay c) (hcan : t.Canonical) (hn : t.NonnegRhs)
    (hθ : 0 ≤ θ) (j : ℕ) : 0 ≤ t.along c θ j := by
  by_cases hb : j ∈ t.basis
  · obtain ⟨i, hi⟩ := List.mem_iff_getElem?.mp hb
    have hmul := mul_nonpos_of_nonneg_of_nonpos hθ (h.rows i)
    rw [h.along_basic hcan hi]
    linarith [hn i]
  · by_cases hj : j = c
    · rw [along, if_pos hj]
      exact hθ
    · exact (along_nonbasic hj hb).ge

/-- A ray outside the artificial columns leaves artificial variables where they are: in their rows
it has no entry. -/
lemma ImprovingRay.artificial_along (h : t.ImprovingRay c) (hcan : t.Canonical) (hpos : 0 < c)
    (hclean : t.CleanColumn tol c) (hs : ∀ row, 0 < row → t.Settled tol row)
    (hw : t.ArtificialsWithin 0) (hc : c ∉ t.artificial) {j : ℕ} (hj : j ∈ t.artificial) :
    t.along c θ j ≤ 0 := by
  by_cases hb : j ∈ t.basis
  · obtain ⟨i, hi⟩ := List.mem_iff_getElem?.mp hb
    have hsmall := hs (i + 1) (Nat.succ_pos i) j hi hj c hpos h.inside hc
    have hzero : t.entry (i + 1) c = 0 := by
      rcases hclean.entry (i + 1) with hzero | hlt
      · exact hzero
      · exact absurd hsmall (not_le.mpr hlt)
    rw [h.along_basic hcan hi, hzero, mul_zero, sub_zero]
    exact hw i j hi hj
  · have hne : j ≠ c := by
      rintro rfl
      exact hc hj
    exact (along_nonbasic hne hb).le

end Tableau

namespace Problem

variable {p : Problem ℚ} {m : Method} {o : SolveOptions ℚ} {t : Tableau ℚ} {c : Course ℚ}

/-- A tableau with all that is needed to follow an improving column: it is canonical, no variable is
negative, no artificial variable is positive, and no pivot changes a row with a basic artificial
variable. -/
structure Ready (p : Problem ℚ) (tol : ℚ) (t : Tableau ℚ) : Prop where
  rows : p.SameRows t
  objective : p.TrueObjective t
  canonical : t.Canonical
  nonneg : t.NonnegRhs
  settled : ∀ row, 0 < row → t.Settled tol row
  artificials : t.ArtificialsWithin 0

/-- The points on a ray are feasible, and the objective grows linearly along it. -/
theorem Ready.feasible_along (hp : p.Valid) {tol : ℚ} (h : p.Ready tol t) {col : ℕ}
    (hray : t.ImprovingRay col) (hpos : 0 < col) (hclean : t.CleanColumn tol col)
    (hcol : col ∉ t.artificial) {θ : ℚ} (hθ : 0 ≤ θ) :
    p.Feasible (decisions p.numVars (t.columnValue (t.along col θ))) ∧
      p.gain (t.columnValue (t.along col θ)) = t.entry 0 t.rhsCol - θ * t.entry 0 col := by
  have hattains : t.Attains (t.along col θ) := hray.attains_along h.rows.shaped h.canonical
  have hnonneg : ∀ c, 0 ≤ t.columnValue (t.along col θ) c := fun _ =>
    hray.along_nonneg h.canonical h.nonneg hθ _
  have hartificial : ∀ i, Column.artificial i ∈ p.columns →
      t.columnValue (t.along col θ) (.artificial i) ≤ 0 := by
    intro i hi
    apply hray.artificial_along h.canonical hpos hclean h.settled h.artificials hcol
    rw [h.rows.artificial, h.rows.columns]
    exact mem_artificial_iff.mpr ⟨i, get_idxOf hi⟩
  constructor
  · apply AnswersWithin.feasible
    exact (h.rows.balanced_of_attains hp hattains).answersWithin le_rfl (fun c _ _ => hnonneg c)
      hartificial
  · obtain ⟨penalty, hobj⟩ := h.objective
    have htotal : p.artificialTotal (t.columnValue (t.along col θ)) = 0 := by
      apply List.sum_eq_zero
      intro v hv
      obtain ⟨i, hi, rfl⟩ := List.mem_map.mp hv
      exact le_antisymm (hartificial i (artificial_mem_columns_iff.mpr hi)) (hnonneg _)
    have hrhs := hobj.penalised_rhs h.rows hattains (h.rows.shaped.along_zero hpos)
    rw [hray.objective_along h.canonical, htotal] at hrhs
    linarith

/-- Along a ray the objective exceeds every bound. -/
theorem Ready.exceeds (hp : p.Valid) {tol : ℚ} (htol : 0 ≤ tol) (h : p.Ready tol t)
    {blocked : List ℕ} {col : ℕ} (he : t.entering tol blocked = some col)
    (hl : t.leaving tol col = none) (hclean : t.CleanColumn tol col) (hcol : col ∉ t.artificial)
    (bound : ℚ) : ∃ x, p.Feasible x ∧
      bound < (if p.direction = .min then -1 else 1) * dot p.objective x := by
  have hray := h.rows.shaped.improvingRay htol hclean he hl
  have hpos := (Tableau.entering_inside he).1
  obtain ⟨θ, hθ, hfar⟩ := hray.exists_lt (t.entry 0 t.rhsCol - bound)
  obtain ⟨hfeasible, hgain⟩ := h.feasible_along hp hray hpos hclean hcol hθ
  refine ⟨_, hfeasible, ?_⟩
  change bound < p.gain (t.columnValue (t.along col θ))
  rw [hgain]
  linarith

lemma Courses.first_ready (hp : p.Valid) (htol : 0 ≤ o.tol) (h : p.Courses m o c)
    (hclean : c.Clean o) (hle : ∀ c ∈ p.standard, c.relation = .le) :
    c.second = none ∧ p.Ready o.tol c.first.final ∧ c.first.final.artificial = [] := by
  obtain ⟨hrows, hcan, hn⟩ := h.first_spec hp htol hclean
  have hempty : c.first.final.artificial = [] :=
    hrows.artificial.trans (artificial_eq_nil hle)
  have hsettled : ∀ row, 0 < row → c.first.final.Settled o.tol row := by
    intro row _ b _ hb
    rw [hempty] at hb
    cases hb
  cases h with
  | @single start first ht hm hr =>
    have hstart := hp.tableau_startsOn ht
    obtain ⟨k, hk⟩ := Tableau.run_outcome hr
    have hobj := (hstart.objectiveIs_penalised hp hm).pivots (hstart.sameRows hp) htol hk.pivots
    exact ⟨rfl, ⟨hrows, ⟨_, hobj⟩, hcan, hn, hsettled, hrows.artificialsWithin_of_le hle 0⟩, hempty⟩
  | halted ht hm | handedOver ht hm =>
    rw [(hp.tableau_startsOn ht).single_phase (Or.inr hle)] at hm
    cases hm

lemma Courses.second_ready (hp : p.Valid) (htol : 0 ≤ o.tol) (h : p.Courses m o c)
    (hclean : c.Clean o) {second : SecondPhase ℚ} (hs : second ∈ c.second)
    (hend : rhsOf c.first.final.objective = 0) :
    p.Ready o.tol second.run.final ∧
      second.run.final.artificial = second.start.artificial := by
  obtain ⟨-, -, -, -, hrows, hobj⟩ := h.handover hp htol hs
  obtain ⟨hcan, hsettled, -⟩ := h.second_spec hp htol hclean hs
  obtain ⟨hn, hw⟩ := h.second_at_zero hp htol hclean hs hend
  obtain ⟨k, hk⟩ := h.second_outcome hs
  have hpivots : Tableau.Pivots o.tol second.start.artificial k second.start second.run.final :=
    hk.pivots
  have hfinal := hrows.pivots htol hpivots
  obtain ⟨hsettled', hw'⟩ := hrows.shaped.settled_pivots hpivots hsettled hw
  have hcan' := hrows.shaped.canonical_pivots htol hcan (hclean.second second hs) hpivots hk.le_cap
  exact ⟨⟨hfinal, ⟨_, hobj.pivots hrows htol hpivots⟩, hcan',
    hrows.shaped.nonnegRhs_pivots htol hn hpivots, hsettled', hw'⟩,
    hfinal.artificial.trans hrows.artificial.symm⟩

/-- A course that ends at a column without a pivot row exceeds every bound, if it has no artificial
columns or if its first phase has ended at zero. -/
theorem Courses.exceeds (hp : p.Valid) (htol : 0 ≤ o.tol) (h : p.Courses m o c)
    (hclean : c.Clean o) {col : ℕ} (hend : c.ending = .unbounded col)
    (hzero : (∀ c ∈ p.standard, c.relation = .le) ∨
      c.second ≠ none ∧ rhsOf c.first.final.objective = 0) (bound : ℚ) :
    ∃ x, p.Feasible x ∧ bound < (if p.direction = .min then -1 else 1) * dot p.objective x := by
  unfold Course.ending at hend
  rcases hzero with hle | ⟨hsome, hopt⟩
  · obtain ⟨hnone, hready, hempty⟩ := h.first_ready hp htol hclean hle
    rw [hnone] at hend
    have hcol : col ∉ c.first.final.artificial := by simp [hempty]
    cases h with
    | single _ _ hr | halted _ _ hr =>
      obtain ⟨k, hk⟩ := Tableau.run_outcome hr
      obtain ⟨hlt, he, hl⟩ := hk.unbounded hend
      exact hready.exceeds hp htol he hl (hclean.first k _ col hlt hk.pivots he) hcol bound
    | handedOver => cases hnone
  · obtain ⟨second, hs⟩ := Option.ne_none_iff_exists'.mp hsome
    rw [hs] at hend
    obtain ⟨hready, hart⟩ := h.second_ready hp htol hclean hs hopt
    obtain ⟨k, hk⟩ := h.second_outcome hs
    obtain ⟨hlt, he, hl⟩ := hk.unbounded hend
    have hcol : col ∉ second.run.final.artificial := by
      rw [hart]
      exact (Tableau.entering_inside he).2.2
    exact hready.exceeds hp htol he hl (hclean.second second hs k _ col hlt hk.pivots he) hcol bound

/-- If the last step of a solution found no pivot row, the problem is unbounded: there are points
that satisfy all constraints with an objective better than any bound. The columns must be clean,
and there must be no artificial variables, or the first phase must have brought them to zero. -/
theorem solve_unbounded (hp : p.Valid) (ho : o.Valid) (hclean : p.CleanSolve m o)
    (hlast : (p.solve m o).steps.getLast?.map (·.kind) = some .unbounded)
    (hzero : (∀ c ∈ p.standard, c.relation = .le) ∨ ∃ c, p.course m o = .ok c ∧
      c.second ≠ none ∧ rhsOf c.first.final.objective = 0) :
    (p.solve m o).status = .unbounded ∧ ∀ bound, ∃ x, p.Feasible x ∧
      (p.direction = .max → bound < dot p.objective x) ∧
      (p.direction = .min → dot p.objective x < bound) := by
  cases hc : p.course m o with
  | error e =>
    rw [solve, hc] at hlast
    cases hlast
  | ok c =>
    have hcourses := course_courses hc
    rw [hcourses.last_kind, Option.some.injEq] at hlast
    obtain ⟨col, hend⟩ := kind_eq_unbounded hlast
    have hzero' : (∀ c ∈ p.standard, c.relation = .le) ∨
        c.second ≠ none ∧ rhsOf c.first.final.objective = 0 := by
      apply hzero.imp_right
      rintro ⟨c', hc', h⟩
      rw [hc] at hc'
      cases hc'
      exact h
    have hexceeds := hcourses.exceeds hp ho.tol.le (hclean c hc) hend hzero'
    constructor
    · rw [solve_status hc]
      apply Course.status_of_ending
      rw [hend]
      simp
    · intro bound
      cases hdir : p.direction with
      | min =>
        obtain ⟨x, hx, hlt⟩ := hexceeds (-bound)
        rw [hdir, if_pos rfl] at hlt
        exact ⟨x, hx, by simp, fun _ => by linarith⟩
      | max | other =>
        obtain ⟨x, hx, hlt⟩ := hexceeds bound
        rw [hdir, if_neg (by simp), one_mul] at hlt
        exact ⟨x, hx, fun _ => hlt, by simp⟩

/-- The points on a diagonal, by an equation and its double. The second one keeps its artificial
variable. -/
def diagonal : Problem ℚ where
  direction := .max
  objective := [1, 0]
  constraints := [⟨"c1", [1, -1], .eq, 0⟩, ⟨"c2", [2, -2], .eq, 0⟩]

theorem solve_unbounded_diagonal :
    (diagonal.solve .twoPhase {}).status = .unbounded ∧
      ∀ bound, ∃ x, diagonal.Feasible x ∧ bound < dot diagonal.objective x := by
  have hvalid : diagonal.Valid := ⟨Or.inl rfl, by simp [diagonal], by decide +kernel⟩
  have hclean : diagonal.CleanSolve .twoPhase {} :=
    hvalid.cleanSolve (by decide +kernel) (by decide +kernel :
      (diagonal.course .twoPhase {}).toOption.all (Course.endsClean {} 5) = true)
  obtain ⟨c, hc, hzero⟩ := exists_ok_of_any (by decide +kernel :
    (diagonal.course .twoPhase {}).toOption.any (fun c =>
      c.second.isSome && decide (rhsOf c.first.final.objective = 0)) = true)
  rw [Bool.and_eq_true] at hzero
  obtain ⟨hstatus, hbetter⟩ := solve_unbounded hvalid (SolveOptions.valid_default (by decide))
    hclean (by decide +kernel)
    (Or.inr ⟨c, hc, Option.isSome_iff_ne_none.mp hzero.1, of_decide_eq_true hzero.2⟩)
  refine ⟨hstatus, fun bound => ?_⟩
  obtain ⟨x, hx, hmax, -⟩ := hbetter bound
  exact ⟨x, hx, hmax rfl⟩

end Problem

end SimplexTableau
