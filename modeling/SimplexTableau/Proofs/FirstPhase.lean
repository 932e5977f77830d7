import SimplexTableau.Proofs.Ascent
import SimplexTableau.Proofs.Optimality
import SimplexTableau.Proofs.Totality
import SimplexTableau.Proofs.Unbounded

/-!
# The first phase

On every solution of the constraint rows the objective row of a first phase gives the negated sum
of the artificial variables. So on clean columns its right-hand side is never positive, and a column
that improves it has a pivot row: along a ray the sum would fall below zero. At a point that
satisfies all constraints the sum is zero. A first phase that ends below zero has therefore ended
on entries within the tolerance, and such a point needs amounts large enough to make up for them.
-/

namespace SimplexTableau

namespace Problem

variable {p : Problem ℚ} {o : SolveOptions ℚ} {t : Tableau ℚ} {c : Course ℚ}

section Infeasible

lemma ObjectiveIs.firstRow_bound (hp : p.Valid) (hrows : p.SameRows t)
    (hobj : p.ObjectiveIs p.firstRow t) {tol : ℚ} (hn : t.entering tol [] = none) {x : List ℚ}
    (hx : p.Feasible x) : -(tol * p.amount x) ≤ rhsOf t.objective := by
  have hbound := hobj.bound hp hrows (if_pos (Or.inl rfl)) (by simp) hn hx
  rw [sum_firstRow, artificialTotal_completion] at hbound
  linarith

/-- Two phases report a problem as infeasible if the first one has ended at an optimum above the
feasibility tolerance. -/
lemma Courses.infeasible (h : p.Courses .twoPhase o c)
    (hv : (c.verdict .twoPhase o).status = .infeasible) :
    c.second = none ∧ c.start.hasFirstPhase .twoPhase = true ∧ c.first.ending = .optimal ∧
      o.feasibilityTol < |rhsOf c.first.final.objective| := by
  cases h with
  | @single start first _ hm =>
    simp only [Course.verdict, hm, Bool.false_eq_true, if_false] at hv
    split_ifs at hv with h1 h2
    · rw [status_ofEnding] at hv
      cases hv
    · cases h2.1
    · cases hv
  | @halted start first _ hm _ hend =>
    simp only [Course.verdict, hm] at hv
    split_ifs at hv with h1
    · rw [status_ofEnding] at hv
      cases hv
    · have hopt : first.ending = .optimal := not_not.mp h1
      refine ⟨rfl, hm, hopt, ?_⟩
      rw [← size_eq_abs]
      by_contra hsmall
      exact hend ⟨hopt, hsmall⟩
  | handedOver =>
    simp only [Course.verdict] at hv
    split_ifs at hv
    · cases hv
    · rw [status_ofEnding] at hv
      cases hv

/-- The optimum of a first phase. -/
lemma Courses.first_optimal (hp : p.Valid) (htol : 0 ≤ o.tol) (h : p.Courses .twoPhase o c)
    (hm : c.start.hasFirstPhase .twoPhase = true) (hend : c.first.ending = .optimal) :
    p.ObjectiveIs p.firstRow c.first.final ∧ c.first.final.entering o.tol [] = none ∧
      ∃ last, c.first.steps.getLast? = some last ∧
        last.rhsAt 0 = rhsOf c.first.final.objective := by
  have hrows := h.first_sameRows hp htol
  have hr := h.first_run.2
  rw [if_pos hm] at hr
  obtain ⟨k, hk⟩ := Tableau.run_outcome hr
  obtain ⟨earlier, last, hsteps, -, hdepicts, -⟩ := Tableau.run_steps hr
  have hshows := Tableau.depicts_shows hdepicts
  refine ⟨h.first_objectiveIs hp htol hm, hk.entering_none hend, last, ?_, ?_⟩
  · rw [hsteps, List.getLast?_concat]
  · rw [hshows.rhsAt_eq hrows.shaped.toRectangular, hrows.shaped.rhsOf_objective]

/-- If two phases report a problem as infeasible and their last step shows a negative optimum, then
every point that satisfies all constraints is far away: its amount, with slack and surplus, exceeds
the ratio of the two tolerances. -/
theorem solve_infeasible (hp : p.Valid) (ho : o.Valid)
    (hs : (p.solve .twoPhase o).status = .infeasible) {last : TraceStep ℚ}
    (hlast : (p.solve .twoPhase o).steps.getLast? = some last) (hneg : last.rhsAt 0 < 0) :
    o.feasibilityTol < |last.rhsAt 0| ∧ ∀ x, p.Feasible x →
      |last.rhsAt 0| ≤ o.tol * p.amount x ∧ o.feasibilityTol / o.tol < p.amount x := by
  cases hc : p.course .twoPhase o with
  | error e =>
    rw [solve, hc] at hs
    cases hs
  | ok c =>
    have hcourses := course_courses hc
    rw [solve_status hc] at hs
    obtain ⟨hnone, hm, hend, hlarge⟩ := hcourses.infeasible hs
    obtain ⟨hobj, hn, step, hstep, hshown⟩ := hcourses.first_optimal hp ho.tol.le hm hend
    rw [solve_steps hc, Course.steps, hnone, hstep] at hlast
    cases hlast
    rw [hshown] at hneg ⊢
    refine ⟨hlarge, fun x hx => ?_⟩
    have hbound := hobj.firstRow_bound hp (hcourses.first_sameRows hp ho.tol.le) hn hx
    have habs : |rhsOf c.first.final.objective| ≤ o.tol * p.amount x := by
      rw [abs_of_neg hneg]
      linarith
    refine ⟨habs, ?_⟩
    rw [div_lt_iff₀' ho.tol]
    exact hlarge.trans_le habs

/-- Half a unit of the variable must be one at least. -/
def half : Problem ℚ where
  direction := .min
  objective := [1]
  constraints := [⟨"c1", [1 / 2], .ge, 1⟩]

/-- With a tolerance of one half no column enters, and the point that is not found is as near as
it can be. -/
theorem solve_infeasible_half :
    (half.solve .twoPhase { tol := 1 / 2 }).status = .infeasible ∧ half.Feasible [2] ∧
      half.amount [2] = 2 ∧ ∃ last,
        (half.solve .twoPhase { tol := 1 / 2 }).steps.getLast? = some last ∧ last.rhsAt 0 = -1 ∧
          |last.rhsAt 0| ≤ 1 / 2 * half.amount [2] ∧ 1e-5 / (1 / 2) < half.amount [2] := by
  have hvalid : half.Valid := ⟨Or.inr rfl, by simp [half], by decide +kernel⟩
  have hoptions : SolveOptions.Valid ({ tol := 1 / 2 } : SolveOptions ℚ) :=
    ⟨by decide, by norm_num, by norm_num, by norm_num, by norm_num⟩
  have hstatus : (half.solve .twoPhase { tol := 1 / 2 }).status = .infeasible := by decide +kernel
  have hfeasible : half.Feasible [2] := ⟨rfl, by decide +kernel, by
    intro c hc
    rw [List.mem_singleton.mp hc]
    norm_num [Constraint.Holds, dot]⟩
  obtain ⟨last, hlast, hrhs⟩ := (Option.any_eq_true _ _).mp (by decide +kernel :
    (half.solve .twoPhase { tol := 1 / 2 }).steps.getLast?.any (·.rhsAt 0 = -1) = true)
  have hrhs' : last.rhsAt 0 = -1 := of_decide_eq_true hrhs
  obtain ⟨-, hfar⟩ := solve_infeasible hvalid hoptions hstatus hlast (by rw [hrhs']; norm_num)
  exact ⟨hstatus, hfeasible, by decide +kernel, last, hlast, hrhs', hfar [2] hfeasible⟩

end Infeasible

section Bounded

/-- The sum of the artificial variables leaves no room for a ray. -/
lemma ObjectiveIs.firstRow_no_ray (hobj : p.ObjectiveIs p.firstRow t) (hrows : p.SameRows t)
    (hcan : t.Canonical) (hn : t.NonnegRhs) {col : ℕ} (hpos : 0 < col) :
    ¬ t.ImprovingRay col := by
  intro hray
  obtain ⟨θ, hθ, hfar⟩ := hray.exists_lt (t.entry 0 t.rhsCol)
  have htotal := artificialTotal_nonneg (p := p) fun c =>
    hray.along_nonneg hcan hn hθ (t.columns.idxOf c)
  have hattains : t.Attains (t.along col θ) := hray.attains_along hrows.shaped hcan
  have hrhs := hobj.firstRow_rhs hrows hattains (hrows.shaped.along_zero hpos)
  rw [hray.objective_along hcan] at hrhs
  unfold Tableau.columnValue at hrhs
  linarith

lemma StartsOn.firstPhase_ending (hp : p.Valid) (htol : 0 ≤ o.tol) (h : p.StartsOn .twoPhase o t)
    (hm : t.hasFirstPhase .twoPhase = true) (hclean : Tableau.CleanRun o.tol [] o.maxIters t)
    {r : PivotRun ℚ} (hr : t.run (firstSetting o) o.maxIters 0 = .ok r) :
    r.ending.kind = .optimal ∨ r.ending.kind = .iterationLimit := by
  obtain ⟨k, hk⟩ := Tableau.run_outcome hr
  obtain ⟨hrows, hcan, hn⟩ := h.run_spec hp htol hclean hk.pivots hk.le_cap
  have hobj := (h.objectiveIs_firstRow hp hm).pivots (h.sameRows hp) htol hk.pivots
  cases hend : r.ending with
  | optimal => exact Or.inl rfl
  | limit => exact Or.inr rfl
  | exchange row col => exact (hk.ne_exchange row col hend).elim
  | unbounded col =>
    obtain ⟨hlt, he, hl⟩ := hk.unbounded hend
    have hray := hrows.shaped.improvingRay htol (hclean k _ col hlt hk.pivots he) he hl
    exact (hobj.firstRow_no_ray hrows hcan hn (Tableau.entering_inside he).1 hray).elim

lemma StartsOn.firstPhase_rhs (hp : p.Valid) (htol : 0 ≤ o.tol) (h : p.StartsOn .twoPhase o t)
    (hm : t.hasFirstPhase .twoPhase = true) (hclean : Tableau.CleanRun o.tol [] o.maxIters t)
    {r : PivotRun ℚ} (hr : t.run (firstSetting o) o.maxIters 0 = .ok r) {step : TraceStep ℚ}
    (hs : step ∈ r.steps) : step.phase = 1 ∧ step.rhsAt 0 ≤ 0 := by
  obtain ⟨i, hi⟩ := List.mem_iff_getElem?.mp hs
  obtain ⟨u, hle, hpiv, hshows, hphase⟩ := Tableau.run_shows hr hi
  obtain ⟨hrows, hcan, hn⟩ := h.run_spec hp htol hclean hpiv hle
  have hobj := (h.objectiveIs_firstRow hp hm).pivots (h.sameRows hp) htol hpiv
  refine ⟨hphase, ?_⟩
  rw [hshows.rhsAt_eq hrows.shaped.toRectangular, hobj.firstRow_basic hrows hcan]
  exact neg_nonpos.mpr (artificialTotal_nonneg fun _ => hrows.shaped.rawValueAt_nonneg hn _)

lemma Courses.firstPhase (hp : p.Valid) (h : p.Courses .twoPhase o c)
    (hart : ∃ a ∈ p.standard, a.relation ≠ .le) :
    p.tableau .twoPhase o = .ok c.start ∧ c.start.hasFirstPhase .twoPhase = true ∧
      c.start.run (firstSetting o) o.maxIters 0 = .ok c.first := by
  obtain ⟨a, ha, hrel⟩ := hart
  cases h with
  | @single start _ ht hm =>
    have hne : start.artificial ≠ [] := by
      rw [(hp.tableau_startsOn ht).same.2.2.2]
      exact artificial_ne_nil ha hrel
    simp [Tableau.hasFirstPhase, hne] at hm
  | halted ht hm hr | handedOver ht hm hr => exact ⟨ht, hm, hr⟩

lemma Courses.filter_firstPhase (h : p.Courses .twoPhase o c)
    (hphase : ∀ step ∈ c.first.steps, step.phase = 1) :
    (p.solve .twoPhase o).steps.filter (·.phase = 1) = c.first.steps := by
  have hfirst : c.first.steps.filter (·.phase = 1) = c.first.steps :=
    List.filter_eq_self.mpr fun step hs => decide_eq_true (hphase step hs)
  rw [solve_steps h.course_eq, Course.steps]
  cases h with
  | single | halted => exact hfirst
  | handedOver _ _ _ _ _ _ _ hr2 =>
    rw [List.filter_append, hfirst, List.filter_eq_nil_iff.mpr, List.append_nil]
    intro step hs
    obtain ⟨i, hi⟩ := List.mem_iff_getElem?.mp hs
    obtain ⟨u, -, -, -, hsecond⟩ := Tableau.run_shows hr2 hi
    simp [hsecond, secondSetting]

/-- With artificial columns and on clean columns, a first phase takes place, it ends at an optimum
or at its cap and at no column without a pivot row, and none of its steps shows a positive
right-hand side in row 0. -/
theorem solve_first_phase (hp : p.Valid) (ho : o.Valid)
    (hart : ∃ c ∈ p.standard, c.relation ≠ .le)
    (hclean : ∀ t, p.tableau .twoPhase o = .ok t → Tableau.CleanRun o.tol [] o.maxIters t) :
    (∃ last, ((p.solve .twoPhase o).steps.filter (·.phase = 1)).getLast? = some last ∧
      (last.kind = .optimal ∨ last.kind = .iterationLimit)) ∧
    ∀ step ∈ (p.solve .twoPhase o).steps, step.phase = 1 →
      step.kind ≠ .unbounded ∧ step.rhsAt 0 ≤ 0 := by
  obtain ⟨c, hc⟩ := hp.course_total (m := .twoPhase) (by simp)
  have hcourses := course_courses hc
  obtain ⟨ht, hm, hr⟩ := hcourses.firstPhase hp hart
  have hstart := hp.tableau_startsOn ht
  have hsteps : ∀ step ∈ c.first.steps, step.phase = 1 ∧ step.rhsAt 0 ≤ 0 :=
    fun _ hs => hstart.firstPhase_rhs hp ho.tol.le hm (hclean _ ht) hr hs
  have hend := hstart.firstPhase_ending hp ho.tol.le hm (hclean _ ht) hr
  have hfilter := hcourses.filter_firstPhase fun step hs => (hsteps step hs).1
  obtain ⟨earlier, last, hall, hearlier, -, hlast, -⟩ := Tableau.run_steps hr
  rw [← hlast] at hend
  constructor
  · exact ⟨last, by rw [hfilter, hall, List.getLast?_concat], hend⟩
  · intro step hs hphase
    have hmem : step ∈ c.first.steps := by
      rw [← hfilter]
      exact List.mem_filter.mpr ⟨hs, decide_eq_true hphase⟩
    refine ⟨?_, (hsteps step hmem).2⟩
    rw [hall, List.mem_append, List.mem_singleton] at hmem
    rcases hmem with hin | rfl
    · rw [hearlier step hin]
      simp
    · rcases hend with hkind | hkind <;> simp [hkind]

theorem solve_first_phase_diet :
    ((diet.solve .twoPhase {}).steps.filter (·.phase = 1)).map (·.rhsAt 0) = [-14, -6, 0] ∧
      (∃ last, ((diet.solve .twoPhase {}).steps.filter (·.phase = 1)).getLast? = some last ∧
        (last.kind = .optimal ∨ last.kind = .iterationLimit)) ∧
      ∀ step ∈ (diet.solve .twoPhase {}).steps, step.phase = 1 →
        step.kind ≠ .unbounded ∧ step.rhsAt 0 ≤ 0 := by
  have hclean : ∀ t, diet.tableau .twoPhase {} = .ok t → Tableau.CleanRun 1e-9 [] 50 t := by
    intro t ht
    have hends : (diet.tableau .twoPhase {}).toOption.all (Tableau.endsClean 1e-9 [] 5) = true := by
      decide +kernel
    rw [ht] at hends
    exact ((diet_valid.tableau_startsOn ht).shaped diet_valid).cleanRun hends
  refine ⟨by decide +kernel, ?_⟩
  exact solve_first_phase diet_valid (SolveOptions.valid_default (by decide))
    ⟨⟨"c1", [1, 2], .ge, 8⟩, by decide +kernel, by simp⟩ hclean

end Bounded

end Problem

end SimplexTableau
