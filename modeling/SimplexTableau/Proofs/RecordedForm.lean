import SimplexTableau.Proofs.BasicSolution
import SimplexTableau.Proofs.CleanSolve
import SimplexTableau.Proofs.Points
import SimplexTableau.Proofs.Steps

/-!
# The form of recorded tableaux

Every step of a solution on clean columns shows a tableau in canonical form, in every phase and
under every method. So the right-hand side of its objective row is the value of the objective of
the phase at its basic solution.
-/

namespace SimplexTableau

namespace TraceStep

/-- Every basic variable names a column that has a one in its row and zeros in all other rows, the
objective row included. -/
structure UnitColumns (s : TraceStep ℚ) : Prop where
  headers : s.headers.Nodup
  rowCount : s.rows.length = s.basicVars.length + 1
  named : ∀ name ∈ s.basicVars, name ∈ s.headers
  unit : ∀ (r : ℕ) (name : String), s.basicVars[r]? = some name →
    ∀ i, s.cellAt i (s.headers.idxOf name) = if i = r + 1 then 1 else 0

theorem UnitColumns.basicVars_nodup {s : TraceStep ℚ} (h : s.UnitColumns) :
    s.basicVars.Nodup := by
  rw [List.nodup_iff_getElem?_ne_getElem?]
  intro i j hij hj heq
  have hname : s.basicVars[j]? = some s.basicVars[j] := List.getElem?_eq_getElem hj
  have hone := h.unit j _ hname (j + 1)
  rw [h.unit i _ (heq.trans hname), if_neg (by omega), if_pos rfl] at hone
  exact zero_ne_one hone

end TraceStep

namespace Problem

variable {p : Problem ℚ} {m : Method} {o : SolveOptions ℚ} {t : Tableau ℚ} {c : Course ℚ}
  {s : TraceStep ℚ}

/-- What a phase maximises: the negated sum of the artificial variables in a first phase, else the
objective less the penalties of the method. -/
def phaseObjective (p : Problem ℚ) (m : Method) (o : SolveOptions ℚ) (phase : Int)
    (val : Column → ℚ) : ℚ :=
  if phase = 1 then -p.artificialTotal val
  else p.gain val - p.charge m o * p.artificialTotal val

section Shown

lemma SameRows.basicVars_eq (h : p.SameRows t) (hs : s.Shows t) :
    s.basicVars = t.basis.map t.nameAt := by
  have hnames := hs.basicVars
  rw [h.shaped.basicNames_eq] at hnames
  exact (Except.ok.inj hnames).symm

lemma SameRows.headers_eq (h : p.SameRows t) (hs : s.Shows t) :
    s.headers = p.columns.map Column.name :=
  hs.headers.trans h.sameFrame.headers_eq

lemma SameRows.basicVars_get (h : p.SameRows t) (hs : s.Shows t) {r : ℕ} {name : String}
    (hname : s.basicVars[r]? = some name) :
    ∃ b c, t.basis[r]? = some b ∧ p.columns[b]? = some c ∧ name = c.name ∧
      s.headers.idxOf name = b := by
  rw [h.basicVars_eq hs, List.getElem?_map] at hname
  obtain ⟨b, hb, rfl⟩ := Option.map_eq_some_iff.mp hname
  obtain ⟨c, hc, hcname⟩ := h.sameFrame.basis_get (List.mem_of_getElem? hb)
  refine ⟨b, c, hb, hc, hcname, ?_⟩
  obtain ⟨hlt, rfl⟩ := List.getElem?_eq_some_iff.mp hc
  have hlt' : b < (p.columns.map Column.name).length := by rwa [List.length_map]
  have hget := p.headers_nodup.idxOf_getElem b hlt'
  rwa [List.getElem_map, ← hcname, ← h.headers_eq hs] at hget

theorem SameRows.unitColumns (h : p.SameRows t) (hcan : t.Canonical) (hs : s.Shows t) :
    s.UnitColumns where
  headers := by
    rw [h.headers_eq hs]
    exact p.headers_nodup
  rowCount := by
    have hlen := congrArg List.length hs.coefficients
    rw [List.length_map] at hlen
    rw [hlen, h.basicVars_eq hs, List.length_map, h.shaped.basis]
    rfl
  named := by
    intro name hname
    obtain ⟨r, hr⟩ := List.mem_iff_getElem?.mp hname
    obtain ⟨b, c, -, hc, rfl, -⟩ := h.basicVars_get hs hr
    rw [h.headers_eq hs]
    exact List.mem_map_of_mem (List.mem_of_getElem? hc)
  unit := by
    intro r name hr i
    obtain ⟨b, c, hb, -, -, hidx⟩ := h.basicVars_get hs hr
    rw [hidx, hs.cellAt_eq]
    cases i with
    | zero => rw [hcan.objective r b hb, if_neg (Nat.succ_ne_zero r).symm]
    | succ i => simp only [hcan.rows r b hb i, Nat.add_right_cancel_iff]

/-- The value of a variable at a step is its value at the basic solution of the tableau. -/
theorem SameRows.valueOf_eq (h : p.SameRows t) (hcan : t.Canonical) (hs : s.Shows t)
    (c : Column) : s.valueOf c.name = t.rowValue c := by
  rw [TraceStep.valueOf]
  split_ifs with hmem
  · have hlt := List.idxOf_lt_length_iff.mpr hmem
    have hget : s.basicVars[s.basicVars.idxOf c.name]? = some c.name := by
      rw [List.getElem?_eq_getElem hlt, List.getElem_idxOf]
    obtain ⟨b, d, hb, hd, hname, -⟩ := h.basicVars_get hs hget
    cases Column.name_injective hname
    rw [hs.rhsAt_eq h.shaped.toRectangular, h.rowValue_basic hcan hd hb]
  · have hnot : t.columns.idxOf c ∉ t.basis := by
      intro hb
      obtain ⟨d, hd, hname⟩ := h.sameFrame.basis_get hb
      have hc : d = c := by
        rw [h.columns] at hd
        obtain ⟨hlt, rfl⟩ := List.getElem?_eq_some_iff.mp hd
        exact List.getElem_idxOf hlt
      apply hmem
      rw [h.basicVars_eq hs, ← hc, ← hname]
      exact List.mem_map_of_mem hb
    rw [Tableau.rowValue, Tableau.rawValueAt_nonbasic hnot]

end Shown

section Steps

/-- A step in canonical form whose objective row has the objective of its phase as right-hand
side. -/
structure CanonicalStep (p : Problem ℚ) (m : Method) (o : SolveOptions ℚ) (s : TraceStep ℚ) :
    Prop where
  unit : s.UnitColumns
  objective : s.rhsAt 0 = p.phaseObjective m o s.phase fun c => s.valueOf c.name

lemma SameRows.canonicalStep (h : p.SameRows t) (hcan : t.Canonical) (hs : s.Shows t)
    (hobj : p.ObjectiveIs (p.penalised (p.charge m o)) t) (hphase : s.phase ≠ 1) :
    p.CanonicalStep m o s := by
  refine ⟨h.unitColumns hcan hs, ?_⟩
  rw [hs.rhsAt_eq h.shaped.toRectangular, phaseObjective, if_neg hphase,
    hobj.penalised_basic h hcan, funext (h.valueOf_eq hcan hs)]

lemma SameRows.canonicalStep_first (h : p.SameRows t) (hcan : t.Canonical) (hs : s.Shows t)
    (hobj : p.ObjectiveIs p.firstRow t) (hphase : s.phase = 1) : p.CanonicalStep m o s := by
  refine ⟨h.unitColumns hcan hs, ?_⟩
  rw [hs.rhsAt_eq h.shaped.toRectangular, phaseObjective, if_pos hphase,
    hobj.firstRow_basic h hcan, funext (h.valueOf_eq hcan hs)]

theorem Courses.first_canonicalStep (hp : p.Valid) (htol : 0 ≤ o.tol) (h : p.Courses m o c)
    (hclean : c.Clean o) (hs : s ∈ c.first.steps) : p.CanonicalStep m o s := by
  obtain ⟨i, hi⟩ := List.mem_iff_getElem?.mp hs
  cases h with
  | single ht hm hr =>
    obtain ⟨u, hle, hpiv, hshows, hphase⟩ := Tableau.run_shows hr hi
    have hstart := hp.tableau_startsOn ht
    obtain ⟨hrows, hcan, -⟩ := hstart.run_spec hp htol hclean.first hpiv hle
    have hobj := (hstart.objectiveIs_penalised hp hm).pivots (hstart.sameRows hp) htol hpiv
    exact hrows.canonicalStep hcan hshows hobj (by simp [hphase, singleSetting])
  | halted ht hm hr | handedOver ht hm hr =>
    obtain ⟨u, hle, hpiv, hshows, hphase⟩ := Tableau.run_shows hr hi
    have hstart := hp.tableau_startsOn ht
    obtain ⟨hrows, hcan, -⟩ := hstart.run_spec hp htol hclean.first hpiv hle
    have hobj := (hstart.objectiveIs_firstRow hp hm).pivots (hstart.sameRows hp) htol hpiv
    exact hrows.canonicalStep_first hcan hshows hobj hphase

theorem Courses.second_canonicalStep (hp : p.Valid) (htol : 0 ≤ o.tol) (h : p.Courses m o c)
    (hclean : c.Clean o) {second : SecondPhase ℚ} (hsec : second ∈ c.second)
    (hs : s ∈ second.run.steps) : p.CanonicalStep m o s := by
  obtain ⟨i, hi⟩ := List.mem_iff_getElem?.mp hs
  obtain ⟨-, -, -, -, hrows, hobj⟩ := h.handover hp htol hsec
  obtain ⟨hcan, -, -⟩ := h.second_spec hp htol hclean hsec
  have hrun := hclean.second second hsec
  cases h with
  | single | halted => cases hsec
  | handedOver _ hm _ _ _ _ _ hr2 =>
    cases hsec
    obtain ⟨u, hle, hpiv, hshows, hphase⟩ := Tableau.run_shows hr2 hi
    have hcharge : p.charge m o = 0 := by
      have htwo : m = .twoPhase := by
        simp only [Tableau.hasFirstPhase, Bool.and_eq_true, decide_eq_true_eq] at hm
        exact hm.1
      rw [charge, if_neg (by rw [htwo]; simp)]
    rw [← hcharge] at hobj
    exact (hrows.pivots htol hpiv).canonicalStep
      (hrows.shaped.canonical_pivots htol hcan hrun hpiv hle) hshows
      (hobj.pivots hrows htol hpiv) (by simp [hphase, secondSetting])

/-- Every step of a solution on clean columns is in canonical form: the column of every basic
variable is a unit column, no column is basic twice, and the right-hand side of the objective row
is the objective of the phase at the basic solution. -/
theorem solve_canonical (hp : p.Valid) (ho : o.Valid) (hclean : p.CleanSolve m o) :
    ∀ s ∈ (p.solve m o).steps, s.UnitColumns ∧ s.basicVars.Nodup ∧
      s.rhsAt 0 = p.phaseObjective m o s.phase fun c => s.valueOf c.name := by
  have htol : (0 : ℚ) ≤ o.tol := le_of_lt ho.tol
  intro s hs
  cases hc : p.course m o with
  | error e =>
    rw [solve, hc] at hs
    cases hs
  | ok c =>
    have hcourses := course_courses hc
    rw [solve_steps hc, Course.steps] at hs
    have hstep : p.CanonicalStep m o s := by
      cases hsec : c.second with
      | none =>
        rw [hsec] at hs
        exact hcourses.first_canonicalStep hp htol (hclean c hc) hs
      | some second =>
        rw [hsec] at hs
        rcases List.mem_append.mp hs with hs | hs
        · exact hcourses.first_canonicalStep hp htol (hclean c hc) hs
        · exact hcourses.second_canonicalStep hp htol (hclean c hc) hsec hs
    exact ⟨hstep.unit, hstep.unit.basicVars_nodup, hstep.objective⟩

theorem solve_canonical_diet :
    ((diet.solve .twoPhase {}).steps.map (·.phase) = [1, 1, 1, 2]) ∧
    ∀ s ∈ (diet.solve .twoPhase {}).steps, s.UnitColumns ∧ s.basicVars.Nodup ∧
      s.rhsAt 0 = diet.phaseObjective .twoPhase {} s.phase fun c => s.valueOf c.name := by
  have hclean : diet.CleanSolve .twoPhase {} :=
    diet_valid.cleanSolve (by decide +kernel) (by decide +kernel :
      (diet.course .twoPhase {}).toOption.all (Course.endsClean {} 5) = true)
  exact ⟨by decide +kernel,
    solve_canonical diet_valid (SolveOptions.valid_default (by decide)) hclean⟩

end Steps

end Problem

end SimplexTableau
