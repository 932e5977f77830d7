import SimplexTableau.Diagnosis
import SimplexTableau.Proofs.TwoPhase

/-!
# Reported conflicts

A smaller problem counts as feasible if a basis with every artificial variable at zero was reached,
however its solution went on. Either there were no artificial variables to begin with, or the first
phase ended within the feasibility tolerance. In both cases a basic solution with non-negative
values satisfies the smaller problem up to that tolerance. So each reported constraint is one
without which the others can be kept.
-/

namespace SimplexTableau

namespace Problem

variable {p : Problem ℚ} {m : Method} {o : SolveOptions ℚ} {c : Course ℚ}

lemma Valid.without {α : Type} {p : Problem α} (hp : p.Valid) (i : ℕ) : (p.without i).Valid :=
  ⟨hp.direction, hp.objective, fun c hc => hp.coefficients c (List.mem_of_mem_eraseIdx hc)⟩

lemma solve_feasibleBasis (h : (p.solve m o).feasibleBasis = true) :
    ∃ c, p.course m o = .ok c ∧ c.feasibleBasis m o = true := by
  unfold solve at h
  cases hc : p.course m o with
  | error e =>
    rw [hc] at h
    cases h
  | ok c =>
    rw [hc] at h
    refine ⟨c, rfl, ?_⟩
    dsimp only [Course.result] at h
    cases hv : c.verdict m o <;> simpa only [hv] using h

lemma Course.feasibleBasis_of_halted (hm : c.start.hasFirstPhase m = true)
    (hnone : c.second = none) : c.feasibleBasis m o = false := by
  have hne : c.start.artificial.isEmpty = false := by
    simp only [Tableau.hasFirstPhase, Bool.and_eq_true, Bool.not_eq_true'] at hm
    exact hm.2
  unfold Course.feasibleBasis Course.verdict
  simp only [hnone, hm]
  by_cases hend : c.first.ending ≠ .optimal
  · rw [if_pos hend]
    cases c.first.ending <;> simp [Verdict.ofEnding, hne]
  · rw [if_neg hend]
    rfl

/-- A feasible basis of two phases is that of a tableau whose basic solution keeps the artificial
variables within the feasibility tolerance. Only the first phase has to run on clean columns. -/
theorem Courses.feasible_tableau (hp : p.Valid) (ho : o.Valid) (h : p.Courses .twoPhase o c)
    (hclean : c.start.hasFirstPhase .twoPhase = true →
      Tableau.CleanRun o.tol [] o.maxIters c.start)
    (hf : c.feasibleBasis .twoPhase o = true) :
    ∃ t, p.SameRows t ∧ t.Canonical ∧ t.NonnegRhs ∧ t.ArtificialsWithin o.feasibilityTol := by
  cases hm : c.start.hasFirstPhase .twoPhase with
  | false =>
    have hstart := hp.tableau_startsOn h.first_run.1
    have hempty : c.start.artificial = [] := by
      simpa [Tableau.hasFirstPhase] using hm
    refine ⟨c.start, hstart.sameRows hp, hstart.canonical hp, hstart.nonnegRhs, ?_⟩
    intro k b _ hb
    rw [hempty] at hb
    cases hb
  | true =>
    obtain ⟨k, hle, hk⟩ := h.first_pivots
    obtain ⟨hrows, hcan, hn⟩ :=
      (hp.tableau_startsOn h.first_run.1).run_spec hp ho.tol.le (hclean hm) hk hle
    have hobj := h.first_objectiveIs hp ho.tol.le hm
    refine ⟨c.first.final, hrows, hcan, hn, ?_⟩
    have hsmall : |rhsOf c.first.final.objective| ≤ o.feasibilityTol := by
      cases h with
      | single _ hm' =>
        rw [hm] at hm'
        cases hm'
      | halted =>
        rw [Course.feasibleBasis_of_halted hm rfl] at hf
        cases hf
      | handedOver _ _ _ _ hsmall =>
        rw [size_eq_abs, not_lt] at hsmall
        exact hsmall
    intro i b hb hart
    have hresidue := hobj.artificialsWithin hrows hcan hn i b hb hart
    exact hresidue.trans ((neg_le_abs _).trans hsmall)

/-- A problem for which two phases find a feasible basis has a point that satisfies it up to the
feasibility tolerance. -/
theorem Valid.exists_feasible (hp : p.Valid) (ho : o.Valid)
    (hclean : ∀ t, p.tableau .twoPhase o = .ok t → t.hasFirstPhase .twoPhase = true →
      Tableau.CleanRun o.tol [] o.maxIters t)
    (hf : (p.solve .twoPhase o).feasibleBasis = true) :
    ∃ x : List ℚ, x.length = p.numVars ∧ (∀ v ∈ x, 0 ≤ v) ∧
      ∀ c ∈ p.constraints, c.HoldsWithin x o.feasibilityTol := by
  obtain ⟨c, hc, hfc⟩ := solve_feasibleBasis hf
  have hcourses := course_courses hc
  obtain ⟨t, hrows, hcan, hn, hart⟩ :=
    hcourses.feasible_tableau hp ho (hclean c.start hcourses.first_run.1) hfc
  have hanswer := hrows.answersWithin hp hcan hn ho.feasibilityTol.le hart
  refine ⟨decisions p.numVars t.rowValue, ?_, hanswer.nonneg, hanswer.holds⟩
  rw [decisions, List.length_map, List.length_range]

lemma diagnose_infeasible {d : Diagnosis} (hd : p.diagnose m = .ok d)
    (hs : d.status = .infeasible) : d.conflicts = p.criticalConstraints := by
  unfold diagnose at hd
  by_cases hm : m = .simplex
  · rw [if_pos hm] at hd
    cases hd
  · rw [if_neg hm] at hd
    by_cases hstatus : (p.solve m {}).status = .infeasible
    · simp only [hstatus] at hd
      cases hd
      rfl
    · simp only [ne_eq, hstatus, not_false_eq_true, if_true] at hd
      cases hd
      exact absurd hs hstatus

/-- The diagnosis of an infeasible problem reports a subsequence of its constraints, in their
order. For each of them some point with non-negative entries satisfies all other constraints up to
the feasibility tolerance. -/
theorem diagnose_conflicts (hp : p.Valid)
    (hclean : ∀ i < p.constraints.length, ∀ t, (p.without i).tableau .twoPhase {} = .ok t →
      t.hasFirstPhase .twoPhase = true → Tableau.CleanRun 1e-9 [] 50 t)
    {d : Diagnosis} (hd : p.diagnose m = .ok d) (hs : d.status = .infeasible) :
    ∃ reported : List (Constraint ℚ × ℕ), reported.Sublist p.constraints.zipIdx ∧
      d.conflicts = reported.map (fun q => q.1.id) ∧
      ∀ q ∈ reported, ∃ x : List ℚ, x.length = p.numVars ∧ (∀ v ∈ x, 0 ≤ v) ∧
        ∀ k c, p.constraints[k]? = some c → k ≠ q.2 → c.HoldsWithin x 1e-5 := by
  refine ⟨p.constraints.zipIdx.filter fun q =>
    ((p.without q.2).solve .twoPhase {}).feasibleBasis, List.filter_sublist, ?_, ?_⟩
  · rw [diagnose_infeasible hd hs]
    rfl
  · intro q hq
    obtain ⟨hmem, hf⟩ := List.mem_filter.mp hq
    have hlt : q.2 < p.constraints.length :=
      (List.getElem?_eq_some_iff.mp (List.mem_zipIdx_iff_getElem?.mp hmem)).1
    obtain ⟨x, hlen, hpos, hholds⟩ := (hp.without q.2).exists_feasible
      (SolveOptions.valid_default (by decide)) (hclean q.2 hlt) hf
    refine ⟨x, hlen, hpos, fun k c hk hne => ?_⟩
    exact hholds c (List.mem_eraseIdx_iff_getElem?.mpr ⟨k, hne, hk⟩)

/-- A variable between three and one, and another one with a bound of its own. -/
def clash : Problem ℚ where
  direction := .max
  objective := [1, 1]
  constraints := [⟨"low", [1, 0], .ge, 3⟩, ⟨"other", [0, 1], .le, 5⟩, ⟨"high", [1, 0], .le, 1⟩]

theorem diagnose_conflicts_clash :
    ∃ d, clash.diagnose .bigM = .ok d ∧ d.status = .infeasible ∧ d.conflicts = ["low", "high"] ∧
      ∃ reported : List (Constraint ℚ × ℕ), reported.Sublist clash.constraints.zipIdx ∧
        d.conflicts = reported.map (fun q => q.1.id) ∧
        ∀ q ∈ reported, ∃ x : List ℚ, x.length = clash.numVars ∧ (∀ v ∈ x, 0 ≤ v) ∧
          ∀ k c, clash.constraints[k]? = some c → k ≠ q.2 → c.HoldsWithin x 1e-5 := by
  have hvalid : clash.Valid := ⟨Or.inl rfl, by simp [clash], by decide +kernel⟩
  have hclean : ∀ i < clash.constraints.length, ∀ t,
      (clash.without i).tableau .twoPhase {} = .ok t → t.hasFirstPhase .twoPhase = true →
        Tableau.CleanRun 1e-9 [] 50 t := by
    intro i hi t ht _
    have hends : ∀ i < clash.constraints.length,
        ((clash.without i).tableau .twoPhase {}).toOption.all (Tableau.endsClean 1e-9 [] 5) =
          true := by
      decide +kernel
    have ht' := hends i hi
    rw [ht] at ht'
    exact (((hvalid.without i).tableau_startsOn ht).shaped (hvalid.without i)).cleanRun ht'
  obtain ⟨d, hd, hresult⟩ := exists_ok_of_any (by decide +kernel :
    (clash.diagnose .bigM).toOption.any
      (fun d => d.status = .infeasible ∧ d.conflicts = ["low", "high"]) = true)
  obtain ⟨hs, hconflicts⟩ := of_decide_eq_true hresult
  exact ⟨d, hd, hs, hconflicts, diagnose_conflicts hvalid hclean hd hs⟩

end Problem

end SimplexTableau
