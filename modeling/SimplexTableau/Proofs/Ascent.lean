import SimplexTableau.Proofs.Canonical
import SimplexTableau.Proofs.Points
import SimplexTableau.Proofs.Steps

/-!
# Ascent of a run

A run whose first tableau has no negative right-hand side records none, leaves none behind, and
never lowers the objective value from one step to the next. Nothing else is asked of the tableau:
it need not be canonical, its basis may be anything, and eliminations may be skipped. Every solution
starts with such a run.
-/

namespace SimplexTableau

/-- No right-hand side of a recorded constraint row is negative. -/
def TraceStep.NonnegRhs (s : TraceStep ℚ) : Prop :=
  ∀ i, 0 ≤ s.rhsAt (i + 1)

/-- No right-hand side of a constraint row is negative, neither at a step nor in the tableau left
behind, and the objective value never falls from one step to the next. -/
structure PivotRun.Ascends (r : PivotRun ℚ) : Prop where
  steps : ∀ s ∈ r.steps, s.NonnegRhs
  final : r.final.NonnegRhs
  objective : r.steps.IsChain fun s s' => s.rhsAt 0 ≤ s'.rhsAt 0

namespace Tableau

variable {t : Tableau ℚ} {s : RunSetting ℚ} {cap done : ℕ} {r : PivotRun ℚ}

lemma Rectangular.nonnegRhs_step (h : t.Rectangular) (htol : 0 ≤ s.tol) (hn : t.NonnegRhs)
    (hr : t.run s cap done = .ok r) {step : TraceStep ℚ} (hs : step ∈ r.steps) :
    step.NonnegRhs := by
  obtain ⟨i, hi⟩ := List.mem_iff_getElem?.mp hs
  obtain ⟨u, -, hp, hshows, -⟩ := run_shows hr hi
  intro k
  rw [hshows.rhsAt_eq (h.pivots hp)]
  exact h.nonnegRhs_pivots htol hn hp k

/-- Two steps in a row show tableaux that are one exchange apart. -/
lemma Rectangular.objective_step (h : t.Rectangular) (htol : 0 ≤ s.tol) (hn : t.NonnegRhs)
    (hr : t.run s cap done = .ok r) {i : ℕ} {a b : TraceStep ℚ} (ha : r.steps[i]? = some a)
    (hb : r.steps[i + 1]? = some b) : a.rhsAt 0 ≤ b.rhsAt 0 := by
  obtain ⟨u, -, hu, hshown, -⟩ := run_shows hr ha
  obtain ⟨v, -, hv, hshown', -⟩ := run_shows hr hb
  obtain ⟨w, hw, hstep⟩ := hv.split
  rw [hw.unique hu] at hstep
  rw [hshown.rhsAt_eq (h.pivots hu), hshown'.rhsAt_eq (h.pivots hv)]
  exact (h.pivots hu).objective_pivots htol (h.nonnegRhs_pivots htol hn hu) hstep

theorem Rectangular.ascends (h : t.Rectangular) (htol : 0 ≤ s.tol) (hn : t.NonnegRhs)
    (hr : t.run s cap done = .ok r) : r.Ascends where
  steps _ hs := h.nonnegRhs_step htol hn hr hs
  final := by
    obtain ⟨k, hk⟩ := run_outcome hr
    exact h.nonnegRhs_pivots htol hn hk.pivots
  objective := by
    apply List.isChain_iff_getElem.mpr
    intro i hi
    exact h.objective_step htol hn hr (List.getElem?_eq_getElem (by omega))
      (List.getElem?_eq_getElem hi)

end Tableau

namespace Problem

variable {p : Problem ℚ} {m : Method} {o : SolveOptions ℚ} {c : Course ℚ}

theorem Courses.first_ascends (hp : p.Valid) (htol : 0 ≤ o.tol) (h : p.Courses m o c) :
    c.first.Ascends := by
  cases h with
  | single ht _ hr | halted ht _ hr | handedOver ht _ hr =>
    have hstart := hp.tableau_startsOn ht
    exact (hstart.shaped hp).ascends htol hstart.nonnegRhs hr

/-- Every run on right-hand sides that are not negative ascends, under any setting, and a run on a
shaped tableau does not fail. The first run of every solution, the only one or that of its first
phase, is such a run; its steps come first in the trace. -/
theorem run_ascends :
    (∀ (t : Tableau ℚ) (s : RunSetting ℚ) (cap done : ℕ), t.Rectangular → t.NonnegRhs →
      0 < s.tol → (t.Shaped → ∃ r, t.run s cap done = .ok r) ∧
        ∀ r, t.run s cap done = .ok r → r.Ascends) ∧
    ∀ (p : Problem ℚ) (m : Method) (o : SolveOptions ℚ) (c : Course ℚ), p.Valid → o.Valid →
      p.course m o = .ok c → c.first.Ascends ∧ c.first.steps <+: (p.solve m o).steps := by
  constructor
  · intro t s cap done h hn htol
    exact ⟨fun hshape => hshape.run_ok s cap done, fun r hr => h.ascends htol.le hn hr⟩
  · intro p m o c hp ho hc
    refine ⟨(course_courses hc).first_ascends hp ho.tol.le, ?_⟩
    rw [solve_steps hc, Course.steps]
    cases c.second with
    | none => exact List.prefix_rfl
    | some second => exact List.prefix_append _ _

theorem run_ascends_diet :
    (∃ r, diet.plain.phaseOne.run { phase := 1, tol := (1e-9 : ℚ), blocked := [2] } 5 0 = .ok r ∧
      r.Ascends) ∧
    ∃ c, diet.course .twoPhase {} = .ok c ∧ c.first.iterations = 2 ∧ c.first.Ascends ∧
      c.first.steps <+: (diet.solve .twoPhase {}).steps := by
  have hstart : diet.StartsOn .twoPhase {} diet.plain.phaseOne :=
    StartsOn.phaseOne (by decide +kernel) rfl
  have hshape := hstart.shaped diet_valid
  constructor
  · obtain ⟨hok, hascends⟩ := run_ascends.1 diet.plain.phaseOne
      { phase := 1, tol := 1e-9, blocked := [2] } 5 0 hshape.toRectangular hstart.nonnegRhs
      (by decide +kernel)
    obtain ⟨r, hr⟩ := hok hshape
    exact ⟨r, hr, hascends r hr⟩
  · obtain ⟨c, hc, hcount⟩ := exists_ok_of_any (by decide +kernel :
      (diet.course .twoPhase {}).toOption.any (·.first.iterations = 2) = true)
    obtain ⟨hascends, hprefix⟩ := run_ascends.2 diet .twoPhase {} c diet_valid
      (SolveOptions.valid_default (by decide)) hc
    exact ⟨c, hc, of_decide_eq_true hcount, hascends, hprefix⟩

end Problem

end SimplexTableau
