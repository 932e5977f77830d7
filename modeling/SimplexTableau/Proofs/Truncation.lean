import SimplexTableau.Proofs.Doubles
import SimplexTableau.Proofs.Totality

/-!
# What the cap on pivots does

A run under a smaller cap makes the same exchanges as one under a larger cap, as long as it may. If
it never reaches its cap, the larger cap makes no difference. If it does, the last step says so, and
the run under the larger cap goes on from the tableau that this step shows. Both phases have a cap
of their own, but a second phase starts only after a first one that has not reached it.
-/

namespace SimplexTableau

section Traces

variable {α : Type} {short long : List (TraceStep α)}

/-- A trace that ends at a cap, and one that goes on from there: the steps before are the same, and
where the one ends the other has a step of the same number with the same tableau. -/
def CutShort (short long : List (TraceStep α)) : Prop :=
  ∃ earlier limit next later, short = earlier ++ [limit] ∧ long = earlier ++ next :: later ∧
    limit.kind = .iterationLimit ∧ next.index = limit.index ∧ next.rows = limit.rows ∧
    next.basicVars = limit.basicVars

lemma CutShort.append_left (h : CutShort short long) (steps : List (TraceStep α)) :
    CutShort (steps ++ short) (steps ++ long) := by
  obtain ⟨earlier, limit, next, later, rfl, rfl, hstep⟩ := h
  exact ⟨steps ++ earlier, limit, next, later, by simp, by simp, hstep⟩

lemma CutShort.append_right (h : CutShort short long) (steps : List (TraceStep α)) :
    CutShort short (long ++ steps) := by
  obtain ⟨earlier, limit, next, later, rfl, rfl, hstep⟩ := h
  exact ⟨earlier, limit, next, later ++ steps, rfl, by simp, hstep⟩

end Traces

namespace Tableau

variable {α : Type} [Scalar α] {t : Tableau α} {s : RunSetting α} {cap cap' done : ℕ}
  {r r' : PivotRun α}

lemma run_first (h : t.run s cap done = .ok r) :
    ∃ m first later, r.steps = first :: later ∧ t.record s done m = .ok first := by
  rcases run_cases h with ⟨first, hrec, hr, -⟩ | ⟨rest, _, first, _, -, -, hrec, -, rfl⟩
  · exact ⟨_, first, [], by rw [hr], hrec⟩
  · exact ⟨_, first, rest.steps, rfl, hrec⟩

/-- What is recorded of a tableau does not depend on the move, except for the move itself. -/
lemma record_same {m m' : Move} {step step' : TraceStep α} (h : t.record s done m = .ok step)
    (h' : t.record s done m' = .ok step') :
    step'.index = step.index ∧ step'.rows = step.rows ∧ step'.basicVars = step.basicVars := by
  obtain ⟨rows, names, hrows, hnames, rfl⟩ := record_eq_ok h
  obtain ⟨rows', names', hrows', hnames', rfl⟩ := record_eq_ok h'
  rw [hrows] at hrows'
  rw [hnames] at hnames'
  cases hrows'
  cases hnames'
  exact ⟨rfl, rfl, rfl⟩

/-- The steps of a run that reaches its cap are cut short. -/
theorem run_cutShort (h : t.run s cap done = .ok r) (hlimit : r.ending = .limit)
    (hle : cap ≤ cap') (h' : t.run s cap' done = .ok r') : CutShort r.steps r'.steps := by
  induction cap using Nat.strong_induction_on generalizing t cap' done r r' with
  | _ cap ih =>
    rcases run_cases h with ⟨step, hrec, hr, -⟩ | ⟨rest, cap, step, t', rfl, hx, hrec, hrest, rfl⟩
    · obtain ⟨m, first, later, hsteps, hrec'⟩ := run_first h'
      refine ⟨[], step, first, later, by rw [hr]; rfl, hsteps, ?_, record_same hrec hrec'⟩
      rw [record_kind hrec, hlimit]
      rfl
    · rcases run_cases h' with ⟨-, -, -, ⟨rfl, -⟩ | ⟨-, hmove, hne⟩⟩ |
          ⟨rest', cap', step', u, rfl, hx', hrec', hrest', rfl⟩
      · exact absurd hle (Nat.not_succ_le_zero cap)
      · obtain ⟨row, col, hm, -⟩ := hx
        exact absurd (hmove.trans hm) (hne row col)
      · rw [hx.unique hx'] at hrest
        rw [hrec] at hrec'
        cases hrec'
        exact (ih cap (Nat.lt_succ_self cap) hrest hlimit (Nat.le_of_succ_le_succ hle)
          hrest').append_left [step]

lemma run_limit_iff (h : t.run s cap done = .ok r) :
    (∃ step ∈ r.steps, step.kind = .iterationLimit) ↔ r.ending = .limit := by
  obtain ⟨earlier, last, hsteps, hkinds, -, hlast, -⟩ := run_steps h
  rw [hsteps]
  constructor
  · rintro ⟨step, hmem, hkind⟩
    rcases List.mem_append.mp hmem with hmem | hmem
    · rw [hkinds step hmem] at hkind
      cases hkind
    · rw [List.mem_singleton.mp hmem, hlast] at hkind
      exact kind_eq_iterationLimit hkind
  · intro he
    refine ⟨last, by simp, ?_⟩
    rw [hlast, he]
    rfl

end Tableau

namespace Problem

variable {α : Type} [Scalar α] {p : Problem α} {m : Method} {o : SolveOptions α} {cap cap' : ℕ}
  {c c' : Course α}

lemma Courses.limit_iff (h : p.Courses m o c) :
    (∃ step ∈ c.steps, step.kind = .iterationLimit) ↔ c.ending = .limit := by
  cases h with
  | single _ _ hr | halted _ _ hr => exact Tableau.run_limit_iff hr
  | @handedOver start first driven second _ _ hr hend _ _ _ hr2 =>
    have hfirst : ¬ ∃ step ∈ first.steps, step.kind = .iterationLimit := by
      rw [Tableau.run_limit_iff hr, hend]
      simp
    rw [Course.ending, ← Tableau.run_limit_iff hr2]
    simp only [Course.steps, List.mem_append]
    constructor
    · rintro ⟨step, hmem | hmem, hkind⟩
      · exact absurd ⟨step, hmem, hkind⟩ hfirst
      · exact ⟨step, hmem, hkind⟩
    · rintro ⟨step, hmem, hkind⟩
      exact ⟨step, Or.inr hmem, hkind⟩

lemma Courses.of_first_limit (h : p.Courses m o c) (hlimit : c.first.ending = .limit) :
    c.steps = c.first.steps ∧ c.ending = .limit := by
  cases h with
  | single | halted => exact ⟨rfl, hlimit⟩
  | handedOver _ _ _ hend =>
    rw [hend] at hlimit
    cases hlimit

omit [Scalar α] in
lemma first_steps_prefix (c : Course α) : ∃ more, c.steps = c.first.steps ++ more := by
  unfold Course.steps
  cases c.second with
  | none => exact ⟨[], by simp⟩
  | some second => exact ⟨second.run.steps, rfl⟩

/-- A course under a smaller cap is the course under a larger one, or it is cut short. -/
theorem Courses.truncated (h : p.Courses m { o with maxIters := cap } c)
    (h' : p.Courses m { o with maxIters := cap' } c') (hle : cap ≤ cap') :
    c.ending ≠ .limit ∧ c' = c ∨ c.ending = .limit ∧ CutShort c.steps c'.steps := by
  obtain ⟨hs, hr⟩ := h.first_run
  obtain ⟨hs', hr'⟩ := h'.first_run
  have hstart : c'.start = c.start := Except.ok.inj (hs'.symm.trans hs)
  rw [hstart] at hr'
  by_cases hlimit : c.first.ending = .limit
  · right
    obtain ⟨hsteps, hend⟩ := h.of_first_limit hlimit
    obtain ⟨more, hmore⟩ := first_steps_prefix c'
    rw [hsteps, hmore]
    exact ⟨hend, (Tableau.run_cutShort hr hlimit hle hr').append_right more⟩
  · have hfirst := Tableau.run_of_le hr hlimit hle
    have hfirst' : c'.first = c.first := Except.ok.inj (hr'.symm.trans hfirst)
    have hwhole : ∀ d, p.Courses m { o with maxIters := cap' } d → c' = d := fun d hd =>
      Except.ok.inj (h'.course_eq.symm.trans hd.course_eq)
    cases h with
    | single _ hm hr1 =>
      exact Or.inl ⟨hlimit, hwhole _ (.single hs hm (Tableau.run_of_le hr1 hlimit hle))⟩
    | halted _ hm hr1 hend =>
      exact Or.inl ⟨hlimit, hwhole _ (.halted hs hm (Tableau.run_of_le hr1 hlimit hle) hend)⟩
    | @handedOver start first driven second _ hm hr1 hend hsmall hd hres hr2 hswaps =>
      by_cases hlimit2 : second.run.ending = .limit
      · right
        obtain ⟨second', driven', hsecond, hd', hres', hr2'⟩ :=
          h'.second_run (hstart ▸ hm) (by rw [hfirst', hend]) (by rw [hfirst']; exact hsmall)
        rw [hfirst'] at hd' hr2'
        rw [hd] at hd'
        cases hd'
        rw [hres] at hres'
        rw [← Except.ok.inj hres'] at hr2'
        refine ⟨hlimit2, ?_⟩
        simp only [Course.steps, hsecond, hfirst']
        exact (Tableau.run_cutShort hr2 hlimit2 hle hr2').append_left first.steps
      · exact Or.inl ⟨hlimit2, hwhole _ (.handedOver hs hm (Tableau.run_of_le hr1 hlimit hle) hend
          hsmall hd hres (Tableau.run_of_le hr2 hlimit2 hle) hswaps)⟩

variable [OrderedScalar α]

/-- The cap only truncates. If no step of a solution is at the cap, a larger cap makes no
difference; otherwise the solution is reported as unbounded, and under a larger cap its last step is
replaced by others, the first of which shows the same tableau. -/
theorem solve_truncated (hp : p.Valid) (m : Method) (o : SolveOptions α) (hle : cap ≤ cap') :
    ((∀ step ∈ (p.solve m { o with maxIters := cap }).steps, step.kind ≠ .iterationLimit) →
      p.solve m { o with maxIters := cap' } = p.solve m { o with maxIters := cap }) ∧
    ((∃ step ∈ (p.solve m { o with maxIters := cap }).steps, step.kind = .iterationLimit) →
      (p.solve m { o with maxIters := cap }).status = .unbounded ∧
        CutShort (p.solve m { o with maxIters := cap }).steps
          (p.solve m { o with maxIters := cap' }).steps) := by
  cases ht : p.tableau m o with
  | error e =>
    have hfailed : ∀ n, p.solve m { o with maxIters := n } = .failed := by
      intro n
      have hn : p.tableau m { o with maxIters := n } = .error e := ht
      rw [solve, course, hn]
      rfl
    rw [hfailed, hfailed]
    exact ⟨fun _ => rfl, by simp [SolveResult.failed]⟩
  | ok t =>
    obtain ⟨c, hc⟩ := hp.course_of_tableau (o := { o with maxIters := cap }) ht
    obtain ⟨c', hc'⟩ := hp.course_of_tableau (o := { o with maxIters := cap' }) ht
    have hcourses := course_courses hc
    have hlimit := hcourses.limit_iff
    rw [solve_steps hc, solve_steps hc', solve_status hc]
    rcases hcourses.truncated (course_courses hc') hle with ⟨hend, rfl⟩ | ⟨hend, hcut⟩
    · refine ⟨fun _ => ?_, fun hstep => absurd (hlimit.mp hstep) hend⟩
      unfold solve
      rw [hc, hc']
      rfl
    · refine ⟨fun hnone => ?_, fun _ => ⟨Course.status_of_ending (by rw [hend]; simp), hcut⟩⟩
      obtain ⟨step, hmem, hkind⟩ := hlimit.mpr hend
      exact absurd hkind (hnone step hmem)

end Problem

/-- A problem of doubles that is optimal after two pivots. -/
def twoPivots : Problem Float where
  direction := .max
  objective := [3, 2]
  constraints := [⟨"c1", [1, 1], .le, 4⟩, ⟨"c2", [1, 3], .le, 6⟩, ⟨"c3", [1, 0], .le, 3⟩]

theorem solve_truncated_twoPivots :
    (twoPivots.solve .simplex { maxIters := 2 }).status = .unbounded ∧
      CutShort (twoPivots.solve .simplex { maxIters := 2 }).steps
        (twoPivots.solve .simplex { maxIters := 3 }).steps ∧
      (twoPivots.solve .simplex { maxIters := 3 }).status = .optimal ∧
      twoPivots.solve .simplex { maxIters := 50 } = twoPivots.solve .simplex { maxIters := 3 } := by
  have hvalid : twoPivots.Valid := ⟨Or.inl rfl, by decide +kernel, by decide +kernel⟩
  have h23 := Problem.solve_truncated hvalid .simplex {} (by decide : 2 ≤ 3)
  have h350 := Problem.solve_truncated hvalid .simplex {} (by decide : 3 ≤ 50)
  obtain ⟨hstatus, hcut⟩ := h23.2 (by decide +kernel)
  exact ⟨hstatus, hcut, by decide +kernel, h350.1 (by decide +kernel)⟩

end SimplexTableau
