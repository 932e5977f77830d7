import SimplexTableau.Proofs.Boundary
import SimplexTableau.Proofs.Prepared
import SimplexTableau.Solve.Result

/-!
# Courses of a solution

A solution takes one of three courses: a single run, a first phase that is not handed over, or a
first phase with small optimum followed by a second one. An optimal answer is read off the first
or the third.
-/

namespace SimplexTableau

section Inversion

variable {α : Type} [Scalar α]

/-- The setting of the only run of a method without phases. -/
def singleSetting (o : SolveOptions α) : RunSetting α := { phase := 0, tol := o.tol }

/-- The setting of a first phase. -/
def firstSetting (o : SolveOptions α) : RunSetting α := { phase := 1, tol := o.tol }

/-- The setting of a second phase that starts on a tableau after some recorded steps. -/
def secondSetting (o : SolveOptions α) (t : Tableau α) (steps : List (TraceStep α)) :
    RunSetting α :=
  { phase := 2, tol := o.tol, blocked := t.artificial, start := steps.length + 1 }

/-- The three courses that a solution can take. -/
inductive Problem.Courses (p : Problem α) (m : Method) (o : SolveOptions α) : Course α → Prop
  | single {start : Tableau α} {first : PivotRun α} (hs : p.tableau m o = .ok start)
      (hm : start.hasFirstPhase m = false)
      (hr : start.run (singleSetting o) o.maxIters 0 = .ok first) :
      Courses p m o ⟨start, first, none⟩
  | halted {start : Tableau α} {first : PivotRun α} (hs : p.tableau m o = .ok start)
      (hm : start.hasFirstPhase m = true)
      (hr : start.run (firstSetting o) o.maxIters 0 = .ok first)
      (hend : ¬ (first.ending = .optimal ∧
        ¬ o.feasibilityTol < size (rhsOf first.final.objective))) :
      Courses p m o ⟨start, first, none⟩
  | handedOver {start : Tableau α} {first : PivotRun α} {driven : DrivenOut α}
      {second : SecondPhase α} (hs : p.tableau m o = .ok start)
      (hm : start.hasFirstPhase m = true)
      (hr : start.run (firstSetting o) o.maxIters 0 = .ok first)
      (hend : first.ending = .optimal)
      (hsmall : ¬ o.feasibilityTol < size (rhsOf first.final.objective))
      (hd : first.final.driveOut o.tol = .ok driven)
      (hres : driven.tableau.restore o.tol = .ok second.start)
      (hr2 : second.start.run (secondSetting o second.start first.steps) o.maxIters 0 =
        .ok second.run)
      (hswaps : second.swaps = driven.swaps) :
      Courses p m o ⟨start, first, some second⟩

variable {p : Problem α} {m : Method} {o : SolveOptions α} {c : Course α}

lemma continue_eq_ok {r : PivotRun α} {second : SecondPhase α}
    (h : r.continue o = .ok second) :
    ∃ driven, r.final.driveOut o.tol = .ok driven ∧
      driven.tableau.restore o.tol = .ok second.start ∧
      second.start.run (secondSetting o second.start r.steps) o.maxIters 0 = .ok second.run ∧
      second.swaps = driven.swaps := by
  obtain ⟨driven, hd, h⟩ := bind_eq_ok.mp h
  obtain ⟨start, hres, h⟩ := bind_eq_ok.mp h
  obtain ⟨run, hr, h⟩ := bind_eq_ok.mp h
  cases h
  exact ⟨driven, hd, hres, hr, rfl⟩

theorem course_courses (h : p.course m o = .ok c) : p.Courses m o c := by
  obtain ⟨start, hs, h⟩ := bind_eq_ok.mp h
  split_ifs at h with hm
  · obtain ⟨first, hr, h⟩ := bind_eq_ok.mp h
    split_ifs at h with hend
    · obtain ⟨second, hcont, h⟩ := bind_eq_ok.mp h
      cases h
      obtain ⟨driven, hd, hres, hr2, hswaps⟩ := continue_eq_ok hcont
      exact Problem.Courses.handedOver hs hm hr hend.1 hend.2 hd hres hr2 hswaps
    · cases h
      exact Problem.Courses.halted hs hm hr hend
  · obtain ⟨first, hr, h⟩ := bind_eq_ok.mp h
    cases h
    exact Problem.Courses.single hs (by simpa using hm) hr

/-- A course is what the solution of its problem goes through. -/
theorem Problem.Courses.course_eq (h : p.Courses m o c) : p.course m o = .ok c := by
  cases h with
  | single hs hm hr =>
    refine bind_eq_ok.mpr ⟨_, hs, ?_⟩
    rw [if_neg (by simp [hm])]
    exact bind_eq_ok.mpr ⟨_, hr, rfl⟩
  | halted hs hm hr hend =>
    refine bind_eq_ok.mpr ⟨_, hs, ?_⟩
    rw [if_pos hm]
    refine bind_eq_ok.mpr ⟨_, hr, ?_⟩
    rw [if_neg hend]
    rfl
  | @handedOver start first driven second hs hm hr hend hsmall hd hres hr2 hswaps =>
    have hcont : first.continue o = .ok second := by
      refine bind_eq_ok.mpr ⟨_, hd, bind_eq_ok.mpr ⟨_, hres, bind_eq_ok.mpr ⟨_, hr2, ?_⟩⟩⟩
      rw [← hswaps]
      rfl
    refine bind_eq_ok.mpr ⟨_, hs, ?_⟩
    rw [if_pos hm]
    refine bind_eq_ok.mpr ⟨_, hr, ?_⟩
    rw [if_pos ⟨hend, hsmall⟩]
    exact bind_eq_ok.mpr ⟨_, hcont, rfl⟩

lemma Problem.Courses.first_run (h : p.Courses m o c) :
    p.tableau m o = .ok c.start ∧
      c.start.run (if c.start.hasFirstPhase m then firstSetting o else singleSetting o)
        o.maxIters 0 = .ok c.first := by
  cases h with
  | single hs hm hr => exact ⟨hs, by rw [hm]; exact hr⟩
  | halted hs hm hr | handedOver hs hm hr => exact ⟨hs, by rw [hm]; exact hr⟩

lemma Problem.Courses.first_pivots (h : p.Courses m o c) :
    ∃ k ≤ o.maxIters, Tableau.Pivots o.tol [] k c.start c.first.final := by
  have hr := h.first_run.2
  split_ifs at hr
  all_goals
    obtain ⟨k, hk⟩ := Tableau.run_outcome hr
    exact ⟨k, hk.le_cap, hk.pivots⟩

lemma Problem.Courses.second_run (h : p.Courses m o c) (hm : c.start.hasFirstPhase m = true)
    (hend : c.first.ending = .optimal)
    (hsmall : ¬ o.feasibilityTol < size (rhsOf c.first.final.objective)) :
    ∃ second driven, c.second = some second ∧ c.first.final.driveOut o.tol = .ok driven ∧
      driven.tableau.restore o.tol = .ok second.start ∧
      second.start.run (secondSetting o second.start c.first.steps) o.maxIters 0 =
        .ok second.run := by
  cases h with
  | single _ hm' =>
    rw [hm] at hm'
    cases hm'
  | halted _ _ _ hhalt => exact absurd ⟨hend, hsmall⟩ hhalt
  | handedOver _ _ _ _ _ hd hres hr2 => exact ⟨_, _, rfl, hd, hres, hr2⟩

omit [Scalar α] in
lemma Course.final_of_none (h : c.second = none) : c.final = c.first.final := by
  unfold Course.final
  rw [h]

omit [Scalar α] in
lemma Course.final_of_mem {second : SecondPhase α} (h : second ∈ c.second) :
    c.final = second.run.final := by
  unfold Course.final
  rw [Option.mem_def.mp h]

/-- How the last run of a course ended. -/
def Course.ending (c : Course α) : Move :=
  match c.second with
  | some phase => phase.run.ending
  | none => c.first.ending

omit [Scalar α] in
lemma ofEnding_ne_optimal (phase : Option ℕ) (ending : Move) :
    (Verdict.ofEnding phase ending : Verdict α) ≠ .optimal := by
  cases ending <;> simp [Verdict.ofEnding]

lemma Problem.solve_steps (hc : p.course m o = .ok c) : (p.solve m o).steps = c.steps := by
  unfold Problem.solve
  rw [hc]
  dsimp only
  unfold Course.result
  cases c.verdict m o <;> rfl

lemma Problem.solve_status (hc : p.course m o = .ok c) :
    (p.solve m o).status = (c.verdict m o).status := by
  unfold Problem.solve
  rw [hc]
  dsimp only
  unfold Course.result
  cases c.verdict m o <;> rfl

omit [Scalar α] in
lemma status_ofEnding (phase : Option ℕ) (ending : Move) :
    (Verdict.ofEnding phase ending : Verdict α).status = .unbounded := by
  cases ending <;> rfl

lemma Course.status_of_ending (h : c.ending ≠ .optimal) :
    (c.verdict m o).status = .unbounded := by
  unfold Course.ending at h
  unfold Course.verdict
  cases hs : c.second with
  | none =>
    rw [hs] at h
    dsimp only at h ⊢
    rw [if_pos h, status_ofEnding]
  | some second =>
    rw [hs] at h
    dsimp only at h ⊢
    rw [if_neg h, status_ofEnding]

/-- The last step of a solution says how its last run ended. -/
theorem Problem.Courses.last_kind (h : p.Courses m o c) :
    (p.solve m o).steps.getLast?.map (·.kind) = some c.ending.kind := by
  rw [Problem.solve_steps h.course_eq]
  unfold Course.steps Course.ending
  cases h with
  | single _ _ hr | halted _ _ hr =>
    obtain ⟨k, hk⟩ := Tableau.run_outcome hr
    exact hk.lastKind
  | @handedOver start first driven second _ _ _ _ _ _ _ hr2 =>
    obtain ⟨k, hk⟩ := Tableau.run_outcome hr2
    have hlast := hk.lastKind
    dsimp only
    rw [List.getLast?_append]
    cases hstep : second.run.steps.getLast? with
    | none =>
      rw [hstep] at hlast
      cases hlast
    | some step =>
      rw [hstep] at hlast
      exact hlast

/-- An optimal answer comes from a course with an optimal verdict. -/
theorem solve_optimal (h : (p.solve m o).status = .optimal) :
    ∃ c, p.course m o = .ok c ∧ c.verdict m o = .optimal ∧
      (p.solve m o).objectiveValue = some (c.objectiveValue p.direction) ∧
      (p.solve m o).values = c.final.values := by
  unfold Problem.solve at h ⊢
  cases hc : p.course m o with
  | error e =>
    rw [hc] at h
    cases h
  | ok c =>
    rw [hc] at h
    dsimp only at h ⊢
    cases hv : c.verdict m o with
    | optimal => exact ⟨c, rfl, hv, by simp [Course.result, hv], by simp [Course.result, hv]⟩
    | _ =>
      simp only [Course.result, hv] at h
      cases h

/-- The run from which an optimal answer is read ended at an optimum. A first phase is always
handed over before. -/
theorem Problem.Courses.optimal (h : p.Courses m o c) (hv : c.verdict m o = .optimal) :
    (c.second = none ∧ c.start.hasFirstPhase m = false ∧ c.first.ending = .optimal ∧
        ¬ (m = .bigM ∧ c.final.basicArtificials o.feasibilityTol ≠ [])) ∨
      ∃ second, c.second = some second ∧ second.run.ending = .optimal := by
  cases h with
  | @single start first hs hm hr =>
    left
    simp only [Course.verdict, hm, Bool.false_eq_true, if_false] at hv
    split_ifs at hv with h1 h2
    · exact (ofEnding_ne_optimal _ _ hv).elim
    · exact ⟨rfl, hm, not_not.mp h1, h2⟩
  | @halted start first hs hm hr hend =>
    simp only [Course.verdict, hm] at hv
    split_ifs at hv with h1
    exact (ofEnding_ne_optimal _ _ hv).elim
  | @handedOver start first driven second hs hm hr hend hsmall hd hres hr2 =>
    right
    refine ⟨second, rfl, ?_⟩
    simp only [Course.verdict] at hv
    split_ifs at hv with h1
    · exact h1
    · exact (ofEnding_ne_optimal _ _ hv).elim

end Inversion

end SimplexTableau
