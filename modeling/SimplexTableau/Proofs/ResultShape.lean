import SimplexTableau.Proofs.Frames

/-!
# The shape of results

A solution that meets a fault reports nothing but its status. Any other one reports a trace that is
numbered from one and falls into at most two phases, each of which makes exchanges and then says how
it ended; the status agrees with the last step, and there is an answer exactly if it is optimal. No
property of the arithmetic is needed for this.
-/

namespace SimplexTableau

section Shape

variable {α : Type} [Scalar α]

/-- A recorded tableau with a number of constraint rows. Its rows are as long as the list of
headers and end in their right-hand sides, the objective row is called `W` in a first phase and `Z`
otherwise, and the other rows are called by the basic variables. -/
structure TraceStep.WellFormed (rowCount : ℕ) (s : TraceStep α) : Prop where
  rowCount : s.rows.length = rowCount + 1
  width : ∀ row ∈ s.rows, row.coefficients.length = s.headers.length
  rhs : ∀ row ∈ s.rows, row.coefficients.getLast? = some row.rhs
  labels : s.rows.map (·.basicVar) = (if s.phase = 1 then "W" else "Z") :: s.basicVars

/-- The steps of a phase are exchanges, no more of them than the cap, and one step that says how
the phase ended. It ends at the cap exactly if it made that many exchanges. -/
structure PhaseSteps (phase : ℤ) (cap : ℕ) (steps : List (TraceStep α)) : Prop where
  phase : ∀ s ∈ steps, s.phase = phase
  ends : ∃ exchanges last, steps = exchanges ++ [last] ∧
    (∀ s ∈ exchanges, s.kind = .iteration) ∧ last.kind ≠ .iteration ∧
    exchanges.length ≤ cap ∧ (last.kind = .iterationLimit ↔ exchanges.length = cap)

/-- The result of a solution that met no fault. -/
structure SolveResult.Complete (p : Problem α) (cap : ℕ) (r : SolveResult α) : Prop where
  phases : (∃ phase, (phase = 0 ∨ phase = 1) ∧ PhaseSteps phase cap r.steps) ∨
    ∃ first second, r.steps = first ++ second ∧ PhaseSteps 1 cap first ∧ PhaseSteps 2 cap second
  ordered : (r.steps.map (·.phase)).Pairwise (· ≤ ·)
  indices : r.steps.map (·.index) = (List.range r.steps.length).map fun i : ℕ => (i : ℤ) + 1
  headers : ∀ s ∈ r.steps, s.headers = p.columns.map Column.name
  wellFormed : ∀ s ∈ r.steps, s.WellFormed p.constraints.length
  iterations : r.iterations = r.steps.countP (·.kind = .iteration)
  last : ∃ last, r.steps.getLast? = some last ∧
    (r.status = .optimal ∨ r.status = .infeasible → last.kind = .optimal) ∧
    (r.status = .unbounded → last.kind = .unbounded ∨ last.kind = .iterationLimit)
  answer : r.status = .optimal →
    r.values.map Prod.fst = (p.columns.filter Column.isVariable).map Column.name ∧
      r.objectiveValue.isSome = true
  noAnswer : r.status ≠ .optimal → r.values = [] ∧ r.objectiveValue = none
  infeasible : r.status = .infeasible → r.feasibleBasis = false

omit [Scalar α] in
lemma PhaseSteps.pairwise {phase : ℤ} {cap : ℕ} {steps : List (TraceStep α)}
    (h : PhaseSteps phase cap steps) : (steps.map (·.phase)).Pairwise (· ≤ ·) := by
  have hall : steps.map (·.phase) = List.replicate steps.length phase :=
    List.eq_replicate_iff.mpr ⟨List.length_map _, by simpa using h.phase⟩
  rw [hall]
  exact List.pairwise_replicate.mpr (Or.inr le_rfl)

namespace Tableau

variable {t : Tableau α} {s : RunSetting α} {cap : ℕ} {r : PivotRun α}

lemma run_phaseSteps (h : t.run s cap 0 = .ok r) : PhaseSteps s.phase cap r.steps where
  phase := fun _ hmem => run_phase h hmem
  ends := by
    obtain ⟨exchanges, last, hsteps, hkinds, -, hlast, hcount⟩ := run_steps h
    obtain ⟨k, hk⟩ := run_outcome h
    have hlen : exchanges.length = k :=
      Nat.add_left_cancel (hcount.symm.trans hk.iterations)
    refine ⟨exchanges, last, hsteps, hkinds, ?_, hlen ▸ hk.le_cap, ?_⟩
    · rw [hlast]
      exact kind_ne_iteration hk.ne_exchange
    · rw [hlast, hlen]
      rcases hk.ending with ⟨hcap, he⟩ | ⟨hlt, he, -⟩
      · rw [he]
        exact ⟨fun _ => hcap, fun _ => rfl⟩
      · constructor
        · intro hkind
          exact absurd (he.symm.trans (kind_eq_iterationLimit hkind)) move_ne_limit
        · intro hcap
          exact absurd hcap hlt.ne

lemma run_count (h : t.run s cap 0 = .ok r) :
    r.iterations = r.steps.countP (·.kind = .iteration) := by
  obtain ⟨exchanges, last, hsteps, hkinds, -, hlast, hcount⟩ := run_steps h
  obtain ⟨k, hk⟩ := run_outcome h
  have hterminal : last.kind ≠ .iteration := hlast ▸ kind_ne_iteration hk.ne_exchange
  have hall : exchanges.countP (·.kind = .iteration) = exchanges.length :=
    List.countP_eq_length.mpr fun step hmem => decide_eq_true (hkinds step hmem)
  rw [hcount, hsteps, List.countP_append, hall]
  simp [hterminal]

lemma run_indices (h : t.run s cap 0 = .ok r) :
    r.steps.map (·.index) = (List.range r.steps.length).map fun i : ℕ => s.start + (i : ℤ) := by
  apply List.ext_getElem?
  intro i
  rw [List.getElem?_map, List.getElem?_map]
  cases hi : r.steps[i]? with
  | none =>
    have hle := List.getElem?_eq_none_iff.mp hi
    rw [List.getElem?_eq_none (by rwa [List.length_range])]
    rfl
  | some step =>
    have hlt := (List.getElem?_eq_some_iff.mp hi).1
    obtain ⟨u, -, -, -, -, hindex⟩ := run_depicts h hi
    rw [List.getElem?_range hlt, Option.map_some, Option.map_some, hindex, Nat.zero_add]

lemma snapshot_labels {phase : ℤ} {rows : List (TableauRow α)} {names : List String}
    (h : t.snapshot phase = .ok rows) (hn : t.basicNames = .ok names)
    (hlen : names.length = t.rows.length) :
    rows.map (·.basicVar) = (if phase = 1 then "W" else "Z") :: names := by
  obtain ⟨names', hn', -, rfl⟩ := snapshot_eq_ok_iff.mp h
  rw [hn] at hn'
  cases hn'
  apply List.ext_getElem
  · simp [matrix, hlen]
  · intro i hi hi'
    simp

end Tableau

namespace Problem

variable {p : Problem α} {m : Method} {o : SolveOptions α} {c : Course α} {t : Tableau α}
  {s : TraceStep α}

theorem SameFrame.wellFormed (h : p.SameFrame t) (hs : s.Depicts t) :
    s.WellFormed p.constraints.length := by
  obtain ⟨hcoefficients, hrhs⟩ := Tableau.snapshot_rows hs.rows
  have hwidth : ∀ row ∈ s.rows, row.coefficients.length = t.columns.length := by
    intro row hmem
    apply h.shaped.length_of_mem_matrix
    rw [← hcoefficients]
    exact List.mem_map_of_mem hmem
  refine ⟨?_, ?_, ?_, ?_⟩
  · have hlen := congrArg List.length hcoefficients
    rw [List.length_map] at hlen
    rw [hlen, Tableau.matrix, List.length_cons, h.rowCount, standard, List.length_map]
  · intro row hmem
    rw [hwidth row hmem, hs.headers, Tableau.headers, List.length_map]
  · intro row hmem
    rw [← hcoefficients, List.map_map] at hrhs
    have hrow : row.rhs = rhsOf row.coefficients := List.map_inj_left.mp hrhs row hmem
    have hne : row.coefficients ≠ [] := by
      have hw := h.shaped.width
      rw [← hwidth row hmem] at hw
      exact List.ne_nil_of_length_pos (by omega)
    rw [hrow, rhsOf, List.getLastD_eq_getLast?, List.getLast?_eq_some_getLast hne, Option.getD_some]
  · apply Tableau.snapshot_labels hs.rows hs.basicVars
    have hnames := hs.basicVars
    rw [h.shaped.basicNames_eq] at hnames
    rw [← Except.ok.inj hnames, List.length_map, h.shaped.basis]

lemma SameFrame.run_wellFormed {setting : RunSetting α} {cap : ℕ} {r : PivotRun α}
    (h : p.SameFrame t) (hr : t.run setting cap 0 = .ok r) (hmem : s ∈ r.steps) :
    s.headers = p.columns.map Column.name ∧ s.WellFormed p.constraints.length := by
  obtain ⟨i, hi⟩ := List.mem_iff_getElem?.mp hmem
  obtain ⟨u, -, hpivots, hdepicts, -, -⟩ := Tableau.run_depicts hr hi
  have hu := h.pivots hpivots
  exact ⟨hdepicts.headers.trans hu.headers_eq, hu.wellFormed hdepicts⟩

lemma Courses.wellFormed (hp : p.Valid) (h : p.Courses m o c) (hmem : s ∈ c.steps) :
    s.headers = p.columns.map Column.name ∧ s.WellFormed p.constraints.length := by
  obtain ⟨hstart, -, hsecond⟩ := h.sameFrame hp
  cases h with
  | single _ _ hr | halted _ _ hr => exact hstart.run_wellFormed hr hmem
  | handedOver _ _ hr _ _ _ _ hr2 =>
    rcases List.mem_append.mp hmem with hmem | hmem
    · exact hstart.run_wellFormed hr hmem
    · exact (hsecond _ rfl).1.run_wellFormed hr2 hmem

lemma Courses.phases (h : p.Courses m o c) :
    (∃ phase, (phase = 0 ∨ phase = 1) ∧ PhaseSteps phase o.maxIters c.steps) ∨
      ∃ first second, c.steps = first ++ second ∧ PhaseSteps 1 o.maxIters first ∧
        PhaseSteps 2 o.maxIters second := by
  cases h with
  | single _ _ hr => exact Or.inl ⟨0, Or.inl rfl, Tableau.run_phaseSteps hr⟩
  | halted _ _ hr => exact Or.inl ⟨1, Or.inr rfl, Tableau.run_phaseSteps hr⟩
  | handedOver _ _ hr _ _ _ _ hr2 =>
    exact Or.inr ⟨_, _, rfl, Tableau.run_phaseSteps hr, Tableau.run_phaseSteps hr2⟩

lemma Courses.ordered (h : p.Courses m o c) : (c.steps.map (·.phase)).Pairwise (· ≤ ·) := by
  rcases h.phases with ⟨phase, -, hsteps⟩ | ⟨first, second, he, hfirst, hsecond⟩
  · exact hsteps.pairwise
  · rw [he, List.map_append, List.pairwise_append]
    refine ⟨hfirst.pairwise, hsecond.pairwise, ?_⟩
    intro a ha b hb
    obtain ⟨s, hs, rfl⟩ := List.mem_map.mp ha
    obtain ⟨s', hs', rfl⟩ := List.mem_map.mp hb
    rw [hfirst.phase s hs, hsecond.phase s' hs']
    decide

lemma Courses.indices (h : p.Courses m o c) :
    c.steps.map (·.index) = (List.range c.steps.length).map fun i : ℕ => (i : ℤ) + 1 := by
  have hone : ∀ i : ℕ, (1 : ℤ) + i = i + 1 := fun i => add_comm _ _
  cases h with
  | single _ _ hr | halted _ _ hr =>
    rw [Course.steps, Tableau.run_indices hr]
    simp only [singleSetting, firstSetting, hone]
  | @handedOver start first driven second _ _ hr _ _ _ _ hr2 =>
    simp only [Course.steps, List.map_append, List.length_append, List.range_add, List.map_map,
      Tableau.run_indices hr, Tableau.run_indices hr2, firstSetting, secondSetting, hone]
    congr 1
    apply List.map_congr_left
    intro i _
    simp only [Function.comp_apply, Nat.cast_add]
    ring

lemma Courses.iterations (h : p.Courses m o c) :
    c.iterations = c.steps.countP (·.kind = .iteration) := by
  cases h with
  | single _ _ hr | halted _ _ hr => exact Tableau.run_count hr
  | handedOver _ _ hr _ _ _ _ hr2 =>
    simp only [Course.iterations, Course.steps, List.countP_append, Tableau.run_count hr,
      Tableau.run_count hr2]

lemma Courses.ending_ne_exchange (h : p.Courses m o c) (row col : ℕ) :
    c.ending ≠ .exchange row col := by
  cases h with
  | single _ _ hr | halted _ _ hr =>
    obtain ⟨k, hk⟩ := Tableau.run_outcome hr
    exact hk.ne_exchange row col
  | handedOver _ _ _ _ _ _ _ hr2 =>
    obtain ⟨k, hk⟩ := Tableau.run_outcome hr2
    exact hk.ne_exchange row col

omit [Scalar α] in
lemma status_ne_error (v : Verdict α) : v.status ≠ .error := by
  cases v <;> simp [Verdict.status]

/-- A course is unbounded exactly if its last run ended at no optimum. -/
theorem status_eq_unbounded_iff :
    (c.verdict m o).status = .unbounded ↔ c.ending ≠ .optimal := by
  refine ⟨fun h he => ?_, Course.status_of_ending⟩
  unfold Course.ending at he
  unfold Course.verdict at h
  cases hs : c.second with
  | some second =>
    simp only [hs] at h he
    rw [if_pos he] at h
    cases h
  | none =>
    simp only [hs] at h he
    rw [if_neg (not_not.mpr he)] at h
    split_ifs at h <;> cases h

lemma solve_eq (hc : p.course m o = .ok c) : p.solve m o = c.result p.direction m o := by
  unfold Problem.solve
  rw [hc]

lemma result_noAnswer (h : (c.result p.direction m o).status ≠ .optimal) :
    (c.result p.direction m o).values = [] ∧
      (c.result p.direction m o).objectiveValue = none := by
  unfold Course.result at h ⊢
  cases hv : c.verdict m o with
  | optimal =>
    simp only [hv] at h
    exact absurd rfl h
  | positivePhaseOne | positiveArtificials | unbounded | limit => exact ⟨rfl, rfl⟩

lemma result_infeasible (h : (c.result p.direction m o).status = .infeasible) :
    (c.result p.direction m o).feasibleBasis = false := by
  unfold Course.result Course.feasibleBasis at *
  cases hv : c.verdict m o with
  | positivePhaseOne | positiveArtificials => rfl
  | optimal | unbounded | limit =>
    simp only [hv] at h
    cases h

theorem Courses.complete (hp : p.Valid) (h : p.Courses m o c) :
    (p.solve m o).Complete p o.maxIters := by
  have hc := h.course_eq
  have hsteps := solve_steps hc
  have hiterations : (p.solve m o).iterations = c.iterations := by
    rw [solve_eq hc]
    unfold Course.result
    cases c.verdict m o <;> rfl
  obtain ⟨last, hlast, hkind⟩ := Option.map_eq_some_iff.mp h.last_kind
  constructor
  · rw [hsteps]
    exact h.phases
  · rw [hsteps]
    exact h.ordered
  · rw [hsteps]
    exact h.indices
  · rw [hsteps]
    exact fun s hmem => (h.wellFormed hp hmem).1
  · rw [hsteps]
    exact fun s hmem => (h.wellFormed hp hmem).2
  · rw [hiterations, hsteps, h.iterations]
  · refine ⟨last, hlast, fun hs => ?_, fun hs => ?_⟩
    · rw [solve_status hc] at hs
      have hend : c.ending = .optimal := by
        by_contra hne
        rw [status_eq_unbounded_iff.mpr hne] at hs
        rcases hs with hs | hs <;> cases hs
      rw [hkind, hend]
      rfl
    · rw [solve_status hc, status_eq_unbounded_iff] at hs
      rw [hkind]
      cases he : c.ending with
      | optimal => exact absurd he hs
      | exchange row col => exact absurd he (h.ending_ne_exchange row col)
      | unbounded col => exact Or.inl rfl
      | limit => exact Or.inr rfl
  · intro hs
    obtain ⟨c', hc', -, hobjective, hvalues⟩ := solve_optimal hs
    rw [hc] at hc'
    cases hc'
    rw [hvalues, (h.sameFrame_final hp).values_eq, List.map_map, hobjective]
    exact ⟨rfl, rfl⟩
  · rw [solve_eq hc]
    exact result_noAnswer
  · rw [solve_eq hc]
    exact result_infeasible

/-- A solution of a valid problem either met a fault and reports nothing else, or its result is
complete. -/
theorem solve_shape (hp : p.Valid) (m : Method) (o : SolveOptions α) :
    ((p.solve m o).status = .error → (p.solve m o).steps = [] ∧ (p.solve m o).values = [] ∧
      (p.solve m o).objectiveValue = none ∧ (p.solve m o).iterations = 0 ∧
      (p.solve m o).feasibleBasis = false) ∧
    ((p.solve m o).status ≠ .error → (p.solve m o).Complete p o.maxIters) := by
  cases hc : p.course m o with
  | error e =>
    have hfailed : p.solve m o = .failed := by
      unfold Problem.solve
      rw [hc]
    rw [hfailed]
    exact ⟨fun _ => ⟨rfl, rfl, rfl, rfl, rfl⟩, fun h => absurd rfl h⟩
  | ok c =>
    refine ⟨fun h => ?_, fun _ => (course_courses hc).complete hp⟩
    rw [solve_status hc] at h
    exact absurd h (status_ne_error _)

end Problem

end Shape

/-- A problem of doubles with all three relations and an infinite right-hand side. -/
def openEnded : Problem Float where
  direction := .min
  objective := [1, 2]
  constraints :=
    [⟨"c1", [1, 1], .ge, 2⟩, ⟨"c2", [1, -1], .eq, 0.5⟩, ⟨"c3", [1, 0], .le, 1 / 0⟩]

theorem solve_shape_openEnded :
    (openEnded.solve .twoPhase {}).steps.map (·.phase) = [1, 1, 1, 2] ∧
      (openEnded.solve .twoPhase {}).Complete openEnded 50 ∧
      (openEnded.solve .bigM { bigM := some (-1) }).status = .error ∧
      (openEnded.solve .bigM { bigM := some (-1) }).steps = [] := by
  have hvalid : openEnded.Valid :=
    ⟨Or.inr rfl, by decide +kernel, by decide +kernel⟩
  have herror : (openEnded.solve .bigM { bigM := some (-1) }).status = .error := by decide +kernel
  refine ⟨by decide +kernel, ?_, herror, ?_⟩
  · exact (Problem.solve_shape hvalid .twoPhase {}).2 (by decide +kernel)
  · exact ((Problem.solve_shape hvalid .bigM { bigM := some (-1) }).1 herror).1

end SimplexTableau
