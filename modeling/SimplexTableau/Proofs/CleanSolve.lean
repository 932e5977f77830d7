import SimplexTableau.Proofs.CleanBoundary

/-!
# Clean solutions

A solution is clean if every column that it pivots on or clears is clean, in both phases and at
the boundary between them. Then all its tableaux are canonical, and a first run ends with
right-hand sides that are not negative.
-/

namespace SimplexTableau

/-- Every column that is examined, pivoted on or cleared is clean. -/
structure Course.Clean (c : Course ℚ) (o : SolveOptions ℚ) : Prop where
  first : Tableau.CleanRun o.tol [] o.maxIters c.start
  driven : ∀ second ∈ c.second, c.first.final.CleanDrive o.tol
  restored : ∀ second ∈ c.second, ∀ driven, c.first.final.driveOut o.tol = .ok driven →
    driven.tableau.CleanRestore o.tol
  second : ∀ second ∈ c.second,
    Tableau.CleanRun o.tol second.start.artificial o.maxIters second.start

/-- A method solves a problem on clean columns. -/
def Problem.CleanSolve (p : Problem ℚ) (m : Method) (o : SolveOptions ℚ) : Prop :=
  ∀ c, p.course m o = .ok c → c.Clean o

/-- Whether both runs of a course end within a number of tableaux and all its columns are
clean. -/
def Course.endsClean (o : SolveOptions ℚ) (fuel : ℕ) (c : Course ℚ) : Bool :=
  Tableau.endsClean o.tol [] fuel c.start &&
    match c.second with
    | none => true
    | some second =>
      Tableau.swapsClean o.tol ((List.range c.first.final.rows.length).map (· + 1))
          c.first.final &&
        (c.first.final.driveOut o.tol).toOption.all (fun d => d.tableau.CleanRestore o.tol) &&
        Tableau.endsClean o.tol second.start.artificial fuel second.start

namespace Problem

variable {p : Problem ℚ} {m : Method} {o : SolveOptions ℚ} {t : Tableau ℚ} {c : Course ℚ}

lemma StartsOn.run_spec (hp : p.Valid) (htol : 0 ≤ o.tol) {start : Tableau ℚ}
    (hs : p.StartsOn m o start) (hclean : Tableau.CleanRun o.tol [] o.maxIters start) {n : ℕ}
    (hpiv : Tableau.Pivots o.tol [] n start t) (hn : n ≤ o.maxIters) :
    p.SameRows t ∧ t.Canonical ∧ t.NonnegRhs := by
  have hrows := hs.sameRows hp
  exact ⟨hrows.pivots htol hpiv,
    hrows.shaped.canonical_pivots htol (hs.canonical hp) hclean hpiv hn,
    hrows.shaped.nonnegRhs_pivots htol hs.nonnegRhs hpiv⟩

/-- The first run of a clean course. -/
theorem Courses.first_spec (hp : p.Valid) (htol : 0 ≤ o.tol) (h : p.Courses m o c)
    (hclean : c.Clean o) :
    p.SameRows c.first.final ∧ c.first.final.Canonical ∧ c.first.final.NonnegRhs := by
  obtain ⟨k, hle, hk⟩ := h.first_pivots
  exact (hp.tableau_startsOn h.first_run.1).run_spec hp htol hclean.first hk hle

/-- The handover of a clean course. The second run starts on a canonical tableau whose rows are
settled. If artificial variables are exchanged at zero only, no right-hand side changes. -/
theorem Courses.second_spec (hp : p.Valid) (htol : 0 ≤ o.tol) (h : p.Courses m o c)
    (hclean : c.Clean o) {second : SecondPhase ℚ} (hs : second ∈ c.second) :
    second.start.Canonical ∧ (∀ row, 0 < row → second.start.Settled o.tol row) ∧
      (c.first.final.SwapsAtZero o.tol → second.start.NonnegRhs ∧
        ∀ bound, c.first.final.ArtificialsWithin bound →
          second.start.ArtificialsWithin bound) := by
  obtain ⟨hrows, hcan, hn⟩ := h.first_spec hp htol hclean
  obtain ⟨driven, hd, hres, hdriven, -⟩ := h.handover hp htol hs
  have hrel := Tableau.driveOutOf_drivesOut hd
  have hcan' := hrows.shaped.canonical_drivesOut htol hcan Tableau.rowsInside_all
    (hclean.driven second hs) hrel
  obtain ⟨saved, obj, -, -, he, -, -⟩ := hdriven.shaped.restore_spec hres
  refine ⟨hdriven.shaped.canonical_restore hcan' (hclean.restored second hs driven hd) hres,
    ?_, ?_⟩
  · intro row hrow
    have hsettled := hrows.shaped.settled_driveOut hd hrow
    obtain ⟨k, rfl⟩ : ∃ k, row = k + 1 := ⟨row - 1, by omega⟩
    rw [he]
    exact hsettled
  · intro hzero
    rw [he]
    constructor
    · have hnn := hrows.shaped.nonnegRhs_drivesOut Tableau.rowsInside_all hzero hn hrel
      exact hnn
    · intro bound hw
      have hbound := hrows.shaped.artificialsWithin_drivesOut Tableau.rowsInside_all hzero hw hrel
      exact hbound

/-- A course that can be checked to end on clean columns is clean. -/
theorem Valid.cleanSolve (hp : p.Valid) (htol : 0 ≤ o.tol) {fuel : ℕ}
    (h : (p.course m o).toOption.all (Course.endsClean o fuel) = true) : p.CleanSolve m o := by
  intro c hc
  rw [hc] at h
  have hends : c.endsClean o fuel = true := h
  unfold Course.endsClean at hends
  rw [Bool.and_eq_true] at hends
  have hcourses := course_courses hc
  have hboundary : ∀ second ∈ c.second,
      (Tableau.swapsClean o.tol ((List.range c.first.final.rows.length).map (· + 1))
          c.first.final = true ∧
        (c.first.final.driveOut o.tol).toOption.all (fun d => d.tableau.CleanRestore o.tol) = true)
        ∧ Tableau.endsClean o.tol second.start.artificial fuel second.start = true := by
    intro second hs
    have hall := hends.2
    rw [hs] at hall
    simp only [Bool.and_eq_true] at hall
    exact hall
  refine ⟨?_, ?_, ?_, ?_⟩
  · exact ((hp.tableau_startsOn hcourses.first_run.1).shaped hp).cleanRun hends.1
  · intro second hs
    have hrows := hcourses.first_sameRows hp htol
    exact hrows.shaped.everySwap_clean Tableau.rowsInside_all (hboundary second hs).1.1
  · intro second hs driven hd
    have hrestore := (hboundary second hs).1.2
    rw [hd] at hrestore
    exact of_decide_eq_true hrestore
  · intro second hs
    obtain ⟨driven, -, -, -, hrows, -⟩ := hcourses.handover hp htol hs
    exact hrows.shaped.cleanRun (hboundary second hs).2

end Problem

end SimplexTableau
