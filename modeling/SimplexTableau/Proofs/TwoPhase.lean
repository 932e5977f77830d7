import SimplexTableau.Proofs.Feasibility

/-!
# Feasibility of the two-phase answer

A first phase that is handed over may leave artificial variables with a residue within the
feasibility tolerance. The second phase keeps right-hand sides from becoming negative and leaves
residues alone, so the answer is as good as the tableau that it starts on. Exchanging an
artificial variable at zero keeps that tableau good. Exchanging one with a residue divides the
residue by the pivot, which may be small and of either sign: the answer can then be far from
satisfying the problem.
-/

namespace SimplexTableau

namespace Problem

variable {p : Problem ℚ} {m : Method} {o : SolveOptions ℚ} {t t' : Tableau ℚ} {c : Course ℚ}

section FirstPhase

/-- No artificial variable exceeds the optimum of a first phase. -/
theorem ObjectiveIs.artificialsWithin (h : p.ObjectiveIs p.firstRow t) (hrows : p.SameRows t)
    (hcan : t.Canonical) (hn : t.NonnegRhs) :
    t.ArtificialsWithin (-rhsOf t.objective) := by
  rw [hrows.shaped.rhsOf_objective, h.firstRow_basic hrows hcan, neg_neg]
  exact hrows.artificialsWithin_total hcan hn

lemma Courses.first_residues (hp : p.Valid) (htol : 0 ≤ o.tol) (h : p.Courses m o c)
    (hclean : c.Clean o) {second : SecondPhase ℚ} (hs : second ∈ c.second) :
    c.first.final.ArtificialsWithin (-rhsOf c.first.final.objective) ∧
      |rhsOf c.first.final.objective| ≤ o.feasibilityTol := by
  obtain ⟨hrows, hcan, hn⟩ := h.first_spec hp htol hclean
  have hobj := h.first_objectiveIs hp htol
  cases h with
  | single | halted => cases hs
  | handedOver _ hm _ _ hsmall =>
    rw [size_eq_abs, not_lt] at hsmall
    exact ⟨(hobj hm).artificialsWithin hrows hcan hn, hsmall⟩

end FirstPhase

section Answer

/-- The decision values satisfy all bounds and constraints up to a tolerance. -/
structure SatisfiedWithin (p : Problem ℚ) (tol : ℚ) (val : Column → ℚ) : Prop where
  lower : ∀ x ∈ decisions p.numVars val, -tol ≤ x
  holds : ∀ c ∈ p.constraints, c.HoldsWithin (decisions p.numVars val) tol

/-- The reported values show no violation above a tolerance. -/
structure ResiduesWithin (p : Problem ℚ) (tol : ℚ) (val : Column → ℚ) : Prop where
  lower : ∀ x ∈ decisions p.numVars val, -tol ≤ x
  slack : ∀ (i : ℕ) (c : Constraint ℚ), p.standard[i]? = some c → c.relation = .le →
    -tol ≤ val (.slack i)
  surplus : ∀ (i : ℕ) (c : Constraint ℚ), p.standard[i]? = some c → c.relation = .ge →
    -tol ≤ val (.surplus i) - val (.artificial i)
  equation : ∀ (i : ℕ) (c : Constraint ℚ), p.standard[i]? = some c → c.relation = .eq →
    |val (.artificial i)| ≤ tol

/-- Balanced values satisfy the problem up to a tolerance exactly if they show no violation above
it. -/
theorem Balanced.satisfiedWithin_iff {val : Column → ℚ} (h : p.Balanced val) (tol : ℚ) :
    p.SatisfiedWithin tol val ↔ p.ResiduesWithin tol val := by
  have hstandard : (∀ c ∈ p.constraints, c.HoldsWithin (decisions p.numVars val) tol) ↔
      ∀ (i : ℕ) (c : Constraint ℚ), p.standard[i]? = some c →
        c.HoldsWithin (decisions p.numVars val) tol := by
    constructor
    · intro hall i c hi
      obtain ⟨d, hd, rfl⟩ := List.mem_map.mp (List.mem_of_getElem? hi)
      exact (d.holdsWithin_standardised_iff _ tol).mpr (hall d hd)
    · intro hall c hc
      obtain ⟨i, hi⟩ := List.mem_iff_getElem?.mp hc
      exact (c.holdsWithin_standardised_iff _ tol).mp (hall i _ (standard_get hi))
  constructor
  · rintro ⟨hlower, hholds⟩
    have hall : ∀ (i : ℕ) (c : Constraint ℚ), p.standard[i]? = some c → _ := fun i c hi =>
      (h.holdsWithin_iff hi tol).mp (hstandard.mp hholds i c hi)
    exact ⟨hlower, fun i c hi => (hall i c hi).1, fun i c hi => (hall i c hi).2.1,
      fun i c hi => (hall i c hi).2.2⟩
  · rintro ⟨hlower, hslack, hsurplus, hequation⟩
    refine ⟨hlower, hstandard.mpr fun i c hi => (h.holdsWithin_iff hi tol).mpr ?_⟩
    exact ⟨hslack i c hi, hsurplus i c hi, hequation i c hi⟩

/-- If a second run starts without negative right-hand sides and with artificial variables within
a bound, its basic solution answers the problem up to that bound. -/
theorem Courses.answersWithin (hp : p.Valid) (htol : 0 ≤ o.tol) (h : p.Courses m o c)
    (hclean : c.Clean o) {second : SecondPhase ℚ} (hs : second ∈ c.second) {bound : ℚ}
    (hbound : 0 ≤ bound) (hn : second.start.NonnegRhs)
    (hw : second.start.ArtificialsWithin bound) :
    p.AnswersWithin bound second.run.final.rowValue := by
  obtain ⟨driven, -, -, -, hrows, -⟩ := h.handover hp htol hs
  obtain ⟨hcan, hsettled, -⟩ := h.second_spec hp htol hclean hs
  obtain ⟨k, hk⟩ := h.second_outcome hs
  have hpivots : Tableau.Pivots o.tol second.start.artificial k second.start second.run.final :=
    hk.pivots
  have hrun := hclean.second second hs
  apply (hrows.pivots htol hpivots).answersWithin hp
  · exact hrows.shaped.canonical_pivots htol hcan hrun hpivots hk.le_cap
  · exact hrows.shaped.nonnegRhs_pivots htol hn hpivots
  · exact hbound
  · exact (hrows.shaped.settled_pivots hpivots hsettled hw).2

lemma Courses.final_canonical (hp : p.Valid) (htol : 0 ≤ o.tol) (h : p.Courses m o c)
    (hclean : c.Clean o) : c.final.Canonical := by
  obtain ⟨-, hcan, -⟩ := h.first_spec hp htol hclean
  cases hs : c.second with
  | none =>
    rw [Course.final_of_none hs]
    exact hcan
  | some second =>
    rw [Course.final_of_mem hs]
    obtain ⟨driven, -, -, -, hrows, -⟩ := h.handover hp htol hs
    obtain ⟨hcan2, -, -⟩ := h.second_spec hp htol hclean hs
    obtain ⟨k, hk⟩ := h.second_outcome hs
    exact hrows.shaped.canonical_pivots htol hcan2 (hclean.second second hs) hk.pivots hk.le_cap

lemma Courses.answersWithin_of_none (hp : p.Valid) (htol : 0 ≤ o.tol)
    (h : p.Courses .twoPhase o c) (hclean : c.Clean o) (hnone : c.second = none)
    (hm : c.start.hasFirstPhase .twoPhase = false) {bound : ℚ} (hbound : 0 ≤ bound) :
    p.AnswersWithin bound c.final.rowValue := by
  obtain ⟨hrows, hcan, hn⟩ := h.first_spec hp htol hclean
  have hempty : c.first.final.artificial = [] := by
    have hart : c.start.artificial = [] := by
      simpa [Tableau.hasFirstPhase] using hm
    cases h with
    | single ht | halted ht | handedOver ht =>
      rw [hrows.artificial, ← (hp.tableau_startsOn ht).same.2.2.2]
      exact hart
  rw [Course.final_of_none hnone]
  apply hrows.answersWithin hp hcan hn hbound
  intro k b _ hb
  rw [hempty] at hb
  cases hb

/-- If artificial variables are exchanged at zero only, the second run starts without negative
right-hand sides and with artificial variables within the optimum of the first one. -/
lemma Courses.second_residues (hp : p.Valid) (htol : 0 ≤ o.tol) (h : p.Courses m o c)
    (hclean : c.Clean o) {second : SecondPhase ℚ} (hs : second ∈ c.second)
    (hswaps : c.first.final.SwapsAtZero o.tol) :
    second.start.NonnegRhs ∧ second.start.ArtificialsWithin o.feasibilityTol ∧
      second.start.ArtificialsWithin (-rhsOf c.first.final.objective) := by
  obtain ⟨hresidues, hsmall⟩ := h.first_residues hp htol hclean hs
  obtain ⟨-, -, hzero⟩ := h.second_spec hp htol hclean hs
  obtain ⟨hn, hw⟩ := hzero hswaps
  refine ⟨hn, hw _ ?_, hw _ hresidues⟩
  intro k b hb hart
  exact (hresidues k b hb hart).trans ((neg_le_abs _).trans hsmall)

lemma Courses.second_at_zero (hp : p.Valid) (htol : 0 ≤ o.tol) (h : p.Courses m o c)
    (hclean : c.Clean o) {second : SecondPhase ℚ} (hs : second ∈ c.second)
    (hend : rhsOf c.first.final.objective = 0) :
    second.start.NonnegRhs ∧ second.start.ArtificialsWithin 0 := by
  obtain ⟨hresidues, -⟩ := h.first_residues hp htol hclean hs
  obtain ⟨hrows, -, hn⟩ := h.first_spec hp htol hclean
  rw [hend, neg_zero] at hresidues
  have hswaps : c.first.final.SwapsAtZero o.tol :=
    hrows.shaped.everySwap_at_zero hn hresidues Tableau.rowsInside_all
  obtain ⟨hn2, -, hw2⟩ := h.second_residues hp htol hclean hs hswaps
  rw [hend, neg_zero] at hw2
  exact ⟨hn2, hw2⟩

/-- An optimal answer of two phases satisfies the problem up to the feasibility tolerance exactly
if its values show no violation above it. They show none if the second phase starts without
negative right-hand sides and with residues within the tolerance. It does so if artificial
variables are exchanged at zero only; and if the first phase has ended at zero, the answer
satisfies the problem exactly. -/
theorem solve_two_phase (hp : p.Valid) (ho : o.Valid) (hclean : p.CleanSolve .twoPhase o)
    (hs : (p.solve .twoPhase o).status = .optimal) :
    ∃ c, p.course .twoPhase o = .ok c ∧
      (p.solve .twoPhase o).values = (p.columns.filter Column.isVariable).map
        (fun v => (v.name, clean (c.final.rowValue v))) ∧
      (p.SatisfiedWithin o.feasibilityTol c.final.rowValue ↔
        p.ResiduesWithin o.feasibilityTol c.final.rowValue) ∧
      ((∀ second ∈ c.second, second.start.NonnegRhs ∧
        second.start.ArtificialsWithin o.feasibilityTol) →
          p.AnswersWithin o.feasibilityTol c.final.rowValue) ∧
      (c.first.final.SwapsAtZero o.tol → ∀ second ∈ c.second, second.start.NonnegRhs ∧
        second.start.ArtificialsWithin o.feasibilityTol) ∧
      (rhsOf c.first.final.objective = 0 → p.AnswersWithin 0 c.final.rowValue) := by
  have htol : (0 : ℚ) ≤ o.tol := le_of_lt ho.tol
  have hftol : (0 : ℚ) ≤ o.feasibilityTol := le_of_lt ho.feasibilityTol
  obtain ⟨c, hc, hv, -, hvalues⟩ := solve_optimal hs
  have hcourses := course_courses hc
  have hcl := hclean c hc
  obtain ⟨hfinal, -, -⟩ := hcourses.final_spec hp htol hv
  have hbalanced := hfinal.balanced hp (hcourses.final_canonical hp htol hcl)
  refine ⟨c, hc, by rw [hvalues, hfinal.values_eq], hbalanced.satisfiedWithin_iff _, ?_⟩
  rcases hcourses.optimal hv with ⟨hnone, hm, -, -⟩ | ⟨second, hsecond, -⟩
  · have hanswers : ∀ bound, 0 ≤ bound → p.AnswersWithin bound c.final.rowValue := by
      intro bound hbound
      exact hcourses.answersWithin_of_none hp htol hcl hnone hm hbound
    refine ⟨fun _ => hanswers _ hftol, ?_, fun _ => hanswers 0 le_rfl⟩
    intro _ second hsec
    rw [hnone] at hsec
    cases hsec
  · rw [Course.final_of_mem hsecond]
    refine ⟨?_, ?_, ?_⟩
    · intro hgood
      obtain ⟨hn, hw⟩ := hgood second hsecond
      exact hcourses.answersWithin hp htol hcl hsecond hftol hn hw
    · intro hswaps second' hsec
      obtain ⟨hn, hw, -⟩ := hcourses.second_residues hp htol hcl hsec hswaps
      exact ⟨hn, hw⟩
    · intro hend
      obtain ⟨hn2, hw2⟩ := hcourses.second_at_zero hp htol hcl hsecond hend
      exact hcourses.answersWithin hp htol hcl hsecond le_rfl hn2 hw2

theorem solve_two_phase_diet :
    ∃ c, diet.course .twoPhase {} = .ok c ∧ diet.AnswersWithin 0 c.final.rowValue := by
  have hclean : diet.CleanSolve .twoPhase {} :=
    diet_valid.cleanSolve (by decide +kernel) (by decide +kernel :
      (diet.course .twoPhase {}).toOption.all (Course.endsClean {} 5) = true)
  obtain ⟨c, hc, -, -, -, -, hzero⟩ := solve_two_phase (o := {}) diet_valid
    (SolveOptions.valid_default (by decide)) hclean (by decide +kernel)
  have hend : (diet.course .twoPhase {}).toOption.all
      (fun c => rhsOf c.first.final.objective = 0) = true := by decide +kernel
  rw [hc] at hend
  exact ⟨c, hc, hzero (of_decide_eq_true hend)⟩

/-- An equation that no point satisfies. The first phase leaves a residue within the feasibility
tolerance. -/
def residue : Problem ℚ where
  direction := .min
  objective := [1]
  constraints := [⟨"c1", [-1 / 10000], .eq, 1 / 200000⟩]

/-- Exchanging an artificial variable with a residue makes a decision value negative. -/
theorem two_phase_residue :
    ¬ ∀ (p : Problem ℚ) (o : SolveOptions ℚ), p.Valid → o.Valid → p.CleanSolve .twoPhase o →
      (p.solve .twoPhase o).status = .optimal → ∀ c, p.course .twoPhase o = .ok c →
        p.SatisfiedWithin o.feasibilityTol c.final.rowValue := by
  intro hall
  have hvalid : residue.Valid := ⟨Or.inr rfl, by simp [residue], by decide +kernel⟩
  have hclean : residue.CleanSolve .twoPhase {} :=
    hvalid.cleanSolve (by decide +kernel) (by decide +kernel :
      (residue.course .twoPhase {}).toOption.all (Course.endsClean {} 5) = true)
  have hvalue : (residue.course .twoPhase {}).toOption.any
      (fun c => decisions 1 c.final.rowValue = [-1 / 20]) = true := by decide +kernel
  obtain ⟨c, hc, -⟩ := solve_optimal (by decide +kernel :
    (residue.solve .twoPhase {}).status = .optimal)
  rw [hc] at hvalue
  have hlower := (hall residue {} hvalid (SolveOptions.valid_default (by decide)) hclean
    (by decide +kernel) c hc).lower (-1 / 20)
  have hmem : (-1 / 20 : ℚ) ∈ decisions residue.numVars c.final.rowValue := by
    have he : decisions 1 c.final.rowValue = [-1 / 20] := of_decide_eq_true hvalue
    exact he ▸ List.mem_singleton_self _
  have hle := hlower hmem
  norm_num at hle

end Answer

end Problem

end SimplexTableau
