import SimplexTableau.Proofs.Frames

/-!
# What all tableaux of a solution have in common

From the start to the end of a solution the columns and the row space stay those of the problem.
Up to a combination of the constraint rows, the objective row of a first phase is the sum of the
artificial columns, and outside a first phase it is the plain one with a multiple of them.
-/

namespace SimplexTableau

namespace Problem

/-- A tableau with the columns and the row space of a problem. -/
structure SameRows (p : Problem ℚ) (t : Tableau ℚ) : Prop where
  shaped : t.Shaped
  columns : t.columns = p.columns
  artificial : t.artificial = p.plain.artificial
  rowCount : t.rows.length = p.standard.length
  rowSpace : t.rowSpace = p.plain.rowSpace

/-- The objective row is a row of numbers plus a combination of the constraint rows. -/
def ObjectiveIs (p : Problem ℚ) (f : ℕ → ℚ) (t : Tableau ℚ) : Prop :=
  ∃ r ∈ p.plain.rowSpace, ∀ j, j < p.columns.length → t.entry 0 j = f j + r j

/-- The plain objective row with a penalty on the artificial columns. -/
def penalised (p : Problem ℚ) (penalty : ℚ) (j : ℕ) : ℚ :=
  p.plain.entry 0 j + if j ∈ p.plain.artificial then penalty else 0

/-- The objective row is the plain one, with a penalty on the artificial columns, plus a
combination of the constraint rows. -/
def TrueObjective (p : Problem ℚ) (t : Tableau ℚ) : Prop :=
  ∃ penalty, p.ObjectiveIs (p.penalised penalty) t

/-- The objective row of a first phase: the sum of the artificial columns. -/
def firstRow (p : Problem ℚ) (j : ℕ) : ℚ :=
  if j = 0 ∨ j ∈ p.plain.artificial then 1 else 0

/-- What a method charges for each artificial variable outside a first phase. -/
def charge (p : Problem ℚ) (m : Method) (o : SolveOptions ℚ) : ℚ :=
  if m = .bigM then (o.penalty p).toOption.getD 0 else 0

variable {p : Problem ℚ} {m : Method} {o : SolveOptions ℚ} {t t' : Tableau ℚ} {f : ℕ → ℚ}

lemma SameRows.of_rowEquivalent (h : p.SameRows t) (he : t.RowEquivalent t') (hs : t'.Shaped) :
    p.SameRows t' where
  shaped := hs
  columns := he.columns.trans h.columns
  artificial := he.artificial.trans h.artificial
  rowCount := he.rowCount.trans h.rowCount
  rowSpace := he.rowSpace.trans h.rowSpace

lemma ObjectiveIs.of_rowEquivalent (h : p.ObjectiveIs f t) (hr : p.SameRows t)
    (he : t.RowEquivalent t') : p.ObjectiveIs f t' := by
  obtain ⟨r, hmem, hj⟩ := h
  have hdiff : t'.entry 0 - t.entry 0 ∈ p.plain.rowSpace := hr.rowSpace ▸ he.objective
  refine ⟨r + (t'.entry 0 - t.entry 0), Submodule.add_mem _ hmem hdiff, fun j hlt => ?_⟩
  rw [Pi.add_apply, Pi.sub_apply, hj j hlt]
  ring

lemma SameRows.sameFrame (h : p.SameRows t) : p.SameFrame t :=
  ⟨h.shaped, h.columns, h.artificial, h.rowCount⟩

lemma SameRows.rhsCol_eq (h : p.SameRows t) : t.rhsCol = p.columns.length - 1 :=
  h.sameFrame.rhsCol_eq

lemma SameRows.solves_iff (h : p.SameRows t) (w : ℕ → ℚ) : t.Solves w ↔ p.plain.Solves w :=
  Tableau.solves_iff_of_rowSpace h.columns h.rowSpace w

lemma rowSpace_zero (hf : f ∈ p.plain.rowSpace) : f 0 = 0 := by
  induction hf using Submodule.span_induction with
  | mem f hf =>
    obtain ⟨i, rfl⟩ := hf
    cases hi : p.standard[i]? with
    | none => exact plain_entry_of_none hi 0
    | some c => exact plain_entry_succ hi p.columns_get_zero
  | zero => rfl
  | add f g _ _ hf hg => rw [Pi.add_apply, hf, hg, add_zero]
  | smul a f _ hf => rw [Pi.smul_apply, hf, smul_zero]

lemma not_mem_artificial_zero : 0 ∉ p.plain.artificial := by
  intro h
  obtain ⟨i, hi⟩ := mem_artificial_iff.mp h
  rw [p.columns_get_zero] at hi
  cases hi

lemma ObjectiveIs.sum_eq (h : p.ObjectiveIs f t) {w : ℕ → ℚ} (hw : p.plain.Solves w) :
    ∑ j ∈ Finset.range p.columns.length, t.entry 0 j * w j =
      ∑ j ∈ Finset.range p.columns.length, f j * w j := by
  obtain ⟨r, hmem, hj⟩ := h
  have hr : ∑ j ∈ Finset.range p.columns.length, r j * w j = 0 := hw.sum_eq_zero hmem
  rw [← add_zero (∑ j ∈ Finset.range p.columns.length, f j * w j), ← hr,
    ← Finset.sum_add_distrib]
  apply Finset.sum_congr rfl
  intro j hlt
  rw [hj j (Finset.mem_range.mp hlt), add_mul]

lemma ObjectiveIs.entry_zero (h : p.ObjectiveIs f t) : t.entry 0 0 = f 0 := by
  obtain ⟨r, hmem, hj⟩ := h
  have hlt : 0 < p.columns.length := (List.getElem?_eq_some_iff.mp p.columns_get_zero).1
  rw [hj 0 hlt, rowSpace_zero hmem, add_zero]

lemma penalised_zero (p : Problem ℚ) (penalty : ℚ) : p.penalised penalty 0 = 1 := by
  rw [penalised, if_neg not_mem_artificial_zero, plain_entry_zero p.columns_get_zero]
  simp [objectiveEntry]

lemma StartsOn.sameRows (hp : p.Valid) (h : p.StartsOn m o t) : p.SameRows t where
  shaped := h.shaped hp
  columns := h.same.1
  artificial := h.same.2.2.2
  rowCount := by rw [h.same.2.1, plain_rows_length]
  rowSpace := h.rowSpace_eq

lemma Valid.objectiveIs_charged (hp : p.Valid) (penalty : ℚ) :
    p.ObjectiveIs (p.penalised penalty) (p.plain.charged penalty) := by
  refine ⟨-(penalty • p.plain.artificialSum),
    Submodule.neg_mem _ (Submodule.smul_mem _ _ p.plain.artificialSum_mem), fun j hj => ?_⟩
  rw [(hp.shaped_plain.charged_spec penalty).2 j hj, Pi.neg_apply, Pi.smul_apply, smul_eq_mul,
    penalised]
  split_ifs with ha
  · obtain ⟨i, hi⟩ := mem_artificial_iff.mp ha
    have hz : p.plain.entry 0 j = 0 := plain_entry_zero hi
    rw [hz]
    ring
  · ring

/-- Without a first phase a solution starts on the plain objective row, with a penalty on the
artificial columns if its method charges one. -/
lemma StartsOn.objectiveIs_penalised (hp : p.Valid) (h : p.StartsOn m o t)
    (hm : t.hasFirstPhase m = false) : p.ObjectiveIs (p.penalised (p.charge m o)) t := by
  cases h with
  | plain hplain =>
    refine ⟨0, Submodule.zero_mem _, fun j _ => ?_⟩
    rcases hplain with ha | ⟨hne, -⟩
    · simp [penalised, ha]
    · simp [penalised, charge, hne]
  | @charged penalty _ hm' hpen =>
    have hcharge : p.charge m o = penalty := by
      rw [charge, if_pos hm', hpen]
      rfl
    rw [hcharge]
    exact hp.objectiveIs_charged penalty
  | phaseOne ha hm' =>
    have hne : p.plain.phaseOne.artificial ≠ [] := ha
    simp [Tableau.hasFirstPhase, hm', hne] at hm

lemma StartsOn.eq_phaseOne (h : p.StartsOn m o t) (hm : t.hasFirstPhase m = true) :
    t = p.plain.phaseOne := by
  cases h with
  | plain hplain =>
    rcases hplain with ha | ⟨-, hne⟩
    · simp [Tableau.hasFirstPhase, ha] at hm
    · simp [Tableau.hasFirstPhase, hne] at hm
  | charged _ hm' => simp [Tableau.hasFirstPhase, hm'] at hm
  | phaseOne => rfl

lemma StartsOn.objectiveIs_firstRow (hp : p.Valid) (h : p.StartsOn m o t)
    (hm : t.hasFirstPhase m = true) : p.ObjectiveIs p.firstRow t := by
  rw [h.eq_phaseOne hm]
  refine ⟨-p.plain.artificialSum, Submodule.neg_mem _ p.plain.artificialSum_mem, fun j hj => ?_⟩
  rw [hp.shaped_plain.phaseOne_spec.2 j hj, Pi.neg_apply, firstRow]
  ring

lemma StartsOn.savedObjective (h : p.StartsOn m o t) (hm : t.hasFirstPhase m = true) :
    t.savedObjective = some p.plain.objective := by
  rw [h.eq_phaseOne hm]
  rfl

lemma SameRows.restore {tol : ℚ} (h : p.SameRows t)
    (hsaved : t.savedObjective = some p.plain.objective) (hr : t.restore tol = .ok t') :
    p.SameRows t' ∧ p.ObjectiveIs (p.penalised 0) t' := by
  obtain ⟨saved, o, hs, -, rfl, hshape, hmem⟩ := h.shaped.restore_spec hr
  rw [hsaved] at hs
  cases hs
  constructor
  · exact ⟨hshape, h.columns, h.artificial, h.rowCount, h.rowSpace⟩
  · refine ⟨_, h.rowSpace ▸ hmem, fun j _ => ?_⟩
    rw [← Tableau.entry_zero p.plain, penalised, ite_self, add_zero, add_sub_cancel]

lemma SameRows.pivots {tol : ℚ} {blocked : List ℕ} {n : ℕ} (h : p.SameRows t) (htol : 0 ≤ tol)
    (hp : Tableau.Pivots tol blocked n t t') : p.SameRows t' :=
  h.of_rowEquivalent (h.shaped.rowEquivalent_pivots htol hp) (h.shaped.pivots hp)

lemma ObjectiveIs.pivots {tol : ℚ} {blocked : List ℕ} {n : ℕ} (h : p.ObjectiveIs f t)
    (hr : p.SameRows t) (htol : 0 ≤ tol) (hp : Tableau.Pivots tol blocked n t t') :
    p.ObjectiveIs f t' :=
  h.of_rowEquivalent hr (hr.shaped.rowEquivalent_pivots htol hp)

lemma SameRows.driveOut {tol : ℚ} {d : DrivenOut ℚ} (h : p.SameRows t) (htol : 0 ≤ tol)
    (hd : t.driveOut tol = .ok d) :
    p.SameRows d.tableau ∧ d.tableau.savedObjective = t.savedObjective := by
  have hrel := Tableau.driveOutOf_drivesOut hd
  have heq := h.shaped.rowEquivalent_drivesOut htol Tableau.rowsInside_all hrel
  exact ⟨h.of_rowEquivalent heq (h.shaped.drivesOut Tableau.rowsInside_all hrel),
    heq.savedObjective⟩

lemma Courses.first_sameRows (hp : p.Valid) (htol : 0 ≤ o.tol) {c : Course ℚ}
    (h : p.Courses m o c) : p.SameRows c.first.final := by
  obtain ⟨k, -, hk⟩ := h.first_pivots
  exact ((hp.tableau_startsOn h.first_run.1).sameRows hp).pivots htol hk

lemma Courses.first_objectiveIs (hp : p.Valid) (htol : 0 ≤ o.tol) {c : Course ℚ}
    (h : p.Courses m o c) (hm : c.start.hasFirstPhase m = true) :
    p.ObjectiveIs p.firstRow c.first.final := by
  obtain ⟨k, -, hk⟩ := h.first_pivots
  have hstart := hp.tableau_startsOn h.first_run.1
  exact (hstart.objectiveIs_firstRow hp hm).pivots (hstart.sameRows hp) htol hk

/-- The handover keeps the rows of the problem and brings the true objective back. -/
theorem Courses.handover (hp : p.Valid) (htol : 0 ≤ o.tol) {c : Course ℚ} (h : p.Courses m o c)
    {second : SecondPhase ℚ} (hs : second ∈ c.second) :
    ∃ driven, c.first.final.driveOut o.tol = .ok driven ∧
      driven.tableau.restore o.tol = .ok second.start ∧ p.SameRows driven.tableau ∧
      p.SameRows second.start ∧ p.ObjectiveIs (p.penalised 0) second.start := by
  have hrows := h.first_sameRows hp htol
  obtain ⟨k, -, hk⟩ := h.first_pivots
  cases h with
  | single | halted => cases hs
  | @handedOver start first driven _ ht hm _ _ _ hd hres _ =>
    cases hs
    have hstart := hp.tableau_startsOn ht
    have hsaved : first.final.savedObjective = some p.plain.objective := by
      rw [((hstart.sameRows hp).shaped.rowEquivalent_pivots htol hk).savedObjective]
      exact hstart.savedObjective hm
    obtain ⟨hdriven, hkeep⟩ := hrows.driveOut htol hd
    exact ⟨driven, hd, hres, hdriven, hdriven.restore (hkeep.trans hsaved) hres⟩

lemma Courses.second_outcome {c : Course ℚ} (h : p.Courses m o c) {second : SecondPhase ℚ}
    (hs : second ∈ c.second) : ∃ k, Tableau.Outcome (secondSetting o second.start c.first.steps)
      o.maxIters 0 second.start k second.run := by
  cases h with
  | single | halted => cases hs
  | handedOver _ _ _ _ _ _ _ hr2 =>
    cases hs
    exact Tableau.run_outcome hr2

/-- The tableau from which an optimal answer is read. -/
theorem Courses.final_spec (hp : p.Valid) (htol : 0 ≤ o.tol) {c : Course ℚ}
    (h : p.Courses m o c) (hv : c.verdict m o = .optimal) :
    p.SameRows c.final ∧ p.TrueObjective c.final ∧
      ∃ blocked, (∀ j ∈ blocked, j ∈ p.plain.artificial) ∧
        c.final.entering o.tol blocked = none := by
  rcases h.optimal hv with ⟨hnone, hm, hend, -⟩ | ⟨second, hs, hend⟩
  · cases h with
    | @single start first ht _ hr =>
      have hstart := hp.tableau_startsOn ht
      obtain ⟨k, hk⟩ := Tableau.run_outcome hr
      have hrows := hstart.sameRows hp
      exact ⟨hrows.pivots htol hk.pivots,
        ⟨_, (hstart.objectiveIs_penalised hp hm).pivots hrows htol hk.pivots⟩,
        [], by simp, hk.entering_none hend⟩
    | halted _ hm' =>
      rw [hm] at hm'
      cases hm'
    | handedOver => cases hnone
  · obtain ⟨driven, -, -, -, hrows, hobj⟩ := h.handover hp htol hs
    obtain ⟨k, hk⟩ := h.second_outcome hs
    rw [Course.final_of_mem hs]
    exact ⟨hrows.pivots htol hk.pivots, ⟨0, hobj.pivots hrows htol hk.pivots⟩,
      second.start.artificial, fun j hj => hrows.artificial ▸ hj, hk.entering_none hend⟩

end Problem

end SimplexTableau
