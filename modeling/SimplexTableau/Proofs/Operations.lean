import Mathlib.Algebra.BigOperators.Intervals
import SimplexTableau.Proofs.Common
import SimplexTableau.Proofs.Points
import SimplexTableau.Tableau.Workbench

/-!
# Sequences of operations

A tableau can be changed by single pivots on any column, by runs, by driving artificial variables
out and by restoration, in any order. Whatever the order, the constraint rows keep their
solutions, and the objective row differs from the one in force by a combination of them. The
tolerances may be zero or large: an elimination that is skipped only leaves a row as it is.
-/

namespace SimplexTableau

lemma sum_update_ends {n : ℕ} (hn : 1 < n) (f x : ℕ → ℚ) (z : ℚ) :
    ∑ j ∈ Finset.range n, f j * Function.update (Function.update x 0 z) (n - 1) (-1) j =
      f 0 * z + ∑ j ∈ Finset.Ico 1 (n - 1), f j * x j - f (n - 1) := by
  obtain ⟨k, rfl⟩ : ∃ k, n = k + 2 := ⟨n - 2, by omega⟩
  have hinner : ∑ j ∈ Finset.Ico 1 (k + 1), f j *
      Function.update (Function.update x 0 z) (k + 1) (-1) j =
        ∑ j ∈ Finset.Ico 1 (k + 1), f j * x j := by
    apply Finset.sum_congr rfl
    intro j hj
    obtain ⟨h1, h2⟩ := Finset.mem_Ico.mp hj
    rw [Function.update_of_ne h2.ne, Function.update_of_ne (Nat.one_le_iff_ne_zero.mp h1)]
  rw [Nat.add_sub_cancel (k + 1) 1, Finset.sum_range_succ, Function.update_self,
    Finset.range_eq_Ico, Finset.sum_eq_sum_Ico_succ_bot (Nat.succ_pos k), hinner,
    Function.update_of_ne (Nat.succ_ne_zero k).symm, Function.update_self]
  ring

namespace Tableau

/-- A value for each variable solves every constraint row. -/
def IsSolution (t : Tableau ℚ) (x : ℕ → ℚ) : Prop :=
  ∀ i < t.rows.length, ∑ j ∈ Finset.Ico 1 t.rhsCol, t.entry (i + 1) j * x j =
    t.entry (i + 1) t.rhsCol

/-- Solutions are the weights that leave the objective column out and weigh right-hand sides
`-1`. -/
lemma isSolution_iff_solves {t : Tableau ℚ} (hw : 1 < t.columns.length) (x : ℕ → ℚ) :
    t.IsSolution x ↔
      t.Solves (Function.update (Function.update x 0 0) (t.columns.length - 1) (-1)) := by
  have hsum : ∀ i, ∑ j ∈ Finset.range t.columns.length, t.entry (i + 1) j *
      Function.update (Function.update x 0 0) (t.columns.length - 1) (-1) j =
        ∑ j ∈ Finset.Ico 1 t.rhsCol, t.entry (i + 1) j * x j - t.entry (i + 1) t.rhsCol := by
    intro i
    rw [sum_update_ends hw, mul_zero, zero_add, rhsCol]
  constructor
  · intro h i
    rw [hsum]
    by_cases hi : i < t.rows.length
    · rw [h i hi, sub_self]
    · have hout : t.rows.length < i + 1 := Nat.lt_succ_of_le (not_lt.mp hi)
      simp only [entry_of_lt hout, zero_mul, Finset.sum_const_zero, sub_zero]
  · intro h i _
    exact sub_eq_zero.mp ((hsum i).symm.trans (h i))

end Tableau

namespace Workbench

/-- The workbenches that successful operations lead to from a tableau, with the objective row in
force. -/
inductive Reached (t : Tableau ℚ) : List ℚ → Workbench ℚ → Prop
  | start : Reached t t.objective (ofTableau t)
  | pivot {force : List ℚ} {w w' : Workbench ℚ} (h : Reached t force w) {row col : Int} {tol : ℚ}
      (hrow : 1 ≤ row) (htol : 0 ≤ tol) (hp : w.pivot row col tol = (w', none)) :
      Reached t force w'
  | run {force : List ℚ} {w w' : Workbench ℚ} (h : Reached t force w) {s : RunSetting ℚ}
      {cap : ℕ} {r : PivotRun ℚ} (htol : 0 ≤ s.tol) (hr : w.run s cap = .ok (r, w')) :
      Reached t force w'
  | driveOut {force : List ℚ} {w w' : Workbench ℚ} (h : Reached t force w) {tol : ℚ}
      (htol : 0 ≤ tol) (hd : w.driveOut tol = .ok w') : Reached t force w'
  | restore {force saved : List ℚ} {w w' : Workbench ℚ} (h : Reached t force w) {tol : ℚ}
      (hs : w.tableau.savedObjective = some saved) (hr : w.restore tol = .ok w') :
      Reached t saved w'

section Steps

variable {w w' : Workbench ℚ} {tol : ℚ}

lemma position?_of_nonneg {length : ℕ} {index : Int} {place : ℕ} (hi : 0 ≤ index)
    (h : position? length index = some place) : (place : Int) = index := by
  unfold position? at h
  rw [if_pos hi] at h
  split_ifs at h
  rw [← Option.some.inj h, Int.toNat_of_nonneg hi]

lemma rowEquivalent_reduce {row col : Int} {t : Tableau ℚ} (h : w.tableau.Rectangular)
    (hrow : 1 ≤ row) (htol : 0 ≤ tol) (hr : w.reduce row col tol = .ok t) :
    w.tableau.RowEquivalent t ∧ t.Rectangular := by
  unfold reduce at hr
  split at hr
  · rename_i r c hrow' hcol'
    have hpos : 0 < r := by
      have heq := position?_of_nonneg (by omega) hrow'
      omega
    rw [if_pos (by omega)] at hr
    obtain ⟨hle, -, hsize, rfl⟩ := h.reduce_eq_ok_iff.mp hr
    rw [size_eq_abs, not_le] at hsize
    have hv : w.tableau.entry r c ≠ 0 := abs_pos.mp (htol.trans_lt hsize)
    exact ⟨(h.rowEquivalent_pivoted hpos hle hv tol).withBasis w.tableau.basis,
      ⟨(h.pivoted hpos hle c tol).objective, (h.pivoted hpos hle c tol).rows⟩⟩
  · cases hr

theorem rowEquivalent_pivot {row col : Int} (h : w.tableau.Rectangular) (hrow : 1 ≤ row)
    (htol : 0 ≤ tol) (hp : w.pivot row col tol = (w', none)) :
    w.tableau.RowEquivalent w'.tableau ∧ w'.tableau.Rectangular := by
  unfold pivot at hp
  split at hp
  · cases hp
  · rename_i t hred
    obtain ⟨he, ht⟩ := rowEquivalent_reduce h hrow htol hred
    split at hp
    · cases hp
      exact ⟨he.withBasis _, ⟨ht.objective, ht.rows⟩⟩
    · cases hp

theorem rowEquivalent_run {s : RunSetting ℚ} {cap : ℕ} {r : PivotRun ℚ}
    (h : w.tableau.Rectangular) (htol : 0 ≤ s.tol) (hr : w.run s cap = .ok (r, w')) :
    w.tableau.RowEquivalent w'.tableau ∧ w'.tableau.Rectangular := by
  obtain ⟨result, hrun, hr⟩ := bind_eq_ok.mp hr
  cases hr
  obtain ⟨k, hk⟩ := Tableau.run_outcome hrun
  exact ⟨h.rowEquivalent_pivots htol hk.pivots, h.pivots hk.pivots⟩

theorem rowEquivalent_driveOut (h : w.tableau.Rectangular) (htol : 0 ≤ tol)
    (hd : w.driveOut tol = .ok w') :
    w.tableau.RowEquivalent w'.tableau ∧ w'.tableau.Rectangular := by
  obtain ⟨driven, hrun, hd⟩ := bind_eq_ok.mp hd
  cases hd
  have hcounted : ({ w.tableau with basis := w.written.map Int.toNat }).Rectangular :=
    ⟨h.objective, h.rows⟩
  have hrel := Tableau.driveOutOf_drivesOut hrun
  have he := hcounted.rowEquivalent_drivesOut htol Tableau.rowsInside_all hrel
  have hrect := hcounted.drivesOut Tableau.rowsInside_all hrel
  refine ⟨?_, ⟨hrect.objective, hrect.rows⟩⟩
  exact ⟨he.columns, he.artificial, he.savedObjective, he.rowCount, he.rowSpace, he.objective⟩

end Steps

section Runs

variable {t : Tableau ℚ} {force : List ℚ} {w w' : Workbench ℚ}

/-- What all operations keep of a tableau: the shape and the row space, the objective row up to a
combination of the constraint rows, and the saved objective row until it is in force. -/
structure Keeps (t : Tableau ℚ) (force : List ℚ) (w : Workbench ℚ) : Prop where
  rectangular : w.tableau.Rectangular
  columns : w.tableau.columns = t.columns
  rowCount : w.tableau.rows.length = t.rows.length
  rowSpace : w.tableau.rowSpace = t.rowSpace
  objective : (fun j => w.tableau.entry 0 j - force.getD j 0) ∈ t.rowSpace
  force : (w.tableau.savedObjective = t.savedObjective ∧ force = t.objective) ∨
    (w.tableau.savedObjective = none ∧ t.savedObjective = some force)

lemma Keeps.of_rowEquivalent (h : Keeps t force w)
    (he : w.tableau.RowEquivalent w'.tableau ∧ w'.tableau.Rectangular) : Keeps t force w' := by
  obtain ⟨he, hrect⟩ := he
  refine ⟨hrect, he.columns.trans h.columns, he.rowCount.trans h.rowCount,
    he.rowSpace.trans h.rowSpace, ?_, ?_⟩
  · have hsum := Submodule.add_mem _ (h.rowSpace ▸ he.objective) h.objective
    convert hsum using 1
    funext j
    rw [Pi.add_apply, Pi.sub_apply]
    ring
  · rw [he.savedObjective]
    exact h.force

lemma Keeps.restore {saved : List ℚ} {tol : ℚ} (ht : t.Shaped) (h : Keeps t force w)
    (hs : w.tableau.savedObjective = some saved) (hr : w.restore tol = .ok w') :
    Keeps t saved w' := by
  have hsaved : w.tableau.savedObjective = t.savedObjective := by
    rcases h.force with ⟨hsame, -⟩ | ⟨hnone, -⟩
    · exact hsame
    · rw [hs] at hnone
      cases hnone
  have hlength : ∀ o ∈ w.tableau.savedObjective, o.length = w.tableau.columns.length := by
    rw [hsaved, h.columns]
    exact ht.saved
  obtain ⟨u, hres, hr⟩ := bind_eq_ok.mp hr
  cases hr
  obtain ⟨saved', o, hs', -, rfl, hrect, hmem⟩ := h.rectangular.restore_spec hlength hres
  rw [hs] at hs'
  cases hs'
  exact ⟨hrect, h.columns, h.rowCount, h.rowSpace, h.rowSpace ▸ hmem,
    Or.inr ⟨rfl, hsaved.symm.trans hs⟩⟩

/-- What every operation keeps, a sequence of operations keeps. -/
theorem Reached.keeps (ht : t.Shaped) (h : Reached t force w) : Keeps t force w := by
  induction h with
  | start =>
    refine ⟨ht.toRectangular, rfl, rfl, rfl, ?_, Or.inl ⟨rfl, rfl⟩⟩
    have hzero : (fun j => (ofTableau t).tableau.entry 0 j - t.objective.getD j 0) = 0 := by
      funext j
      exact sub_self _
    rw [hzero]
    exact Submodule.zero_mem _
  | pivot _ hrow htol hp ih =>
    exact ih.of_rowEquivalent (rowEquivalent_pivot ih.rectangular hrow htol hp)
  | run _ htol hr ih => exact ih.of_rowEquivalent (rowEquivalent_run ih.rectangular htol hr)
  | driveOut _ htol hd ih =>
    exact ih.of_rowEquivalent (rowEquivalent_driveOut ih.rectangular htol hd)
  | restore _ hs hr ih => exact ih.restore ht hs hr

end Runs

end Workbench

namespace Problem

variable {p : Problem ℚ} {m : Method} {o : SolveOptions ℚ} {t : Tableau ℚ} {force : List ℚ}
  {w : Workbench ℚ}

lemma StartsOn.entry_zero (hp : p.Valid) (h : p.StartsOn m o t) : t.entry 0 0 = 1 := by
  cases hm : t.hasFirstPhase m with
  | false => rw [(h.objectiveIs_penalised hp hm).entry_zero, penalised_zero]
  | true => rw [(h.objectiveIs_firstRow hp hm).entry_zero, firstRow, if_pos (Or.inl rfl)]

lemma StartsOn.saved_eq (h : p.StartsOn m o t) {saved : List ℚ}
    (hs : t.savedObjective = some saved) : saved = p.plain.objective := by
  cases h with
  | plain | charged => cases hs
  | phaseOne =>
    cases hs
    rfl

lemma StartsOn.force_zero (hp : p.Valid) (h : p.StartsOn m o t)
    (hforce : force = t.objective ∨ t.savedObjective = some force) : force.getD 0 0 = 1 := by
  rcases hforce with rfl | hs
  · rw [← Tableau.entry_zero, h.entry_zero hp]
  · have hplain := p.penalised_zero 0
    rwa [penalised, ite_self, add_zero, Tableau.entry_zero, ← h.saved_eq hs] at hplain

/-- Whatever sequence of operations is carried out on the tableau of a problem, its constraint rows
keep their solutions, its objective row is the one in force plus a combination of the constraint
rows, and its first column stays a unit column. -/
theorem operations_keep_rows (hp : p.Valid) (ht : p.tableau m o = .ok t)
    (h : Workbench.Reached t force w) :
    w.tableau.columns = t.columns ∧ w.tableau.rows.length = t.rows.length ∧
      (∀ x, w.tableau.IsSolution x ↔ t.IsSolution x) ∧
      (force = t.objective ∨ t.savedObjective = some force) ∧
      (∃ a : ℕ → ℚ, ∀ j, w.tableau.entry 0 j = force.getD j 0 +
        ∑ i ∈ Finset.range w.tableau.rows.length, a i * w.tableau.entry (i + 1) j) ∧
      ∀ i, w.tableau.entry i 0 = if i = 0 then 1 else 0 := by
  have hstart := hp.tableau_startsOn ht
  have hshape := hstart.shaped hp
  have hkeeps := h.keeps hshape
  have hforce : force = t.objective ∨ t.savedObjective = some force :=
    hkeeps.force.imp And.right And.right
  refine ⟨hkeeps.columns, hkeeps.rowCount, fun x => ?_, hforce, ?_, fun i => ?_⟩
  · have hwidth : 1 < w.tableau.columns.length := hkeeps.columns ▸ hshape.width
    rw [Tableau.isSolution_iff_solves hwidth, Tableau.isSolution_iff_solves hshape.width,
      hkeeps.columns, Tableau.solves_iff_of_rowSpace hkeeps.columns hkeeps.rowSpace]
  · obtain ⟨a, ha⟩ := Tableau.mem_rowSpace_iff.mp (hkeeps.rowSpace ▸ hkeeps.objective)
    refine ⟨a, fun j => ?_⟩
    rw [← ha j]
    ring
  · have hzero : ∀ f ∈ t.rowSpace, f 0 = 0 := fun f hf => rowSpace_zero (hstart.rowSpace_eq ▸ hf)
    cases i with
    | zero =>
      have hdiff := hzero _ hkeeps.objective
      rw [if_pos rfl, ← hstart.force_zero hp hforce]
      exact sub_eq_zero.mp hdiff
    | succ i =>
      rw [if_neg (Nat.succ_ne_zero i)]
      exact hzero _ (hkeeps.rowSpace ▸ w.tableau.entry_mem_rowSpace i)

theorem operations_keep_rows_diet :
    ∃ (t : Tableau ℚ) (w : Workbench ℚ), diet.tableau .twoPhase {} = .ok t ∧
      w.tableau.objective = [1, 0, 8 / 3, -1, 4 / 3, 1, -4 / 3, 0] ∧
      (∀ x, w.tableau.IsSolution x ↔ t.IsSolution x) ∧
      (∃ a : ℕ → ℚ, ∀ j, w.tableau.entry 0 j = [1, 3, 2, 0, 0, 0, 0, 0].getD j 0 +
        ∑ i ∈ Finset.range w.tableau.rows.length, a i * w.tableau.entry (i + 1) j) ∧
      ∀ i, w.tableau.entry i 0 = if i = 0 then 1 else 0 := by
  obtain ⟨t, ht, h⟩ := exists_ok_of_any (by decide +kernel :
    (diet.tableau .twoPhase {}).toOption.any (fun t =>
      decide (((Workbench.ofTableau t).pivot 1 (-1) 0).2 = none) &&
        (((Workbench.ofTableau t).pivot 1 (-1) 0).1.run
            { phase := 1, tol := (1e-9 : ℚ) } 5).toOption.any fun q =>
          (q.2.driveOut 1e-9).toOption.any fun w =>
            decide (w.tableau.savedObjective = some [1, 3, 2, 0, 0, 0, 0, 0]) &&
              (w.restore 1e-9).toOption.any fun w' =>
                decide (w'.tableau.objective = [1, 0, 8 / 3, -1, 4 / 3, 1, -4 / 3, 0])) = true)
  rw [Bool.and_eq_true] at h
  obtain ⟨hpivot, h⟩ := h
  obtain ⟨⟨r, w₂⟩, hrun, h⟩ := exists_ok_of_any h
  obtain ⟨w₃, hdrive, h⟩ := exists_ok_of_any h
  rw [Bool.and_eq_true] at h
  obtain ⟨hsaved, h⟩ := h
  obtain ⟨w₄, hrestore, hobjective⟩ := exists_ok_of_any h
  have hpivot' : (Workbench.ofTableau t).pivot 1 (-1) 0 =
      (((Workbench.ofTableau t).pivot 1 (-1) 0).1, none) :=
    Prod.ext rfl (of_decide_eq_true hpivot)
  have hreached := Workbench.Reached.start.pivot (t := t) (by decide) le_rfl hpivot'
    |>.run (by decide +kernel) hrun |>.driveOut (by decide +kernel) hdrive
    |>.restore (of_decide_eq_true hsaved) hrestore
  obtain ⟨-, -, hsolutions, -, hrow, hcolumn⟩ := operations_keep_rows diet_valid ht hreached
  exact ⟨t, w₄, ht, of_decide_eq_true hobjective, hsolutions, hrow, hcolumn⟩

end Problem

end SimplexTableau
