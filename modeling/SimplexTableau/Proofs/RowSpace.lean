import Mathlib.Algebra.BigOperators.Pi
import SimplexTableau.Proofs.Pivots

/-!
# Row spaces

The row space of a tableau is spanned by its constraint rows. Pivots keep it, also when they
leave entries within the tolerance alone, and they change the objective row by an element of it.
So the constraint rows always have the same solutions, and on these the objective rows agree.
-/

namespace SimplexTableau

namespace Tableau

/-- The linear combinations of the constraint rows. -/
def rowSpace (t : Tableau ℚ) : Submodule ℚ (ℕ → ℚ) :=
  Submodule.span ℚ (Set.range fun i => t.entry (i + 1))

/-- The linear combinations of some rows, the objective row being row 0. -/
def rowSpan (t : Tableau ℚ) (rows : Set ℕ) : Submodule ℚ (ℕ → ℚ) :=
  Submodule.span ℚ (t.entry '' rows)

/-- A weight for each column solves the constraint rows if all their weighted sums vanish. The
column of right-hand sides weighs `-1` in a solution proper. -/
def Solves (t : Tableau ℚ) (w : ℕ → ℚ) : Prop :=
  ∀ i, ∑ j ∈ Finset.range t.columns.length, t.entry (i + 1) j * w j = 0

lemma entry_mem_rowSpan (t : Tableau ℚ) {rows : Set ℕ} {i : ℕ} (hi : i ∈ rows) :
    t.entry i ∈ t.rowSpan rows :=
  Submodule.subset_span ⟨i, hi, rfl⟩

lemma rowSpace_eq (t : Tableau ℚ) : t.rowSpace = t.rowSpan {i | 0 < i} := by
  have hrange : Set.range (fun i => t.entry (i + 1)) = t.entry '' {i | 0 < i} := by
    rw [← Nat.range_succ, ← Set.range_comp]
    rfl
  rw [rowSpace, rowSpan, hrange]

lemma entry_mem_rowSpace (t : Tableau ℚ) (i : ℕ) : t.entry (i + 1) ∈ t.rowSpace :=
  Submodule.subset_span ⟨i, rfl⟩

lemma Solves.sum_eq_zero {t : Tableau ℚ} {w : ℕ → ℚ} (h : t.Solves w) {f : ℕ → ℚ}
    (hf : f ∈ t.rowSpace) : ∑ j ∈ Finset.range t.columns.length, f j * w j = 0 := by
  induction hf using Submodule.span_induction with
  | mem f hf =>
    obtain ⟨i, rfl⟩ := hf
    exact h i
  | zero => simp
  | add f g _ _ hf hg =>
    simp only [Pi.add_apply, add_mul, Finset.sum_add_distrib, hf, hg, add_zero]
  | smul a f _ hf =>
    simp only [Pi.smul_apply, smul_eq_mul, mul_assoc, ← Finset.mul_sum, hf, mul_zero]

lemma solves_iff_of_rowSpace {t t' : Tableau ℚ} (hc : t'.columns = t.columns)
    (hr : t'.rowSpace = t.rowSpace) (w : ℕ → ℚ) : t'.Solves w ↔ t.Solves w := by
  constructor
  · intro hw i
    have hmem : t.entry (i + 1) ∈ t'.rowSpace := hr ▸ t.entry_mem_rowSpace i
    rw [← hc]
    exact hw.sum_eq_zero hmem
  · intro hw i
    have hmem : t'.entry (i + 1) ∈ t.rowSpace := hr ▸ t'.entry_mem_rowSpace i
    rw [hc]
    exact hw.sum_eq_zero hmem

/-- The row space is all that can be combined of the constraint rows there are. -/
theorem mem_rowSpace_iff {t : Tableau ℚ} {f : ℕ → ℚ} : f ∈ t.rowSpace ↔
    ∃ a : ℕ → ℚ, ∀ j, f j = ∑ i ∈ Finset.range t.rows.length, a i * t.entry (i + 1) j := by
  constructor
  · intro hf
    induction hf using Submodule.span_induction with
    | mem f hf =>
      obtain ⟨i, rfl⟩ := hf
      refine ⟨fun k => if k = i then 1 else 0, fun j => ?_⟩
      simp only [ite_mul, one_mul, zero_mul, Finset.sum_ite_eq', Finset.mem_range]
      split_ifs with hi
      · rfl
      · exact entry_of_lt (Nat.lt_succ_of_le (not_lt.mp hi)) j
    | zero => exact ⟨0, fun j => by simp⟩
    | add f g _ _ hf hg =>
      obtain ⟨a, ha⟩ := hf
      obtain ⟨b, hb⟩ := hg
      refine ⟨a + b, fun j => ?_⟩
      simp only [Pi.add_apply, ha, hb, add_mul, Finset.sum_add_distrib]
    | smul c f _ hf =>
      obtain ⟨a, ha⟩ := hf
      refine ⟨c • a, fun j => ?_⟩
      simp only [Pi.smul_apply, smul_eq_mul, ha, Finset.mul_sum, mul_assoc]
  · rintro ⟨a, ha⟩
    have hsum : f = ∑ i ∈ Finset.range t.rows.length, a i • t.entry (i + 1) := by
      funext j
      simp only [ha, Finset.sum_apply, Pi.smul_apply, smul_eq_mul]
    rw [hsum]
    exact Submodule.sum_mem _ fun i _ => Submodule.smul_mem _ _ (t.entry_mem_rowSpace i)

/-- What row operations with constraint rows do to a tableau. -/
structure RowEquivalent (t t' : Tableau ℚ) : Prop where
  columns : t'.columns = t.columns
  artificial : t'.artificial = t.artificial
  savedObjective : t'.savedObjective = t.savedObjective
  rowCount : t'.rows.length = t.rows.length
  rowSpace : t'.rowSpace = t.rowSpace
  objective : t'.entry 0 - t.entry 0 ∈ t.rowSpace

namespace RowEquivalent

variable {t t' u : Tableau ℚ}

lemma refl (t : Tableau ℚ) : t.RowEquivalent t :=
  ⟨rfl, rfl, rfl, rfl, rfl, by rw [sub_self]; exact Submodule.zero_mem _⟩

lemma trans (h : t.RowEquivalent t') (h' : t'.RowEquivalent u) : t.RowEquivalent u where
  columns := h'.columns.trans h.columns
  artificial := h'.artificial.trans h.artificial
  savedObjective := h'.savedObjective.trans h.savedObjective
  rowCount := h'.rowCount.trans h.rowCount
  rowSpace := h'.rowSpace.trans h.rowSpace
  objective := by
    have hsum := Submodule.add_mem _ (h.rowSpace ▸ h'.objective) h.objective
    rwa [sub_add_sub_cancel] at hsum

lemma rhsCol (h : t.RowEquivalent t') : t'.rhsCol = t.rhsCol := by
  rw [Tableau.rhsCol, h.columns]
  rfl

/-- A basis plays no part in what row operations do. -/
lemma withBasis (h : t.RowEquivalent t') (basis : List ℕ) :
    t.RowEquivalent { t' with basis := basis } :=
  ⟨h.columns, h.artificial, h.savedObjective, h.rowCount, h.rowSpace, h.objective⟩

end RowEquivalent

section Pivot

variable {t : Tableau ℚ} {r : ℕ}

/-- The multiple of the pivot row that a pivot subtracts from a row. -/
def factor (t : Tableau ℚ) (c : ℕ) (tol : ℚ) (i : ℕ) : ℚ :=
  if tol < |t.entry i c| then t.entry i c else 0

lemma Rectangular.entry_pivoted_self (h : t.Rectangular) (hr : 0 < r) (hr' : r ≤ t.rows.length)
    (c : ℕ) (tol : ℚ) : (t.pivoted r c tol).entry r = (t.entry r c)⁻¹ • t.entry r := by
  funext j
  rw [h.entry_pivoted hr hr', if_pos rfl, Pi.smul_apply, smul_eq_mul, div_eq_inv_mul]

lemma Rectangular.entry_pivoted_of_ne (h : t.Rectangular) (hr : 0 < r) (hr' : r ≤ t.rows.length)
    (c : ℕ) (tol : ℚ) {i : ℕ} (hi : i ≠ r) : (t.pivoted r c tol).entry i =
      t.entry i - t.factor c tol i • (t.pivoted r c tol).entry r := by
  funext j
  rw [Pi.sub_apply, Pi.smul_apply, smul_eq_mul, h.entry_pivoted hr hr', h.entry_pivoted hr hr',
    if_neg hi, if_pos rfl, factor]
  split_ifs <;> ring

/-- A pivot keeps the combinations of all rows among which its own is. -/
theorem Rectangular.rowSpan_pivoted (h : t.Rectangular) (hr : 0 < r) (hr' : r ≤ t.rows.length)
    {c : ℕ} (hv : t.entry r c ≠ 0) (tol : ℚ) {rows : Set ℕ} (hmem : r ∈ rows) :
    (t.pivoted r c tol).rowSpan rows = t.rowSpan rows := by
  have hself := h.entry_pivoted_self hr hr' c tol
  have hpivot : (t.pivoted r c tol).entry r ∈ t.rowSpan rows := by
    rw [hself]
    exact Submodule.smul_mem _ _ (t.entry_mem_rowSpan hmem)
  have hpivot' := (t.pivoted r c tol).entry_mem_rowSpan hmem
  apply le_antisymm
  · apply Submodule.span_le.mpr
    rintro _ ⟨i, hi, rfl⟩
    by_cases hir : i = r
    · rw [hir]
      exact hpivot
    · rw [h.entry_pivoted_of_ne hr hr' c tol hir]
      exact Submodule.sub_mem _ (t.entry_mem_rowSpan hi) (Submodule.smul_mem _ _ hpivot)
  · apply Submodule.span_le.mpr
    rintro _ ⟨i, hi, rfl⟩
    by_cases hir : i = r
    · have hback : t.entry r = t.entry r c • (t.pivoted r c tol).entry r := by
        rw [hself, smul_smul, mul_inv_cancel₀ hv, one_smul]
      rw [hir, hback]
      exact Submodule.smul_mem _ _ hpivot'
    · have hback : t.entry i = (t.pivoted r c tol).entry i +
          t.factor c tol i • (t.pivoted r c tol).entry r := by
        rw [h.entry_pivoted_of_ne hr hr' c tol hir, sub_add_cancel]
      rw [hback]
      exact Submodule.add_mem _ (entry_mem_rowSpan _ hi) (Submodule.smul_mem _ _ hpivot')

theorem Rectangular.rowSpace_pivoted (h : t.Rectangular) (hr : 0 < r) (hr' : r ≤ t.rows.length)
    {c : ℕ} (hv : t.entry r c ≠ 0) (tol : ℚ) : (t.pivoted r c tol).rowSpace = t.rowSpace := by
  rw [rowSpace_eq, rowSpace_eq]
  exact h.rowSpan_pivoted hr hr' hv tol hr

theorem Rectangular.rowEquivalent_pivoted (h : t.Rectangular) (hr : 0 < r)
    (hr' : r ≤ t.rows.length) {c : ℕ} (hv : t.entry r c ≠ 0) (tol : ℚ) :
    t.RowEquivalent (t.pivoted r c tol) where
  columns := rfl
  artificial := rfl
  savedObjective := rfl
  rowCount := length_pivoted_rows ..
  rowSpace := h.rowSpace_pivoted hr hr' hv tol
  objective := by
    have hs : r - 1 + 1 = r := by omega
    have hrow : t.entry r ∈ t.rowSpace := hs ▸ t.entry_mem_rowSpace (r - 1)
    rw [h.entry_pivoted_of_ne hr hr' c tol hr.ne, sub_sub_cancel_left, h.entry_pivoted_self hr hr']
    exact Submodule.neg_mem _ (Submodule.smul_mem _ _ (Submodule.smul_mem _ _ hrow))

/-- A pivot that succeeds in a constraint row is a row operation. -/
theorem Rectangular.rowEquivalent_pivot (h : t.Rectangular) {t' : Tableau ℚ} {c : ℕ} {tol : ℚ}
    (htol : 0 ≤ tol) (hr : 0 < r) (hp : t.pivot r c tol = .ok t') :
    t.RowEquivalent t' ∧ t'.Rectangular := by
  obtain ⟨hr', -, hsize, rfl⟩ := h.pivot_spec hr hp
  rw [size_eq_abs, not_le] at hsize
  have hv : t.entry r c ≠ 0 := abs_pos.mp (htol.trans_lt hsize)
  exact ⟨h.rowEquivalent_pivoted hr hr' hv tol, h.pivoted hr hr' c tol⟩

end Pivot

section Runs

variable {tol : ℚ} {blocked : List ℕ} {t t' u : Tableau ℚ} {n : ℕ}

theorem Rectangular.rowEquivalent_exchange (h : t.Rectangular) (htol : 0 ≤ tol)
    (hx : t.Exchanges tol blocked t') : t.RowEquivalent t' := by
  obtain ⟨row, col, hm, hp⟩ := hx
  have hr := (leaving_inside (move_eq_exchange_iff.mp hm).2).1
  exact (h.rowEquivalent_pivot htol hr hp).1

theorem Rectangular.rowEquivalent_pivots (h : t.Rectangular) (htol : 0 ≤ tol)
    (hp : Pivots tol blocked n t u) : t.RowEquivalent u := by
  have hboth : u.Rectangular ∧ t.RowEquivalent u :=
    hp.invariant (P := fun a => a.Rectangular ∧ t.RowEquivalent a)
      (fun a b ha hx => ⟨ha.1.exchanges hx, ha.2.trans (ha.1.rowEquivalent_exchange htol hx)⟩)
      ⟨h, RowEquivalent.refl t⟩
  exact hboth.2

end Runs

end Tableau

end SimplexTableau
