import SimplexTableau.Proofs.Boundary

/-!
# Idle rows

A row that keeps its artificial variable when the others are driven out has no entry above the
tolerance outside the artificial columns. Pivots outside these columns skip such a row, so it stays
as it is, bit by bit, and in any ordered arithmetic. A smaller bound on its entries stays as well.
-/

namespace SimplexTableau

namespace Tableau

variable {α : Type} [Scalar α]

/-- If a row has an artificial basic column, its entries outside the artificial columns are within
a bound. -/
def Idle (bound : α) (t : Tableau α) (k : ℕ) : Prop :=
  ∀ b row, t.basis[k]? = some b → b ∈ t.artificial → t.rows[k]? = some row →
    ∀ j, 0 < j → j < t.rhsCol → j ∉ t.artificial → size (row.getD j 0) ≤ bound

/-- A property of every row that keeps its artificial variable when artificial variables are driven
out of the listed rows, and of the tableau at that moment. -/
def EveryKept (P : Tableau α → ℕ → Prop) (tol : α) (rows : List ℕ) (t : Tableau α) : Prop :=
  ∀ (done : List ℕ) (row : ℕ) (rest : List ℕ) (u : Tableau α) (b : ℕ),
    rows = done ++ row :: rest → DrivesOut tol done t u → u.basis[row - 1]? = some b →
      b ∈ u.artificial → u.replacement tol row = none → P u row

variable {tol bound : α} {t t' u : Tableau α} {P : Tableau α → ℕ → Prop} {k r c row : ℕ}
  {rows : List ℕ}

lemma EveryKept.tail (h : EveryKept P tol (row :: rows) t)
    (hstep : ∀ done u, DrivesOut tol done t' u → DrivesOut tol (row :: done) t u) :
    EveryKept P tol rows t' := by
  intro done row' rest u b heq hd
  apply h (row :: done) row' rest u b _ (hstep done u hd)
  rw [heq, List.cons_append]

lemma Rectangular.everyKept_idle (h : t.Rectangular) (hrows : t.RowsInside rows) :
    EveryKept (fun u row => u.Idle tol (row - 1)) tol rows t := by
  intro done row rest u b heq hd hb hart hnone b' cells hb' hart' hcells j hj hj' hja
  have hdone : t.RowsInside done := fun row' hm => hrows row' (by rw [heq]; simp [hm])
  obtain ⟨hr, hr'⟩ := hrows row (by rw [heq]; simp)
  rw [← (h.sameLayout_drivesOut hdone hd).rowCount] at hr'
  have hsize := (h.drivesOut hdone hd).replacement_none hr' hnone hj hj' hja
  rwa [← Nat.sub_add_cancel hr, List.getD_eq_getElem?_getD (i := row - 1 + 1), matrix,
    List.getElem?_cons_succ, hcells, Option.getD_some] at hsize

variable [OrderedScalar α]

lemma clearColumn_of_size_le {pivotRow cells : List α} (h : size (cells.getD c 0) ≤ tol) :
    clearColumn tol c pivotRow cells = cells :=
  if_neg fun hlt => OrderedScalar.not_le_of_lt hlt h

section Bounded

variable (hbound : ∀ x : α, x ≤ bound → x ≤ tol)
include hbound

/-- A pivot outside the artificial columns and outside an idle row leaves the row as it is. -/
lemma Idle.row_pivoted (h : t.Idle bound k) {b : ℕ} (hb : t.basis[k]? = some b)
    (hart : b ∈ t.artificial) (hr : r ≠ 0) (hne : r ≠ k + 1) (hc : 0 < c) (hc' : c < t.rhsCol)
    (hca : c ∉ t.artificial) : (t.pivoted r c tol).rows[k]? = t.rows[k]? := by
  have hget := pivoted_row? t hr c tol (k + 1)
  simp only [matrix, List.getElem?_cons_succ, if_neg hne.symm] at hget
  rw [hget]
  cases hrow : t.rows[k]? with
  | none => rfl
  | some cells =>
    have hsize := hbound _ (h b cells hb hart hrow c hc hc' hca)
    rw [Option.map_some, clearColumn_of_size_le hsize]

/-- Such a pivot in any row keeps what was idle: the row of the pivot gets another basic column. -/
lemma Idle.pivoted (h : t.Idle bound k) (hr : r ≠ 0) (hc : 0 < c) (hc' : c < t.rhsCol)
    (hca : c ∉ t.artificial) : (t.pivoted r c tol).Idle bound k := by
  intro b cells hb hart hcells j hj hj' hja
  rcases pivoted_basis_get hb with ⟨-, rfl⟩ | ⟨hne, hb⟩
  · exact absurd hart hca
  · rw [h.row_pivoted hbound hb hart hr (by omega) hc hc' hca] at hcells
    exact h b cells hb hart hcells j hj hj' hja

/-- If the rows that keep an artificial variable are idle when they are passed, all rows are in the
end, and those that were before remain so. -/
theorem Rectangular.idle_drivesOut (h : t.Rectangular) (hrows : t.RowsInside rows)
    (hkept : EveryKept (fun u row => u.Idle bound (row - 1)) tol rows t)
    (hd : DrivesOut tol rows t u) :
    (∀ row ∈ rows, u.Idle bound (row - 1)) ∧ ∀ k, t.Idle bound k → u.Idle bound k := by
  induction hd with
  | nil t => exact ⟨by simp, fun _ hk => hk⟩
  | @keep first b rows t u hb hkeep _ ih =>
    obtain ⟨hin, hstays⟩ :=
      ih h hrows.tail (hkept.tail fun done u hd => DrivesOut.keep hb hkeep hd)
    have hidle : t.Idle bound (first - 1) := by
      intro b' cells hb' hart
      rw [hb] at hb'
      cases hb'
      exact hkept [] first rows t b rfl (DrivesOut.nil t) hb hart (hkeep hart) b cells hb hart
    exact ⟨List.forall_mem_cons.mpr ⟨hstays _ hidle, hin⟩, hstays⟩
  | @swap first b col rows t t' u hb hart hc hp _ ih =>
    obtain ⟨hr, hr'⟩ := hrows.head
    obtain ⟨h0, h1, hcol, -⟩ := h.replacement_inside hr' hc
    have hkept' := hkept.tail fun done u hd => DrivesOut.swap hb hart hc hp hd
    obtain ⟨-, -, -, rfl⟩ := h.pivot_spec hr hp
    obtain ⟨hin, hstays⟩ := ih (h.pivoted hr hr' col tol) hrows.tail.pivoted hkept'
    have hidle : (t.pivoted first col tol).Idle bound (first - 1) := by
      intro b' cells hb' hart'
      rcases pivoted_basis_get hb' with ⟨-, rfl⟩ | ⟨hne, -⟩
      · exact absurd hart' hcol
      · exact absurd rfl hne
    refine ⟨List.forall_mem_cons.mpr ⟨hstays _ hidle, hin⟩, fun k hk => hstays k ?_⟩
    exact hk.pivoted hbound hr.ne' h0 h1 hcol

lemma Rectangular.idle_driveOut {d : DrivenOut α} (h : t.Rectangular)
    (hkept : EveryKept (fun u row => u.Idle bound (row - 1)) tol
      ((List.range t.rows.length).map (· + 1)) t)
    (hd : t.driveOut tol = .ok d) (k : ℕ) : d.tableau.Idle bound k := by
  have hdrives := driveOutOf_drivesOut hd
  intro b cells hb hart hcells
  have hk : k < d.tableau.rows.length := (List.getElem?_eq_some_iff.mp hcells).1
  rw [(h.sameLayout_drivesOut rowsInside_all hdrives).rowCount] at hk
  exact (h.idle_drivesOut hbound rowsInside_all hkept hdrives).1 (k + 1)
    (List.mem_map.mpr ⟨k, List.mem_range.mpr hk, rfl⟩) b cells hb hart hcells

end Bounded

end Tableau

end SimplexTableau
