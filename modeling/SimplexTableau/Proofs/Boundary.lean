import SimplexTableau.Proofs.RowSpace
import SimplexTableau.Tableau.Handover

/-!
# The phase boundary

Between the phases artificial variables are driven out of the basis row by row, and the saved
objective row comes back with its basic columns cleared. Both are row operations with constraint
rows: the row space stays, and the new objective row differs from the saved one by an element
of it.
-/

namespace SimplexTableau

namespace Tableau

section Driving

variable {α : Type} [Scalar α]

/-- Driving artificial variables out of the listed rows, one row after the other. -/
inductive DrivesOut (tol : α) : List ℕ → Tableau α → Tableau α → Prop
  | nil (t : Tableau α) : DrivesOut tol [] t t
  | keep {row b : ℕ} {rows : List ℕ} {t u : Tableau α} (hb : t.basis[row - 1]? = some b)
      (hkeep : b ∈ t.artificial → t.replacement tol row = none) (rest : DrivesOut tol rows t u) :
      DrivesOut tol (row :: rows) t u
  | swap {row b col : ℕ} {rows : List ℕ} {t t' u : Tableau α} (hb : t.basis[row - 1]? = some b)
      (hart : b ∈ t.artificial) (hcol : t.replacement tol row = some col)
      (hp : t.pivot row col tol = .ok t') (rest : DrivesOut tol rows t' u) :
      DrivesOut tol (row :: rows) t u

variable {tol : α} {t u : Tableau α}

/-- Numbers of constraint rows. -/
def RowsInside (t : Tableau α) (rows : List ℕ) : Prop :=
  ∀ row ∈ rows, 0 < row ∧ row ≤ t.rows.length

omit [Scalar α] in
lemma rowsInside_all : t.RowsInside ((List.range t.rows.length).map (· + 1)) := by
  intro row hrow
  obtain ⟨i, hi, rfl⟩ := List.mem_map.mp hrow
  exact ⟨Nat.succ_pos i, List.mem_range.mp hi⟩

namespace RowsInside

variable {row : ℕ} {rows : List ℕ}

omit [Scalar α] in
lemma head (h : t.RowsInside (row :: rows)) : 0 < row ∧ row ≤ t.rows.length :=
  h row (List.mem_cons_self ..)

omit [Scalar α] in
lemma tail (h : t.RowsInside (row :: rows)) : t.RowsInside rows :=
  fun row' hm => h row' (List.mem_cons_of_mem _ hm)

lemma pivoted (h : t.RowsInside rows) {r c : ℕ} {tol : α} :
    (t.pivoted r c tol).RowsInside rows := by
  intro row hm
  rw [length_pivoted_rows]
  exact h row hm

end RowsInside

/-- A row keeps its basic column, or an artificial one is swapped for its replacement. -/
theorem driveOutOf_cons {row : ℕ} {rows : List ℕ} {d : DrivenOut α}
    (h : driveOutOf tol (row :: rows) t = .ok d) :
    ∃ b, t.basis[row - 1]? = some b ∧
      (((b ∈ t.artificial → t.replacement tol row = none) ∧ driveOutOf tol rows t = .ok d) ∨
        ∃ col leaving t' rest, b ∈ t.artificial ∧ t.replacement tol row = some col ∧
          t.pivot row col tol = .ok t' ∧ driveOutOf tol rows t' = .ok rest ∧
          d = { rest with swaps := ⟨leaving, row, t.nameAt col⟩ :: rest.swaps }) := by
  rw [driveOutOf] at h
  cases hb : t.basis[row - 1]? with
  | none =>
    rw [hb] at h
    cases h
  | some b =>
    refine ⟨b, rfl, ?_⟩
    simp only [hb] at h
    by_cases ha : t.artificial.contains b
    · rw [if_pos ha] at h
      have hmem : b ∈ t.artificial := by simpa using ha
      cases hc : t.replacement tol row with
      | none =>
        simp only [hc] at h
        exact Or.inl ⟨fun _ => rfl, h⟩
      | some col =>
        simp only [hc] at h
        cases hl : t.columns[b]? with
        | none =>
          rw [hl] at h
          cases h
        | some leaving =>
          simp only [hl] at h
          obtain ⟨t', hp, h⟩ := bind_eq_ok.mp h
          obtain ⟨rest, hr, h⟩ := bind_eq_ok.mp h
          cases h
          exact Or.inr ⟨col, leaving.name, t', rest, hmem, rfl, hp, hr, rfl⟩
    · rw [if_neg ha] at h
      exact Or.inl ⟨fun hmem => (ha (by simpa using hmem)).elim, h⟩

theorem driveOutOf_drivesOut {rows : List ℕ} {d : DrivenOut α}
    (h : driveOutOf tol rows t = .ok d) : DrivesOut tol rows t d.tableau := by
  induction rows generalizing t d with
  | nil =>
    cases h
    exact DrivesOut.nil t
  | cons row rows ih =>
    obtain ⟨b, hb, ⟨hkeep, hrest⟩ | ⟨col, leaving, t', rest, hart, hc, hp, hrest, rfl⟩⟩ :=
      driveOutOf_cons h
    · exact DrivesOut.keep hb hkeep (ih hrest)
    · have hdrives := ih hrest
      exact DrivesOut.swap hb hart hc hp hdrives

theorem Rectangular.replacement_inside (h : t.Rectangular) {row col : ℕ} (hr : row ≤ t.rows.length)
    (hc : t.replacement tol row = some col) :
    0 < col ∧ col < t.rhsCol ∧ col ∉ t.artificial ∧
      ¬ size ((t.matrix.getD row []).getD col 0) ≤ tol := by
  obtain ⟨⟨v, j⟩, hmem, hv⟩ := List.exists_of_findSome?_eq_some hc
  obtain ⟨h0, h1, hj⟩ := (mem_inner_zipIdx _ v j).mp hmem
  rw [h.length_getD_matrix hr] at h1
  dsimp only at hv
  split_ifs at hv with hcond
  cases hv
  simp only [Bool.or_eq_true, decide_eq_true_eq, not_or] at hcond
  refine ⟨h0, Nat.lt_sub_of_add_lt h1, by simpa using hcond.1, ?_⟩
  rw [List.getD_eq_getElem?_getD (i := col), hj]
  exact hcond.2

theorem Rectangular.replacement_none (h : t.Rectangular) {row : ℕ} (hr : row ≤ t.rows.length)
    (hn : t.replacement tol row = none) {j : ℕ} (hj : 0 < j) (hj' : j < t.rhsCol)
    (ha : j ∉ t.artificial) : size ((t.matrix.getD row []).getD j 0) ≤ tol := by
  have hlen := h.length_getD_matrix hr
  unfold rhsCol at hj'
  have hlt : j < (t.matrix.getD row []).length := by omega
  have hmem := (mem_inner_zipIdx (t.matrix.getD row []) (t.matrix.getD row [])[j] j).mpr
    ⟨hj, by omega, List.getElem?_eq_getElem hlt⟩
  have hv := List.findSome?_eq_none_iff.mp hn _ hmem
  dsimp only at hv
  split_ifs at hv with hcond
  simp only [Bool.or_eq_true, decide_eq_true_eq] at hcond
  rcases hcond with hcond | hcond
  · exact (ha (by simpa using hcond)).elim
  · rwa [List.getD_eq_getElem _ _ hlt]

/-- A swap is a pivot on a cell outside the artificial columns that exceeds the tolerance. -/
theorem Shaped.swap_spec (h : t.Shaped) {t' : Tableau α} {row col : ℕ} (hr : 0 < row)
    (hr' : row ≤ t.rows.length) (hc : t.replacement tol row = some col)
    (hp : t.pivot row col tol = .ok t') :
    t' = t.pivoted row col tol ∧ t'.Shaped := by
  obtain ⟨h0, h1, -, -⟩ := h.replacement_inside hr' hc
  obtain rfl := ((pivot_eq_ok_iff h hr).mp hp).2.2.2
  exact ⟨rfl, h.pivoted hr hr' h0 h1 tol⟩

/-- What every swap keeps, driving out keeps. -/
theorem Rectangular.drivesOut_invariant {Q : Tableau α → Prop} {rows : List ℕ} (h : t.Rectangular)
    (hrows : t.RowsInside rows) (hd : DrivesOut tol rows t u)
    (hswap : ∀ a a' row col, a.Rectangular → 0 < row → row ≤ a.rows.length →
      a.replacement tol row = some col → a.pivot row col tol = .ok a' → Q a → Q a')
    (hq : Q t) : u.Rectangular ∧ Q u := by
  induction hd with
  | nil t => exact ⟨h, hq⟩
  | keep _ _ _ ih => exact ih h hrows.tail hq
  | swap _ _ hc hp _ ih =>
    obtain ⟨hr, hr'⟩ := hrows.head
    have hq' := hswap _ _ _ _ h hr hr' hc hp hq
    obtain ⟨-, -, -, rfl⟩ := h.pivot_spec hr hp
    exact ih (h.pivoted hr hr' _ tol) hrows.tail.pivoted hq'

theorem Rectangular.drivesOut {rows : List ℕ} (h : t.Rectangular)
    (hrows : t.RowsInside rows) (hd : DrivesOut tol rows t u) : u.Rectangular :=
  (h.drivesOut_invariant (Q := fun _ => True) hrows hd (fun _ _ _ _ _ _ _ _ _ _ => trivial)
    trivial).1

lemma Rectangular.sameLayout_drivesOut {rows : List ℕ} (h : t.Rectangular)
    (hrows : t.RowsInside rows) (hd : DrivesOut tol rows t u) : t.SameLayout u := by
  refine (h.drivesOut_invariant hrows hd ?_ (SameLayout.refl t)).2
  intro a a' row col ha hr _ _ hp hq
  obtain ⟨-, -, -, rfl⟩ := ha.pivot_spec hr hp
  exact hq.trans (a.sameLayout_pivoted row col tol)

theorem Shaped.drivesOut {rows : List ℕ} (h : t.Shaped)
    (hrows : t.RowsInside rows) (hd : DrivesOut tol rows t u) : u.Shaped := by
  refine (h.toRectangular.drivesOut_invariant hrows hd ?_ h).2
  intro a a' row col _ hr hr' hc hp hq
  exact (hq.swap_spec hr hr' hc hp).2

end Driving

section Restoring

variable {α : Type} [Scalar α] {tol : α} {t : Tableau α} {basis : List (ℕ × ℕ)} {o : List α}

/-- One step of restoration, written as the row that it continues with. -/
lemma clearBasics_cons (h : t.Shaped) {col r : ℕ} (ho : o.length = t.columns.length)
    (hb : t.basis[r]? = some col) :
    clearBasics tol t.rows ((col, r) :: basis) o = clearBasics tol t.rows basis
      (if tol < size (o.getD col 0) then subtractMultiple o (o.getD col 0) (t.rows.getD r [])
        else o) := by
  have hw := h.rhsCol_add_one
  have hin := (h.inside col (List.mem_of_getElem? hb)).2
  have hlt : r < t.rows.length := by
    rw [← h.basis]
    exact (List.getElem?_eq_some_iff.mp hb).1
  have hget : o[col]? = some (o.getD col 0) := by
    rw [List.getElem?_eq_getElem (by omega), List.getD_eq_getElem]
  have hrow : t.rows[r]? = some (t.rows.getD r []) := by
    rw [List.getElem?_eq_getElem hlt, List.getD_eq_getElem]
  rw [clearBasics]
  simp only [hget, hrow]
  split_ifs <;> rfl

lemma length_cleared (h : t.Shaped) {col r : ℕ} (ho : o.length = t.columns.length)
    (hb : t.basis[r]? = some col) :
    (if tol < size (o.getD col 0) then subtractMultiple o (o.getD col 0) (t.rows.getD r [])
      else o).length = t.columns.length := by
  have hlt : r < t.rows.length := by
    rw [← h.basis]
    exact (List.getElem?_eq_some_iff.mp hb).1
  split_ifs
  · rw [length_subtractMultiple, List.getD_eq_getElem _ _ hlt, h.rows _ (List.getElem_mem hlt), ho,
      min_self]
  · exact ho

/-- One step of a restoration that succeeds: an entry above the tolerance is cleared with the row of
its column, and any other is left. -/
theorem clearBasics_cons_ok {rows : List (List α)} {col r : ℕ} {o' : List α}
    (hc : clearBasics tol rows ((col, r) :: basis) o = .ok o') :
    (∃ factor row, rows[r]? = some row ∧
        clearBasics tol rows basis (subtractMultiple o factor row) = .ok o') ∨
      clearBasics tol rows basis o = .ok o' := by
  rw [clearBasics] at hc
  cases hf : o[col]? with
  | none =>
    rw [hf] at hc
    cases hc
  | some factor =>
    simp only [hf] at hc
    split_ifs at hc with hlt
    · cases hrow : rows[r]? with
      | none =>
        rw [hrow] at hc
        cases hc
      | some row =>
        simp only [hrow] at hc
        exact .inl ⟨factor, row, rfl, hc⟩
    · exact .inr hc

lemma length_clearBasics {rows : List (List α)} {o' : List α} {n : ℕ}
    (hrows : ∀ row ∈ rows, row.length = n) (ho : o.length = n)
    (hc : clearBasics tol rows basis o = .ok o') : o'.length = n := by
  induction basis generalizing o with
  | nil =>
    cases hc
    exact ho
  | cons b basis ih =>
    rcases clearBasics_cons_ok hc with ⟨factor, row, hrow, hc⟩ | hc
    · refine ih ?_ hc
      rw [length_subtractMultiple, hrows row (List.mem_of_getElem? hrow), ho, min_self]
    · exact ih ho hc

/-- Restoration changes nothing but the objective row. -/
theorem restore_eq_ok {t' : Tableau α} (hr : t.restore tol = .ok t') :
    ∃ saved o, t.savedObjective = some saved ∧
      clearBasics tol t.rows t.basis.zipIdx saved = .ok o ∧
      t' = { t with objective := o, savedObjective := none } := by
  unfold restore at hr
  cases hs : t.savedObjective with
  | none =>
    rw [hs] at hr
    cases hr
  | some saved =>
    simp only [hs] at hr
    obtain ⟨o, hc, hr⟩ := bind_eq_ok.mp hr
    cases hr
    exact ⟨saved, o, rfl, hc, rfl⟩

theorem Rectangular.restored {t' : Tableau α} (h : t.Rectangular)
    (hsaved : ∀ o ∈ t.savedObjective, o.length = t.columns.length)
    (hr : t.restore tol = .ok t') : t'.Rectangular := by
  obtain ⟨saved, o, hs, hc, rfl⟩ := restore_eq_ok hr
  exact ⟨length_clearBasics h.rows (hsaved saved hs) hc, h.rows⟩

theorem Shaped.restored {t' : Tableau α} (h : t.Shaped) (hr : t.restore tol = .ok t') :
    t'.Shaped := by
  have hrect := h.toRectangular.restored h.saved hr
  obtain ⟨saved, o, -, -, rfl⟩ := restore_eq_ok hr
  exact ⟨hrect, h.width, h.basis, h.inside, by simp⟩

end Restoring

section Exact

variable {tol : ℚ} {t t' u : Tableau ℚ}

theorem Rectangular.rowEquivalent_drivesOut {rows : List ℕ} (h : t.Rectangular) (htol : 0 ≤ tol)
    (hrows : t.RowsInside rows) (hd : DrivesOut tol rows t u) : t.RowEquivalent u := by
  refine (h.drivesOut_invariant hrows hd ?_ (RowEquivalent.refl t)).2
  intro a a' row col ha hr _ _ hp hq
  exact hq.trans (ha.rowEquivalent_pivot htol hr hp).1

lemma clearBasics_spec (h : t.Rectangular) {basis : List (ℕ × ℕ)} {o o' : List ℚ}
    (ho : o.length = t.columns.length) (hc : clearBasics tol t.rows basis o = .ok o') :
    (fun j => o'.getD j 0 - o.getD j 0) ∈ t.rowSpace := by
  induction basis generalizing o with
  | nil =>
    cases hc
    simp only [sub_self]
    exact Submodule.zero_mem _
  | cons b basis ih =>
    rcases clearBasics_cons_ok hc with ⟨factor, row, hrow, hc⟩ | hc
    · have hlen : o.length = row.length :=
        ho.trans (h.rows row (List.mem_of_getElem? hrow)).symm
      have hmem := ih (by rw [length_subtractMultiple, ← hlen, min_self, ho]) hc
      have hsum := Submodule.sub_mem _ hmem
        (Submodule.smul_mem _ factor (t.entry_mem_rowSpace b.2))
      convert hsum using 1
      funext j
      rw [Pi.sub_apply, Pi.smul_apply, smul_eq_mul, entry_of_getElem? hrow,
        getD_subtractMultiple hlen]
      ring
    · exact ih ho hc

/-- Restoration keeps the constraint rows, and the objective row it returns differs from the
saved one by a combination of them. -/
theorem Rectangular.restore_spec (h : t.Rectangular)
    (hsaved : ∀ o ∈ t.savedObjective, o.length = t.columns.length)
    (hr : t.restore tol = .ok t') :
    ∃ saved o, t.savedObjective = some saved ∧
      clearBasics tol t.rows t.basis.zipIdx saved = .ok o ∧
      t' = { t with objective := o, savedObjective := none } ∧ t'.Rectangular ∧
      (fun j => t'.entry 0 j - saved.getD j 0) ∈ t.rowSpace := by
  have hrect := h.restored hsaved hr
  obtain ⟨saved, o, hs, hc, rfl⟩ := restore_eq_ok hr
  exact ⟨saved, o, hs, hc, rfl, hrect, clearBasics_spec h (hsaved saved hs) hc⟩

theorem Shaped.restore_spec (h : t.Shaped) (hr : t.restore tol = .ok t') :
    ∃ saved o, t.savedObjective = some saved ∧
      clearBasics tol t.rows t.basis.zipIdx saved = .ok o ∧
      t' = { t with objective := o, savedObjective := none } ∧ t'.Shaped ∧
      (fun j => t'.entry 0 j - saved.getD j 0) ∈ t.rowSpace := by
  obtain ⟨saved, o, hs, hc, rfl, hrect, hmem⟩ := h.toRectangular.restore_spec h.saved hr
  exact ⟨saved, o, hs, hc, rfl, ⟨hrect, h.width, h.basis, h.inside, by simp⟩, hmem⟩

end Exact

end Tableau

end SimplexTableau
