import SimplexTableau.Proofs.Exact
import SimplexTableau.Tableau.Pivot

/-!
# Entries of a tableau

A tableau is read as a matrix of numbers, zero outside its rows and columns. A rectangular tableau
has rows of one length, and a shaped one also a basic column for every constraint row. Pivoting
keeps both, and its effect on every entry is one formula, whatever the basis is.
-/

namespace SimplexTableau

section Runs

variable {α β ε : Type} {f : α → Except ε β} {l : List α}

lemma bind_eq_ok {x : Except ε α} {b : β} : x >>= f = .ok b ↔ ∃ a, x = .ok a ∧ f a = .ok b := by
  cases x <;> simp [bind, Except.bind]

lemma mapM_eq_ok_iff {m : List β} :
    l.mapM f = .ok m ↔ List.Forall₂ (fun a b => f a = .ok b) l m := by
  induction l generalizing m with
  | nil => cases m <;> simp [pure, Except.pure]
  | cons a l ih =>
    rw [List.mapM_cons]
    cases ha : f a with
    | error e => cases m <;> simp [ha, bind, Except.bind]
    | ok b =>
      cases hl : l.mapM f with
      | error e => cases m <;> simp [ha, hl, ← ih, bind, Except.bind]
      | ok bs => cases m <;> simp [ha, hl, ← ih, bind, Except.bind, pure, Except.pure]

lemma mapM_eq_ok {g : α → β} (h : ∀ a ∈ l, f a = .ok (g a)) : l.mapM f = .ok (l.map g) :=
  mapM_eq_ok_iff.mpr (List.forall₂_map_right_iff.mpr (List.forall₂_same.mpr h))

/-- What is done one by one fails with the first failure. -/
lemma mapM_eq_error {before after : List α} {a : α} {e : ε}
    (hbefore : ∀ b ∈ before, ∃ c, f b = .ok c) (ha : f a = .error e) :
    (before ++ a :: after).mapM f = .error e := by
  induction before with
  | nil => simp [ha, bind, Except.bind]
  | cons b before ih =>
    obtain ⟨⟨c, hc⟩, hbefore⟩ := List.forall_mem_cons.mp hbefore
    simp [hc, ih hbefore, bind, Except.bind]

/-- If a property fails in a list, it fails somewhere for the first time. -/
lemma exists_first {P : α → Prop} (h : ¬ ∀ a ∈ l, P a) :
    ∃ before a after, l = before ++ a :: after ∧ (∀ b ∈ before, P b) ∧ ¬ P a := by
  induction l with
  | nil => exact absurd (by simp) h
  | cons a l ih =>
    by_cases ha : P a
    · obtain ⟨before, b, after, rfl, hbefore, hb⟩ :=
        ih fun hl => h (List.forall_mem_cons.mpr ⟨ha, hl⟩)
      exact ⟨a :: before, b, after, rfl, List.forall_mem_cons.mpr ⟨ha, hbefore⟩, hb⟩
    · exact ⟨[], a, l, rfl, by simp, ha⟩

/-- Where there is one way to fail, a single failure decides. -/
lemma mapM_eq_error_of_mem {e : ε} (h : ∀ a ∈ l, (∃ b, f a = .ok b) ∨ f a = .error e) {a : α}
    (ha : a ∈ l) (hfails : f a = .error e) : l.mapM f = .error e := by
  have hsome : ¬ ∀ a ∈ l, ∃ b, f a = .ok b := by
    intro hall
    obtain ⟨b, hb⟩ := hall a ha
    cases hb.symm.trans hfails
  obtain ⟨before, first, after, rfl, hbefore, hfirst⟩ := exists_first hsome
  exact mapM_eq_error hbefore ((h first (by simp)).resolve_left hfirst)

end Runs

lemma exists_ok_of_any {α ε : Type} {e : Except ε α} {test : α → Bool}
    (h : e.toOption.any test = true) : ∃ a, e = .ok a ∧ test a = true := by
  cases e with
  | error e => cases h
  | ok a => exact ⟨a, rfl, h⟩

namespace Tableau

section Shape

variable {α : Type}

/-- All rows are as long as the list of columns. -/
structure Rectangular (t : Tableau α) : Prop where
  objective : t.objective.length = t.columns.length
  rows : ∀ row ∈ t.rows, row.length = t.columns.length

/-- All rows are as long as the list of columns, and every constraint row has a basic column
strictly between the objective column and the right-hand side. -/
structure Shaped (t : Tableau α) : Prop extends Rectangular t where
  width : 1 < t.columns.length
  basis : t.basis.length = t.rows.length
  inside : ∀ b ∈ t.basis, 0 < b ∧ b < t.rhsCol
  saved : ∀ o ∈ t.savedObjective, o.length = t.columns.length

lemma Shaped.rhsCol_add_one {t : Tableau α} (h : t.Shaped) : t.rhsCol + 1 = t.columns.length := by
  have hw := h.width
  unfold rhsCol
  omega

lemma Shaped.rhsCol_pos {t : Tableau α} (h : t.Shaped) : 0 < t.rhsCol := by
  have hw := h.width
  unfold rhsCol
  omega

lemma Rectangular.length_of_mem_matrix {t : Tableau α} (h : t.Rectangular) {row : List α}
    (hr : row ∈ t.matrix) : row.length = t.columns.length := by
  rcases List.mem_cons.mp hr with rfl | hr
  · exact h.objective
  · exact h.rows row hr

lemma Rectangular.length_getD_matrix {t : Tableau α} (h : t.Rectangular) {row : ℕ}
    (hr : row ≤ t.rows.length) : (t.matrix.getD row []).length = t.columns.length := by
  have hlt : row < t.matrix.length := Nat.lt_succ_of_le hr
  rw [List.getD_eq_getElem _ _ hlt]
  exact h.length_of_mem_matrix (List.getElem_mem hlt)

lemma cell?_eq_some_iff {t : Tableau α} (h : t.Rectangular) {r c : ℕ} {v d : α} :
    t.cell? r c = some v ↔
      r ≤ t.rows.length ∧ c < t.columns.length ∧ v = (t.matrix.getD r []).getD c d := by
  by_cases hr : r < t.matrix.length
  · have hlen := h.length_of_mem_matrix (List.getElem_mem hr)
    have hr' : r ≤ t.rows.length := Nat.lt_succ_iff.mp hr
    by_cases hc : c < t.columns.length
    · have hc' : c < t.matrix[r].length := hlen ▸ hc
      simp [cell?, List.getD_eq_getElem?_getD, List.getElem?_eq_getElem hr,
        List.getElem?_eq_getElem hc', hr', hc, eq_comm]
    · have hc' : t.matrix[r].length ≤ c := hlen ▸ not_lt.mp hc
      simp [cell?, List.getElem?_eq_getElem hr, List.getElem?_eq_none hc', hc]
  · have hr' : ¬ r ≤ t.rows.length := fun hle => hr (Nat.lt_succ_of_le hle)
    simp [cell?, List.getElem?_eq_none (not_lt.mp hr), hr']

end Shape

section Pivot

variable {α : Type} [Scalar α]

/-- The tableau after a pivot on a cell in a constraint row. -/
def pivoted (t : Tableau α) (r c : ℕ) (tol : α) : Tableau α :=
  { t.reduced r c ((t.matrix.getD r []).getD c 0) tol with basis := t.basis.set (r - 1) c }

/-- Row reduction succeeds on the cells of the tableau that exceed the tolerance, and on no
others. -/
theorem Rectangular.reduce_eq_ok_iff {t t' : Tableau α} (h : t.Rectangular) {r c : ℕ} {tol : α} :
    t.reduce r c tol = .ok t' ↔
      r ≤ t.rows.length ∧ c < t.columns.length ∧
        ¬ size ((t.matrix.getD r []).getD c 0) ≤ tol ∧
        t' = t.reduced r c ((t.matrix.getD r []).getD c 0) tol := by
  unfold reduce
  cases hcell : t.cell? r c with
  | none =>
    constructor
    · intro he
      cases he
    · rintro ⟨h1, h2, -⟩
      have hs := (cell?_eq_some_iff h (d := (0 : α))).mpr ⟨h1, h2, rfl⟩
      rw [hcell] at hs
      cases hs
  | some v =>
    obtain ⟨h1, h2, rfl⟩ := (cell?_eq_some_iff h (d := (0 : α))).mp hcell
    dsimp only
    split_ifs with hz
    · constructor
      · intro he
        cases he
      · rintro ⟨-, -, hz', -⟩
        exact (hz' hz).elim
    · rw [Except.ok.injEq]
      exact ⟨fun he => ⟨h1, h2, hz, he.symm⟩, fun he => he.2.2.2.symm⟩

omit [Scalar α] in
lemma setBasic_eq_ok_iff {t t' : Tableau α} {r c : ℕ} (hr : 0 < r) :
    t.setBasic r c = .ok t' ↔
      r - 1 < t.basis.length ∧ t' = { t with basis := t.basis.set (r - 1) c } := by
  simp only [setBasic, if_neg hr.ne']
  split_ifs with hb
  · rw [Except.ok.injEq]
    exact ⟨fun he => ⟨hb, he.symm⟩, fun he => he.2.symm⟩
  · constructor
    · intro he
      cases he
    · rintro ⟨hb', -⟩
      exact (hb hb').elim

/-- All that a successful pivot in a constraint row does, whatever the basis is. -/
theorem Rectangular.pivot_spec {t t' : Tableau α} (h : t.Rectangular) {r c : ℕ} (hr : 0 < r)
    {tol : α} (hp : t.pivot r c tol = .ok t') :
    r ≤ t.rows.length ∧ c < t.columns.length ∧
      ¬ size ((t.matrix.getD r []).getD c 0) ≤ tol ∧ t' = t.pivoted r c tol := by
  obtain ⟨u, hred, hset⟩ := bind_eq_ok.mp hp
  obtain ⟨h1, h2, h3, rfl⟩ := h.reduce_eq_ok_iff.mp hred
  exact ⟨h1, h2, h3, ((setBasic_eq_ok_iff hr).mp hset).2⟩

lemma Rectangular.pivot_eq_ok {t : Tableau α} (h : t.Rectangular)
    (hb : t.basis.length = t.rows.length) {r c : ℕ} (hr : 0 < r) (hr' : r ≤ t.rows.length)
    (hc : c < t.columns.length) {tol : α} (hv : ¬ size ((t.matrix.getD r []).getD c 0) ≤ tol) :
    t.pivot r c tol = .ok (t.pivoted r c tol) := by
  have hlt : r - 1 < t.basis.length := by omega
  unfold pivot
  rw [h.reduce_eq_ok_iff.mpr ⟨hr', hc, hv, rfl⟩]
  exact (setBasic_eq_ok_iff hr).mpr ⟨hlt, rfl⟩

/-- A pivot in a constraint row succeeds on the cells of the tableau that exceed the tolerance,
and on no others. -/
theorem pivot_eq_ok_iff {t t' : Tableau α} (h : t.Shaped) {r c : ℕ} (hr : 0 < r) {tol : α} :
    t.pivot r c tol = .ok t' ↔
      r ≤ t.rows.length ∧ c < t.columns.length ∧
        ¬ size ((t.matrix.getD r []).getD c 0) ≤ tol ∧ t' = t.pivoted r c tol := by
  constructor
  · exact h.pivot_spec hr
  · rintro ⟨h1, h2, h3, rfl⟩
    exact h.pivot_eq_ok h.basis hr h1 h2 h3

@[simp] lemma pivoted_columns (t : Tableau α) (r c : ℕ) (tol : α) :
    (t.pivoted r c tol).columns = t.columns := rfl

@[simp] lemma pivoted_rhsCol (t : Tableau α) (r c : ℕ) (tol : α) :
    (t.pivoted r c tol).rhsCol = t.rhsCol := rfl

@[simp] lemma pivoted_artificial (t : Tableau α) (r c : ℕ) (tol : α) :
    (t.pivoted r c tol).artificial = t.artificial := rfl

@[simp] lemma pivoted_savedObjective (t : Tableau α) (r c : ℕ) (tol : α) :
    (t.pivoted r c tol).savedObjective = t.savedObjective := rfl

@[simp] lemma pivoted_basis (t : Tableau α) (r c : ℕ) (tol : α) :
    (t.pivoted r c tol).basis = t.basis.set (r - 1) c := rfl

@[simp] lemma length_pivoted_rows (t : Tableau α) (r c : ℕ) (tol : α) :
    (t.pivoted r c tol).rows.length = t.rows.length := by
  simp [pivoted, reduced]

lemma pivoted_basis_get {t : Tableau α} {r c i b : ℕ} {tol : α}
    (hb : (t.pivoted r c tol).basis[i]? = some b) :
    (r - 1 = i ∧ b = c) ∨ (r - 1 ≠ i ∧ t.basis[i]? = some b) := by
  rw [pivoted_basis, List.getElem?_set] at hb
  by_cases hi : r - 1 = i
  · rw [if_pos hi] at hb
    split_ifs at hb
    exact Or.inl ⟨hi, (Option.some.inj hb).symm⟩
  · rw [if_neg hi] at hb
    exact Or.inr ⟨hi, hb⟩

/-- The tableaux differ at most in their numbers and in which columns are basic. -/
structure SameLayout (t u : Tableau α) : Prop where
  columns : u.columns = t.columns
  artificial : u.artificial = t.artificial
  savedObjective : u.savedObjective = t.savedObjective
  rowCount : u.rows.length = t.rows.length
  basisCount : u.basis.length = t.basis.length

omit [Scalar α] in
lemma SameLayout.refl (t : Tableau α) : t.SameLayout t :=
  ⟨rfl, rfl, rfl, rfl, rfl⟩

omit [Scalar α] in
lemma SameLayout.trans {t u v : Tableau α} (h : t.SameLayout u) (h' : u.SameLayout v) :
    t.SameLayout v :=
  ⟨h'.columns.trans h.columns, h'.artificial.trans h.artificial,
    h'.savedObjective.trans h.savedObjective, h'.rowCount.trans h.rowCount,
    h'.basisCount.trans h.basisCount⟩

lemma sameLayout_pivoted (t : Tableau α) (r c : ℕ) (tol : α) :
    t.SameLayout (t.pivoted r c tol) :=
  ⟨rfl, rfl, rfl, t.length_pivoted_rows r c tol, List.length_set ..⟩

/-- Every row of the matrix is treated in the same way, the objective row being row 0. -/
lemma pivoted_row? (t : Tableau α) {r : ℕ} (hr : r ≠ 0) (c : ℕ) (tol : α) (i : ℕ) :
    (t.pivoted r c tol).matrix[i]? = t.matrix[i]?.map fun row =>
      let pivotRow := (t.matrix.getD r []).map (· / (t.matrix.getD r []).getD c 0)
      if i = r then pivotRow else clearColumn tol c pivotRow row := by
  cases i with
  | zero => simp [matrix, pivoted, reduced, hr.symm]
  | succ i =>
    simp only [matrix, pivoted, reduced, List.getElem?_cons_succ, List.getElem?_map,
      List.getElem?_zipIdx, Option.map_map]
    rcases t.rows[i]? with _ | row
    · rfl
    · simp [Nat.add_comm 1 i]

lemma length_clearColumn (tol : α) (c : ℕ) {pivotRow row : List α}
    (h : pivotRow.length = row.length) : (clearColumn tol c pivotRow row).length = row.length := by
  unfold clearColumn
  dsimp only
  split_ifs
  · rw [length_subtractMultiple, h, min_self]
  · rfl

theorem Rectangular.pivoted {t : Tableau α} (h : t.Rectangular) {r : ℕ} (hr : 0 < r)
    (hr' : r ≤ t.rows.length) (c : ℕ) (tol : α) : (t.pivoted r c tol).Rectangular := by
  have hpivot := h.length_getD_matrix hr'
  have hrow : ∀ row ∈ (t.pivoted r c tol).matrix, row.length = t.columns.length := by
    intro row hmem
    obtain ⟨i, hi⟩ := List.mem_iff_getElem?.mp hmem
    rw [pivoted_row? t hr.ne'] at hi
    obtain ⟨old, hold, rfl⟩ := Option.map_eq_some_iff.mp hi
    have hlen := h.length_of_mem_matrix (List.mem_of_getElem? hold)
    dsimp only
    split_ifs
    · rw [List.length_map, hpivot]
    · rw [length_clearColumn _ _ (by rw [List.length_map, hpivot, hlen]), hlen]
  exact ⟨hrow _ (List.mem_cons_self ..), fun row hm => hrow _ (List.mem_cons_of_mem _ hm)⟩

theorem Shaped.pivoted {t : Tableau α} (h : t.Shaped) {r c : ℕ} (hr : 0 < r)
    (hr' : r ≤ t.rows.length) (hc : 0 < c) (hc' : c < t.rhsCol) (tol : α) :
    (t.pivoted r c tol).Shaped := by
  refine ⟨h.toRectangular.pivoted hr hr' c tol, h.width, ?_, ?_, h.saved⟩
  · simp [h.basis]
  · intro b hb
    rcases List.mem_or_eq_of_mem_set hb with hb | rfl
    · exact h.inside b hb
    · exact ⟨hc, hc'⟩

end Pivot

/-- The entry in a row of the matrix and a column, the objective row being row 0. -/
def entry (t : Tableau ℚ) (i j : ℕ) : ℚ :=
  (t.matrix.getD i []).getD j 0

lemma entry_zero (t : Tableau ℚ) (j : ℕ) : t.entry 0 j = t.objective.getD j 0 := rfl

lemma entry_succ (t : Tableau ℚ) (i j : ℕ) : t.entry (i + 1) j = (t.rows.getD i []).getD j 0 := rfl

lemma entry_of_getElem? {t : Tableau ℚ} {i : ℕ} {row : List ℚ} (hi : t.rows[i]? = some row)
    (j : ℕ) : t.entry (i + 1) j = row.getD j 0 := by
  rw [entry_succ, List.getD_eq_getElem?_getD (i := i), hi, Option.getD_some]

lemma entry_of_lt {t : Tableau ℚ} {i : ℕ} (hi : t.rows.length < i) (j : ℕ) : t.entry i j = 0 := by
  have hlen : t.matrix.length ≤ i := hi
  simp [entry, List.getD_eq_getElem?_getD, List.getElem?_eq_none hlen]

lemma Rectangular.objective_get? {t : Tableau ℚ} (h : t.Rectangular) {j : ℕ}
    (hj : j < t.columns.length) : t.objective[j]? = some (t.entry 0 j) := by
  have hj' : j < t.objective.length := h.objective ▸ hj
  rw [entry_zero, List.getD_eq_getElem _ _ hj', List.getElem?_eq_getElem hj']

lemma Rectangular.rhsOf_objective {t : Tableau ℚ} (h : t.Rectangular) :
    rhsOf t.objective = t.entry 0 t.rhsCol := by
  rw [rhsOf_eq_getD, h.objective, entry_zero]
  rfl

lemma Rectangular.rhsOf_row {t : Tableau ℚ} (h : t.Rectangular) {i : ℕ} {row : List ℚ}
    (hi : t.rows[i]? = some row) : rhsOf row = t.entry (i + 1) t.rhsCol := by
  rw [rhsOf_eq_getD, h.rows row (List.mem_of_getElem? hi), entry_of_getElem? hi]
  rfl

/-- The effect of a pivot on every entry. Rows whose entry in the pivot column is within the
tolerance stay as they are. -/
theorem Rectangular.entry_pivoted {t : Tableau ℚ} (h : t.Rectangular) {r : ℕ} (hr : 0 < r)
    (hr' : r ≤ t.rows.length) (c : ℕ) (tol : ℚ) (i j : ℕ) :
    (t.pivoted r c tol).entry i j =
      if i = r then t.entry r j / t.entry r c
      else if tol < |t.entry i c| then t.entry i j - t.entry i c * (t.entry r j / t.entry r c)
      else t.entry i j := by
  by_cases hi : i < t.matrix.length
  · have hlt : r < t.matrix.length := Nat.lt_succ_of_le hr'
    have hlen := h.length_of_mem_matrix (List.getElem_mem hi)
    have hpivot := h.length_of_mem_matrix (List.getElem_mem hlt)
    have hnew : (t.pivoted r c tol).matrix.getD i [] =
        if i = r then t.matrix[r].map (· / t.entry r c)
        else clearColumn tol c (t.matrix[r].map (· / t.entry r c)) t.matrix[i] := by
      rw [List.getD_eq_getElem?_getD, pivoted_row? t hr.ne', List.getElem?_eq_getElem hi]
      simp only [Option.map_some, Option.getD_some, List.getD_eq_getElem _ _ hlt, entry]
    have hold : ∀ k, t.entry i k = t.matrix[i].getD k 0 := fun k => by
      rw [entry, List.getD_eq_getElem _ _ hi]
    have hold' : ∀ k, t.entry r k = t.matrix[r].getD k 0 := fun k => by
      rw [entry, List.getD_eq_getElem _ _ hlt]
    rw [entry, hnew]
    by_cases hir : i = r
    · rw [if_pos hir, if_pos hir, getD_map_div, ← hold']
    · rw [if_neg hir, if_neg hir]
      simp only [clearColumn, size_eq_abs, ← hold]
      split_ifs
      · rw [getD_subtractMultiple (by rw [List.length_map, hpivot, hlen]), getD_map_div, ← hold,
          ← hold']
      · rw [← hold]
  · have hout : t.rows.length < i := not_lt.mp hi
    have hir : i ≠ r := by omega
    rw [entry_of_lt (by simpa using hout), if_neg hir]
    simp [entry_of_lt hout]

end Tableau

end SimplexTableau
