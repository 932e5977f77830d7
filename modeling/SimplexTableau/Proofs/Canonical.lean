import SimplexTableau.Proofs.Common

/-!
# Canonical form

A tableau is canonical if every basic column is a unit column. Pivots on clean columns, whose
entries vanish or exceed the tolerance, keep it canonical: no elimination is skipped that would
leave a residue. The ratio test keeps right-hand sides from becoming negative and the objective
value from falling, on clean columns or not.
-/

namespace SimplexTableau

namespace Tableau

/-- Every entry of a column vanishes or exceeds the tolerance. -/
def CleanColumn (t : Tableau ℚ) (tol : ℚ) (c : ℕ) : Prop :=
  ∀ row ∈ t.matrix, row.getD c 0 = 0 ∨ tol < size (row.getD c 0)

instance (t : Tableau ℚ) (tol : ℚ) (c : ℕ) : Decidable (t.CleanColumn tol c) :=
  inferInstanceAs (Decidable (∀ row ∈ t.matrix, row.getD c 0 = 0 ∨ tol < size (row.getD c 0)))

/-- Every entering column that a run under a cap examines is clean. -/
def CleanRun (tol : ℚ) (blocked : List ℕ) (cap : ℕ) (t : Tableau ℚ) : Prop :=
  ∀ n u c, n < cap → Pivots tol blocked n t u → u.entering tol blocked = some c →
    u.CleanColumn tol c

/-- Every basic column is a unit column. -/
structure Canonical (t : Tableau ℚ) : Prop where
  rows : ∀ (i b : ℕ), t.basis[i]? = some b → ∀ k, t.entry (k + 1) b = if k = i then 1 else 0
  objective : ∀ (i b : ℕ), t.basis[i]? = some b → t.entry 0 b = 0

/-- No right-hand side of a constraint row is negative. -/
def NonnegRhs (t : Tableau ℚ) : Prop :=
  ∀ i, 0 ≤ t.entry (i + 1) t.rhsCol

/-- No artificial variable has a value above a bound. -/
def ArtificialsWithin (bound : ℚ) (t : Tableau ℚ) : Prop :=
  ∀ (k b : ℕ), t.basis[k]? = some b → b ∈ t.artificial → t.entry (k + 1) t.rhsCol ≤ bound

variable {tol : ℚ} {blocked : List ℕ} {t t' u : Tableau ℚ} {r c cap n : ℕ}

lemma CleanColumn.entry (h : t.CleanColumn tol c) (i : ℕ) :
    t.entry i c = 0 ∨ tol < |t.entry i c| := by
  by_cases hi : i < t.matrix.length
  · have hrow := h _ (List.getElem_mem hi)
    rw [size_eq_abs] at hrow
    rw [Tableau.entry, List.getD_eq_getElem _ _ hi]
    exact hrow
  · exact Or.inl (entry_of_lt (not_lt.mp hi) c)

section Pivot

lemma Rectangular.entry_pivoted_clean (h : t.Rectangular) (hr : 0 < r) (hr' : r ≤ t.rows.length)
    (hc : t.CleanColumn tol c) (i j : ℕ) :
    (t.pivoted r c tol).entry i j =
      if i = r then t.entry r j / t.entry r c
      else t.entry i j - t.entry i c * (t.entry r j / t.entry r c) := by
  rw [h.entry_pivoted hr hr']
  rcases hc.entry i with h0 | hlt
  · rw [h0, zero_mul, sub_zero, ite_self]
  · rw [if_pos hlt]

theorem Rectangular.canonical_pivoted (h : t.Rectangular) (hcan : t.Canonical) (hr : 0 < r)
    (hr' : r ≤ t.rows.length) (hv : t.entry r c ≠ 0) (hc : t.CleanColumn tol c) :
    (t.pivoted r c tol).Canonical := by
  have hs : r - 1 + 1 = r := by omega
  constructor
  · intro i b hb k
    rw [h.entry_pivoted_clean hr hr' hc]
    rcases pivoted_basis_get hb with ⟨hi, rfl⟩ | ⟨hi, hb⟩
    · by_cases hk : k + 1 = r
      · rw [if_pos hk, if_pos (by omega), div_self hv]
      · rw [if_neg hk, if_neg (by omega), div_self hv, mul_one, sub_self]
    · have hz : t.entry r b = 0 := by
        have hrow := hcan.rows i b hb (r - 1)
        rwa [hs, if_neg hi] at hrow
      rw [hz, zero_div, mul_zero, sub_zero, hcan.rows i b hb]
      by_cases hk : k + 1 = r
      · rw [if_pos hk, if_neg (by omega)]
      · rw [if_neg hk]
  · intro i b hb
    rw [h.entry_pivoted_clean hr hr' hc, if_neg hr.ne]
    rcases pivoted_basis_get hb with ⟨-, rfl⟩ | ⟨hi, hb⟩
    · rw [div_self hv, mul_one, sub_self]
    · have hz : t.entry r b = 0 := by
        have hrow := hcan.rows i b hb (r - 1)
        rwa [hs, if_neg hi] at hrow
      rw [hz, zero_div, mul_zero, sub_zero, hcan.objective i b hb]

/-- The least ratio keeps every right-hand side from becoming negative. -/
theorem Rectangular.nonnegRhs_exchange (h : t.Rectangular) (htol : 0 ≤ tol)
    (hx : t.Exchanges tol blocked t') (hn : t.NonnegRhs) : t'.NonnegRhs := by
  obtain ⟨row, col, -, hl, hr, hr', -, -, -, rfl⟩ := h.exchange_spec hx
  have hs : row - 1 + 1 = row := by omega
  have hv : tol < t.entry row col := (leaving_inside hl).2.2
  have hpos : 0 < t.entry row col := htol.trans_lt hv
  have hrow : 0 ≤ t.entry row t.rhsCol := hs ▸ hn (row - 1)
  have hratio : 0 ≤ t.entry row t.rhsCol / t.entry row col := div_nonneg hrow hpos.le
  intro i
  rw [pivoted_rhsCol, h.entry_pivoted hr hr']
  have hi := hn i
  split_ifs with hir hlt
  · exact hratio
  · by_cases hneg : t.entry (i + 1) col < 0
    · have hmul := mul_nonpos_of_nonpos_of_nonneg hneg.le hratio
      linarith
    · have hlt' : tol < t.entry (i + 1) col := by
        rwa [abs_of_nonneg (not_lt.mp hneg)] at hlt
      have hin : i + 1 ≤ t.rows.length := by
        by_contra hout
        rw [entry_of_lt (not_le.mp hout)] at hlt'
        linarith
      have hleast := h.leaving_least hl (i + 1) (Nat.succ_pos i) hin hlt'
      have hmul := mul_le_mul_of_nonneg_left hleast (not_lt.mp hneg)
      rw [mul_div_cancel₀ _ (htol.trans_lt hlt').ne'] at hmul
      linarith
  · exact hi

lemma Rectangular.objective_exchange (h : t.Rectangular) (htol : 0 ≤ tol) (hn : t.NonnegRhs)
    (hx : t.Exchanges tol blocked t') : t.entry 0 t.rhsCol ≤ t'.entry 0 t'.rhsCol := by
  obtain ⟨row, col, he, hl, hr, hr', -, -, -, rfl⟩ := h.exchange_spec hx
  have hs : row - 1 + 1 = row := by omega
  have hpos : 0 < t.entry row col := htol.trans_lt (leaving_inside hl).2.2
  have hneg : t.entry 0 col ≤ 0 := by
    have hlt := (h.entering_least he).1
    linarith
  have hratio : 0 ≤ t.entry row t.rhsCol / t.entry row col :=
    div_nonneg (hs ▸ hn (row - 1)) hpos.le
  have hmul := mul_nonpos_of_nonpos_of_nonneg hneg hratio
  rw [pivoted_rhsCol, h.entry_pivoted hr hr', if_neg hr.ne]
  split_ifs
  · linarith
  · exact le_rfl

end Pivot

section Runs

lemma CleanRun.step (h : CleanRun tol blocked (cap + 1) t) (hx : t.Exchanges tol blocked t') :
    CleanRun tol blocked cap t' :=
  fun n u c hn hp he => h (n + 1) u c (Nat.succ_lt_succ hn) (Pivots.step hx hp) he

lemma CleanRun.mono {cap' : ℕ} (h : CleanRun tol blocked cap' t) (hle : cap ≤ cap') :
    CleanRun tol blocked cap t :=
  fun n u c hn hp he => h n u c (hn.trans_le hle) hp he

theorem Shaped.canonical_exchange (h : t.Shaped) (htol : 0 ≤ tol) (hcan : t.Canonical)
    (hclean : CleanRun tol blocked (cap + 1) t) (hx : t.Exchanges tol blocked t') :
    t'.Canonical := by
  obtain ⟨row, col, he, hl, hr, hr', -, -, -, rfl⟩ := h.exchange_spec hx
  have hc := hclean 0 t col (Nat.succ_pos cap) (Pivots.refl t) he
  have hv : tol < t.entry row col := (leaving_inside hl).2.2
  exact h.canonical_pivoted hcan hr hr' (htol.trans_lt hv).ne' hc

theorem Shaped.canonical_pivots (h : t.Shaped) (htol : 0 ≤ tol) (hcan : t.Canonical)
    (hclean : CleanRun tol blocked cap t) (hp : Pivots tol blocked n t u) (hn : n ≤ cap) :
    u.Canonical := by
  induction hp generalizing cap with
  | refl t => exact hcan
  | step hx _ ih =>
    obtain ⟨cap, rfl⟩ : ∃ k, cap = k + 1 := ⟨cap - 1, by omega⟩
    have hcan' := h.canonical_exchange htol hcan hclean hx
    exact ih (h.exchanges hx) hcan' (hclean.step hx) (Nat.le_of_succ_le_succ hn)

theorem Rectangular.nonnegRhs_pivots (h : t.Rectangular) (htol : 0 ≤ tol) (hn : t.NonnegRhs)
    (hp : Pivots tol blocked n t u) : u.NonnegRhs := by
  have hboth : u.Rectangular ∧ u.NonnegRhs :=
    hp.invariant (P := fun a => a.Rectangular ∧ a.NonnegRhs)
      (fun a b ha hx => ⟨ha.1.exchanges hx, ha.1.nonnegRhs_exchange htol hx ha.2⟩) ⟨h, hn⟩
  exact hboth.2

lemma Rectangular.objective_pivots (h : t.Rectangular) (htol : 0 ≤ tol) (hn : t.NonnegRhs)
    (hp : Pivots tol blocked n t u) : t.entry 0 t.rhsCol ≤ u.entry 0 u.rhsCol := by
  induction hp with
  | refl t => exact le_rfl
  | step hx _ ih =>
    have hstep := h.objective_exchange htol hn hx
    exact hstep.trans (ih (h.exchanges hx) (h.nonnegRhs_exchange htol hx hn))

/-- Whether a run ends within a number of tableaux and examines clean columns only. -/
def endsClean (tol : ℚ) (blocked : List ℕ) : ℕ → Tableau ℚ → Bool
  | 0, _ => false
  | fuel + 1, t =>
    match t.move tol blocked with
    | .optimal => true
    | .unbounded c => t.CleanColumn tol c
    | .exchange r c => t.CleanColumn tol c && endsClean tol blocked fuel (t.pivoted r c tol)
    | .limit => false

/-- A run that ends on clean columns is clean under every cap. -/
theorem Shaped.cleanRun (h : t.Shaped) {fuel : ℕ} (hc : endsClean tol blocked fuel t = true) :
    CleanRun tol blocked cap t := by
  induction fuel generalizing t cap with
  | zero => cases hc
  | succ fuel ih =>
    rw [endsClean] at hc
    intro n u c hn hp he
    cases hp with
    | refl =>
      cases hm : t.move tol blocked with
      | optimal =>
        rw [move_eq_optimal_iff, he] at hm
        cases hm
      | limit => exact (move_ne_limit hm).elim
      | unbounded d =>
        simp only [hm, decide_eq_true_eq] at hc
        have hd := (move_eq_unbounded_iff.mp hm).1
        rw [he] at hd
        cases hd
        exact hc
      | exchange r d =>
        simp only [hm, Bool.and_eq_true, decide_eq_true_eq] at hc
        have hd := (move_eq_exchange_iff.mp hm).1
        rw [he] at hd
        cases hd
        exact hc.1
    | @step n _ t' _ hx rest =>
      obtain ⟨cap, rfl⟩ : ∃ k, cap = k + 1 := ⟨cap - 1, by omega⟩
      obtain ⟨r, d, he', hl, hr, hr', hd, hd', -, rfl⟩ := h.exchange_spec hx
      have hm := move_eq_exchange_iff.mpr ⟨he', hl⟩
      simp only [hm, Bool.and_eq_true] at hc
      exact ih (h.pivoted hr hr' hd hd' tol) hc.2 n u c (Nat.lt_of_succ_lt_succ hn) rest he

end Runs

end Tableau

namespace Problem

section Start

variable {p : Problem ℚ} {m : Method} {o : SolveOptions ℚ} {t : Tableau ℚ}

lemma canonical_plain (p : Problem ℚ) : p.plain.Canonical := by
  constructor
  · intro i b hb k
    obtain ⟨c, hi, rfl⟩ := plain_basis_eq hb
    cases hk : p.standard[k]? with
    | none =>
      have hki : k ≠ i := by
        rintro rfl
        rw [hi] at hk
        cases hk
      rw [plain_entry_of_none hk, if_neg hki]
    | some d =>
      rw [plain_entry_succ hk (get_idxOf (basicColumn_mem hi))]
      unfold Constraint.basicColumn
      split_ifs with hrel hki hki <;> simp only [Constraint.entry]
      · rw [if_pos hki.symm]
      · rw [if_neg (Ne.symm hki)]
      · rw [if_pos hki.symm]
      · rw [if_neg (Ne.symm hki)]
  · intro i b hb
    obtain ⟨c, hi, rfl⟩ := plain_basis_eq hb
    rw [plain_entry_zero (get_idxOf (basicColumn_mem hi))]
    unfold Constraint.basicColumn
    split_ifs <;> rfl

/-- The rows with an artificial basic column sum to one on such a column and to zero on any other
basic column. -/
lemma Valid.artificialSum_basic (hp : p.Valid) {i b : ℕ} (hb : p.plain.basis[i]? = some b) :
    p.plain.artificialSum b = if b ∈ p.plain.artificial then 1 else 0 := by
  have hlt : i < p.plain.rows.length := by
    rw [← hp.shaped_plain.basis]
    exact (List.getElem?_eq_some_iff.mp hb).1
  have hget : p.plain.basis.getD i 0 = b := by
    rw [List.getD_eq_getElem?_getD, hb, Option.getD_some]
  rw [hp.shaped_plain.artificialSum_eq, Finset.sum_eq_single i]
  · rw [hget, p.canonical_plain.rows i b hb, if_pos rfl]
  · intro k _ hk
    rw [p.canonical_plain.rows i b hb, if_neg hk, ite_self]
  · intro hi
    exact (hi (Finset.mem_range.mpr hlt)).elim

lemma StartsOn.canonical (hp : p.Valid) (h : p.StartsOn m o t) : t.Canonical := by
  have hrows : ∀ (i b : ℕ), t.basis[i]? = some b →
      ∀ k, t.entry (k + 1) b = if k = i then 1 else 0 := by
    intro i b hb k
    rw [h.entry_succ]
    exact p.canonical_plain.rows i b (h.same.2.2.1 ▸ hb) k
  refine ⟨hrows, ?_⟩
  intro i b hb
  rw [h.same.2.2.1] at hb
  have hsum := hp.artificialSum_basic hb
  have hlt : b < p.plain.columns.length := by
    have hin := (hp.shaped_plain.inside b (List.mem_of_getElem? hb)).2
    have hw := hp.shaped_plain.rhsCol_add_one
    omega
  have hpos : b ≠ 0 := (hp.shaped_plain.inside b (List.mem_of_getElem? hb)).1.ne'
  cases h with
  | plain => exact p.canonical_plain.objective i b hb
  | charged =>
    rw [(hp.shaped_plain.charged_spec _).2 b hlt, hsum, p.canonical_plain.objective i b hb]
    split_ifs
    · rw [mul_one, sub_self]
    · rw [mul_zero, sub_zero]
  | phaseOne =>
    rw [hp.shaped_plain.phaseOne_spec.2 b hlt, hsum]
    simp only [hpos, false_or, sub_self]

lemma standardised_rhs_nonneg (c : Constraint ℚ) : 0 ≤ c.standardised.rhs := by
  unfold Constraint.standardised
  split_ifs with hneg
  · exact neg_nonneg.mpr hneg.le
  · exact not_lt.mp hneg

lemma StartsOn.nonnegRhs (h : p.StartsOn m o t) : t.NonnegRhs := by
  intro i
  have hcol : t.rhsCol = p.columns.length - 1 := by
    rw [Tableau.rhsCol, h.same.1]
  rw [h.entry_succ, hcol]
  cases hi : p.standard[i]? with
  | none => rw [plain_entry_of_none hi]
  | some c =>
    rw [plain_entry_succ hi p.columns_get_last]
    obtain ⟨d, -, rfl⟩ := List.mem_map.mp (List.mem_of_getElem? hi)
    exact standardised_rhs_nonneg d

end Start

end Problem

end SimplexTableau
