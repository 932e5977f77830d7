import Mathlib.Algebra.BigOperators.GroupWithZero.Action
import SimplexTableau.Proofs.Canonical
import SimplexTableau.Proofs.Points
import SimplexTableau.Proofs.Replay

/-!
# The basis determines the tableau

Row operations with the rows that have a basic column keep the combinations of these rows, and all
other rows, the objective row among them, change by such a combination. In canonical form a
combination is known from its entries in the basic columns. So whatever pivots lead from a canonical
tableau to a basis, they lead to the same tableau, and a pivot is undone by letting the column that
it removed from the basis enter again.
-/

namespace SimplexTableau

namespace Tableau

/-- The rows that have a basic column. -/
def basicRows {α : Type} (t : Tableau α) : Set ℕ :=
  {i | 0 < i ∧ i ≤ t.basis.length}

/-- What row operations with the rows that have a basic column do to a tableau. -/
structure BasisEquivalent (t u : Tableau ℚ) : Prop where
  sameLayout : t.SameLayout u
  rowSpan : u.rowSpan t.basicRows = t.rowSpan t.basicRows
  others : ∀ i, i ∉ t.basicRows → u.entry i - t.entry i ∈ t.rowSpan t.basicRows

variable {t t' u v : Tableau ℚ} {r c b : ℕ}

namespace BasisEquivalent

lemma refl (t : Tableau ℚ) : t.BasisEquivalent t :=
  ⟨SameLayout.refl t, rfl, fun i _ => by rw [sub_self]; exact Submodule.zero_mem _⟩

lemma basicRows_eq (h : t.BasisEquivalent u) : u.basicRows = t.basicRows := by
  rw [basicRows, basicRows, h.sameLayout.basisCount]

/-- Every row changes by a combination of the rows that have a basic column. -/
lemma sub_mem (h : t.BasisEquivalent u) (i : ℕ) :
    u.entry i - t.entry i ∈ t.rowSpan t.basicRows := by
  by_cases hi : i ∈ t.basicRows
  · have hmem := u.entry_mem_rowSpan hi
    rw [h.rowSpan] at hmem
    exact Submodule.sub_mem _ hmem (t.entry_mem_rowSpan hi)
  · exact h.others i hi

lemma symm (h : t.BasisEquivalent u) : u.BasisEquivalent t := by
  obtain ⟨hcolumns, hartificial, hsaved, hrows, hbasis⟩ := h.sameLayout
  refine ⟨⟨hcolumns.symm, hartificial.symm, hsaved.symm, hrows.symm, hbasis.symm⟩, ?_, ?_⟩
  · rw [h.basicRows_eq, h.rowSpan]
  · intro i _
    rw [h.basicRows_eq, h.rowSpan, ← neg_sub]
    exact Submodule.neg_mem _ (h.sub_mem i)

lemma trans (h : t.BasisEquivalent t') (h' : t'.BasisEquivalent u) : t.BasisEquivalent u := by
  have hspan := h'.rowSpan
  rw [h.basicRows_eq, h.rowSpan] at hspan
  refine ⟨h.sameLayout.trans h'.sameLayout, hspan, fun i _ => ?_⟩
  have hmem := h'.sub_mem i
  rw [h.basicRows_eq, h.rowSpan] at hmem
  have hsum := Submodule.add_mem _ hmem (h.sub_mem i)
  rwa [sub_add_sub_cancel] at hsum

end BasisEquivalent

/-- With a basic column for every row, row operations keep the combinations of those rows. -/
lemma Shaped.basisEquivalent (h : t.Shaped) (hu : u.Shaped) (he : t.RowEquivalent u) :
    t.BasisEquivalent u := by
  have hcount : u.basis.length = t.basis.length := by
    rw [hu.basis, h.basis, he.rowCount]
  have hspan : ∀ w : Tableau ℚ, w.rows.length = t.rows.length →
      w.rowSpan t.basicRows = w.rowSpace := by
    intro w hw
    rw [rowSpace_eq]
    apply le_antisymm
    · exact Submodule.span_mono (Set.image_mono fun i hi => hi.1)
    · apply Submodule.span_le.mpr
      rintro _ ⟨i, hi, rfl⟩
      by_cases hle : i ≤ t.rows.length
      · exact w.entry_mem_rowSpan ⟨hi, h.basis ▸ hle⟩
      · have hzero : w.entry i = 0 := funext fun j => entry_of_lt (by omega) j
        rw [hzero]
        exact Submodule.zero_mem _
  refine ⟨⟨he.columns, he.artificial, he.savedObjective, he.rowCount, hcount⟩, ?_, ?_⟩
  · rw [hspan u he.rowCount, hspan t rfl, he.rowSpace]
  · intro i hi
    rw [hspan t rfl]
    cases i with
    | zero => exact he.objective
    | succ i =>
      exact Submodule.sub_mem _ (he.rowSpace ▸ u.entry_mem_rowSpace i) (t.entry_mem_rowSpace i)

/-- A pivot in a row that has a basic column is a row operation with such rows. -/
theorem Rectangular.basisEquivalent_pivoted (h : t.Rectangular) (hr : 0 < r)
    (hr' : r ≤ t.rows.length) (hb : r ≤ t.basis.length) (hv : t.entry r c ≠ 0) (tol : ℚ) :
    t.BasisEquivalent (t.pivoted r c tol) := by
  have hmem : r ∈ t.basicRows := ⟨hr, hb⟩
  refine ⟨t.sameLayout_pivoted r c tol, h.rowSpan_pivoted hr hr' hv tol hmem, ?_⟩
  intro i hi
  have hne : i ≠ r := by
    rintro rfl
    exact hi hmem
  rw [h.entry_pivoted_of_ne hr hr' c tol hne, sub_sub_cancel_left, h.entry_pivoted_self hr hr']
  exact Submodule.neg_mem _ (Submodule.smul_mem _ _ (Submodule.smul_mem _ _
    (t.entry_mem_rowSpan hmem)))

namespace Canonical

lemma entry_basic (h : t.Canonical) {k : ℕ} (hb : t.basis[k]? = some b) (i : ℕ) :
    t.entry i b = if i = k + 1 then 1 else 0 := by
  cases i with
  | zero => rw [h.objective k b hb, if_neg (Nat.succ_ne_zero k).symm]
  | succ i => simp only [h.rows k b hb, Nat.add_right_cancel_iff]

/-- A combination of the rows that have a basic column has its entries in the basic columns as
coefficients. -/
lemma eq_sum (h : t.Canonical) {f : ℕ → ℚ} (hf : f ∈ t.rowSpan t.basicRows) :
    f = ∑ k ∈ Finset.range t.basis.length, f (t.basis.getD k 0) • t.entry (k + 1) := by
  induction hf using Submodule.span_induction with
  | mem f hf =>
    obtain ⟨i, ⟨hpos, hle⟩, rfl⟩ := hf
    have hterm : ∀ k ∈ Finset.range t.basis.length,
        t.entry i (t.basis.getD k 0) • t.entry (k + 1) =
          if i - 1 = k then t.entry (k + 1) else 0 := by
      intro k hk
      have hlt := Finset.mem_range.mp hk
      have hb : t.basis[k]? = some (t.basis.getD k 0) := by
        rw [List.getElem?_eq_getElem hlt, List.getD_eq_getElem]
      rw [h.entry_basic hb]
      by_cases hik : i = k + 1
      · rw [if_pos hik, if_pos (by omega), one_smul]
      · rw [if_neg hik, if_neg (by omega), zero_smul]
    rw [Finset.sum_congr rfl hterm, Finset.sum_ite_eq,
      if_pos (Finset.mem_range.mpr (by omega)), Nat.sub_add_cancel hpos]
  | zero => simp
  | add f g _ _ hf hg =>
    simp only [Pi.add_apply, add_smul, Finset.sum_add_distrib]
    rw [← hf, ← hg]
  | smul a f _ hf =>
    simp only [Pi.smul_apply, smul_assoc, ← Finset.smul_sum]
    exact congrArg (a • ·) hf

lemma eq_zero (h : t.Canonical) {f : ℕ → ℚ} (hf : f ∈ t.rowSpan t.basicRows)
    (hz : ∀ b ∈ t.basis, f b = 0) : f = 0 := by
  rw [h.eq_sum hf]
  apply Finset.sum_eq_zero
  intro k hk
  have hlt := Finset.mem_range.mp hk
  rw [List.getD_eq_getElem _ _ hlt, hz _ (List.getElem_mem hlt), zero_smul]

end Canonical

lemma eq_of_getD {l l' : List ℚ} (hlen : l.length = l'.length)
    (h : ∀ j, l.getD j 0 = l'.getD j 0) : l = l' := by
  apply List.ext_getElem hlen
  intro j hj hj'
  have he := h j
  rwa [List.getD_eq_getElem _ _ hj, List.getD_eq_getElem _ _ hj'] at he

lemma Rectangular.eq_of_entry (h : t.Rectangular) (hu : u.Rectangular) (hl : t.SameLayout u)
    (hb : u.basis = t.basis) (he : ∀ i, u.entry i = t.entry i) : u = t := by
  have hobjective : u.objective = t.objective := by
    apply eq_of_getD
    · rw [hu.objective, h.objective, hl.columns]
    · intro j
      exact congrFun (he 0) j
  have hrows : u.rows = t.rows := by
    apply List.ext_getElem hl.rowCount
    intro i hi hi'
    apply eq_of_getD
    · rw [hu.rows _ (List.getElem_mem hi), h.rows _ (List.getElem_mem hi'), hl.columns]
    · intro j
      have hj := congrFun (he (i + 1)) j
      rwa [entry_of_getElem? (List.getElem?_eq_getElem hi),
        entry_of_getElem? (List.getElem?_eq_getElem hi')] at hj
  obtain ⟨hcolumns, hartificial, hsaved, -, -⟩ := hl
  cases t
  cases u
  simp only [Tableau.mk.injEq]
  exact ⟨hcolumns, hobjective, hrows, hb, hartificial, hsaved⟩

/-- Canonical tableaux that row operations lead to from each other are equal if they have the same
basis: the difference of two rows is a combination of basic rows, and it vanishes on the basis. -/
theorem BasisEquivalent.eq_of_basis (he : t.BasisEquivalent u) (ht : t.Rectangular)
    (hu : u.Rectangular) (hct : t.Canonical) (hcu : u.Canonical) (hb : u.basis = t.basis) :
    u = t := by
  apply ht.eq_of_entry hu he.sameLayout hb
  intro i
  apply sub_eq_zero.mp
  apply hct.eq_zero (he.sub_mem i)
  intro b hmem
  obtain ⟨k, hk⟩ := List.mem_iff_getElem?.mp hmem
  rw [Pi.sub_apply, hct.entry_basic hk, hcu.entry_basic (by rwa [hb]), sub_self]

/-- Canonical tableaux with the same rows and the same basis are equal. -/
theorem Shaped.eq_of_basis (hu : u.Shaped) (hv : v.Shaped) (hcu : u.Canonical) (hcv : v.Canonical)
    (he : u.RowEquivalent v) (hb : v.basis = u.basis) : v = u :=
  (hu.basisEquivalent hv he).eq_of_basis hu.toRectangular hv.toRectangular hcu hcv hb

section Zero

lemma cleanColumn_zero (t : Tableau ℚ) (c : ℕ) : t.CleanColumn 0 c := by
  intro row _
  rw [size_eq_abs, abs_pos]
  exact eq_or_ne _ _

/-- A canonical tableau that row operations with basic rows lead to from another one. -/
structure Reduces (t u : Tableau ℚ) : Prop extends t.BasisEquivalent u where
  rectangular : u.Rectangular
  canonical : u.Canonical

lemma Reduces.eq_of_basis (hu : t.Reduces u) (hv : t.Reduces v) (hb : u.basis = v.basis) : u = v :=
  (hv.toBasisEquivalent.symm.trans hu.toBasisEquivalent).eq_of_basis hv.rectangular hu.rectangular
    hv.canonical hu.canonical hb

lemma Reduces.pivot (h : t.Reduces u) (hr : 0 < r) (hp : u.pivot r c 0 = .ok v) : t.Reduces v := by
  obtain ⟨hr', -, hsize, he⟩ := h.rectangular.pivot_spec hr hp
  obtain ⟨-, -, -, hlt, -⟩ := (pivot_eq_ok hr).mp hp
  rw [size_eq_abs, not_le, abs_pos] at hsize
  have hv : u.entry r c ≠ 0 := hsize
  rw [he]
  refine ⟨h.toBasisEquivalent.trans ?_, h.rectangular.pivoted hr hr' c 0, ?_⟩
  · exact h.rectangular.basisEquivalent_pivoted hr hr' (by omega) hv 0
  · exact h.rectangular.canonical_pivoted h.canonical hr hr' hv (u.cleanColumn_zero c)

lemma Reduces.replay (h : t.Reduces u) {cells : List (ℕ × ℕ)} (hcells : ∀ cell ∈ cells, 0 < cell.1)
    (hr : u.replay 0 cells = .ok v) : t.Reduces v := by
  induction cells generalizing u with
  | nil =>
    cases hr
    exact h
  | cons cell cells ih =>
    obtain ⟨hpos, hcells⟩ := List.forall_mem_cons.mp hcells
    obtain ⟨u', hp, hr⟩ := bind_eq_ok.mp hr
    exact ih (h.pivot hpos hp) hcells hr

/-- The column that a pivot removed from the basis can be pivoted on in its row. -/
lemma Rectangular.pivot_back (h : t.Rectangular) (hcan : t.Canonical) (hr : 0 < r)
    (hb : t.basis[r - 1]? = some b) (hp : t.pivot r c 0 = .ok t') :
    ∃ u, t'.pivot r b 0 = .ok u ∧ u.basis = t.basis := by
  obtain ⟨hr', -, hsize, rfl⟩ := h.pivot_spec hr hp
  rw [size_eq_abs, not_le, abs_pos] at hsize
  have hv : t.entry r c ≠ 0 := hsize
  have hone : t.entry r b = 1 := by
    rw [hcan.entry_basic hb, if_pos (by omega)]
  have hcol : b < t.columns.length := by
    rw [← h.length_getD_matrix hr']
    by_contra hle
    rw [entry, List.getD_eq_default _ _ (not_lt.mp hle)] at hone
    exact zero_ne_one hone
  obtain ⟨hlt, hget⟩ := List.getElem?_eq_some_iff.mp hb
  have hrect := h.pivoted hr hr' c 0
  have hentry : (t.pivoted r c 0).entry r b = (t.entry r c)⁻¹ := by
    rw [h.entry_pivoted_self hr hr', Pi.smul_apply, hone, smul_eq_mul, mul_one]
  have hne : (t.pivoted r c 0).entry r b ≠ 0 := hentry ▸ inv_ne_zero hv
  refine ⟨(t.pivoted r c 0).pivoted r b 0, (Tableau.pivot_eq_ok hr).mpr
    ⟨(t.pivoted r c 0).entry r b, ?_, ?_, ?_, rfl⟩, ?_⟩
  · exact (cell?_eq_some_iff hrect).mpr ⟨by simpa using hr', hcol, rfl⟩
  · rwa [size_eq_abs, not_le, abs_pos]
  · rwa [pivoted_basis, List.length_set]
  · rw [pivoted_basis, pivoted_basis, List.set_set, ← hget]
    exact List.set_getElem_self hlt

end Zero

/-- Sequences of pivots in constraint rows that lead from a canonical tableau to the same basis lead
to the same tableau, and a pivot is undone by a pivot on the column that left the basis. -/
theorem basis_determines (h : t.Rectangular) (hcan : t.Canonical) :
    (∀ (cells cells' : List (ℕ × ℕ)) (u v : Tableau ℚ), (∀ cell ∈ cells, 0 < cell.1) →
      (∀ cell ∈ cells', 0 < cell.1) → t.replay 0 cells = .ok u → t.replay 0 cells' = .ok v →
        u.basis = v.basis → u = v) ∧
      ∀ (r c b : ℕ) (t' : Tableau ℚ), 0 < r → t.basis[r - 1]? = some b →
        t.pivot r c 0 = .ok t' → t'.pivot r b 0 = .ok t := by
  have hstart : t.Reduces t := ⟨BasisEquivalent.refl t, h, hcan⟩
  constructor
  · intro cells cells' u v hcells hcells' hu hv hb
    exact (hstart.replay hcells hu).eq_of_basis (hstart.replay hcells' hv) hb
  · intro r c b t' hr hb hp
    obtain ⟨u, hback, hbasis⟩ := h.pivot_back hcan hr hb hp
    rw [hback, ((hstart.pivot hr hp).pivot hr hback).eq_of_basis hstart hbasis]

theorem basis_determines_diet :
    ∃ u v w : Tableau ℚ, Problem.diet.plain.replay 0 [(1, 1), (2, 2)] = .ok u ∧
      Problem.diet.plain.replay 0 [(1, 2), (2, 1), (1, 3), (2, 2), (1, 1)] = .ok v ∧
      u.basis = [1, 2] ∧ v.basis = [1, 2] ∧ u = v ∧
      Problem.diet.plain.pivot 2 1 0 = .ok w ∧ w.pivot 2 6 0 = .ok Problem.diet.plain := by
  obtain ⟨u, hu, hub⟩ := exists_ok_of_any (by decide +kernel :
    (Problem.diet.plain.replay 0 [(1, 1), (2, 2)]).toOption.any (·.basis = [1, 2]) = true)
  obtain ⟨v, hv, hvb⟩ := exists_ok_of_any (by decide +kernel :
    (Problem.diet.plain.replay 0 [(1, 2), (2, 1), (1, 3), (2, 2), (1, 1)]).toOption.any
      (·.basis = [1, 2]) = true)
  obtain ⟨w, hw, -⟩ := exists_ok_of_any (by decide +kernel :
    (Problem.diet.plain.pivot 2 1 0).toOption.any (·.basis = [5, 1]) = true)
  have hshape := Problem.diet_valid.shaped_plain
  obtain ⟨hsame, hback⟩ := basis_determines hshape.toRectangular Problem.diet.canonical_plain
  have hub' := of_decide_eq_true hub
  have hvb' := of_decide_eq_true hvb
  exact ⟨u, v, w, hu, hv, hub', hvb',
    hsame _ _ u v (by decide) (by decide) hu hv (hub'.trans hvb'.symm), hw,
    hback 2 1 6 w (by decide) (by decide +kernel) hw⟩

end Tableau

end SimplexTableau
