import SimplexTableau.Proofs.Canonical

/-!
# The basic solution

The values that are read off a tableau are the right-hand sides of the rows for their basic
columns and zero for all others. On a canonical tableau they solve the constraint rows, so they
balance every constraint of the problem with its slack, surplus and artificial value.
-/

namespace SimplexTableau

namespace Tableau

section Reading

variable {α : Type} [Scalar α]

/-- The value of a column at the basic solution before small values are reported as zero. -/
def rawValueAt (t : Tableau α) (col : ℕ) : α :=
  (t.basis.zip t.rows).foldl (fun v (b, row) => if b = col then rhsOf row else v) 0

/-- The value that the basic solution gives to what a column stands for. -/
def rowValue (t : Tableau α) (c : Column) : α :=
  t.rawValueAt (t.columns.idxOf c)

omit [Scalar α] in
lemma foldl_matching (g : List α → α) (l : List (ℕ × List α)) (col : ℕ) (v : α) :
    (l.foldl (fun v (b, row) => if b = col then g row else v) v = v ∧ ∀ q ∈ l, q.1 ≠ col) ∨
      ∃ row, (col, row) ∈ l ∧
        l.foldl (fun v (b, row) => if b = col then g row else v) v = g row := by
  induction l generalizing v with
  | nil => exact Or.inl ⟨rfl, by simp⟩
  | cons q l ih =>
    obtain ⟨b, row⟩ := q
    rw [List.foldl_cons]
    dsimp only
    by_cases hb : b = col
    · rw [if_pos hb]
      right
      rcases ih (g row) with ⟨he, -⟩ | ⟨row', hmem, he⟩
      · exact ⟨row, by rw [hb]; exact List.mem_cons_self .., he⟩
      · exact ⟨row', List.mem_cons_of_mem _ hmem, he⟩
    · rw [if_neg hb]
      rcases ih v with ⟨he, hne⟩ | ⟨row', hmem, he⟩
      · exact Or.inl ⟨he, List.forall_mem_cons.mpr ⟨hb, hne⟩⟩
      · exact Or.inr ⟨row', List.mem_cons_of_mem _ hmem, he⟩

end Reading

/-- Weights of positions as values of what the columns stand for. -/
def columnValue (t : Tableau ℚ) (w : ℕ → ℚ) (c : Column) : ℚ :=
  w (t.columns.idxOf c)

/-- Weights of positions as values of the columns, except that right-hand sides weigh `-1`. -/
def point (t : Tableau ℚ) (w : ℕ → ℚ) : Column → ℚ :=
  Function.update (t.columnValue w) .rhs (-1)

variable {t : Tableau ℚ}

lemma foldl_clean (l : List (ℕ × List ℚ)) (col : ℕ) (v : ℚ) :
    l.foldl (fun v (b, row) => if b = col then clean (rhsOf row) else v) (clean v) =
      clean (l.foldl (fun v (b, row) => if b = col then rhsOf row else v) v) := by
  induction l generalizing v with
  | nil => rfl
  | cons q l ih =>
    rw [List.foldl_cons, List.foldl_cons]
    dsimp only
    by_cases hb : q.1 = col
    · rw [if_pos hb, if_pos hb, ih]
    · rw [if_neg hb, if_neg hb, ih]

lemma valueAt_eq (t : Tableau ℚ) (col : ℕ) : t.valueAt col = clean (t.rawValueAt col) := by
  have hzero : clean (0 : ℚ) = 0 := by decide +kernel
  unfold valueAt rawValueAt
  rw [← foldl_clean, hzero]

lemma Canonical.basis_unique (h : t.Canonical) {i k b : ℕ} (hi : t.basis[i]? = some b)
    (hk : t.basis[k]? = some b) : i = k := by
  have h1 := h.rows k b hk k
  rw [h.rows i b hi, if_pos rfl] at h1
  by_contra hne
  rw [if_neg (Ne.symm hne)] at h1
  exact zero_ne_one h1

lemma Shaped.rawValueAt_basic (h : t.Shaped) (hcan : t.Canonical) {i b : ℕ}
    (hi : t.basis[i]? = some b) : t.rawValueAt b = t.entry (i + 1) t.rhsCol := by
  have hlt : i < t.rows.length := by
    rw [← h.basis]
    exact (List.getElem?_eq_some_iff.mp hi).1
  rcases foldl_matching rhsOf (t.basis.zip t.rows) b 0 with ⟨-, hne⟩ | ⟨row, hmem, he⟩
  · have hin : (b, t.rows[i]) ∈ t.basis.zip t.rows := by
      apply List.mem_of_getElem? (i := i)
      rw [List.getElem?_zip_eq_some]
      exact ⟨hi, List.getElem?_eq_getElem hlt⟩
    exact (hne _ hin rfl).elim
  · obtain ⟨k, hk⟩ := List.mem_iff_getElem?.mp hmem
    obtain ⟨hb, hrow⟩ := List.getElem?_zip_eq_some.mp hk
    obtain rfl := hcan.basis_unique hi hb
    rw [rawValueAt, he, h.rhsOf_row hrow]

lemma rawValueAt_nonbasic {b : ℕ} (hb : b ∉ t.basis) : t.rawValueAt b = 0 := by
  rcases foldl_matching rhsOf (t.basis.zip t.rows) b 0 with ⟨he, -⟩ | ⟨row, hmem, -⟩
  · exact he
  · exact (hb (List.of_mem_zip hmem).1).elim

lemma Shaped.rawValueAt_nonneg (h : t.Shaped) (hn : t.NonnegRhs) (col : ℕ) :
    0 ≤ t.rawValueAt col := by
  rcases foldl_matching rhsOf (t.basis.zip t.rows) col 0 with ⟨he, -⟩ | ⟨row, hmem, he⟩
  · exact he.ge
  · obtain ⟨k, hk⟩ := List.mem_iff_getElem?.mp hmem
    rw [rawValueAt, he, h.rhsOf_row (List.getElem?_zip_eq_some.mp hk).2]
    exact hn k

/-- On a canonical tableau a constraint row sums weights that vanish outside the basis to the
weight of its basic column. -/
lemma Shaped.sum_row (h : t.Shaped) (hcan : t.Canonical) {w : ℕ → ℚ}
    (hw : ∀ j, j ∉ t.basis → w j = 0) {i b : ℕ} (hb : t.basis[i]? = some b) :
    ∑ j ∈ Finset.range t.rhsCol, t.entry (i + 1) j * w j = w b := by
  have hin := (h.inside b (List.mem_of_getElem? hb)).2
  rw [Finset.sum_eq_single b, hcan.rows i b hb, if_pos rfl, one_mul]
  · intro j _ hne
    by_cases hmem : j ∈ t.basis
    · obtain ⟨k, hk⟩ := List.mem_iff_getElem?.mp hmem
      have hki : i ≠ k := by
        rintro rfl
        rw [hb] at hk
        exact hne (Option.some.inj hk).symm
      rw [hcan.rows k j hk, if_neg hki, zero_mul]
    · rw [hw j hmem, mul_zero]
  · intro hout
    exact (hout (Finset.mem_range.mpr hin)).elim

lemma Canonical.sum_objective (hcan : t.Canonical) {w : ℕ → ℚ}
    (hw : ∀ j, j ∉ t.basis → w j = 0) :
    ∑ j ∈ Finset.range t.rhsCol, t.entry 0 j * w j = 0 := by
  apply Finset.sum_eq_zero
  intro j _
  by_cases hb : j ∈ t.basis
  · obtain ⟨i, hi⟩ := List.mem_iff_getElem?.mp hb
    rw [hcan.objective i j hi, zero_mul]
  · rw [hw j hb, mul_zero]

/-- Weights give every constraint row its right-hand side. -/
def Attains (t : Tableau ℚ) (w : ℕ → ℚ) : Prop :=
  ∀ i < t.rows.length,
    ∑ j ∈ Finset.range t.rhsCol, t.entry (i + 1) j * w j = t.entry (i + 1) t.rhsCol

/-- The basic solution of a canonical tableau gives every constraint row its right-hand side. -/
theorem Shaped.attains_basic (h : t.Shaped) (hcan : t.Canonical) : t.Attains t.rawValueAt := by
  intro i hi
  obtain ⟨b, hb⟩ : ∃ b, t.basis[i]? = some b := ⟨_, List.getElem?_eq_getElem (h.basis ▸ hi)⟩
  rw [h.sum_row hcan (fun _ => rawValueAt_nonbasic) hb, h.rawValueAt_basic hcan hb]

end Tableau

namespace Problem

variable {p : Problem ℚ} {t : Tableau ℚ}

/-- Values of the columns that balance every standardised constraint with its slack, surplus and
artificial value. -/
def Balanced (p : Problem ℚ) (val : Column → ℚ) : Prop :=
  ∀ (i : ℕ) (c : Constraint ℚ), p.standard[i]? = some c →
    dot c.coefficients (decisions p.numVars val) + c.auxiliary i val = c.rhs

lemma SameRows.weight_point (h : p.SameRows t) (w : ℕ → ℚ) {j : ℕ} (hj : j < t.rhsCol) :
    p.weight (t.point w) j = w j := by
  rw [h.rhsCol_eq] at hj
  have hget : p.columns[j]? = some p.columns[j] := List.getElem?_eq_getElem (by omega)
  have hne : p.columns[j] ≠ .rhs := by
    intro hr
    exact hj.ne (eq_last_of_get (hr ▸ hget))
  rw [weight_of_get hget, Tableau.point, Function.update_of_ne hne, Tableau.columnValue,
    h.columns, idxOf_of_get hget]

lemma SameRows.sum_point (h : p.SameRows t) (w : ℕ → ℚ) (i : ℕ) :
    ∑ j ∈ Finset.range t.columns.length, t.entry i j * p.weight (t.point w) j =
      ∑ j ∈ Finset.range t.rhsCol, t.entry i j * w j - t.entry i t.rhsCol := by
  have hlast : p.weight (t.point w) t.rhsCol = -1 := by
    rw [h.rhsCol_eq, weight_of_get p.columns_get_last, Tableau.point, Function.update_self]
  have hinner : ∀ j ∈ Finset.range t.rhsCol,
      t.entry i j * p.weight (t.point w) j = t.entry i j * w j := by
    intro j hj
    rw [h.weight_point w (Finset.mem_range.mp hj)]
  rw [← h.shaped.rhsCol_add_one, Finset.sum_range_succ, Finset.sum_congr rfl hinner, hlast]
  ring

/-- Weights that give every constraint row its right-hand side solve the problem's rows. -/
theorem SameRows.solves_point (h : p.SameRows t) {w : ℕ → ℚ} (hw : t.Attains w) :
    p.plain.Solves (p.weight (t.point w)) := by
  apply (h.solves_iff _).mp
  intro i
  rw [h.sum_point]
  by_cases hi : i < t.rows.length
  · rw [hw i hi, sub_self]
  · have hlt : t.rows.length < i + 1 := Nat.lt_succ_of_le (not_lt.mp hi)
    simp only [Tableau.entry_of_lt hlt, zero_mul, Finset.sum_const_zero, sub_zero]

/-- The values that such weights give to the columns balance every constraint. -/
theorem SameRows.balanced_of_attains (hp : p.Valid) (h : p.SameRows t) {w : ℕ → ℚ}
    (hw : t.Attains w) : p.Balanced (t.columnValue w) := by
  intro i c hi
  have hb := (hp.plain_solves_iff _).mp (h.solves_point hw) i c hi
  have hdec : decisions p.numVars (t.point w) = decisions p.numVars (t.columnValue w) := by
    simp [decisions, Tableau.point]
  have haux : c.auxiliary i (t.point w) = c.auxiliary i (t.columnValue w) := by
    simp [Constraint.auxiliary, Tableau.point]
  rw [hdec, haux, Tableau.point, Function.update_self] at hb
  linarith

/-- The basic solution of a canonical tableau balances every constraint. -/
theorem SameRows.balanced (hp : p.Valid) (h : p.SameRows t) (hcan : t.Canonical) :
    p.Balanced t.rowValue :=
  h.balanced_of_attains hp (h.shaped.attains_basic hcan)

/-- What a tableau without penalties maximises. -/
def gain (p : Problem ℚ) (val : Column → ℚ) : ℚ :=
  (if p.direction = .min then -1 else 1) * dot p.objective (decisions p.numVars val)

lemma SameRows.point_objective (h : p.SameRows t) (w : ℕ → ℚ) :
    t.point w .objective = w 0 := by
  have hzero : p.weight (t.point w) 0 = t.point w .objective := weight_of_get p.columns_get_zero
  exact hzero.symm.trans (h.weight_point w h.shaped.rhsCol_pos)

/-- The weighted sum of a penalised objective row. -/
theorem sum_penalised (penalty : ℚ) (val : Column → ℚ) :
    ∑ j ∈ Finset.range p.columns.length, p.penalised penalty j * p.weight val j =
      val .objective - p.gain val + penalty * p.artificialTotal val := by
  have hterm : ∀ j, p.penalised penalty j * p.weight val j =
      p.plain.entry 0 j * p.weight val j +
        penalty * if j ∈ p.plain.artificial then p.weight val j else 0 := by
    intro j
    rw [penalised]
    split_ifs <;> ring
  rw [Finset.sum_congr rfl fun j _ => hterm j, Finset.sum_add_distrib, ← Finset.mul_sum,
    sum_artificial, sum_plain_objective, gain]
  split_ifs <;> ring

/-- The weighted sum of the objective row of a first phase. -/
theorem sum_firstRow (val : Column → ℚ) :
    ∑ j ∈ Finset.range p.columns.length, p.firstRow j * p.weight val j =
      val .objective + p.artificialTotal val := by
  have hterm : ∀ j, p.firstRow j * p.weight val j = (if j = 0 then val .objective else 0) +
      if j ∈ p.plain.artificial then p.weight val j else 0 := by
    intro j
    rw [firstRow]
    by_cases h0 : j = 0
    · have hart : j ∉ p.plain.artificial := h0 ▸ not_mem_artificial_zero
      rw [if_pos (Or.inl h0), if_pos h0, if_neg hart, h0, weight_of_get p.columns_get_zero,
        one_mul, add_zero]
    · simp only [h0, false_or, if_false, zero_add, ite_mul, one_mul, zero_mul]
  have hpos : 0 < p.columns.length := (List.getElem?_eq_some_iff.mp p.columns_get_zero).1
  rw [Finset.sum_congr rfl fun j _ => hterm j, Finset.sum_add_distrib, sum_artificial,
    Finset.sum_ite_eq', if_pos (Finset.mem_range.mpr hpos)]

/-- How far weights that give every constraint row its right-hand side are from the right-hand
side of a penalised objective row. -/
theorem ObjectiveIs.penalised_rhs {penalty : ℚ} (hobj : p.ObjectiveIs (p.penalised penalty) t)
    (h : p.SameRows t) {w : ℕ → ℚ} (hw : t.Attains w) (hzero : w 0 = 0) :
    t.entry 0 t.rhsCol = ∑ j ∈ Finset.range t.rhsCol, t.entry 0 j * w j +
      p.gain (t.columnValue w) - penalty * p.artificialTotal (t.columnValue w) := by
  have hgain : p.gain (t.point w) = p.gain (t.columnValue w) := by
    simp [gain, decisions, Tableau.point]
  have hart : p.artificialTotal (t.point w) = p.artificialTotal (t.columnValue w) := by
    simp [artificialTotal, Tableau.point]
  have hsum := hobj.sum_eq (h.solves_point hw)
  rw [← h.columns, h.sum_point, h.columns, sum_penalised, h.point_objective, hzero, hgain,
    hart] at hsum
  linarith

/-- The same for the objective row of a first phase. -/
theorem ObjectiveIs.firstRow_rhs (hobj : p.ObjectiveIs p.firstRow t) (h : p.SameRows t)
    {w : ℕ → ℚ} (hw : t.Attains w) (hzero : w 0 = 0) :
    t.entry 0 t.rhsCol = ∑ j ∈ Finset.range t.rhsCol, t.entry 0 j * w j -
      p.artificialTotal (t.columnValue w) := by
  have hart : p.artificialTotal (t.point w) = p.artificialTotal (t.columnValue w) := by
    simp [artificialTotal, Tableau.point]
  have hsum := hobj.sum_eq (h.solves_point hw)
  rw [← h.columns, h.sum_point, h.columns, sum_firstRow, h.point_objective, hzero, hart] at hsum
  linarith

lemma SameRows.rawValueAt_zero (h : p.SameRows t) : t.rawValueAt 0 = 0 :=
  Tableau.rawValueAt_nonbasic fun hb => (h.shaped.inside 0 hb).1.ne rfl

/-- The right-hand side of a penalised objective row is its objective at the basic solution. -/
theorem ObjectiveIs.penalised_basic {penalty : ℚ} (hobj : p.ObjectiveIs (p.penalised penalty) t)
    (h : p.SameRows t) (hcan : t.Canonical) :
    t.entry 0 t.rhsCol = p.gain t.rowValue - penalty * p.artificialTotal t.rowValue := by
  rw [hobj.penalised_rhs h (h.shaped.attains_basic hcan) h.rawValueAt_zero,
    hcan.sum_objective fun _ => Tableau.rawValueAt_nonbasic, zero_add]
  rfl

/-- The right-hand side of the objective row of a first phase is the negated sum of the artificial
variables at the basic solution. -/
theorem ObjectiveIs.firstRow_basic (hobj : p.ObjectiveIs p.firstRow t) (h : p.SameRows t)
    (hcan : t.Canonical) : t.entry 0 t.rhsCol = -p.artificialTotal t.rowValue := by
  rw [hobj.firstRow_rhs h (h.shaped.attains_basic hcan) h.rawValueAt_zero,
    hcan.sum_objective fun _ => Tableau.rawValueAt_nonbasic, zero_sub]
  rfl

/-- The penalty method's check for artificial variables above the tolerance. -/
lemma SameRows.artificialsWithin_of_nil (h : p.SameRows t) {ftol : ℚ}
    (hn : t.basicArtificials ftol = []) : t.ArtificialsWithin ftol := by
  intro k b hb hart
  rw [h.artificial] at hart
  obtain ⟨i, hi⟩ := mem_artificial_iff.mp hart
  have hlt : k < t.rows.length := by
    rw [← h.shaped.basis]
    exact (List.getElem?_eq_some_iff.mp hb).1
  have hrow : t.rows[k]? = some t.rows[k] := List.getElem?_eq_getElem hlt
  have hin : (b, t.rows[k]) ∈ t.basis.zip t.rows := by
    apply List.mem_of_getElem? (i := k)
    rw [List.getElem?_zip_eq_some]
    exact ⟨hb, hrow⟩
  have hnone := List.filterMap_eq_nil_iff.mp hn _ hin
  dsimp only at hnone
  rw [h.columns, hi] at hnone
  dsimp only at hnone
  split_ifs at hnone with hle
  rw [← h.shaped.rhsOf_row hrow]
  exact not_lt.mp hle

lemma SameRows.basicArtificials_eq_nil (h : p.SameRows t) {ftol : ℚ}
    (hw : t.ArtificialsWithin ftol) : t.basicArtificials ftol = [] := by
  apply List.filterMap_eq_nil_iff.mpr
  rintro ⟨b, row⟩ hmem
  obtain ⟨k, hk⟩ := List.mem_iff_getElem?.mp hmem
  obtain ⟨hb, hrow⟩ := List.getElem?_zip_eq_some.mp hk
  dsimp only
  rw [h.columns]
  cases hi : p.columns[b]? with
  | none => rfl
  | some c =>
    cases c with
    | artificial i =>
      have hle := hw k b hb (h.artificial ▸ mem_artificial_iff.mpr ⟨i, hi⟩)
      rw [← h.shaped.rhsOf_row hrow] at hle
      exact if_neg (not_lt.mpr hle)
    | objective | decision | slack | surplus | rhs => rfl

lemma SameRows.rowValue_basic (h : p.SameRows t) (hcan : t.Canonical) {c : Column} {i b : ℕ}
    (hb : p.columns[b]? = some c) (hi : t.basis[i]? = some b) :
    t.rowValue c = t.entry (i + 1) t.rhsCol := by
  rw [Tableau.rowValue, h.columns, idxOf_of_get hb]
  exact h.shaped.rawValueAt_basic hcan hi

lemma SameRows.artificialsWithin_total (h : p.SameRows t) (hcan : t.Canonical)
    (hn : t.NonnegRhs) : t.ArtificialsWithin (p.artificialTotal t.rowValue) := by
  intro k b hb hart
  rw [h.artificial] at hart
  obtain ⟨i, hi⟩ := mem_artificial_iff.mp hart
  have hmem : t.rowValue (.artificial i) ∈
      (rowsWhere (· ≠ .le) p.standard).map fun i => t.rowValue (.artificial i) :=
    List.mem_map_of_mem (artificial_mem_columns_iff.mp (List.mem_of_getElem? hi))
  have hnonneg : ∀ v ∈ (rowsWhere (· ≠ .le) p.standard).map fun i => t.rowValue (.artificial i),
      0 ≤ v := by
    intro v hv
    obtain ⟨i', -, rfl⟩ := List.mem_map.mp hv
    exact h.shaped.rawValueAt_nonneg hn _
  rw [← h.rowValue_basic hcan hi hb]
  exact List.single_le_sum hnonneg _ hmem

/-- The reported values are those of the basic solution, small ones reported as zero. -/
theorem SameRows.values_eq (h : p.SameRows t) :
    t.values = (p.columns.filter Column.isVariable).map fun c => (c.name, clean (t.rowValue c)) := by
  rw [h.sameFrame.values_eq]
  simp only [Tableau.valueAt_eq, Tableau.rowValue, h.columns]

end Problem

end SimplexTableau
