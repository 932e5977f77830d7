import SimplexTableau.Proofs.RowSpace
import SimplexTableau.Proofs.Placement

/-!
# The tableau a method starts on

Every method starts on the same constraint rows. A value for each column solves them exactly if
it balances every standardised constraint with its slack, surplus and artificial value. The
objective row is the plain one, the plain one charged for the artificial columns, or it is put
aside for the first phase.
-/

namespace SimplexTableau

namespace Problem

section Plain

variable {α : Type} [Scalar α]

/-- The constraints, written with right-hand sides that are not negative. -/
def standard (p : Problem α) : List (Constraint α) :=
  p.constraints.map (·.standardised)

/-- The columns of every tableau of a problem. -/
def columns (p : Problem α) : List Column :=
  layout p.numVars p.standard

/-- The tableau of a valid problem before its objective row is prepared for a method. -/
def plain (p : Problem α) : Tableau α where
  columns := p.columns
  objective := p.columns.map p.objectiveEntry
  rows := p.standard.zipIdx.map fun (c, i) => p.columns.map (c.entry i)
  basis := p.standard.zipIdx.map fun (c, i) => p.columns.idxOf (c.basicColumn i)
  artificial := (rowsWhere (· ≠ .le) p.standard).map fun i => p.columns.idxOf (.artificial i)
  savedObjective := none

lemma length_standardised (c : Constraint α) :
    c.standardised.coefficients.length = c.coefficients.length := by
  unfold Constraint.standardised Constraint.negated
  split_ifs
  · simp
  · rfl

lemma Valid.length_of_mem_standard {p : Problem α} (hp : p.Valid) {c : Constraint α}
    (hc : c ∈ p.standard) : c.coefficients.length = p.numVars := by
  obtain ⟨d, hd, rfl⟩ := List.mem_map.mp hc
  rw [length_standardised]
  exact hp.coefficients d hd

theorem Valid.plainTableau_eq {p : Problem α} (hp : p.Valid) : p.plainTableau = .ok p.plain := by
  have hrows : (p.constraints.mapM fun c => c.standardised.spread p.numVars) = .ok p.standard := by
    apply mapM_eq_ok
    intro c hc
    rw [Constraint.spread, if_pos]
    rw [length_standardised, hp.coefficients c hc]
  have hplaced : placeRows p.columns.length (Counters.at p.numVars p.standard []) p.standard =
      Placement.named p.columns 0 p.standard :=
    placeRows_eq [] fun c hc => hp.length_of_mem_standard hc
  have hobjective : bareRow p.columns.length 1 p.signedObjective 0 =
      p.columns.map p.objectiveEntry :=
    (p.map_objectiveEntry p.standard).symm
  have hplain : p.plainTableau = .ok
      { columns := p.columns
        objective := bareRow p.columns.length 1 p.signedObjective 0
        rows := (placeRows p.columns.length (Counters.at p.numVars p.standard []) p.standard).rows
        basis := (placeRows p.columns.length (Counters.at p.numVars p.standard []) p.standard).basis
        artificial :=
          (placeRows p.columns.length (Counters.at p.numVars p.standard []) p.standard).artificial
        savedObjective := none } := by
    rw [plainTableau, hrows]
    rfl
  rw [hplain, hplaced, hobjective]
  rfl

lemma columns_get_zero (p : Problem α) : p.columns[0]? = some .objective := by
  simp [columns, layout]

lemma columns_get_last (p : Problem α) : p.columns[p.columns.length - 1]? = some .rhs := by
  rw [← List.getLast?_eq_getElem?, columns, layout, List.getLast?_concat]

lemma columns_nodup (p : Problem α) : p.columns.Nodup :=
  layout_nodup _ _

lemma get_idxOf {p : Problem α} {c : Column} (hc : c ∈ p.columns) :
    p.columns[p.columns.idxOf c]? = some c := by
  have hlt := List.idxOf_lt_length_iff.mpr hc
  rw [List.getElem?_eq_getElem hlt, List.getElem_idxOf]

lemma idxOf_of_get {p : Problem α} {c : Column} {j : ℕ} (hj : p.columns[j]? = some c) :
    p.columns.idxOf c = j := by
  obtain ⟨hlt, rfl⟩ := List.getElem?_eq_some_iff.mp hj
  exact p.columns_nodup.idxOf_getElem _ hlt

lemma eq_zero_of_get {p : Problem α} {j : ℕ} (hj : p.columns[j]? = some .objective) : j = 0 := by
  rw [← idxOf_of_get hj, idxOf_of_get p.columns_get_zero]

lemma eq_last_of_get {p : Problem α} {j : ℕ} (hj : p.columns[j]? = some .rhs) :
    j = p.columns.length - 1 := by
  rw [← idxOf_of_get hj, idxOf_of_get p.columns_get_last]

lemma isVariable_of_get {p : Problem α} {c : Column} {j : ℕ} (hpos : 0 < j)
    (hlt : j < p.columns.length - 1) (hj : p.columns[j]? = some c) : c.isVariable = true := by
  simp only [Column.isVariable, Bool.and_eq_true, decide_eq_true_eq]
  constructor
  · rintro rfl
    exact hpos.ne' (eq_zero_of_get hj)
  · rintro rfl
    exact hlt.ne (eq_last_of_get hj)

lemma idxOf_inside {p : Problem α} {c : Column} (hc : c ∈ p.columns) (ho : c ≠ .objective)
    (hr : c ≠ .rhs) : 0 < p.columns.idxOf c ∧ p.columns.idxOf c < p.columns.length - 1 := by
  have hlt := List.idxOf_lt_length_iff.mpr hc
  have hget := get_idxOf hc
  constructor
  · apply Nat.pos_of_ne_zero
    intro h0
    rw [h0, columns_get_zero] at hget
    exact ho (Option.some.inj hget).symm
  · apply lt_of_le_of_ne (by omega)
    intro hl
    rw [hl, columns_get_last] at hget
    exact hr (Option.some.inj hget).symm

lemma basicColumn_mem {p : Problem α} {c : Constraint α} {i : ℕ} (hi : p.standard[i]? = some c) :
    c.basicColumn i ∈ p.columns := by
  unfold columns Constraint.basicColumn
  rw [mem_layout]
  split_ifs with hrel
  · exact ⟨c, hi, hrel⟩
  · exact ⟨c, hi, hrel⟩

omit [Scalar α] in
lemma basicColumn_ne {c : Constraint α} {i : ℕ} :
    c.basicColumn i ≠ .objective ∧ c.basicColumn i ≠ .rhs := by
  unfold Constraint.basicColumn
  split_ifs <;> simp

omit [Scalar α] in
lemma basicColumn_injective {c d : Constraint α} {i j : ℕ}
    (h : c.basicColumn i = d.basicColumn j) : i = j := by
  unfold Constraint.basicColumn at h
  split_ifs at h <;> cases h <;> rfl

lemma plain_basis_get {p : Problem α} {c : Constraint α} {i : ℕ} (hi : p.standard[i]? = some c) :
    p.plain.basis[i]? = some (p.columns.idxOf (c.basicColumn i)) := by
  simp [plain, List.getElem?_zipIdx, hi]

lemma plain_basis_eq {p : Problem α} {i b : ℕ} (hb : p.plain.basis[i]? = some b) :
    ∃ c, p.standard[i]? = some c ∧ b = p.columns.idxOf (c.basicColumn i) := by
  cases hi : p.standard[i]? with
  | none =>
    have hlen : p.plain.basis.length ≤ i := by
      simpa [plain] using List.getElem?_eq_none_iff.mp hi
    rw [List.getElem?_eq_none hlen] at hb
    cases hb
  | some c =>
    rw [plain_basis_get hi] at hb
    exact ⟨c, rfl, (Option.some.inj hb).symm⟩

lemma plain_basis_nodup (p : Problem α) : p.plain.basis.Nodup := by
  rw [List.nodup_iff_getElem?_ne_getElem?]
  intro i j hij hj heq
  obtain ⟨d, hd, hb⟩ := plain_basis_eq (List.getElem?_eq_getElem hj)
  obtain ⟨c, hc, hb'⟩ := plain_basis_eq (heq.trans (List.getElem?_eq_getElem hj))
  have hcol := get_idxOf (basicColumn_mem hc)
  rw [← hb', hb, get_idxOf (basicColumn_mem hd)] at hcol
  exact hij.ne (basicColumn_injective (Option.some.inj hcol).symm)

lemma plain_row {p : Problem α} {c : Constraint α} {i : ℕ} (hi : p.standard[i]? = some c) :
    p.plain.rows[i]? = some (p.columns.map (c.entry i)) := by
  simp [plain, List.getElem?_zipIdx, hi]

lemma artificial_mem_columns_iff {p : Problem α} {i : ℕ} :
    Column.artificial i ∈ p.columns ↔ i ∈ rowsWhere (· ≠ .le) p.standard := by
  rw [columns, mem_layout, mem_rowsWhere]
  simp

lemma mem_artificial_iff {p : Problem α} {j : ℕ} :
    j ∈ p.plain.artificial ↔ ∃ i, p.columns[j]? = some (.artificial i) := by
  constructor
  · intro hj
    obtain ⟨i, hi, rfl⟩ := List.mem_map.mp hj
    exact ⟨i, get_idxOf (artificial_mem_columns_iff.mpr hi)⟩
  · rintro ⟨i, hi⟩
    have hmem := artificial_mem_columns_iff.mp (List.mem_of_getElem? hi)
    exact List.mem_map.mpr ⟨i, hmem, idxOf_of_get hi⟩

lemma artificial_eq_nil {p : Problem α} (hle : ∀ c ∈ p.standard, c.relation = .le) :
    p.plain.artificial = [] := by
  apply List.eq_nil_iff_forall_not_mem.mpr
  intro j hj
  obtain ⟨i, hi, -⟩ := List.mem_map.mp hj
  obtain ⟨c, hc, hr⟩ := mem_rowsWhere.mp hi
  simp [hle c (List.mem_of_getElem? hc)] at hr

lemma artificial_ne_nil {p : Problem α} {c : Constraint α} (hc : c ∈ p.standard)
    (hr : c.relation ≠ .le) : p.plain.artificial ≠ [] := by
  obtain ⟨i, hi⟩ := List.mem_iff_getElem?.mp hc
  have hmem : i ∈ rowsWhere (· ≠ .le) p.standard := mem_rowsWhere.mpr ⟨c, hi, by simpa using hr⟩
  exact List.ne_nil_of_mem (List.mem_map_of_mem hmem)

theorem Valid.shaped_plain {p : Problem α} (hp : p.Valid) : p.plain.Shaped where
  width := by
    have hn : 0 < p.numVars := List.length_pos_iff.mpr hp.objective
    simp only [plain, columns, layout, List.length_cons, List.length_append, List.length_map,
      List.length_range]
    omega
  objective := List.length_map ..
  rows := by
    intro row hrow
    obtain ⟨c, -, rfl⟩ := List.mem_map.mp hrow
    exact List.length_map ..
  basis := by simp [plain]
  inside := by
    intro b hb
    obtain ⟨⟨c, i⟩, hc, rfl⟩ := List.mem_map.mp hb
    have hi : p.standard[i]? = some c := List.mk_mem_zipIdx_iff_getElem?.mp hc
    exact idxOf_inside (basicColumn_mem hi) basicColumn_ne.1 basicColumn_ne.2
  saved := by simp [plain]

end Plain

section Exact

variable {p : Problem ℚ}

/-- The weight of each position under a value for each column. -/
def weight (p : Problem ℚ) (val : Column → ℚ) (j : ℕ) : ℚ :=
  (p.columns.map val).getD j 0

lemma weight_of_get {val : Column → ℚ} {c : Column} {j : ℕ} (hj : p.columns[j]? = some c) :
    p.weight val j = val c := by
  simp [weight, List.getD_eq_getElem?_getD, hj]

lemma plain_entry_zero {c : Column} {j : ℕ} (hj : p.columns[j]? = some c) :
    p.plain.entry 0 j = p.objectiveEntry c := by
  simp [Tableau.entry_zero, plain, List.getD_eq_getElem?_getD, hj]

lemma plain_entry_succ {c : Constraint ℚ} {d : Column} {i j : ℕ} (hi : p.standard[i]? = some c)
    (hj : p.columns[j]? = some d) : p.plain.entry (i + 1) j = c.entry i d := by
  rw [Tableau.entry_of_getElem? (plain_row hi), List.getD_eq_getElem?_getD, List.getElem?_map, hj]
  rfl

lemma plain_rows_length : p.plain.rows.length = p.standard.length := by
  simp [plain]

lemma plain_entry_of_none {i : ℕ} (hi : p.standard[i]? = none) (j : ℕ) :
    p.plain.entry (i + 1) j = 0 := by
  refine Tableau.entry_of_lt ?_ j
  rw [plain_rows_length]
  exact Nat.lt_succ_of_le (List.getElem?_eq_none_iff.mp hi)

/-- The weighted sum of a constraint row is the balance of its constraint. -/
theorem Valid.sum_plain_row (hp : p.Valid) {c : Constraint ℚ} {i : ℕ}
    (hi : p.standard[i]? = some c) (val : Column → ℚ) :
    ∑ j ∈ Finset.range p.columns.length, p.plain.entry (i + 1) j * p.weight val j =
      dot c.coefficients (decisions p.numVars val) + c.auxiliary i val + c.rhs * val .rhs := by
  rw [← sum_entry_layout hi (hp.length_of_mem_standard (List.mem_of_getElem? hi)), dot_eq_sum,
    List.length_map]
  simp only [Tableau.entry_of_getElem? (plain_row hi)]
  rfl

theorem sum_plain_objective (val : Column → ℚ) :
    ∑ j ∈ Finset.range p.columns.length, p.plain.entry 0 j * p.weight val j =
      val .objective + (if p.direction = .min then 1 else -1) *
        dot p.objective (decisions p.numVars val) := by
  rw [← sum_objectiveEntry_layout p p.standard, dot_eq_sum, List.length_map]
  rfl

/-- The sum of the artificial variables. -/
def artificialTotal (p : Problem ℚ) (val : Column → ℚ) : ℚ :=
  ((rowsWhere (· ≠ .le) p.standard).map fun i => val (.artificial i)).sum

lemma artificialTotal_nonneg {val : Column → ℚ} (h : ∀ c, 0 ≤ val c) :
    0 ≤ p.artificialTotal val := by
  apply List.sum_nonneg
  intro v hv
  obtain ⟨i, -, rfl⟩ := List.mem_map.mp hv
  exact h _

theorem sum_artificial (val : Column → ℚ) :
    ∑ j ∈ Finset.range p.columns.length, (if j ∈ p.plain.artificial then p.weight val j else 0) =
      p.artificialTotal val := by
  have hterm : ∀ j ∈ Finset.range p.columns.length,
      (if j ∈ p.plain.artificial then p.weight val j else 0) =
        (p.columns.map fun c => if c.role = .artificial then val c else 0).getD j 0 := by
    intro j hj
    obtain ⟨c, hget⟩ : ∃ c, p.columns[j]? = some c :=
      ⟨_, List.getElem?_eq_getElem (Finset.mem_range.mp hj)⟩
    have hart : j ∈ p.plain.artificial ↔ c.role = .artificial := by
      rw [mem_artificial_iff, hget]
      cases c <;> simp [Column.role]
    rw [weight_of_get hget, List.getD_eq_getElem?_getD, List.getElem?_map, hget]
    simp only [hart, Option.map_some, Option.getD_some]
  have hsum := sum_getD (p.columns.map fun c => if c.role = .artificial then val c else 0)
  rw [List.length_map] at hsum
  rw [Finset.sum_congr rfl hterm, hsum, columns, sum_layout]
  simp [Column.role, artificialTotal]

/-- Values solve the constraint rows exactly if they balance every standardised constraint. -/
theorem Valid.plain_solves_iff (hp : p.Valid) (val : Column → ℚ) :
    p.plain.Solves (p.weight val) ↔ ∀ (i : ℕ) (c : Constraint ℚ), p.standard[i]? = some c →
      dot c.coefficients (decisions p.numVars val) + c.auxiliary i val + c.rhs * val .rhs = 0 := by
  constructor
  · intro h i c hi
    rw [← hp.sum_plain_row hi]
    exact h i
  · intro h i
    cases hi : p.standard[i]? with
    | none => simp [plain_entry_of_none hi]
    | some c =>
      have hb := h i c hi
      rw [← hp.sum_plain_row hi] at hb
      exact hb

end Exact

end Problem

end SimplexTableau
