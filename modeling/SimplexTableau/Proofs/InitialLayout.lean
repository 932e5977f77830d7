import SimplexTableau.Proofs.Frames
import SimplexTableau.Proofs.Rounding

/-!
# The layout of the first tableau

The columns of the first tableau come in groups, each in the order of the rows, and slack, surplus
and artificial columns have a single entry, in the row of their name. Preparing the objective row
takes the rows with artificial variables away, some of them from a cost of one and the others from a
zero. Where one from one leaves zero and zero takes nothing away, also under rounding, this clears
the objective row in every basic column.
-/

namespace SimplexTableau

/-- Taking ones and zeros away clears a cost: a one leaves nothing of it, before and after zeros
have been taken away, and a zero changes nothing more. -/
structure Clears {α : Type} [Scalar α] (take : α → α → α) (cost : α) : Prop where
  one_zero : take 1 0 = 1
  zero_zero : take 0 0 = 0
  cost_one : take cost 1 = 0
  cost_zero_one : take (take cost 0) 1 = 0
  cost_zero_zero : take (take cost 0) 0 = take cost 0

/-- An arithmetic in which rows with a single one clear finite costs, and in which finite numbers
have a sign. -/
class ClearingScalar (α : Type) [Scalar α] : Prop where
  clears_row : Clears (fun v e : α => v - e) 1
  clears_multiple {penalty : α} (h : Scalar.isFinite penalty = true) :
    Clears (fun v e => v - penalty * e) penalty
  nonneg_of_finite {x : α} (h : Scalar.isFinite x = true) (hx : ¬ x < 0) : 0 ≤ x

instance : ClearingScalar ℚ where
  clears_row := by constructor <;> ring
  clears_multiple {penalty} _ := by constructor <;> ring
  nonneg_of_finite _ hx := not_lt.mp hx

instance : ClearingScalar Float where
  clears_row := ⟨by decide +kernel, by decide +kernel, by decide +kernel, by decide +kernel,
    by decide +kernel⟩
  clears_multiple {penalty} h := by
    have hself := Double.sub_self h
    rcases Double.mul_zero h with hzero | hzero
    · constructor <;> simp only [hzero, Double.mul_one, Double.sub_zero, hself]
    · have hone : (1 : Float) - (-0) = 1 := by decide +kernel
      have hnone : (0 : Float) - (-0) = 0 := by decide +kernel
      constructor <;> simp only [hzero, Double.mul_one, hself, hone, hnone]
      · rcases Double.sub_neg_zero penalty with hsub | rfl
        · rw [hsub, hself]
        · decide +kernel
      · rcases Double.sub_neg_zero penalty with hsub | rfl
        · rw [hsub, hsub]
        · decide +kernel
  nonneg_of_finite {x} h hx := by
    have hnonpos := Double.nonpos_of_isFinite ((Double.isFinite_neg x).trans h)
      (mt OrderedScalar.zero_lt_neg.mp hx)
    exact OrderedScalar.neg_le_zero.mp hnonpos

section Clearing

variable {α : Type} [Scalar α] {take : α → α → α} {cost : α}

lemma Clears.foldl_of_fixed {v : α} (hv : take v 0 = v) {entries : List α}
    (h : ∀ e ∈ entries, e = 0) : entries.foldl take v = v := by
  induction entries with
  | nil => rfl
  | cons e entries ih =>
    obtain ⟨rfl, hrest⟩ := List.forall_mem_cons.mp h
    rw [List.foldl_cons, hv, ih hrest]

/-- A single one among zeros clears a cost. -/
lemma Clears.foldl_cost (h : Clears take cost) {before after : List α}
    (hb : ∀ e ∈ before, e = 0) (ha : ∀ e ∈ after, e = 0) :
    (before ++ 1 :: after).foldl take cost = 0 := by
  have hfirst : take (before.foldl take cost) 1 = 0 := by
    cases before with
    | nil => exact h.cost_one
    | cons e before =>
      obtain ⟨rfl, hrest⟩ := List.forall_mem_cons.mp hb
      rw [List.foldl_cons, foldl_of_fixed h.cost_zero_zero hrest, h.cost_zero_one]
  rw [List.foldl_append, List.foldl_cons, hfirst, foldl_of_fixed h.zero_zero ha]

lemma getD_foldl_zipWith (take : α → α → α) {rows : List (List α)} {o : List α}
    (h : ∀ row ∈ rows, row.length = o.length) {j : ℕ} (hj : j < o.length) :
    (rows.foldl (List.zipWith take) o).getD j 0 =
      (rows.map (·.getD j 0)).foldl take (o.getD j 0) := by
  induction rows generalizing o with
  | nil => rfl
  | cons row rows ih =>
    obtain ⟨hrow, hrest⟩ := List.forall_mem_cons.mp h
    have hlen : (List.zipWith take o row).length = o.length := by
      rw [List.length_zipWith, hrow, min_self]
    have hentry : (List.zipWith take o row).getD j 0 = take (o.getD j 0) (row.getD j 0) := by
      rw [List.getD_eq_getElem _ _ (hlen ▸ hj), List.getElem_zipWith, List.getD_eq_getElem _ _ hj,
        List.getD_eq_getElem _ _ (hrow ▸ hj)]
    rw [List.foldl_cons, ih (fun r hr => (hrest r hr).trans hlen.symm) (hlen ▸ hj), hentry]
    rfl

end Clearing

lemma map_snd_zipIdx {β : Type} (l : List β) : l.zipIdx.map Prod.snd = List.range l.length := by
  rw [List.zipIdx_map_snd, List.range_eq_range']

lemma filter_range_length {β : Type} (l : List β) (test : β → Bool) :
    ((List.range l.length).filter fun i => l[i]?.any test) =
      (l.zipIdx.filter fun q => test q.1).map Prod.snd := by
  rw [← map_snd_zipIdx, List.filter_map]
  congr 1
  apply List.filter_congr
  rintro ⟨b, i⟩ hmem
  simp [List.mk_mem_zipIdx_iff_getElem?.mp hmem]

namespace Problem

variable {α : Type} [Scalar α] {p : Problem α}

/-- The numbers of the constraints whose standardised relation passes a test, in ascending order. -/
def numbersOf (p : Problem α) (test : Relation → Bool) : List ℕ :=
  (List.range p.constraints.length).filter fun i =>
    p.constraints[i]?.any fun c => test c.standardised.relation

/-- The constraint rows of a column are zero except for one value. -/
def UnitColumn (t : Tableau α) (j i : ℕ) (v : α) : Prop :=
  i < t.rows.length ∧
    ∀ k row, t.rows[k]? = some row → row[j]? = some (if i = k then v else 0)

/-- The columns of a first tableau, their names and their entries, and its basis. -/
structure LaidOut (p : Problem α) (t : Tableau α) : Prop where
  headers : t.headers = "Z" :: (List.range p.numVars).map (fun j => s!"x{j + 1}") ++
    (p.numbersOf (· = .le)).map (fun i => s!"s{i + 1}") ++
    (p.numbersOf (· = .ge)).map (fun i => s!"e{i + 1}") ++
    (p.numbersOf (· ≠ .le)).map (fun i => s!"a{i + 1}") ++ ["RHS"]
  distinct : t.headers.Nodup
  height : t.matrix.length = p.constraints.length + 1
  width : ∀ row ∈ t.matrix, row.length = p.numVars + (p.numbersOf (· = .le)).length +
    (p.numbersOf (· = .ge)).length + (p.numbersOf (· ≠ .le)).length + 2
  slack : ∀ {i j}, t.columns[j]? = some (.slack i) → UnitColumn t j i 1
  surplus : ∀ {i j}, t.columns[j]? = some (.surplus i) → UnitColumn t j i (-1)
  artificial : ∀ {i j}, t.columns[j]? = some (.artificial i) → UnitColumn t j i 1
  artificials : t.artificial = (List.range t.columns.length).filter fun j =>
    t.columns[j]?.any fun c => c.role = .artificial
  basis : t.basis.length = p.constraints.length
  basic : ∀ {i b : ℕ}, t.basis[i]? = some b →
    t.columns[b]? = some (if i ∈ p.numbersOf (· = .le) then .slack i else .artificial i)
  nonneg : ∀ row ∈ t.rows, 0 ≤ rhsOf row

lemma rowsWhere_standard (p : Problem α) (test : Relation → Bool) :
    rowsWhere test p.standard = p.numbersOf test := by
  have hlen : p.constraints.length = p.standard.length := by rw [standard, List.length_map]
  rw [numbersOf, rowsWhere, ← filter_range_length p.standard fun c => test c.relation, hlen]
  apply List.filter_congr
  intro i _
  rw [standard, List.getElem?_map, Option.any_map]

lemma columns_eq (p : Problem α) : p.columns =
    .objective :: (List.range p.numVars).map .decision ++ (p.numbersOf (· = .le)).map .slack ++
      (p.numbersOf (· = .ge)).map .surplus ++ (p.numbersOf (· ≠ .le)).map .artificial ++ [.rhs] := by
  rw [columns, layout, rowsWhere_standard, rowsWhere_standard, rowsWhere_standard]

lemma mem_numbersOf {test : Relation → Bool} {i : ℕ} :
    i ∈ p.numbersOf test ↔ ∃ c, p.standard[i]? = some c ∧ test c.relation := by
  rw [← rowsWhere_standard, mem_rowsWhere]

lemma plain_row_eq {k : ℕ} {row : List α} (h : p.plain.rows[k]? = some row) :
    ∃ c, p.standard[k]? = some c ∧ row = p.columns.map (c.entry k) := by
  rw [plain, List.getElem?_map, Option.map_eq_some_iff] at h
  obtain ⟨⟨c, i⟩, hc, rfl⟩ := h
  rw [List.getElem?_zipIdx, Option.map_eq_some_iff] at hc
  obtain ⟨d, hd, he⟩ := hc
  rw [Nat.zero_add] at he
  cases he
  exact ⟨c, hd, rfl⟩

/-- A column whose entries depend on the row number alone is a unit column. -/
lemma plain_unitColumn {col : Column} {i j : ℕ} {v : α} (hj : p.columns[j]? = some col)
    (hi : ∃ c, p.standard[i]? = some c)
    (hentry : ∀ (c : Constraint α) k, c.entry k col = if i = k then v else 0) :
    UnitColumn p.plain j i v := by
  obtain ⟨c, hc⟩ := hi
  refine ⟨?_, fun k row hrow => ?_⟩
  · simpa [plain] using (List.getElem?_eq_some_iff.mp hc).1
  · obtain ⟨d, -, rfl⟩ := plain_row_eq hrow
    rw [List.getElem?_map, hj, Option.map_some, hentry]

lemma plain_artificial_eq (p : Problem α) :
    p.plain.artificial = (List.range p.columns.length).filter fun j =>
      p.columns[j]?.any fun c => c.role = .artificial := by
  have hfilter : (p.columns.filter fun c => c.role = .artificial) =
      (p.numbersOf (· ≠ .le)).map .artificial := by
    rw [columns_eq]
    simp [List.filter_append, List.filter_map, Function.comp_def, Column.role]
  calc p.plain.artificial
      = ((p.columns.zipIdx.map Prod.fst).filter fun c => c.role = .artificial).map
          p.columns.idxOf := by
        rw [List.zipIdx_map_fst, hfilter, List.map_map, ← rowsWhere_standard]
        rfl
    _ = (p.columns.zipIdx.filter fun q => q.1.role = .artificial).map
          (p.columns.idxOf ∘ Prod.fst) := by
        rw [List.filter_map, List.map_map]
        rfl
    _ = (p.columns.zipIdx.filter fun q => q.1.role = .artificial).map Prod.snd := by
        apply List.map_congr_left
        rintro ⟨c, j⟩ hmem
        exact idxOf_of_get (List.mk_mem_zipIdx_iff_getElem?.mp (List.mem_of_mem_filter hmem))
    _ = _ := (filter_range_length p.columns fun c => c.role = .artificial).symm

lemma rhsOf_map_entry (c : Constraint α) (k : ℕ) : rhsOf (p.columns.map (c.entry k)) = c.rhs := by
  rw [columns_eq, List.map_append, rhsOf]
  exact List.getLastD_concat ..

lemma standard_nonneg [OrderedScalar α] [ClearingScalar α]
    (hfinite : ∀ c ∈ p.constraints, Scalar.isFinite c.rhs = true) {c : Constraint α}
    (hc : c ∈ p.standard) : 0 ≤ c.rhs := by
  obtain ⟨d, hd, rfl⟩ := List.mem_map.mp hc
  unfold Constraint.standardised
  split_ifs with hneg
  · exact OrderedScalar.le_of_lt (OrderedScalar.zero_lt_neg.mpr hneg)
  · exact ClearingScalar.nonneg_of_finite (hfinite d hd) hneg

lemma basicColumn_eq {c : Constraint α} {i : ℕ} (hi : p.standard[i]? = some c) :
    c.basicColumn i = if i ∈ p.numbersOf (· = .le) then .slack i else .artificial i := by
  have hiff : i ∈ p.numbersOf (· = .le) ↔ c.relation = .le := by
    rw [mem_numbersOf]
    simp [hi]
  simp only [hiff, Constraint.basicColumn]

lemma Valid.laidOut [OrderedScalar α] [ClearingScalar α] (hp : p.Valid)
    (hfinite : ∀ c ∈ p.constraints, Scalar.isFinite c.rhs = true) {m : Method}
    {o : SolveOptions α} {t : Tableau α} (h : p.tableau m o = .ok t) : p.LaidOut t := by
  obtain ⟨he, hs⟩ := hp.tableau_eq h
  rw [he]
  have hlen : p.standard.length = p.constraints.length := List.length_map ..
  have hrows : p.plain.rows.length = p.constraints.length := by simp [plain, hlen]
  have hwidth : p.columns.length = p.numVars + (p.numbersOf (· = .le)).length +
      (p.numbersOf (· = .ge)).length + (p.numbersOf (· ≠ .le)).length + 2 := by
    rw [columns_eq]
    simp only [List.length_append, List.length_cons, List.length_map, List.length_range,
      List.length_nil]
    omega
  constructor
  case headers =>
    change p.columns.map Column.name = _
    rw [columns_eq]
    simp [Column.name, Function.comp_def]
  case distinct => exact p.headers_nodup
  case height => exact congrArg (· + 1) hrows
  case width =>
    intro row hrow
    rw [← hwidth]
    exact (he ▸ hs).length_of_mem_matrix hrow
  case slack =>
    intro i j hj
    obtain ⟨c, hc, -⟩ := mem_layout.mp (List.mem_of_getElem? hj)
    exact plain_unitColumn hj ⟨c, hc⟩ fun c k => rfl
  case surplus =>
    intro i j hj
    obtain ⟨c, hc, -⟩ := mem_layout.mp (List.mem_of_getElem? hj)
    exact plain_unitColumn hj ⟨c, hc⟩ fun c k => rfl
  case artificial =>
    intro i j hj
    obtain ⟨c, hc, -⟩ := mem_layout.mp (List.mem_of_getElem? hj)
    exact plain_unitColumn hj ⟨c, hc⟩ fun c k => rfl
  case artificials => exact p.plain_artificial_eq
  case basis => simp [plain, hlen]
  case basic =>
    intro i b hb
    obtain ⟨c, hc, rfl⟩ := plain_basis_eq hb
    rw [← basicColumn_eq hc]
    exact get_idxOf (basicColumn_mem hc)
  case nonneg =>
    intro row hrow
    obtain ⟨k, hk⟩ := List.mem_iff_getElem?.mp hrow
    obtain ⟨c, hc, rfl⟩ := plain_row_eq hk
    rw [rhsOf_map_entry]
    exact standard_nonneg hfinite (List.mem_of_getElem? hc)

/-- The objective row has a one in its own column and zeros in the basic ones. -/
def Cleared (t : Tableau α) : Prop :=
  t.objective[0]? = some 1 ∧ ∀ b ∈ t.basis, t.objective[b]? = some 0

/-- What the rows with artificial variables hold in a column. -/
def artificialEntries (p : Problem α) (col : Column) : List α :=
  p.artificialConstraints.map fun q => q.1.entry q.2 col

lemma artificialEntries_eq_zero {col : Column}
    (h : ∀ c i, (c, i) ∈ p.artificialConstraints → c.entry i col = 0) :
    ∀ e ∈ p.artificialEntries col, e = 0 := by
  intro e he
  obtain ⟨⟨c, i⟩, hmem, rfl⟩ := List.mem_map.mp he
  exact h c i hmem

lemma artificialEntries_slack {c : Constraint α} {i : ℕ} (hi : p.standard[i]? = some c)
    (hrel : c.relation = .le) : ∀ e ∈ p.artificialEntries (.slack i), e = 0 := by
  apply artificialEntries_eq_zero
  intro d k hmem
  obtain ⟨hk, hd⟩ := mem_artificialConstraints.mp hmem
  have hne : i ≠ k := by
    rintro rfl
    cases hi.symm.trans hk
    exact hd hrel
  exact if_neg hne

lemma artificialEntries_artificial {c : Constraint α} {i : ℕ} (hi : p.standard[i]? = some c)
    (hrel : c.relation ≠ .le) : ∃ before after, p.artificialEntries (.artificial i) =
      before ++ 1 :: after ∧ (∀ e ∈ before, e = 0) ∧ ∀ e ∈ after, e = 0 := by
  obtain ⟨before, after, hsplit⟩ :=
    List.append_of_mem (mem_artificialConstraints.mpr ⟨hi, hrel⟩)
  have hnumbers : (p.artificialConstraints.map Prod.snd).Nodup := by
    have hsub : (p.artificialConstraints.map Prod.snd).Sublist (p.standard.zipIdx.map Prod.snd) :=
      List.filter_sublist.map _
    rw [map_snd_zipIdx] at hsub
    exact hsub.nodup List.nodup_range
  rw [hsplit, List.map_append, List.map_cons, List.nodup_middle, List.nodup_cons,
    ← List.map_append] at hnumbers
  have hzero : ∀ q ∈ before ++ after, q.1.entry q.2 (.artificial i) = 0 := by
    intro q hq
    have hne : i ≠ q.2 := by
      rintro rfl
      exact hnumbers.1 (List.mem_map.mpr ⟨q, hq, rfl⟩)
    exact if_neg hne
  refine ⟨before.map fun q => q.1.entry q.2 (.artificial i),
    after.map fun q => q.1.entry q.2 (.artificial i), ?_, ?_, ?_⟩
  · rw [artificialEntries, hsplit, List.map_append, List.map_cons]
    simp [Constraint.entry]
  · intro e he
    obtain ⟨q, hq, rfl⟩ := List.mem_map.mp he
    exact hzero q (List.mem_append_left _ hq)
  · intro e he
    obtain ⟨q, hq, rfl⟩ := List.mem_map.mp he
    exact hzero q (List.mem_append_right _ hq)

/-- Taking the rows with artificial variables away from an objective row with a cost in every
artificial column clears it. -/
lemma cleared_of_costs {take : α → α → α} {cost : α} (hclears : Clears take cost) {start : List α}
    (hlen : start.length = p.columns.length) (hone : start.getD 0 0 = 1)
    (hslack : ∀ {i j}, p.columns[j]? = some (.slack i) → start.getD j 0 = 0)
    (hcost : ∀ {i j}, p.columns[j]? = some (.artificial i) → start.getD j 0 = cost)
    {saved : Option (List α)} :
    Cleared { p.plain with
      objective := p.plain.artificialRows.foldl (List.zipWith take) start
      savedObjective := saved } := by
  have hrows : ∀ row ∈ p.plain.artificialRows, row.length = start.length := by
    intro row hrow
    rw [plain_artificialRows] at hrow
    obtain ⟨q, -, rfl⟩ := List.mem_map.mp hrow
    rw [List.length_map, hlen]
  have hresult : (p.plain.artificialRows.foldl (List.zipWith take) start).length =
      start.length := by
    refine List.foldlRecOn (motive := fun o : List α => o.length = start.length) _ _ rfl ?_
    intro o ho row hrow
    rw [List.length_zipWith, ho, hrows row hrow, min_self]
  have hentry : ∀ {j col}, p.columns[j]? = some col →
      (p.plain.artificialRows.foldl (List.zipWith take) start)[j]? =
        some ((p.artificialEntries col).foldl take (start.getD j 0)) := by
    intro j col hj
    have hlt : j < start.length := hlen ▸ (List.getElem?_eq_some_iff.mp hj).1
    have hmap : p.plain.artificialRows.map (·.getD j 0) = p.artificialEntries col := by
      rw [plain_artificialRows, List.map_map, artificialEntries]
      apply List.map_congr_left
      intro q _
      simp [hj]
    rw [← hmap, ← getD_foldl_zipWith take hrows hlt,
      List.getD_eq_getElem _ _ (hresult.symm ▸ hlt), ← List.getElem?_eq_getElem]
  refine ⟨?_, fun b hb => ?_⟩
  · change (p.plain.artificialRows.foldl (List.zipWith take) start)[0]? = _
    rw [hentry p.columns_get_zero, hone,
      Clears.foldl_of_fixed hclears.one_zero (artificialEntries_eq_zero fun _ _ _ => rfl)]
  · change (p.plain.artificialRows.foldl (List.zipWith take) start)[b]? = _
    obtain ⟨i, hi⟩ := List.mem_iff_getElem?.mp hb
    obtain ⟨c, hc, rfl⟩ := plain_basis_eq hi
    have hget := get_idxOf (basicColumn_mem hc)
    by_cases hrel : c.relation = .le
    · rw [Constraint.basicColumn, if_pos hrel] at hget ⊢
      rw [hentry hget, hslack hget,
        Clears.foldl_of_fixed hclears.zero_zero (artificialEntries_slack hc hrel)]
    · rw [Constraint.basicColumn, if_neg hrel] at hget ⊢
      obtain ⟨before, after, hsplit, hbefore, hafter⟩ := artificialEntries_artificial hc hrel
      rw [hentry hget, hcost hget, hsplit, hclears.foldl_cost hbefore hafter]

lemma cleared_plain (p : Problem α) : Cleared p.plain := by
  have hentry : ∀ {j : ℕ} {col}, p.columns[j]? = some col →
      p.plain.objective[j]? = some (p.objectiveEntry col) := by
    intro j col hj
    simp [plain, hj]
  refine ⟨hentry p.columns_get_zero, fun b hb => ?_⟩
  obtain ⟨i, hi⟩ := List.mem_iff_getElem?.mp hb
  obtain ⟨c, hc, rfl⟩ := plain_basis_eq hi
  rw [hentry (get_idxOf (basicColumn_mem hc)), Constraint.basicColumn]
  split_ifs <;> rfl

lemma getD_map_zipIdx (p : Problem α) (f : α × ℕ → α) {j : ℕ} {col : Column}
    (hj : p.columns[j]? = some col) :
    (p.plain.objective.zipIdx.map f).getD j 0 = f (p.objectiveEntry col, j) := by
  simp [plain, hj, List.getElem?_zipIdx]

lemma cleared_charged [ClearingScalar α] {penalty : α}
    (h : Scalar.isFinite penalty = true) : Cleared (p.plain.charged penalty) := by
  refine cleared_of_costs (ClearingScalar.clears_multiple h) (by simp [plain]) ?_ ?_ ?_
  · refine (getD_map_zipIdx p _ p.columns_get_zero).trans ?_
    simp only [contains_artificial p.columns_get_zero]
    rfl
  · intro i j hj
    refine (getD_map_zipIdx p _ hj).trans ?_
    simp only [contains_artificial hj]
    rfl
  · intro i j hj
    refine (getD_map_zipIdx p _ hj).trans ?_
    simp only [contains_artificial hj]
    rfl

lemma cleared_phaseOne [ClearingScalar α] : Cleared p.plain.phaseOne := by
  refine cleared_of_costs ClearingScalar.clears_row (by simp [plain]) ?_ ?_ ?_
  · exact (getD_map_zipIdx p _ p.columns_get_zero).trans (if_pos (Or.inl rfl))
  · intro i j hj
    refine (getD_map_zipIdx p _ hj).trans (if_neg ?_)
    rw [contains_artificial hj, not_or]
    refine ⟨?_, by simp [Column.role]⟩
    rintro rfl
    cases p.columns_get_zero.symm.trans hj
  · intro i j hj
    refine (getD_map_zipIdx p _ hj).trans (if_pos (Or.inr ?_))
    rw [contains_artificial hj]
    rfl

/-- The first tableau of a valid problem has the columns, the rows and the basis of its
standardised constraints, and a finite penalty clears the objective row in all basic columns. -/
theorem tableau_layout [OrderedScalar α] [ClearingScalar α] (hp : p.Valid)
    (hfinite : ∀ c ∈ p.constraints, Scalar.isFinite c.rhs = true) {m : Method}
    {o : SolveOptions α} {t : Tableau α} (h : p.tableau m o = .ok t) :
    p.LaidOut t ∧ ((m = .bigM → t.artificial ≠ [] → ∀ penalty, o.penalty p = .ok penalty →
      Scalar.isFinite penalty = true) → Cleared t) := by
  refine ⟨hp.laidOut hfinite h, fun hpenalty => ?_⟩
  rcases hp.tableau_cases h with ⟨rfl, -⟩ | ⟨penalty, hne, hm, hpen, rfl⟩ | ⟨-, -, rfl⟩
  · exact p.cleared_plain
  · exact cleared_charged (hpenalty hm hne penalty hpen)
  · exact cleared_phaseOne

end Problem

/-- A problem of doubles with all three relations and a negative right-hand side. -/
def mixed : Problem Float where
  direction := .max
  objective := [3, 2]
  constraints :=
    [⟨"c1", [1, 2], .le, 4⟩, ⟨"c2", [1, -2], .le, -0.5⟩, ⟨"c3", [1, 1], .eq, 2⟩,
      ⟨"c4", [0.1, 1], .ge, 0.2⟩]

theorem tableau_layout_mixed :
    ∃ t, mixed.tableau .bigM {} = .ok t ∧ mixed.LaidOut t ∧ Problem.Cleared t ∧
      t.headers = ["Z", "x1", "x2", "s1", "e2", "e4", "a2", "a3", "a4", "RHS"] ∧
      t.basis = [3, 6, 7, 8] ∧ t.objective.getD 1 0 = -10003 := by
  have hvalid : mixed.Valid := ⟨Or.inl rfl, by decide +kernel, by decide +kernel⟩
  have hfinite : ∀ c ∈ mixed.constraints, Scalar.isFinite c.rhs = true := by decide +kernel
  have htableau : (mixed.tableau .bigM {}).toOption.any (fun t =>
      t.headers = ["Z", "x1", "x2", "s1", "e2", "e4", "a2", "a3", "a4", "RHS"] ∧
      t.basis = [3, 6, 7, 8] ∧ t.objective.getD 1 0 = -10003) = true := by
    decide +kernel
  have hpenalty : ∀ penalty, SolveOptions.penalty {} mixed = .ok penalty →
      Scalar.isFinite penalty = true := by
    have hall : (SolveOptions.penalty {} mixed).toOption.all Scalar.isFinite = true := by
      decide +kernel
    intro penalty h
    rwa [h] at hall
  obtain ⟨t, ht, hvalues⟩ := exists_ok_of_any htableau
  obtain ⟨hlaidOut, hcleared⟩ := Problem.tableau_layout hvalid hfinite ht
  exact ⟨t, ht, hlaidOut, hcleared fun _ _ => hpenalty, of_decide_eq_true hvalues⟩

end SimplexTableau
