import SimplexTableau.Proofs.Exact
import SimplexTableau.Tableau.Initial

/-!
# The columns of a problem

The columns of a tableau are laid out group by group, and no column comes twice. Every row has an
entry in each column. A value for each column is a weight for each position; summed over the
columns, a constraint row then gives its left-hand side with slack, surplus and artificial value
less its right-hand side, and the objective row gives the objective value less the objective.
-/

namespace SimplexTableau

section Entries

variable {α : Type} [Scalar α]

/-- The entry of the standardised row number `i` in a column. -/
def Constraint.entry (c : Constraint α) (i : ℕ) : Column → α
  | .objective => 0
  | .decision j => c.coefficients.getD j 0
  | .slack k => if k = i then 1 else 0
  | .surplus k => if k = i then -1 else 0
  | .artificial k => if k = i then 1 else 0
  | .rhs => c.rhs

/-- The column that starts basic in row number `i`. -/
def Constraint.basicColumn (c : Constraint α) (i : ℕ) : Column :=
  if c.relation = .le then .slack i else .artificial i

/-- The entry of the objective row in a column. -/
def Problem.objectiveEntry (p : Problem α) : Column → α
  | .objective => 1
  | .decision j =>
    let c := p.objective.getD j 0
    if p.direction = .min then c else -c
  | _ => 0

end Entries

section Rows

variable {α : Type} [Scalar α]

omit [Scalar α] in
lemma mem_rowsWhere {test : Relation → Bool} {rows : List (Constraint α)} {i : ℕ} :
    i ∈ rowsWhere test rows ↔ ∃ c, rows[i]? = some c ∧ test c.relation := by
  simp only [rowsWhere, List.mem_map, List.mem_filter, Prod.exists, List.mk_mem_zipIdx_iff_getElem?]
  constructor
  · rintro ⟨c, k, ⟨hc, ht⟩, rfl⟩
    exact ⟨c, hc, ht⟩
  · rintro ⟨c, hc, ht⟩
    exact ⟨c, i, ⟨hc, ht⟩, rfl⟩

omit [Scalar α] in
lemma rowsWhere_nodup (test : Relation → Bool) (rows : List (Constraint α)) :
    (rowsWhere test rows).Nodup := by
  have hsub : (rowsWhere test rows).Sublist (rows.zipIdx.map Prod.snd) :=
    List.filter_sublist.map _
  rw [List.zipIdx_map_snd] at hsub
  exact hsub.nodup List.nodup_range'

omit [Scalar α] in
lemma mem_layout {n : ℕ} {rows : List (Constraint α)} {c : Column} :
    c ∈ layout n rows ↔
      match c with
      | .objective | .rhs => True
      | .decision j => j < n
      | .slack i => ∃ r, rows[i]? = some r ∧ r.relation = .le
      | .surplus i => ∃ r, rows[i]? = some r ∧ r.relation = .ge
      | .artificial i => ∃ r, rows[i]? = some r ∧ r.relation ≠ .le := by
  cases c <;> simp [layout, mem_rowsWhere]

omit [Scalar α] in
theorem layout_nodup (n : ℕ) (rows : List (Constraint α)) : (layout n rows).Nodup := by
  unfold layout
  simp only [List.nodup_append, List.nodup_cons, List.nodup_map_iff_inj_on (rowsWhere_nodup _ _),
    List.nodup_map_iff_inj_on List.nodup_range]
  refine ⟨⟨⟨⟨⟨by simp, by simp⟩, by simp, ?_⟩, by simp, ?_⟩, by simp, ?_⟩, by simp, ?_⟩ <;>
  · intro a ha b hb
    simp at ha hb
    grind

end Rows

lemma sum_getD (l : List ℚ) : ∑ j ∈ Finset.range l.length, l.getD j 0 = l.sum := by
  induction l with
  | nil => rfl
  | cons a l ih =>
    rw [List.length_cons, Finset.sum_range_succ', List.sum_cons, ← ih, add_comm]
    rfl

lemma dot_map_map {β : Type} (l : List β) (f g : β → ℚ) :
    dot (l.map f) (l.map g) = (l.map fun c => f c * g c).sum := by
  induction l with
  | nil => rfl
  | cons c l ih => simp only [List.map_cons, dot, ih, List.sum_cons]

lemma sum_map_single {l : List ℕ} (hl : l.Nodup) (i : ℕ) (a : ℚ) (g : ℕ → ℚ) :
    (l.map fun k => (if k = i then a else 0) * g k).sum = if i ∈ l then a * g i else 0 := by
  induction l with
  | nil => simp
  | cons k l ih =>
    obtain ⟨hk, hl⟩ := List.nodup_cons.mp hl
    rw [List.map_cons, List.sum_cons, ih hl]
    by_cases hki : k = i
    · subst k
      simp [hk]
    · simp [hki, Ne.symm hki]

lemma sum_layout (n : ℕ) (rows : List (Constraint ℚ)) (f : Column → ℚ) :
    ((layout n rows).map f).sum =
      f .objective + ((List.range n).map fun j => f (.decision j)).sum +
        ((rowsWhere (· = .le) rows).map fun i => f (.slack i)).sum +
        ((rowsWhere (· = .ge) rows).map fun i => f (.surplus i)).sum +
        ((rowsWhere (· ≠ .le) rows).map fun i => f (.artificial i)).sum + f .rhs := by
  simp only [layout, List.map_cons, List.map_append, List.map_map, List.sum_cons, List.sum_append,
    List.map_nil, List.sum_nil, List.cons_append, Function.comp_def]
  ring

/-- The decision values among the values of the columns. -/
def decisions (n : ℕ) (val : Column → ℚ) : List ℚ :=
  (List.range n).map fun j => val (.decision j)

/-- What slack, surplus and artificial variable add to the left-hand side of row number `i`. -/
def Constraint.auxiliary (c : Constraint ℚ) (i : ℕ) (val : Column → ℚ) : ℚ :=
  match c.relation with
  | .le => val (.slack i)
  | .ge => val (.artificial i) - val (.surplus i)
  | .eq => val (.artificial i)

lemma dot_decisions (a : List ℚ) (val : Column → ℚ) {n : ℕ} (h : a.length = n) :
    ((List.range n).map fun j => a.getD j 0 * val (.decision j)).sum =
      dot a (decisions n val) := by
  have ha : a = (List.range n).map fun j => a.getD j 0 := by
    apply List.ext_getElem
    · simp [h]
    · intro j hj hj'
      simp [List.getElem?_eq_getElem hj]
  rw [decisions, ← dot_map_map, ← ha]

/-- The weighted sum of row number `i` over all columns. -/
theorem sum_entry_layout {n : ℕ} {rows : List (Constraint ℚ)} {c : Constraint ℚ} {i : ℕ}
    (hi : rows[i]? = some c) (hc : c.coefficients.length = n) (val : Column → ℚ) :
    dot ((layout n rows).map (c.entry i)) ((layout n rows).map val) =
      dot c.coefficients (decisions n val) + c.auxiliary i val + c.rhs * val .rhs := by
  rw [dot_map_map, sum_layout]
  simp only [Constraint.entry, zero_mul, zero_add, sum_map_single (rowsWhere_nodup _ _),
    mem_rowsWhere, hi, Option.some.injEq, exists_eq_left', dot_decisions _ _ hc,
    Constraint.auxiliary, one_mul, neg_one_mul]
  cases c.relation with
  | le => simp
  | ge =>
    simp
    ring
  | eq => simp

/-- The weighted sum of the objective row over all columns. -/
theorem sum_objectiveEntry_layout (p : Problem ℚ) (rows : List (Constraint ℚ))
    (val : Column → ℚ) :
    dot ((layout p.numVars rows).map p.objectiveEntry) ((layout p.numVars rows).map val) =
      val .objective + (if p.direction = .min then 1 else -1) *
        dot p.objective (decisions p.numVars val) := by
  rw [dot_map_map, sum_layout]
  simp only [Problem.objectiveEntry, one_mul, zero_mul, List.map_const', List.sum_replicate,
    smul_zero, add_zero]
  rw [← dot_decisions (n := p.numVars) p.objective val rfl]
  split_ifs
  · rw [one_mul]
  · simp only [neg_mul, one_mul, List.sum_neg, List.map_map, Function.comp_def]

end SimplexTableau
