import SimplexTableau.Proofs.Start

/-!
# The prepared objective row

With artificial columns the penalty method charges the objective row for them, and two phases
put it aside for the sum of the artificial variables. Both then subtract multiples of the rows in
which an artificial variable is basic. They look up these rows column by column; every artificial
column is basic in its own row, so the rows are found, in the order in which they stand.
-/

namespace SimplexTableau

lemma foldl_subtractMultiple (f : ℚ) {rows : List (List ℚ)} {o : List ℚ}
    (h : ∀ row ∈ rows, row.length = o.length) (j : ℕ) :
    (rows.foldl (subtractMultiple · f ·) o).getD j 0 =
      o.getD j 0 - f * (rows.map (·.getD j 0)).sum := by
  induction rows generalizing o with
  | nil => simp
  | cons row rows ih =>
    have hrow := h row (List.mem_cons_self ..)
    have hlen : (subtractMultiple o f row).length = o.length := by
      rw [length_subtractMultiple, hrow, min_self]
    have he := ih (o := subtractMultiple o f row) fun r hr => by
      rw [h r (List.mem_cons_of_mem _ hr), hlen]
    rw [List.foldl_cons, he, getD_subtractMultiple hrow.symm, List.map_cons, List.sum_cons]
    ring

lemma sum_filterMap_zip (art : List ℕ) (j : ℕ) {basis : List ℕ} {rows : List (List ℚ)}
    (h : basis.length = rows.length) :
    (((basis.zip rows).filterMap fun (b, row) =>
        if art.contains b then some row else none).map (·.getD j 0)).sum =
      ∑ i ∈ Finset.range rows.length,
        if basis.getD i 0 ∈ art then (rows.getD i []).getD j 0 else 0 := by
  induction rows generalizing basis with
  | nil => simp
  | cons row rows ih =>
    cases basis with
    | nil => simp at h
    | cons b basis =>
      have hi := ih (Nat.succ.inj h)
      rw [List.length_cons, Finset.sum_range_succ', List.zip_cons_cons]
      simp only [List.getD_cons_succ, List.getD_cons_zero]
      rw [← hi]
      by_cases hb : b ∈ art
      · simp only [List.filterMap_cons, List.contains_eq_mem, hb, decide_true, if_true,
          List.map_cons, List.sum_cons, add_comm]
      · simp only [List.filterMap_cons, List.contains_eq_mem, hb, decide_false, Bool.false_eq_true,
          if_false, add_zero]

lemma foldl_subtractRow (rows : List (List ℚ)) (o : List ℚ) :
    rows.foldl subtractRow o = rows.foldl (subtractMultiple · 1 ·) o := by
  have he : (subtractRow : List ℚ → List ℚ → List ℚ) = (subtractMultiple · 1 ·) := by
    funext row other
    exact subtractRow_eq row other
  rw [he]

/-- Cells that are overwritten with one value one after the other. -/
lemma foldl_set {α : Type} (v : α) (cols : List ℕ) (o : List α) :
    cols.foldl (fun o col => o.set col v) o =
      o.zipIdx.map fun (w, j) => if cols.contains j then v else w := by
  induction cols generalizing o with
  | nil => simp
  | cons col cols ih =>
    rw [List.foldl_cons, ih]
    apply List.ext_getElem
    · simp
    · intro j hj hj'
      by_cases hcol : col = j
      · simp [hcol]
      · simp [hcol, Ne.symm hcol]

namespace Tableau

lemma foldlM_basicRow {α : Type} {t : Tableau α} {cols : List ℕ} {rows : List (List α)}
    (h : List.Forall₂ (fun col row => t.basicRow col = .ok row) cols rows)
    (take : List α → List α → List α) (o : List α) :
    (cols.foldlM (fun o col => do return take o (← t.basicRow col)) o : Except Fault (List α)) =
      .ok (rows.foldl take o) := by
  induction h generalizing o with
  | nil => rfl
  | cons hrow _ ih =>
    rw [List.foldlM_cons, hrow]
    exact ih _

section Lengths

variable {α : Type} {t : Tableau α}

/-- The rows whose basic column is artificial. -/
def artificialRows (t : Tableau α) : List (List α) :=
  (t.basis.zip t.rows).filterMap fun (b, row) =>
    if t.artificial.contains b then some row else none

lemma mem_artificialRows {row : List α} (h : row ∈ t.artificialRows) : row ∈ t.rows := by
  obtain ⟨⟨b, r⟩, hmem, he⟩ := List.mem_filterMap.mp h
  dsimp only at he
  split_ifs at he
  cases he
  exact (List.of_mem_zip hmem).2

lemma Shaped.length_artificialRows (h : t.Shaped) {row : List α} (hr : row ∈ t.artificialRows) :
    row.length = t.columns.length :=
  h.rows row (mem_artificialRows hr)

lemma Shaped.length_foldl_artificialRows (h : t.Shaped) {f : List α → List α → List α}
    (hf : ∀ o row, (f o row).length = min o.length row.length) {o : List α}
    (ho : o.length = t.columns.length) :
    (t.artificialRows.foldl f o).length = t.columns.length := by
  refine List.foldlRecOn (motive := fun o : List α => o.length = t.columns.length)
    t.artificialRows f ho ?_
  intro o ho row hrow
  rw [hf, ho, h.length_artificialRows hrow, min_self]

lemma Shaped.length_map_objective (h : t.Shaped) (g : α × ℕ → α) :
    (t.objective.zipIdx.map g).length = t.columns.length := by
  rw [List.length_map, List.length_zipIdx, h.objective]

variable [Scalar α]

/-- The tableau that is charged a penalty for every artificial column. -/
def charged (t : Tableau α) (penalty : α) : Tableau α :=
  let charged := t.objective.zipIdx.map fun (v, j) => if t.artificial.contains j then penalty else v
  { t with objective := t.artificialRows.foldl (subtractMultiple · penalty ·) charged }

/-- The tableau of the first phase. -/
def phaseOne (t : Tableau α) : Tableau α :=
  let sum := t.objective.zipIdx.map fun (_, j) =>
    if j = 0 ∨ t.artificial.contains j then (1 : α) else 0
  { t with
    objective := t.artificialRows.foldl subtractRow sum
    savedObjective := some t.objective }

lemma Shaped.length_charged (h : t.Shaped) (penalty : α) :
    (t.charged penalty).objective.length = t.columns.length :=
  h.length_foldl_artificialRows (fun _ _ => length_subtractMultiple ..) (h.length_map_objective _)

lemma Shaped.length_phaseOne (h : t.Shaped) :
    t.phaseOne.objective.length = t.columns.length :=
  h.length_foldl_artificialRows (fun _ _ => length_subtractRow ..) (h.length_map_objective _)

theorem Shaped.charged (h : t.Shaped) (penalty : α) : (t.charged penalty).Shaped :=
  ⟨⟨h.length_charged penalty, h.rows⟩, h.width, h.basis, h.inside, h.saved⟩

theorem Shaped.phaseOne (h : t.Shaped) : t.phaseOne.Shaped := by
  refine ⟨⟨h.length_phaseOne, h.rows⟩, h.width, h.basis, h.inside, ?_⟩
  intro o ho
  cases ho
  exact h.objective

end Lengths

variable {t : Tableau ℚ}

/-- The entry of a column in the sum of the rows whose basic column is artificial. -/
def artificialSum (t : Tableau ℚ) (j : ℕ) : ℚ :=
  (t.artificialRows.map (·.getD j 0)).sum

lemma artificialSum_mem (t : Tableau ℚ) : t.artificialSum ∈ t.rowSpace := by
  have hrows : ∀ row ∈ t.artificialRows, (fun j => row.getD j 0) ∈ t.rowSpace := by
    intro row hrow
    obtain ⟨i, hi⟩ := List.mem_iff_getElem?.mp (mem_artificialRows hrow)
    have hmem := t.entry_mem_rowSpace i
    have he : t.entry (i + 1) = fun j => row.getD j 0 := funext (entry_of_getElem? hi)
    rwa [he] at hmem
  revert hrows
  unfold artificialSum
  induction t.artificialRows with
  | nil => exact fun _ => Submodule.zero_mem _
  | cons row rows ih =>
    intro hrows
    simp only [List.map_cons, List.sum_cons]
    exact Submodule.add_mem _ (hrows row (List.mem_cons_self ..))
      (ih fun r hr => hrows r (List.mem_cons_of_mem _ hr))

lemma Shaped.artificialSum_eq (h : t.Shaped) (j : ℕ) :
    t.artificialSum j = ∑ i ∈ Finset.range t.rows.length,
      if t.basis.getD i 0 ∈ t.artificial then t.entry (i + 1) j else 0 :=
  sum_filterMap_zip t.artificial j h.basis

lemma Shaped.getD_foldl_artificialRows (h : t.Shaped) (f : ℚ) (g : ℚ × ℕ → ℚ) {j : ℕ}
    (hj : j < t.columns.length) :
    (t.artificialRows.foldl (subtractMultiple · f ·) (t.objective.zipIdx.map g)).getD j 0 =
      g (t.entry 0 j, j) - f * t.artificialSum j := by
  have hlen : ∀ row ∈ t.artificialRows, row.length = (t.objective.zipIdx.map g).length := by
    intro row hr
    rw [h.length_artificialRows hr, h.length_map_objective]
  have hget : (t.objective.zipIdx.map g)[j]? = some (g (t.entry 0 j, j)) := by
    simp [List.getElem?_zipIdx, h.objective_get? hj]
  rw [foldl_subtractMultiple f hlen, List.getD_eq_getElem?_getD, hget]
  rfl

theorem Shaped.charged_spec (h : t.Shaped) (penalty : ℚ) :
    (t.charged penalty).Shaped ∧ ∀ j, j < t.columns.length → (t.charged penalty).entry 0 j =
      (if j ∈ t.artificial then penalty else t.entry 0 j) - penalty * t.artificialSum j := by
  refine ⟨h.charged penalty, fun j hj => ?_⟩
  rw [entry_zero, Tableau.charged, h.getD_foldl_artificialRows penalty _ hj]
  simp only [List.contains_eq_mem, decide_eq_true_eq]

theorem Shaped.phaseOne_spec (h : t.Shaped) :
    t.phaseOne.Shaped ∧ ∀ j, j < t.columns.length → t.phaseOne.entry 0 j =
      (if j = 0 ∨ j ∈ t.artificial then 1 else 0) - t.artificialSum j := by
  refine ⟨h.phaseOne, fun j hj => ?_⟩
  rw [entry_zero, Tableau.phaseOne, foldl_subtractRow, h.getD_foldl_artificialRows 1 _ hj, one_mul]
  simp only [List.contains_eq_mem, decide_eq_true_eq]

end Tableau

namespace Problem

section Lookup

variable {α : Type} [Scalar α] {p : Problem α}

/-- The standardised constraints with an artificial variable, each with its row number. -/
def artificialConstraints (p : Problem α) : List (Constraint α × ℕ) :=
  p.standard.zipIdx.filter fun q => q.1.relation ≠ .le

lemma mem_artificialConstraints {c : Constraint α} {i : ℕ} :
    (c, i) ∈ p.artificialConstraints ↔ p.standard[i]? = some c ∧ c.relation ≠ .le := by
  simp [artificialConstraints, List.mk_mem_zipIdx_iff_getElem?]

lemma contains_artificial {j : ℕ} {col : Column} (hj : p.columns[j]? = some col) :
    p.plain.artificial.contains j = decide (col.role = .artificial) := by
  have hiff : j ∈ p.plain.artificial ↔ col.role = .artificial := by
    rw [mem_artificial_iff, hj]
    cases col <;> simp [Column.role]
  simp [hiff]

lemma contains_basicColumn {c : Constraint α} {i : ℕ} (hi : p.standard[i]? = some c) :
    p.plain.artificial.contains (p.columns.idxOf (c.basicColumn i)) =
      decide (c.relation ≠ .le) := by
  rw [contains_artificial (get_idxOf (basicColumn_mem hi)), Constraint.basicColumn]
  split_ifs with hrel <;> simp [Column.role, hrel]

lemma plain_artificialRows (p : Problem α) :
    p.plain.artificialRows =
      p.artificialConstraints.map fun q => p.columns.map (q.1.entry q.2) := by
  have hzip : p.plain.basis.zip p.plain.rows = p.standard.zipIdx.map fun q =>
      (p.columns.idxOf (q.1.basicColumn q.2), p.columns.map (q.1.entry q.2)) :=
    List.zip_map'
  rw [Tableau.artificialRows, hzip, List.filterMap_map, artificialConstraints,
    ← List.filterMap_eq_map, List.filterMap_filter]
  apply List.filterMap_congr
  rintro ⟨c, i⟩ hmem
  simp only [Function.comp_apply, contains_basicColumn (List.mk_mem_zipIdx_iff_getElem?.mp hmem)]

/-- The row of every artificial column is found. -/
lemma plain_basicRow {c : Constraint α} {i : ℕ} (h : (c, i) ∈ p.artificialConstraints) :
    p.plain.basicRow (p.columns.idxOf (.artificial i)) = .ok (p.columns.map (c.entry i)) := by
  obtain ⟨hi, hrel⟩ := mem_artificialConstraints.mp h
  have hbasis : p.plain.basis[i]? = some (p.columns.idxOf (.artificial i)) := by
    rw [plain_basis_get hi, Constraint.basicColumn, if_neg hrel]
  have hfound : p.plain.basis.idxOf? (p.columns.idxOf (.artificial i)) = some i := by
    obtain ⟨hlt, hget⟩ := List.getElem?_eq_some_iff.mp hbasis
    refine List.idxOf?_eq_some_iff.mpr ⟨hlt, hget, fun j hj he => hj.ne ?_⟩
    exact (p.plain_basis_nodup.getElem_inj_iff).mp (he.trans hget.symm)
  rw [Tableau.basicRow, hfound, Option.bind_some, plain_row hi]

lemma plain_takeArtificials (p : Problem α) (cost : α) (take : List α → List α → List α)
    (o : List α) : p.plain.takeArtificials cost take o =
      .ok (p.plain.artificialRows.foldl take
        (o.zipIdx.map fun (v, j) => if p.plain.artificial.contains j then cost else v)) := by
  have hrows : List.Forall₂ (fun col row => p.plain.basicRow col = .ok row)
      p.plain.artificial p.plain.artificialRows := by
    have hcols : p.plain.artificial =
        p.artificialConstraints.map fun q => p.columns.idxOf (.artificial q.2) :=
      List.map_map
    rw [hcols, plain_artificialRows, List.forall₂_map_left_iff, List.forall₂_map_right_iff,
      List.forall₂_same]
    exact fun q hq => plain_basicRow hq
  rw [Tableau.takeArtificials, foldl_set]
  exact Tableau.foldlM_basicRow hrows take _

lemma plain_charge (p : Problem α) (penalty : α) :
    p.plain.charge penalty = .ok (p.plain.charged penalty) := by
  unfold Tableau.charge
  rw [plain_takeArtificials]
  rfl

lemma plain_startPhaseOne (p : Problem α) : p.plain.startPhaseOne = .ok p.plain.phaseOne := by
  have hsum : (((List.replicate p.plain.columns.length (0 : α)).set 0 1).zipIdx.map fun (v, j) =>
      if p.plain.artificial.contains j then 1 else v) = p.plain.objective.zipIdx.map fun (_, j) =>
        if j = 0 ∨ p.plain.artificial.contains j then (1 : α) else 0 := by
    apply List.ext_getElem
    · simp [plain]
    · intro j hj hj'
      by_cases hzero : j = 0
      · simp [hzero]
      · simp [hzero, List.getElem_set_of_ne (Ne.symm hzero)]
  unfold Tableau.startPhaseOne
  simp only [plain_takeArtificials, hsum]
  rfl

end Lookup

section Cases

variable {α : Type} [Scalar α] {p : Problem α} {m : Method} {o : SolveOptions α}

/-- The first tableau of a valid problem. Only the penalty can be refused. -/
theorem Valid.tableau_eq_prepared (hp : p.Valid) : p.tableau m o =
    if p.plain.artificial = [] then .ok p.plain
    else match m with
      | .bigM => (o.penalty p).map p.plain.charged
      | .twoPhase => .ok p.plain.phaseOne
      | _ => .ok p.plain := by
  unfold tableau
  rw [hp.plainTableau_eq]
  simp only [bind, Except.bind, List.isEmpty_iff]
  split_ifs
  · rfl
  · cases m with
    | bigM => cases o.penalty p <;> simp [plain_charge, Except.map]
    | twoPhase => exact plain_startPhaseOne p
    | simplex | other => rfl

/-- A method starts on the plain tableau unless it prepares the objective row for artificial
columns. -/
theorem Valid.tableau_cases {t : Tableau α} (hp : p.Valid) (h : p.tableau m o = .ok t) :
    (t = p.plain ∧ (p.plain.artificial = [] ∨ m ≠ .bigM ∧ m ≠ .twoPhase)) ∨
      (∃ penalty, p.plain.artificial ≠ [] ∧ m = .bigM ∧ o.penalty p = .ok penalty ∧
        t = p.plain.charged penalty) ∨
      (p.plain.artificial ≠ [] ∧ m = .twoPhase ∧ t = p.plain.phaseOne) := by
  rw [hp.tableau_eq_prepared] at h
  split_ifs at h with ha
  · cases h
    exact Or.inl ⟨rfl, Or.inl ha⟩
  · cases m with
    | bigM =>
      cases hpen : o.penalty p with
      | error e =>
        rw [hpen] at h
        cases h
      | ok penalty =>
        rw [hpen] at h
        cases h
        exact Or.inr (Or.inl ⟨penalty, ha, rfl, rfl, rfl⟩)
    | twoPhase =>
      cases h
      exact Or.inr (Or.inr ⟨ha, rfl, rfl⟩)
    | simplex | other =>
      cases h
      exact Or.inl ⟨rfl, Or.inr ⟨by simp, by simp⟩⟩

end Cases

variable {p : Problem ℚ}

/-- The tableaux on which a method can start. -/
inductive StartsOn (p : Problem ℚ) (m : Method) (o : SolveOptions ℚ) : Tableau ℚ → Prop
  | plain (h : p.plain.artificial = [] ∨ m ≠ .bigM ∧ m ≠ .twoPhase) : StartsOn p m o p.plain
  | charged {penalty : ℚ} (ha : p.plain.artificial ≠ []) (hm : m = .bigM)
      (hp : o.penalty p = .ok penalty) : StartsOn p m o (p.plain.charged penalty)
  | phaseOne (ha : p.plain.artificial ≠ []) (hm : m = .twoPhase) :
      StartsOn p m o p.plain.phaseOne

theorem Valid.tableau_startsOn (hp : p.Valid) {m : Method} {o : SolveOptions ℚ} {t : Tableau ℚ}
    (h : p.tableau m o = .ok t) : p.StartsOn m o t := by
  rcases hp.tableau_cases h with ⟨rfl, hm⟩ | ⟨penalty, ha, hm, hpen, rfl⟩ | ⟨ha, hm, rfl⟩
  · exact StartsOn.plain hm
  · exact StartsOn.charged ha hm hpen
  · exact StartsOn.phaseOne ha hm

variable {m : Method} {o : SolveOptions ℚ} {t : Tableau ℚ}

lemma StartsOn.same (h : p.StartsOn m o t) :
    t.columns = p.columns ∧ t.rows = p.plain.rows ∧ t.basis = p.plain.basis ∧
      t.artificial = p.plain.artificial := by
  cases h <;> exact ⟨rfl, rfl, rfl, rfl⟩

lemma StartsOn.shaped (hp : p.Valid) (h : p.StartsOn m o t) : t.Shaped := by
  cases h with
  | plain => exact hp.shaped_plain
  | charged => exact (hp.shaped_plain.charged_spec _).1
  | phaseOne => exact hp.shaped_plain.phaseOne_spec.1

lemma StartsOn.entry_succ (h : p.StartsOn m o t) (i : ℕ) :
    t.entry (i + 1) = p.plain.entry (i + 1) := by
  funext j
  rw [Tableau.entry_succ, Tableau.entry_succ, h.same.2.1]

lemma StartsOn.rowSpace_eq (h : p.StartsOn m o t) : t.rowSpace = p.plain.rowSpace := by
  unfold Tableau.rowSpace
  simp only [h.entry_succ]

end Problem

end SimplexTableau
