import SimplexTableau.Proofs.Entries
import SimplexTableau.Proofs.Layout

/-!
# Where the rows of the first tableau are written

The rows are written from the top down, each with its units in the next free columns. The counters
of these columns agree with the layout: the column that a row takes stands where the column of that
name does. So a written row has its entry in every column, and the basic and the artificial columns
are found by name.
-/

namespace SimplexTableau

lemma idxOf_middle {β : Type} [DecidableEq β] {before after : List β} {b : β}
    (h : (before ++ b :: after).Nodup) : (before ++ b :: after).idxOf b = before.length := by
  have hb : b ∉ before := fun hmem =>
    (List.nodup_append.mp h).2.2 b hmem b (List.mem_cons_self ..) rfl
  rw [List.idxOf_append_of_notMem hb, List.idxOf_cons_self, Nat.add_zero]

/-- A function that is changed in one place changes a list of values in one cell. -/
lemma map_update_of_nodup {β γ : Type} [DecidableEq β] {l : List β} (h : l.Nodup) (f : β → γ)
    (b : β) (v : γ) : l.map (Function.update f b v) = (l.map f).set (l.idxOf b) v := by
  rw [h.map_update]
  split_ifs with hb
  · rfl
  · rw [List.set_eq_of_length_le]
    rw [List.length_map, List.idxOf_eq_length hb]

section Rows

variable {α : Type}

/-- The numbers of the rows whose relation passes a test, for rows that are numbered from `k`. -/
def numbersFrom (test : Relation → Bool) (k : ℕ) (rows : List (Constraint α)) : List ℕ :=
  ((rows.zipIdx k).filter fun (c, _) => test c.relation).map Prod.snd

lemma numbersFrom_cons (test : Relation → Bool) (k : ℕ) (c : Constraint α)
    (rest : List (Constraint α)) : numbersFrom test k (c :: rest) =
      if test c.relation then k :: numbersFrom test (k + 1) rest
      else numbersFrom test (k + 1) rest := by
  simp only [numbersFrom, List.zipIdx_cons, List.filter_cons]
  split_ifs <;> rfl

lemma rowsWhere_append (test : Relation → Bool) (before rest : List (Constraint α)) :
    rowsWhere test (before ++ rest) =
      rowsWhere test before ++ numbersFrom test before.length rest := by
  rw [rowsWhere, List.zipIdx_append, List.filter_append, List.map_append, Nat.zero_add]
  rfl

lemma length_rowsWhere_concat (test : Relation → Bool) (before : List (Constraint α))
    (c : Constraint α) : (rowsWhere test (before ++ [c])).length =
      (rowsWhere test before).length + if test c.relation then 1 else 0 := by
  rw [rowsWhere_append, numbersFrom_cons, List.length_append]
  split_ifs <;> rfl

/-- The next free columns once the first of the rows are written. -/
def Counters.at (n : ℕ) (rows before : List (Constraint α)) : Counters where
  slack := 1 + n + (rowsWhere (· = .le) before).length
  surplus := 1 + n + (rowsWhere (· = .le) rows).length + (rowsWhere (· = .ge) before).length
  artificial := 1 + n + (rowsWhere (· = .le) rows).length + (rowsWhere (· = .ge) rows).length +
    (rowsWhere (· ≠ .le) before).length

lemma Counters.at_concat (n : ℕ) (rows before : List (Constraint α)) (c : Constraint α) :
    Counters.at n rows (before ++ [c]) = (Counters.at n rows before).past c.relation := by
  simp only [Counters.at, length_rowsWhere_concat]
  cases c.relation <;> rfl

section Positions

variable (n : ℕ) (before rest : List (Constraint α)) (c : Constraint α)

/-- In a group of columns the column of a row stands behind those of the rows before it. -/
lemma idxOf_group {test : Relation → Bool} (hc : test c.relation = true) {front : List Column}
    {column : ℕ → Column}
    (h : front ++ (rowsWhere test (before ++ c :: rest)).map column <+:
      layout n (before ++ c :: rest)) :
    (layout n (before ++ c :: rest)).idxOf (column before.length) =
      front.length + (rowsWhere test before).length := by
  obtain ⟨back, hback⟩ := h
  have hsplit : layout n (before ++ c :: rest) =
      (front ++ (rowsWhere test before).map column) ++ column before.length ::
        ((numbersFrom test (before.length + 1) rest).map column ++ back) := by
    rw [← hback, rowsWhere_append, numbersFrom_cons, if_pos hc, List.map_append, List.map_cons]
    simp only [List.append_assoc, List.cons_append]
  have hnodup := layout_nodup n (before ++ c :: rest)
  rw [hsplit] at hnodup ⊢
  rw [idxOf_middle hnodup, List.length_append, List.length_map]

lemma idxOf_slack (hc : c.relation = .le) :
    (layout n (before ++ c :: rest)).idxOf (.slack before.length) =
      (Counters.at n (before ++ c :: rest) before).slack := by
  have hprefix : .objective :: (List.range n).map .decision ++
      (rowsWhere (· = .le) (before ++ c :: rest)).map .slack <+: layout n (before ++ c :: rest) :=
    (List.prefix_append ..).trans ((List.prefix_append ..).trans (List.prefix_append ..))
  rw [idxOf_group n before rest c (by simpa using hc) hprefix, Counters.at]
  simp only [List.length_cons, List.length_map, List.length_range, Nat.add_comm 1]

lemma idxOf_surplus (hc : c.relation = .ge) :
    (layout n (before ++ c :: rest)).idxOf (.surplus before.length) =
      (Counters.at n (before ++ c :: rest) before).surplus := by
  have hprefix : .objective :: (List.range n).map .decision ++
      (rowsWhere (· = .le) (before ++ c :: rest)).map .slack ++
      (rowsWhere (· = .ge) (before ++ c :: rest)).map .surplus <+:
        layout n (before ++ c :: rest) :=
    (List.prefix_append ..).trans (List.prefix_append ..)
  rw [idxOf_group n before rest c (by simpa using hc) hprefix, Counters.at]
  simp only [List.length_append, List.length_cons, List.length_map, List.length_range,
    Nat.add_comm 1]

lemma idxOf_artificial (hc : c.relation ≠ .le) :
    (layout n (before ++ c :: rest)).idxOf (.artificial before.length) =
      (Counters.at n (before ++ c :: rest) before).artificial := by
  rw [idxOf_group n before rest c (by simpa using hc) (List.prefix_append ..), Counters.at]
  simp only [List.length_append, List.length_cons, List.length_map, List.length_range,
    Nat.add_comm 1]

end Positions

end Rows

section Cells

variable {α : Type} [Scalar α] {n : ℕ} {rows : List (Constraint α)} {decisions : List α}

/-- Values that are zero in the columns of slack, surplus and artificial variables. -/
lemma map_layout_eq_bareRow {f : Column → α} (hn : decisions.length = n)
    (hd : ∀ j, j < n → f (.decision j) = decisions.getD j 0) (hs : ∀ k, f (.slack k) = 0)
    (hu : ∀ k, f (.surplus k) = 0) (ha : ∀ k, f (.artificial k) = 0) :
    (layout n rows).map f =
      bareRow (layout n rows).length (f .objective) decisions (f .rhs) := by
  have hdecisions : (List.range n).map (fun j => f (.decision j)) = decisions := by
    apply List.ext_getElem
    · simp [hn]
    · intro j hj hj'
      simp [hd j (hn ▸ hj'), hj']
  have hzeros : (layout n rows).length - n - 2 = (rowsWhere (· = .le) rows).length +
      ((rowsWhere (· = .ge) rows).length + (rowsWhere (· ≠ .le) rows).length) := by
    simp only [layout, List.length_append, List.length_cons, List.length_map, List.length_range,
      List.length_nil]
    omega
  rw [bareRow, hn, hzeros, List.replicate_add, List.replicate_add]
  simp only [layout, List.map_append, List.map_cons, List.map_map, Function.comp_def, hdecisions,
    hs, hu, ha, List.map_const', List.map_nil, List.append_assoc]

/-- The entries of a row without its units. -/
def Constraint.bareEntry (c : Constraint α) : Column → α
  | .decision j => c.coefficients.getD j 0
  | .rhs => c.rhs
  | _ => 0

lemma entry_eq_update (c : Constraint α) (i : ℕ) : c.entry i =
    Function.update (Function.update (Function.update c.bareEntry (.slack i) 1) (.surplus i) (-1))
      (.artificial i) 1 := by
  funext col
  cases col <;> simp [Constraint.entry, Constraint.bareEntry, Function.update_apply]

lemma map_bareEntry {c : Constraint α} (hc : c.coefficients.length = n) :
    (layout n rows).map c.bareEntry =
      bareRow (layout n rows).length 0 c.coefficients c.rhs :=
  map_layout_eq_bareRow hc (fun _ _ => rfl) (fun _ => rfl) (fun _ => rfl) fun _ => rfl

/-- The units of a row stand in the columns of its number. -/
lemma map_entry_layout {c : Constraint α} (hc : c.coefficients.length = n) (i : ℕ) :
    (layout n rows).map (c.entry i) =
      (((bareRow (layout n rows).length 0 c.coefficients c.rhs).set
        ((layout n rows).idxOf (.slack i)) 1).set ((layout n rows).idxOf (.surplus i)) (-1)).set
          ((layout n rows).idxOf (.artificial i)) 1 := by
  have hnodup := layout_nodup n rows
  rw [entry_eq_update, map_update_of_nodup hnodup, map_update_of_nodup hnodup,
    map_update_of_nodup hnodup, map_bareEntry hc]

omit [Scalar α] in
lemma set_idxOf_of_notMem {row : List α} (hrow : row.length = (layout n rows).length)
    {col : Column} (hcol : col ∉ layout n rows) (v : α) :
    row.set ((layout n rows).idxOf col) v = row := by
  apply List.set_eq_of_length_le
  rw [hrow, List.idxOf_eq_length hcol]

end Cells

section Writing

variable {α : Type} [Scalar α] {n : ℕ} {before rest : List (Constraint α)} {c : Constraint α}

omit [Scalar α] in
lemma slack_notMem (h : c.relation ≠ .le) :
    Column.slack before.length ∉ layout n (before ++ c :: rest) := by
  simp [mem_layout, h]

omit [Scalar α] in
lemma surplus_notMem (h : c.relation ≠ .ge) :
    Column.surplus before.length ∉ layout n (before ++ c :: rest) := by
  simp [mem_layout, h]

/-- A row that is written with its units in the next free columns has its entry in every column:
the columns that its relation does not take are not in the layout. -/
lemma written_eq (hc : c.coefficients.length = n) :
    c.written (layout n (before ++ c :: rest)).length
        (Counters.at n (before ++ c :: rest) before) =
      (layout n (before ++ c :: rest)).map (c.entry before.length) := by
  have hlen : (bareRow (layout n (before ++ c :: rest)).length 0 c.coefficients c.rhs).length =
      (layout n (before ++ c :: rest)).length := by
    rw [← map_bareEntry hc, List.length_map]
  rw [map_entry_layout hc]
  unfold Constraint.written
  cases hrel : c.relation with
  | le =>
    have ha : Column.artificial before.length ∉ layout n (before ++ c :: rest) := by
      simp [mem_layout, hrel]
    rw [← idxOf_slack n before rest c hrel, set_idxOf_of_notMem (by simp [hlen]) ha,
      set_idxOf_of_notMem (by simp [hlen]) (surplus_notMem (by simp [hrel]))]
  | ge =>
    rw [← idxOf_surplus n before rest c hrel, ← idxOf_artificial n before rest c (by simp [hrel]),
      set_idxOf_of_notMem hlen (slack_notMem (by simp [hrel]))]
  | eq =>
    rw [← idxOf_artificial n before rest c (by simp [hrel]),
      set_idxOf_of_notMem hlen (slack_notMem (by simp [hrel])),
      set_idxOf_of_notMem hlen (surplus_notMem (by simp [hrel]))]

omit [Scalar α] in
lemma basic_eq (n : ℕ) (before rest : List (Constraint α)) (c : Constraint α) :
    (Counters.at n (before ++ c :: rest) before).basic c.relation =
      (layout n (before ++ c :: rest)).idxOf (c.basicColumn before.length) := by
  unfold Constraint.basicColumn
  split_ifs with hrel
  · rw [idxOf_slack n before rest c hrel, hrel]
    rfl
  · rw [idxOf_artificial n before rest c hrel]
    cases h : c.relation with
    | le => exact absurd h hrel
    | ge | eq => rfl

/-- The rows that are numbered from `k` with their entry in every column, and the columns found by
their names. -/
def Placement.named (columns : List Column) (k : ℕ) (rows : List (Constraint α)) :
    Placement α where
  rows := (rows.zipIdx k).map fun (c, i) => columns.map (c.entry i)
  basis := (rows.zipIdx k).map fun (c, i) => columns.idxOf (c.basicColumn i)
  artificial := (numbersFrom (· ≠ .le) k rows).map fun i => columns.idxOf (.artificial i)

lemma Placement.named_cons (columns : List Column) (k : ℕ) (c : Constraint α)
    (rest : List (Constraint α)) : Placement.named columns k (c :: rest) =
      { rows := columns.map (c.entry k) :: (Placement.named columns (k + 1) rest).rows
        basis := columns.idxOf (c.basicColumn k) :: (Placement.named columns (k + 1) rest).basis
        artificial :=
          if c.relation = .le then (Placement.named columns (k + 1) rest).artificial
          else columns.idxOf (.artificial k) ::
            (Placement.named columns (k + 1) rest).artificial } := by
  simp only [Placement.named, numbersFrom_cons, List.zipIdx_cons, List.map_cons, ne_eq, decide_not,
    Bool.not_eq_true', decide_eq_false_iff_not, ite_not]
  split_ifs <;> rfl

/-- With counters at the next free columns every row is written as the layout names it. -/
theorem placeRows_eq (before : List (Constraint α)) (hn : ∀ c ∈ rest, c.coefficients.length = n) :
    placeRows (layout n (before ++ rest)).length (Counters.at n (before ++ rest) before) rest =
      Placement.named (layout n (before ++ rest)) before.length rest := by
  induction rest generalizing before with
  | nil => rfl
  | cons c rest ih =>
    obtain ⟨hc, hrest⟩ := List.forall_mem_cons.mp hn
    have hbelow := ih (before ++ [c]) hrest
    rw [List.append_assoc, List.singleton_append, List.length_append, List.length_singleton,
      Counters.at_concat] at hbelow
    rw [placeRows, hbelow, written_eq hc, basic_eq, Placement.named_cons]
    by_cases hrel : c.relation = .le
    · simp only [if_pos hrel]
    · simp only [if_neg hrel, idxOf_artificial n before rest c hrel]

/-- The objective row holds the signed objective in the decision columns. -/
lemma Problem.map_objectiveEntry (p : Problem α) (rows : List (Constraint α)) :
    (layout p.numVars rows).map p.objectiveEntry =
      bareRow (layout p.numVars rows).length 1 p.signedObjective 0 := by
  have hlen : p.signedObjective.length = p.numVars := by
    unfold signedObjective
    split_ifs <;> simp [numVars]
  apply map_layout_eq_bareRow hlen
  · intro j hj
    have hj' : j < p.objective.length := hj
    unfold signedObjective objectiveEntry
    split_ifs <;> simp [hj']
  all_goals exact fun _ => rfl

end Writing

end SimplexTableau
