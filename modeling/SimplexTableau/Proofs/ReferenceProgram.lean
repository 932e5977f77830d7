import SimplexTableau.Proofs.Points
import SimplexTableau.Reference

/-!
# The program of the reference call

What the reference solver is asked describes the problem: its blocks hold at the points that satisfy
the constraints and at no others, each constraint is a row of one block, and its cost is the
objective up to the sign of the direction. So a point of least cost is an optimum of the problem,
and the reported objective is the one at this point.
-/

namespace SimplexTableau

namespace ReferenceCall

/-- Whether every row of a block is so related to its bound at a point. A block that is left out
imposes nothing. -/
def BlockHolds (r : ℚ → ℚ → Prop) (b : Option (List (List ℚ) × List ℚ)) (x : List ℚ) : Prop :=
  ∀ rows bounds, b = some (rows, bounds) →
    List.Forall₂ (fun row bound => r (dot row x) bound) rows bounds

/-- The points among which the reference solver looks for the least cost. -/
structure Feasible (call : ReferenceCall ℚ) (x : List ℚ) : Prop where
  length : x.length = call.numVars
  nonneg : ∀ v ∈ x, 0 ≤ v
  upper : BlockHolds (· ≤ ·) call.upper x
  equal : BlockHolds (· = ·) call.equal x

/-- A point of least cost, and its cost. -/
structure Minimum (call : ReferenceCall ℚ) (x : List ℚ) (value : ℚ) : Prop where
  feasible : call.Feasible x
  cost : dot call.cost x = value
  least : ∀ y, call.Feasible y → value ≤ dot call.cost y

/-- The rows of a block with their bounds. -/
def rowsOf (b : Option (List (List ℚ) × List ℚ)) : List (List ℚ × ℚ) :=
  match b with
  | some (rows, bounds) => rows.zip bounds
  | none => []

/-- A matrix with at least one row and `n` columns, and a bound for each row. -/
def BlockShaped (n : ℕ) (b : Option (List (List ℚ) × List ℚ)) : Prop :=
  ∀ rows bounds, b = some (rows, bounds) →
    rows ≠ [] ∧ rows.length = bounds.length ∧ ∀ row ∈ rows, row.length = n

/-- One cost for each variable, and blocks with a column for each variable. -/
structure Shaped (call : ReferenceCall ℚ) : Prop where
  cost : call.cost.length = call.numVars
  upper : BlockShaped call.numVars call.upper
  equal : BlockShaped call.numVars call.equal

end ReferenceCall

open ReferenceCall

section Blocks

variable {rows : List (List ℚ × ℚ)} {x : List ℚ} {r : ℚ → ℚ → Prop} {n : ℕ}

lemma block_eq_some {matrix : List (List ℚ)} {bounds : List ℚ}
    (h : block rows = some (matrix, bounds)) :
    rows ≠ [] ∧ matrix = rows.map (·.1) ∧ bounds = rows.map (·.2) := by
  unfold block at h
  split_ifs at h with hempty
  rw [List.unzip_eq_map, Option.some.injEq, Prod.mk.injEq] at h
  exact ⟨by simpa using hempty, h.1.symm, h.2.symm⟩

lemma block_of_ne_nil (h : rows ≠ []) :
    block rows = some (rows.map (·.1), rows.map (·.2)) := by
  rw [block, if_neg (by simpa using h), List.unzip_eq_map]

lemma rowsOf_block : rowsOf (block rows) = rows := by
  by_cases h : rows = []
  · subst h
    rfl
  · rw [block_of_ne_nil h, rowsOf, ← List.unzip_fst, ← List.unzip_snd, List.zip_unzip]

lemma blockHolds_block : BlockHolds r (block rows) x ↔ ∀ row ∈ rows, r (dot row.1 x) row.2 := by
  have hrows : List.Forall₂ (fun row bound => r (dot row x) bound) (rows.map (·.1))
      (rows.map (·.2)) ↔ ∀ row ∈ rows, r (dot row.1 x) row.2 := by
    rw [List.forall₂_map_left_iff, List.forall₂_map_right_iff, List.forall₂_same]
  constructor
  · intro h
    by_cases hne : rows = []
    · simp [hne]
    · exact hrows.mp (h _ _ (block_of_ne_nil hne))
  · intro h matrix bounds hb
    obtain ⟨-, rfl, rfl⟩ := block_eq_some hb
    exact hrows.mpr h

lemma blockShaped_block (h : ∀ row ∈ rows, row.1.length = n) : BlockShaped n (block rows) := by
  intro matrix bounds hb
  obtain ⟨hne, rfl, rfl⟩ := block_eq_some hb
  refine ⟨by simpa using hne, by simp, ?_⟩
  simpa using h

end Blocks

namespace Constraint

variable {c : Constraint ℚ} {x : List ℚ}

/-- An upper bound that says the same as a constraint. -/
def IsUpperRow (c : Constraint ℚ) (row : List ℚ × ℚ) : Prop :=
  c.relation = .le ∧ row = (c.coefficients, c.rhs) ∨
    c.relation = .ge ∧ row = (c.coefficients.map (-·), -c.rhs)

/-- An equation that says the same as a constraint. -/
def IsEqualRow (c : Constraint ℚ) (row : List ℚ × ℚ) : Prop :=
  c.relation = .eq ∧ row = (c.coefficients, c.rhs)

lemma upperRow_eq_some_iff {row : List ℚ × ℚ} : c.upperRow = some row ↔ c.IsUpperRow row := by
  unfold upperRow IsUpperRow
  cases h : c.relation <;> simp [eq_comm]

lemma equalRow_eq_some_iff {row : List ℚ × ℚ} : c.equalRow = some row ↔ c.IsEqualRow row := by
  unfold equalRow IsEqualRow
  cases h : c.relation <;> simp [eq_comm]

lemma holds_iff_rows : c.Holds x ↔
    (∀ row ∈ c.upperRow, dot row.1 x ≤ row.2) ∧ ∀ row ∈ c.equalRow, dot row.1 x = row.2 := by
  unfold Holds upperRow equalRow
  cases h : c.relation <;> simp [dot_negated]

end Constraint

namespace Problem

variable {p : Problem ℚ} {x : List ℚ}

/-- A point with the best objective in the direction of the problem. -/
structure Optimum (p : Problem ℚ) (x : List ℚ) : Prop where
  feasible : p.Feasible x
  best : ∀ y, p.Feasible y → if p.direction = .min then dot p.objective x ≤ dot p.objective y
    else dot p.objective y ≤ dot p.objective x

/-- The positions of the constraints are divided among the two blocks, each in ascending order, and
the rows of a block are those of its constraints. -/
structure Divided (p : Problem ℚ) (call : ReferenceCall ℚ) (upper equal : List ℕ) : Prop where
  once : (upper ++ equal).Perm (List.range p.constraints.length)
  upper_ascending : upper.Pairwise (· < ·)
  equal_ascending : equal.Pairwise (· < ·)
  upper_rows : List.Forall₂ (fun i row => ∃ c, p.constraints[i]? = some c ∧ c.IsUpperRow row)
    upper (rowsOf call.upper)
  equal_rows : List.Forall₂ (fun i row => ∃ c, p.constraints[i]? = some c ∧ c.IsEqualRow row)
    equal (rowsOf call.equal)

lemma feasible_referenceCall_iff : p.referenceCall.Feasible x ↔ p.Feasible x := by
  have hblocks : (BlockHolds (· ≤ ·) p.referenceCall.upper x ∧
      BlockHolds (· = ·) p.referenceCall.equal x) ↔ ∀ c ∈ p.constraints, c.Holds x := by
    simp only [referenceCall, blockHolds_block, List.mem_filterMap, Constraint.holds_iff_rows]
    constructor
    · rintro ⟨hupper, hequal⟩ c hc
      exact ⟨fun row hrow => hupper row ⟨c, hc, hrow⟩, fun row hrow => hequal row ⟨c, hc, hrow⟩⟩
    · intro h
      constructor
      · rintro row ⟨c, hc, hrow⟩
        exact (h c hc).1 row hrow
      · rintro row ⟨c, hc, hrow⟩
        exact (h c hc).2 row hrow
  constructor
  · intro h
    exact ⟨h.length, h.nonneg, hblocks.mp ⟨h.upper, h.equal⟩⟩
  · intro h
    obtain ⟨hupper, hequal⟩ := hblocks.mpr h.holds
    exact ⟨h.length, h.nonneg, hupper, hequal⟩

lemma Valid.shaped_referenceCall (h : p.Valid) : p.referenceCall.Shaped := by
  refine ⟨List.length_map _, blockShaped_block ?_, blockShaped_block ?_⟩
  · intro row hrow
    obtain ⟨c, hc, hrow⟩ := List.mem_filterMap.mp hrow
    obtain ⟨-, rfl⟩ | ⟨-, rfl⟩ := Constraint.upperRow_eq_some_iff.mp hrow
    · exact h.coefficients c hc
    · exact (List.length_map _).trans (h.coefficients c hc)
  · intro row hrow
    obtain ⟨c, hc, hrow⟩ := List.mem_filterMap.mp hrow
    obtain ⟨-, rfl⟩ := Constraint.equalRow_eq_some_iff.mp hrow
    exact h.coefficients c hc

section Positions

variable {β : Type} {f g : Constraint ℚ → Option β} {R : Constraint ℚ → β → Prop}

/-- The positions of the constraints that have a row of some kind. -/
def positions (p : Problem ℚ) (f : Constraint ℚ → Option β) : List ℕ :=
  (p.constraints.zipIdx.filter fun c => (f c.1).isSome).map (·.2)

lemma positions_ascending : (p.positions f).Pairwise (· < ·) := by
  have hrange : (p.constraints.zipIdx.map (·.2)).Pairwise (· < ·) := by
    rw [List.zipIdx_map_snd]
    exact List.pairwise_lt_range' 1
  exact hrange.sublist (List.filter_sublist.map _)

/-- Every position is taken once if every constraint has a row of exactly one kind. -/
lemma positions_once (h : ∀ c, (g c).isSome = !(f c).isSome) :
    (p.positions f ++ p.positions g).Perm (List.range p.constraints.length) := by
  have hperm := (List.filter_append_perm (fun c => (f c.1).isSome) p.constraints.zipIdx).map (·.2)
  rw [List.map_append, List.zipIdx_map_snd, ← List.range_eq_range'] at hperm
  simpa only [positions, h] using hperm

lemma positions_rows (h : ∀ c row, f c = some row → R c row) :
    List.Forall₂ (fun i row => ∃ c, p.constraints[i]? = some c ∧ R c row) (p.positions f)
      (p.constraints.filterMap f) := by
  have hlist : ∀ cs : List (Constraint ℚ × ℕ), (∀ c ∈ cs, p.constraints[c.2]? = some c.1) →
      List.Forall₂ (fun i row => ∃ c, p.constraints[i]? = some c ∧ R c row)
        ((cs.filter fun c => (f c.1).isSome).map (·.2)) ((cs.map (·.1)).filterMap f) := by
    intro cs
    induction cs with
    | nil => exact fun _ => .nil
    | cons c cs ih =>
      intro hcs
      obtain ⟨hc, hcs⟩ := List.forall_mem_cons.mp hcs
      rw [List.map_cons]
      cases hrow : f c.1 with
      | none =>
        rw [List.filter_cons_of_neg (by simp [hrow]), List.filterMap_cons_none hrow]
        exact ih hcs
      | some row =>
        rw [List.filter_cons_of_pos (by simp [hrow]), List.filterMap_cons_some hrow]
        exact .cons ⟨c.1, hc, h _ _ hrow⟩ (ih hcs)
  have hall := hlist p.constraints.zipIdx fun c hc => List.mem_zipIdx_iff_getElem?.mp hc
  rwa [List.zipIdx_map_fst] at hall

lemma divided_referenceCall : p.Divided p.referenceCall (p.positions Constraint.upperRow)
    (p.positions Constraint.equalRow) where
  once := by
    apply positions_once
    intro c
    unfold Constraint.upperRow Constraint.equalRow
    cases c.relation <;> rfl
  upper_ascending := positions_ascending
  equal_ascending := positions_ascending
  upper_rows := by
    rw [referenceCall, rowsOf_block]
    exact positions_rows fun _ _ => Constraint.upperRow_eq_some_iff.mp
  equal_rows := by
    rw [referenceCall, rowsOf_block]
    exact positions_rows fun _ _ => Constraint.equalRow_eq_some_iff.mp

end Positions

section Cost

lemma dot_map_mul (a b : List ℚ) (k : ℚ) : dot (a.map (· * k)) b = dot a b * k := by
  induction a generalizing b with
  | nil => simp [dot]
  | cons x a ih =>
    cases b with
    | nil => simp [dot]
    | cons y b =>
      simp only [List.map_cons, dot, ih]
      ring

lemma cost_of_min (h : p.direction = .min) :
    dot p.referenceCall.cost x = dot p.objective x := by
  rw [referenceCall, h]
  exact (dot_map_mul _ _ _).trans (mul_one _)

lemma cost_of_max (h : p.direction = .max) :
    dot p.referenceCall.cost x = -dot p.objective x := by
  rw [referenceCall, h]
  exact (dot_map_mul _ _ _).trans (mul_neg_one _)

lemma Valid.optimum_of_minimum (h : p.Valid) {value : ℚ} (hm : p.referenceCall.Minimum x value) :
    p.Optimum x := by
  refine ⟨feasible_referenceCall_iff.mp hm.feasible, fun y hy => ?_⟩
  have hleast := hm.least y (feasible_referenceCall_iff.mpr hy)
  rw [← hm.cost] at hleast
  obtain hmax | hmin := h.direction
  · rw [if_neg (by simp [hmax])]
    rw [cost_of_max hmax, cost_of_max hmax] at hleast
    exact neg_le_neg_iff.mp hleast
  · rw [if_pos hmin]
    rwa [cost_of_min hmin, cost_of_min hmin] at hleast

lemma Valid.mul_costFactor (h : p.Valid) {value : ℚ} (hm : p.referenceCall.Minimum x value) :
    value * p.direction.costFactor = dot p.objective x := by
  rw [← hm.cost]
  obtain hmax | hmin := h.direction
  · rw [cost_of_max hmax, hmax]
    exact (mul_neg_one _).trans (neg_neg _)
  · rw [cost_of_min hmin, hmin]
    exact mul_one _

end Cost

/-- The reference call states the problem, and from a least cost the answer is the optimum of the
problem in its own direction, with values that attain it. -/
theorem referenceCall_faithful (h : p.Valid) :
    p.referenceCall.Shaped ∧ (∃ upper equal, p.Divided p.referenceCall upper equal) ∧
      (∀ x, p.Feasible x ↔ p.referenceCall.Feasible x) ∧
      (∀ x, (p.direction = .min → dot p.referenceCall.cost x = dot p.objective x) ∧
        (p.direction = .max → dot p.referenceCall.cost x = -dot p.objective x)) ∧
      ∀ a : ReferenceAnswer ℚ, a.success = true → p.referenceCall.Minimum a.point a.value →
        ∃ s values, p.referenceSolution a = some s ∧ s.status = .optimal ∧
          s.values = some values ∧
          values.map (·.1) = (List.range p.numVars).map (fun j => (Column.decision j).name) ∧
          p.Optimum (values.map (·.2)) ∧
          s.objectiveValue = some (dot p.objective (values.map (·.2))) := by
  refine ⟨h.shaped_referenceCall, ⟨_, _, divided_referenceCall⟩,
    fun x => feasible_referenceCall_iff.symm, fun x => ⟨cost_of_min, cost_of_max⟩, ?_⟩
  intro a hsuccess hm
  have hpoint : (a.point.zipIdx.map fun (v, j) => ((Column.decision j).name, v)).map (·.2) =
      a.point := by
    rw [List.map_map]
    exact List.zipIdx_map_fst 0 a.point
  have hnames : (a.point.zipIdx.map fun (v, j) => ((Column.decision j).name, v)).map (·.1) =
      (List.range p.numVars).map fun j => (Column.decision j).name := by
    have hlength : a.point.length = p.numVars := hm.feasible.length
    rw [List.map_map, ← hlength, List.range_eq_range', ← List.zipIdx_map_snd, List.map_map]
    rfl
  refine ⟨_, _, if_pos hsuccess, rfl, rfl, hnames, ?_, ?_⟩
  · rw [hpoint]
    exact h.optimum_of_minimum hm
  · rw [hpoint, ← h.mul_costFactor hm]

/-- A maximum under one constraint of each relation. -/
def threefold : Problem ℚ where
  direction := .max
  objective := [1, 2]
  constraints := [⟨"c1", [1, 1], .le, 4⟩, ⟨"c2", [0, 1], .eq, 2⟩, ⟨"c3", [1, 0], .ge, 1⟩]

lemma threefold_valid : threefold.Valid :=
  ⟨Or.inl rfl, by simp [threefold], by decide +kernel⟩

lemma threefold_call : threefold.referenceCall =
    ⟨[-1, -2], some ([[1, 1], [-1, 0]], [4, -1]), some ([[0, 1]], [2]), 2⟩ := by
  decide +kernel

lemma threefold_minimum : threefold.referenceCall.Minimum [2, 2] (-6) := by
  rw [threefold_call]
  refine ⟨⟨rfl, by decide +kernel, ?_, ?_⟩, by norm_num [dot], fun y hy => ?_⟩
  · rintro _ _ ⟨⟩
    norm_num [dot]
  · rintro _ _ ⟨⟩
    norm_num [dot]
  · obtain ⟨a, b, rfl⟩ := List.length_eq_two.mp hy.length
    have hupper := hy.upper _ _ rfl
    have hequal := hy.equal _ _ rfl
    simp only [List.forall₂_cons, dot] at hupper hequal ⊢
    linarith [hupper.1, hequal.1]

theorem referenceCall_faithful_threefold :
    threefold.Valid ∧ threefold.referenceCall.Minimum [2, 2] (-6) ∧ threefold.Optimum [2, 2] ∧
      ∃ s, threefold.referenceSolution ⟨true, 0, none, -6, [2, 2]⟩ = some s ∧
        s.objectiveValue = some 6 := by
  obtain ⟨-, -, -, -, h⟩ := referenceCall_faithful threefold_valid
  obtain ⟨s, values, hs, -, hvalues, -, hbest, hobjective⟩ :=
    h ⟨true, 0, none, -6, [2, 2]⟩ rfl threefold_minimum
  cases hs
  cases hvalues
  exact ⟨threefold_valid, threefold_minimum, hbest, _, rfl, hobjective.trans (by decide +kernel)⟩

end Problem

end SimplexTableau
