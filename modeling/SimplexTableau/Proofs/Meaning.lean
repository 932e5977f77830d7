import SimplexTableau.Proofs.Feasibility
import SimplexTableau.Proofs.Operations
import SimplexTableau.Proofs.Optimality
import SimplexTableau.Proofs.Totality

/-!
# The meaning of the initial tableau

A point satisfies all constraints exactly if it can be completed to a solution of the constraint
rows in which no slack or surplus value is negative and all artificial values vanish, and there is
one way to complete it. On the completed point the true objective row gives the objective, whatever
a method has done to row 0. The row 0 of a first phase gives the negated sum of the artificial
values on every solution of the constraint rows.
-/

namespace SimplexTableau

/-- A row, read as an equation, gives a value to the variable of its first column. -/
def RowGives (row : List ℚ) (w : ℕ → ℚ) (z : ℚ) : Prop :=
  row.getD 0 0 * z + ∑ j ∈ Finset.Ico 1 (row.length - 1), row.getD j 0 * w j = rhsOf row

/-- The objective row that has been put aside, or row 0 if there is none. -/
def Tableau.trueObjective (t : Tableau ℚ) : List ℚ :=
  t.savedObjective.getD t.objective

/-- The values of the columns with an objective value, and with the weight `-1` for right-hand
sides. -/
def withObjective (val : Column → ℚ) (z : ℚ) : Column → ℚ :=
  Function.update (Function.update val .objective z) .rhs (-1)

namespace Problem

/-- Values of the columns that complete a point to a solution of the constraint rows, with slack and
surplus values that are not negative and without artificial values. -/
structure Completes (p : Problem ℚ) (t : Tableau ℚ) (x : List ℚ) (val : Column → ℚ) : Prop where
  decisions : decisions p.numVars val = x
  auxiliary : ∀ c ∈ t.columns, c.role = .slack ∨ c.role = .surplus → 0 ≤ val c
  artificial : ∀ c ∈ t.columns, c.role = .artificial → val c = 0
  rows : t.IsSolution (p.weight val)

variable {p : Problem ℚ} {m : Method} {o : SolveOptions ℚ} {t : Tableau ℚ} {x : List ℚ}
  {val : Column → ℚ} {z : ℚ}

section Rows

@[simp] lemma withObjective_objective : withObjective val z .objective = z := rfl

@[simp] lemma gain_withObjective : p.gain (withObjective val z) = p.gain val := by
  simp [gain, decisions, withObjective]

@[simp] lemma artificialTotal_withObjective :
    p.artificialTotal (withObjective val z) = p.artificialTotal val := by
  simp [artificialTotal, withObjective]

lemma weight_withObjective (p : Problem ℚ) (val : Column → ℚ) (z : ℚ) :
    p.weight (withObjective val z) =
      Function.update (Function.update (p.weight val) 0 z) (p.columns.length - 1) (-1) := by
  funext j
  by_cases hlast : j = p.columns.length - 1
  · rw [hlast, Function.update_self]
    exact weight_of_get p.columns_get_last
  rw [Function.update_of_ne hlast]
  by_cases hfirst : j = 0
  · rw [hfirst, Function.update_self]
    exact weight_of_get p.columns_get_zero
  rw [Function.update_of_ne hfirst]
  cases hget : p.columns[j]? with
  | none => simp [weight, List.getD_eq_getElem?_getD, hget]
  | some c =>
    have hr : c ≠ .rhs := fun hc => hlast (eq_last_of_get (hc ▸ hget))
    have h0 : c ≠ .objective := fun hc => hfirst (eq_zero_of_get (hc ▸ hget))
    rw [weight_of_get hget, weight_of_get hget, withObjective, Function.update_of_ne hr,
      Function.update_of_ne h0]

lemma Valid.rowGives_iff (hp : p.Valid) {row : List ℚ} (hlen : row.length = p.columns.length) :
    RowGives row (p.weight val) z ↔
      ∑ j ∈ Finset.range p.columns.length, row.getD j 0 * p.weight (withObjective val z) j = 0 := by
  have hwidth : 1 < p.columns.length := hp.shaped_plain.width
  rw [weight_withObjective, sum_update_ends hwidth, RowGives, rhsOf_eq_getD, hlen, sub_eq_zero]

lemma Valid.solves_withObjective_iff (hp : p.Valid) :
    p.plain.Solves (p.weight (withObjective val z)) ↔ p.Balanced val := by
  have hdec : decisions p.numVars (withObjective val z) = decisions p.numVars val := by
    simp [decisions, withObjective]
  have hrhs : withObjective val z .rhs = -1 := Function.update_self ..
  have haux : ∀ (c : Constraint ℚ) i, c.auxiliary i (withObjective val z) = c.auxiliary i val := by
    intro c i
    simp [Constraint.auxiliary, withObjective]
  rw [hp.plain_solves_iff]
  apply forall_congr'
  intro i
  apply forall_congr'
  intro c
  rw [hdec, hrhs, haux, mul_neg_one, add_neg_eq_zero]

/-- Values solve the constraint rows exactly if they balance every constraint. -/
theorem SameRows.isSolution_iff (hp : p.Valid) (h : p.SameRows t) :
    t.IsSolution (p.weight val) ↔ p.Balanced val := by
  rw [Tableau.isSolution_iff_solves h.shaped.width, h.columns, ← weight_withObjective,
    h.solves_iff, hp.solves_withObjective_iff]

end Rows

section Objective

lemma ObjectiveIs.rowGives_iff {f : ℕ → ℚ} (hp : p.Valid) (hrows : p.SameRows t)
    (hobj : p.ObjectiveIs f t) (hb : p.Balanced val) : RowGives t.objective (p.weight val) z ↔
      ∑ j ∈ Finset.range p.columns.length, f j * p.weight (withObjective val z) j = 0 := by
  rw [hp.rowGives_iff (hrows.shaped.objective.trans (congrArg List.length hrows.columns)),
    ← hobj.sum_eq (hp.solves_withObjective_iff.mpr hb)]
  rfl

/-- A penalised objective row gives the objective less the penalties. -/
theorem ObjectiveIs.rowGives_penalised {penalty : ℚ} (hp : p.Valid) (hrows : p.SameRows t)
    (hobj : p.ObjectiveIs (p.penalised penalty) t) (hb : p.Balanced val) :
    RowGives t.objective (p.weight val) z ↔
      z = p.gain val - penalty * p.artificialTotal val := by
  rw [hobj.rowGives_iff hp hrows hb, sum_penalised, withObjective_objective, gain_withObjective,
    artificialTotal_withObjective]
  constructor <;> intro h <;> linarith

theorem ObjectiveIs.rowGives_firstRow (hp : p.Valid) (hrows : p.SameRows t)
    (hobj : p.ObjectiveIs p.firstRow t) (hb : p.Balanced val) :
    RowGives t.objective (p.weight val) z ↔ z = -p.artificialTotal val := by
  rw [hobj.rowGives_iff hp hrows hb, sum_firstRow, withObjective_objective,
    artificialTotal_withObjective]
  exact add_eq_zero_iff_eq_neg

lemma StartsOn.savedObjective_eq_none (h : p.StartsOn m o t) (hm : t.hasFirstPhase m = false) :
    t.savedObjective = none := by
  cases h with
  | plain | charged => rfl
  | phaseOne ha hm' =>
    have hne : p.plain.phaseOne.artificial ≠ [] := ha
    simp [Tableau.hasFirstPhase, hm', hne] at hm

lemma Valid.plain_trueObjective (hp : p.Valid) :
    p.SameRows p.plain ∧ p.ObjectiveIs (p.penalised 0) p.plain :=
  ⟨⟨hp.shaped_plain, rfl, rfl, plain_rows_length, rfl⟩,
    0, Submodule.zero_mem _, fun j _ => by simp [penalised]⟩

theorem StartsOn.trueObjective_gives (hp : p.Valid) (h : p.StartsOn m o t) (hb : p.Balanced val)
    (hart : p.artificialTotal val = 0) :
    RowGives t.trueObjective (p.weight val) z ↔ z = p.gain val := by
  cases hm : t.hasFirstPhase m with
  | false =>
    rw [Tableau.trueObjective, h.savedObjective_eq_none hm, Option.getD_none,
      (h.objectiveIs_penalised hp hm).rowGives_penalised hp (h.sameRows hp) hb, hart, mul_zero,
      sub_zero]
  | true =>
    obtain ⟨hrows, hobj⟩ := hp.plain_trueObjective
    rw [Tableau.trueObjective, h.savedObjective hm, Option.getD_some,
      hobj.rowGives_penalised hp hrows hb, zero_mul, sub_zero]

end Objective

section Completions

/-- A point that satisfies all constraints is completed by its slack and surplus amounts. -/
theorem Feasible.completes (hp : p.Valid) (hrows : p.SameRows t) (hx : p.Feasible x) :
    p.Completes t x (p.completion x) where
  decisions := hx.decisions_completion
  auxiliary c _ hc := by
    apply hx.completion_nonneg
    · rintro rfl
      simp [Column.role] at hc
    · rintro rfl
      simp [Column.role] at hc
  artificial c _ hc := by
    cases c <;> simp [Column.role] at hc
    rfl
  rows := by
    have hself : withObjective (p.completion x) (p.completion x .objective) = p.completion x := by
      have hrhs : p.completion x .rhs = -1 := rfl
      rw [withObjective, Function.update_eq_self, ← hrhs, Function.update_eq_self]
    have hsolves := hx.solves hp
    rw [← hself, hp.solves_withObjective_iff] at hsolves
    exact (hrows.isSolution_iff hp).mpr hsolves

/-- Only points that satisfy all constraints can be completed. -/
theorem Completes.feasible (hp : p.Valid) (hrows : p.SameRows t) (h : p.Completes t x val)
    (hx : ∀ v ∈ x, 0 ≤ v) : p.Feasible x := by
  have hb := (hrows.isSolution_iff hp).mp h.rows
  rw [← h.decisions] at hx ⊢
  apply AnswersWithin.feasible
  apply hb.answersWithin le_rfl
  · intro c hc hvar
    rw [← hrows.columns] at hc
    cases c with
    | objective | rhs => cases hvar
    | decision j =>
      rw [hrows.columns] at hc
      exact hx _ (List.mem_map_of_mem (List.mem_range.mpr (mem_layout.mp hc)))
    | slack i => exact h.auxiliary _ hc (Or.inl rfl)
    | surplus i => exact h.auxiliary _ hc (Or.inr rfl)
    | artificial i => exact (h.artificial _ hc rfl).ge
  · intro i hi
    exact (h.artificial _ (hrows.columns ▸ hi) rfl).le

/-- There is one way to complete a point. -/
theorem Completes.eq_completion (hp : p.Valid) (hrows : p.SameRows t) (h : p.Completes t x val)
    {c : Column} (hc : c ∈ t.columns) (hvar : c.isVariable = true) :
    val c = p.completion x c := by
  have hb := (hrows.isSolution_iff hp).mp h.rows
  have hmem := hc
  rw [hrows.columns, columns, mem_layout] at hmem
  cases c with
  | objective | rhs => cases hvar
  | decision j =>
    have hj : j < p.numVars := hmem
    simp [completion, ← h.decisions, SimplexTableau.decisions, hj]
  | slack i =>
    obtain ⟨r, hi, hr⟩ := hmem
    have hbal := hb i r hi
    simp only [Constraint.auxiliary, hr, h.decisions] at hbal
    simp only [completion, hi, Option.map_some, Option.getD_some, Constraint.gap, hr]
    linarith
  | surplus i =>
    obtain ⟨r, hi, hr⟩ := hmem
    have hart : val (.artificial i) = 0 := by
      apply h.artificial _ _ rfl
      rw [hrows.columns]
      exact mem_layout.mpr ⟨r, hi, by simp [hr]⟩
    have hbal := hb i r hi
    simp only [Constraint.auxiliary, hr, h.decisions, hart] at hbal
    simp only [completion, hi, Option.map_some, Option.getD_some, Constraint.gap, hr]
    linarith
  | artificial i => exact h.artificial _ hc rfl

lemma Completes.artificialTotal_eq (hrows : p.SameRows t) (h : p.Completes t x val) :
    p.artificialTotal val = 0 := by
  apply List.sum_eq_zero
  intro v hv
  obtain ⟨i, hi, rfl⟩ := List.mem_map.mp hv
  apply h.artificial _ _ rfl
  rw [hrows.columns]
  exact artificial_mem_columns_iff.mpr hi

end Completions

/-- Every method starts on a tableau that means what the problem means. A point without negative
entries satisfies all constraints exactly if it can be completed, in one way only, and then the true
objective row gives its objective, negated for a minimisation. With artificial columns two phases
put the true objective row aside, and row 0 gives the negated sum of the artificial values. -/
theorem tableau_meaning (hp : p.Valid) (hpen : m = .bigM → ∃ penalty, o.penalty p = .ok penalty) :
    ∃ t, p.tableau m o = .ok t ∧ t.columns = p.columns ∧
      (t.savedObjective.isSome = true ↔ m = .twoPhase ∧ t.artificial ≠ []) ∧
      (∀ x, x.length = p.numVars → (∀ v ∈ x, 0 ≤ v) →
        ((∀ c ∈ p.constraints, c.Holds x) ↔ ∃ val, p.Completes t x val) ∧
        ∀ val, p.Completes t x val →
          (∀ val', p.Completes t x val' → ∀ c ∈ t.columns, c.isVariable = true → val' c = val c) ∧
          (p.direction = .max → ∀ z, RowGives t.trueObjective (p.weight val) z ↔
            z = dot p.objective x) ∧
          (p.direction = .min → ∀ z, RowGives t.trueObjective (p.weight val) z ↔
            z = -dot p.objective x)) ∧
      (m = .twoPhase → t.artificial ≠ [] → ∀ val, t.IsSolution (p.weight val) →
        ∀ z, RowGives t.objective (p.weight val) z ↔ z = -p.artificialTotal val) := by
  obtain ⟨t, ht⟩ := hp.tableau_total hpen
  have hstart := hp.tableau_startsOn ht
  have hrows := hstart.sameRows hp
  have hphase : t.hasFirstPhase m = true ↔ m = .twoPhase ∧ t.artificial ≠ [] := by
    simp [Tableau.hasFirstPhase]
  refine ⟨t, ht, hrows.columns, ?_, ?_, ?_⟩
  · rw [← hphase]
    cases hm : t.hasFirstPhase m with
    | false => simp [hstart.savedObjective_eq_none hm]
    | true => simp [hstart.savedObjective hm]
  · intro x hlen hx
    constructor
    · constructor
      · intro hholds
        exact ⟨_, Feasible.completes hp hrows ⟨hlen, hx, hholds⟩⟩
      · rintro ⟨val, hval⟩
        exact (hval.feasible hp hrows hx).holds
    · intro val hval
      have hgives : ∀ z, RowGives t.trueObjective (p.weight val) z ↔
          z = (if p.direction = .min then -1 else 1) * dot p.objective x := by
        intro z
        rw [hstart.trueObjective_gives hp ((hrows.isSolution_iff hp).mp hval.rows)
          (hval.artificialTotal_eq hrows), gain, hval.decisions]
      refine ⟨?_, ?_, ?_⟩
      · intro val' hval' c hc hvar
        rw [hval.eq_completion hp hrows hc hvar, hval'.eq_completion hp hrows hc hvar]
      · intro hmax z
        rw [hgives, hmax, if_neg (by simp), one_mul]
      · intro hmin z
        rw [hgives, hmin, if_pos rfl, neg_one_mul]
  · intro hm hart val hval z
    have hobj := hstart.objectiveIs_firstRow hp (hphase.mpr ⟨hm, hart⟩)
    exact hobj.rowGives_firstRow hp hrows ((hrows.isSolution_iff hp).mp hval)

theorem tableau_meaning_diet :
    ∃ t val, diet.tableau .twoPhase {} = .ok t ∧ diet.Completes t [2, 4] val ∧
      (∀ z, RowGives t.trueObjective (diet.weight val) z ↔ z = -14) ∧
      RowGives t.objective (diet.weight val) 0 := by
  obtain ⟨t, ht, -, -, hpoints, hfirst⟩ :=
    tableau_meaning (m := .twoPhase) (o := {}) diet_valid (by simp)
  obtain ⟨hiff, hall⟩ := hpoints [2, 4] rfl (by decide +kernel)
  have hholds : ∀ c ∈ diet.constraints, c.Holds [2, 4] := by
    intro c hc
    simp only [diet, List.mem_cons, List.not_mem_nil, or_false] at hc
    rcases hc with rfl | rfl <;> norm_num [Constraint.Holds, dot]
  obtain ⟨val, hval⟩ := hiff.mp hholds
  obtain ⟨-, -, hgives⟩ := hall val hval
  have hvalue : -dot diet.objective [2, 4] = -14 := by decide +kernel
  rw [hvalue] at hgives
  have hrows := (diet_valid.tableau_startsOn ht).sameRows diet_valid
  refine ⟨t, val, ht, hval, hgives rfl, ?_⟩
  rw [hfirst rfl _ val hval.rows, hval.artificialTotal_eq hrows, neg_zero]
  rw [hrows.artificial]
  decide +kernel

end Problem

end SimplexTableau
