import SimplexTableau.Proofs.Doubles
import SimplexTableau.Proofs.Steps

/-!
# Recorded choices

What a step of a run records is what Dantzig's rule chooses on the tableau that it shows. The pivot
column is the first one with the least entry in the objective row among the columns that may enter,
the pivot row is the first one with the least ratio, and a run stops before its cap exactly if no
entry calls for a pivot or no row can leave. This is so in every arithmetic with an order, doubles
included, as long as no recorded number and no ratio is undefined.
-/

namespace SimplexTableau

namespace TraceStep

variable {α : Type} [Scalar α]

/-- The numbers of a recorded tableau. -/
def matrix (s : TraceStep α) : List (List α) :=
  s.rows.map (·.coefficients)

/-- No recorded number is undefined, and no ratio in the pivot column either. -/
structure AllDefined (s : TraceStep α) (tol : α) : Prop where
  entries : ∀ row ∈ s.matrix, ∀ v ∈ row, IsDefined v
  ratios : ∀ col : ℕ, s.pivotCol = some (col : ℤ) → ∀ i ∈ mayLeave s.matrix tol col,
    IsDefined (ratioOf s.matrix col i)

/-- A step records what Dantzig's rule chooses on the recorded tableau, unless no further pivot is
allowed. -/
structure FollowsRule (s : TraceStep α) (tol : α) (blocked : List ℕ) : Prop where
  entering : s.kind = .iteration ∨ s.kind = .unbounded → ∃ col : ℕ, s.pivotCol = some (col : ℤ) ∧
    IsFirstMin (mayEnter s.headers.length blocked) (cellOf s.matrix 0) col ∧
      cellOf s.matrix 0 col < -tol
  leaving : s.kind = .iteration → ∃ row col : ℕ, s.pivotRow = some (row : ℤ) ∧
    s.pivotCol = some (col : ℤ) ∧ IsFirstMin (mayLeave s.matrix tol col) (ratioOf s.matrix col) row
  optimal : s.kind ≠ .iterationLimit → (s.kind = .optimal ↔
    ∀ j ∈ mayEnter s.headers.length blocked, ¬ cellOf s.matrix 0 j < -tol)
  unbounded : s.kind ≠ .iterationLimit → s.kind ≠ .optimal → ∃ col : ℕ,
    s.pivotCol = some (col : ℤ) ∧ (s.kind = .unbounded ↔ mayLeave s.matrix tol col = ∅)

section Kinds

variable {s : TraceStep α} {tol : α} {blocked : List ℕ} {row col : ℕ}

lemma FollowsRule.of_limit (h : s.kind = .iterationLimit) (tol : α) (blocked : List ℕ) :
    s.FollowsRule tol blocked := by
  constructor <;> rw [h]
  case entering =>
    rintro (hk | hk) <;> cases hk
  case leaving =>
    intro hk
    cases hk
  case optimal => exact fun hk => absurd rfl hk
  case unbounded => exact fun hk => absurd rfl hk

lemma FollowsRule.of_optimal (h : s.kind = .optimal)
    (hnone : ∀ j ∈ mayEnter s.headers.length blocked, ¬ cellOf s.matrix 0 j < -tol) :
    s.FollowsRule tol blocked := by
  constructor <;> rw [h]
  case entering =>
    rintro (hk | hk) <;> cases hk
  case leaving =>
    intro hk
    cases hk
  case optimal => exact fun _ => iff_of_true rfl hnone
  case unbounded => exact fun _ hk => absurd rfl hk

lemma FollowsRule.of_unbounded (h : s.kind = .unbounded) (hcol : s.pivotCol = some (col : ℤ))
    (hfirst : IsFirstMin (mayEnter s.headers.length blocked) (cellOf s.matrix 0) col)
    (hneg : cellOf s.matrix 0 col < -tol) (hempty : mayLeave s.matrix tol col = ∅) :
    s.FollowsRule tol blocked := by
  constructor <;> rw [h]
  case entering => exact fun _ => ⟨col, hcol, hfirst, hneg⟩
  case leaving =>
    intro hk
    cases hk
  case optimal =>
    exact fun _ => iff_of_false (by simp) fun hnone => hnone col hfirst.1.1 hneg
  case unbounded => exact fun _ _ => ⟨col, hcol, iff_of_true rfl hempty⟩

lemma FollowsRule.of_iteration (h : s.kind = .iteration) (hrow : s.pivotRow = some (row : ℤ))
    (hcol : s.pivotCol = some (col : ℤ))
    (hfirst : IsFirstMin (mayEnter s.headers.length blocked) (cellOf s.matrix 0) col)
    (hneg : cellOf s.matrix 0 col < -tol)
    (hleast : IsFirstMin (mayLeave s.matrix tol col) (ratioOf s.matrix col) row) :
    s.FollowsRule tol blocked := by
  constructor <;> rw [h]
  case entering => exact fun _ => ⟨col, hcol, hfirst, hneg⟩
  case leaving => exact fun _ => ⟨row, col, hrow, hcol, hleast⟩
  case optimal =>
    exact fun _ => iff_of_false (by simp) fun hnone => hnone col hfirst.1.1 hneg
  case unbounded =>
    exact fun _ _ => ⟨col, hcol, iff_of_false (by simp) (Set.nonempty_of_mem hleast.1.1).ne_empty⟩

end Kinds

end TraceStep

namespace Tableau

variable {α : Type} [Scalar α] {t u : Tableau α} {s : RunSetting α} {cap done : ℕ}
  {step : TraceStep α} {m : Move}

lemma record_fields (h : t.record s done m = .ok step) :
    step.matrix = t.matrix ∧ step.headers.length = t.columns.length ∧ step.kind = m.kind ∧
      step.pivotRow = m.row?.map (fun row => (row : ℤ)) ∧
      step.pivotCol = m.col?.map (fun col => (col : ℤ)) := by
  obtain ⟨rows, names, hrows, -, rfl⟩ := record_eq_ok h
  exact ⟨(snapshot_rows hrows).1, List.length_map .., rfl, rfl, rfl⟩

lemma Rectangular.isDefined_objective (h : t.Rectangular)
    (hdef : ∀ row ∈ t.matrix, ∀ v ∈ row, IsDefined v) (blocked : List ℕ) :
    ∀ j ∈ mayEnter t.columns.length blocked, IsDefined (cellOf t.matrix 0 j) := by
  rintro j ⟨-, hj, -⟩
  have hlt : j < t.objective.length := by
    rw [h.objective]
    omega
  rw [cellOf, matrix, List.getD_cons_zero, List.getD_eq_getElem _ _ hlt]
  exact hdef _ (List.mem_cons_self ..) _ (List.getElem_mem hlt)

variable [LinearScalar α]

/-- A step that records what the rule does follows the rule. -/
theorem Rectangular.record_followsRule (h : t.Rectangular)
    (hrec : t.record s done (t.move s.tol s.blocked) = .ok step) (hdef : step.AllDefined s.tol) :
    step.FollowsRule s.tol s.blocked := by
  obtain ⟨hmatrix, hheaders, hkind, hrow, hcol⟩ := record_fields hrec
  have hentries := h.isDefined_objective (hmatrix ▸ hdef.entries) s.blocked
  have hratios := hdef.ratios
  rw [hmatrix] at hratios
  cases he : t.entering s.tol s.blocked with
  | none =>
    rw [move_eq_optimal_iff.mpr he] at hkind
    refine .of_optimal hkind ?_
    rw [hmatrix, hheaders]
    exact h.entering_eq_none_iff.mp he
  | some col =>
    obtain ⟨hfirst, hneg⟩ := h.entering_first hentries he
    rw [← hmatrix] at hneg
    rw [← hmatrix, ← hheaders] at hfirst
    cases hl : t.leaving s.tol col with
    | none =>
      rw [move_eq_unbounded_iff.mpr ⟨he, hl⟩] at hkind hcol
      exact .of_unbounded hkind hcol hfirst hneg (hmatrix ▸ leaving_eq_none_iff.mp hl)
    | some row =>
      rw [move_eq_exchange_iff.mpr ⟨he, hl⟩] at hkind hrow hcol
      exact .of_iteration hkind hrow hcol hfirst hneg
        (hmatrix ▸ leaving_first (hratios col hcol) hl)

/-- Every tableau that a run meets within its cap is recorded by a step. Every step at which all is
defined records what Dantzig's rule chooses, and only the step after as many exchanges as the cap
allows records that the cap is reached. -/
theorem run_followsRule (h : t.Rectangular) {r : PivotRun α} (hr : t.run s cap done = .ok r) :
    (∀ i u, i ≤ cap → Pivots s.tol s.blocked i t u →
      ∃ step, r.steps[i]? = some step ∧ step.matrix = u.matrix) ∧
    ∀ i step, r.steps[i]? = some step → step.AllDefined s.tol →
      step.FollowsRule s.tol s.blocked ∧ i ≤ cap ∧ (step.kind = .iterationLimit ↔ i = cap) := by
  constructor
  · intro i u hle hp
    obtain ⟨step, m, hi, hrec⟩ := run_covers hr hle hp
    exact ⟨step, hi, (record_fields hrec).1⟩
  · intro i step hi hdef
    obtain ⟨u, m, hp, hrec, ⟨hlt, rfl⟩ | ⟨rfl, rfl⟩⟩ := run_records hr hi
    · refine ⟨(h.pivots hp).record_followsRule hrec hdef, hlt.le, ?_⟩
      rw [record_kind hrec]
      exact iff_of_false (fun hk => move_ne_limit (kind_eq_iterationLimit hk)) hlt.ne
    · have hkind : step.kind = .iterationLimit := record_kind hrec
      exact ⟨TraceStep.FollowsRule.of_limit hkind s.tol s.blocked, le_rfl, iff_of_true hkind rfl⟩

end Tableau

/-- A tableau of doubles with a tie between two columns, one between two rows, and a column with a
lower entry that is to be blocked. -/
def ties : Tableau Float where
  columns := [.objective, .decision 0, .decision 1, .decision 2, .slack 0, .slack 1, .rhs]
  objective := [1, -0.2, -0.2, -3, 0, 0, 0]
  rows := [[0, 0.1, 0.3, 1, 1, 0, 0.4], [0, 0.2, 0.1, 0, 0, 1, 0.8]]
  basis := [4, 5]
  artificial := []
  savedObjective := none

theorem run_followsRule_ties :
    ∃ r step, ties.run { phase := 0, tol := 1e-9, blocked := [3] } 50 0 = .ok r ∧
      r.steps[0]? = some step ∧ step.matrix = ties.matrix ∧ step.kind = .iteration ∧
      step.pivotRow = some 1 ∧ step.pivotCol = some 1 ∧ step.AllDefined 1e-9 ∧
      step.FollowsRule 1e-9 [3] := by
  obtain ⟨r, hr, htest⟩ := exists_ok_of_any (by decide +kernel :
    (ties.run { phase := 0, tol := 1e-9, blocked := [3] } 50 0).toOption.any (fun r =>
      r.steps[0]?.any fun step => step.kind = .iteration ∧ step.pivotRow = some 1 ∧
        step.pivotCol = some 1 ∧ (∀ row ∈ step.matrix, ∀ v ∈ row, v.isNaN = false) ∧
          ∀ i < step.matrix.length, (ratioOf step.matrix 1 i).isNaN = false) = true)
  obtain ⟨step, hi, hstep⟩ := (Option.any_eq_true ..).mp htest
  obtain ⟨hkind, hrow, hcol, hentries, hratios⟩ := of_decide_eq_true hstep
  have hdef : step.AllDefined 1e-9 := by
    refine ⟨fun row hrow v hv => (Double.isDefined_iff v).mpr (hentries row hrow v hv),
      fun col hc i hi => ?_⟩
    rw [hcol] at hc
    obtain rfl : col = 1 := by simpa using hc.symm
    exact (Double.isDefined_iff _).mpr (hratios i hi.2.1)
  obtain ⟨hmet, hsteps⟩ := Tableau.run_followsRule (t := ties) ⟨by decide, by decide⟩ hr
  obtain ⟨shown, hshown, hmatrix⟩ := hmet 0 ties (Nat.zero_le 50) (Tableau.Pivots.refl ties)
  obtain rfl : step = shown := Option.some.inj (hi.symm.trans hshown)
  exact ⟨r, step, hr, hi, hmatrix, hkind, hrow, hcol, hdef, (hsteps 0 step hi hdef).1⟩

end SimplexTableau
