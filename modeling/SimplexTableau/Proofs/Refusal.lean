import SimplexTableau.Proofs.Doubles
import SimplexTableau.Proofs.ResultShape
import SimplexTableau.Proofs.Totality

/-!
# The only fault of a solution

A valid problem is solved without a fault, whatever its numbers are, unless the penalty method has
artificial columns to charge for and refuses the penalty that it is given. No pivot on a small
number, no missing objective row and no position outside a tableau comes up in any phase: all
tableaux on the way have one basic column for each row, inside of as many columns as each row has
entries, and the rules choose positions inside.
-/

namespace SimplexTableau

variable {α : Type} [Scalar α]

/-- All positions in a tableau that are looked up are there: the rows and the basic columns fit the
list of columns, and the rules choose cells inside that can be pivoted on. -/
structure Tableau.InBounds (t : Tableau α) (tol : α) : Prop where
  shaped : t.Shaped
  entering (blocked : List ℕ) (col : ℕ) : t.entering tol blocked = some col →
    0 < col ∧ col < t.rhsCol
  leaving (blocked : List ℕ) (row col : ℕ) : t.move tol blocked = .exchange row col →
    0 < row ∧ row ≤ t.rows.length ∧ ∃ t', t.pivot row col tol = .ok t'
  replacement (row col : ℕ) : 0 < row → row ≤ t.rows.length → t.replacement tol row = some col →
    0 < col ∧ col < t.rhsCol ∧ ∃ t', t.pivot row col tol = .ok t'

lemma Tableau.Shaped.inBounds [OrderedScalar α] {t : Tableau α} (h : t.Shaped) (tol : α) :
    t.InBounds tol where
  shaped := h
  entering := by
    intro blocked col hc
    obtain ⟨hpos, hlt, -⟩ := entering_inside hc
    rw [h.objective] at hlt
    exact ⟨hpos, Nat.lt_sub_of_add_lt hlt⟩
  leaving := by
    intro blocked row col hm
    obtain ⟨hr, hr', -⟩ := leaving_inside (move_eq_exchange_iff.mp hm).2
    exact ⟨hr, hr', _, h.pivot_ok hm⟩
  replacement := by
    intro row col hr hr' hc
    obtain ⟨hpos, hlt, -, hsize⟩ := h.replacement_inside hr' hc
    have hw := h.rhsCol_add_one
    exact ⟨hpos, hlt, _, h.pivot_eq_ok h.basis hr hr' (by omega) hsize⟩

/-- The tableaux that come up in a course: during its first run, while artificial variables are
driven out of one row after the other, and during its second run. -/
inductive Course.Visits (c : Course α) (tol : α) : Tableau α → Prop
  | first {n : ℕ} {t : Tableau α} (h : Tableau.Pivots tol [] n c.start t) : Visits c tol t
  | driving {k : ℕ} {t : Tableau α} (h : Tableau.DrivesOut tol
      (((List.range c.first.final.rows.length).map (· + 1)).take k) c.first.final t) :
      Visits c tol t
  | second {n : ℕ} {t : Tableau α} {phase : SecondPhase α} (hp : phase ∈ c.second)
      (h : Tableau.Pivots tol phase.start.artificial n phase.start t) : Visits c tol t

namespace Problem

variable {p : Problem α} {m : Method} {o : SolveOptions α} {c : Course α} {t : Tableau α}

theorem Courses.sameFrame_visited (hp : p.Valid) (h : p.Courses m o c) {tol : α}
    (hv : c.Visits tol t) : p.SameFrame t := by
  obtain ⟨hstart, hfirst, hsecond⟩ := h.sameFrame hp
  cases hv with
  | first hpiv => exact hstart.pivots hpiv
  | driving hdrives =>
    apply hfirst.drivesOut _ hdrives
    intro row hrow
    exact Tableau.rowsInside_all row (List.mem_of_mem_take hrow)
  | second hmem hpiv => exact (hsecond _ hmem).1.pivots hpiv

/-- The row of every artificial column can be found when the column is charged. -/
lemma artificial_subset_basis (p : Problem α) : ∀ a ∈ p.plain.artificial, a ∈ p.plain.basis := by
  intro a ha
  obtain ⟨i, hi, rfl⟩ := List.mem_map.mp ha
  obtain ⟨c, hc, hr⟩ := mem_rowsWhere.mp hi
  have hcol : c.basicColumn i = .artificial i := if_neg (by simpa using hr)
  apply List.mem_map.mpr
  refine ⟨(c, i), List.mk_mem_zipIdx_iff_getElem?.mpr hc, ?_⟩
  dsimp only
  rw [hcol]

lemma artificial_ne_nil_iff :
    p.plain.artificial ≠ [] ↔ ∃ c ∈ p.constraints, c.standardised.relation ≠ .le := by
  constructor
  · intro h
    by_contra hle
    push Not at hle
    refine h (artificial_eq_nil fun c hc => ?_)
    obtain ⟨d, hd, rfl⟩ := List.mem_map.mp hc
    exact hle d hd
  · rintro ⟨c, hc, hr⟩
    exact artificial_ne_nil (List.mem_map_of_mem hc) hr

lemma penalty_eq_error_iff {e : Fault} : o.penalty p = .error e ↔
    e = .penalty ∧ ∃ given ∈ o.bigM, Scalar.isFinite given = false ∨ given ≤ 0 := by
  unfold SolveOptions.penalty
  cases o.bigM with
  | none => simp
  | some given =>
    dsimp only
    by_cases h : Scalar.isFinite given = false ∨ given ≤ 0
    · rw [if_pos h]
      constructor
      · intro he
        cases he
        exact ⟨rfl, given, rfl, h⟩
      · rintro ⟨rfl, -⟩
        rfl
    · rw [if_neg h]
      constructor
      · intro he
        cases he
      · rintro ⟨-, _, hmem, hrefused⟩
        cases hmem
        exact absurd hrefused h

/-- A tableau to start on is missing only where a penalty is needed and refused. -/
theorem Valid.tableau_eq_error_iff (hp : p.Valid) {e : Fault} : p.tableau m o = .error e ↔
    m = .bigM ∧ p.plain.artificial ≠ [] ∧ o.penalty p = .error e := by
  rw [hp.tableau_eq_prepared]
  by_cases ha : p.plain.artificial = []
  · simp [ha]
  · rw [if_neg ha]
    cases m with
    | bigM => cases o.penalty p <;> simp [ha, Except.map]
    | simplex | twoPhase | other => simp

variable [OrderedScalar α]

/-- Nothing else fails. -/
theorem Valid.course_eq_error_iff (hp : p.Valid) {e : Fault} : p.course m o = .error e ↔
    m = .bigM ∧ (∃ c ∈ p.constraints, c.standardised.relation ≠ .le) ∧ e = .penalty ∧
      ∃ given ∈ o.bigM, Scalar.isFinite given = false ∨ given ≤ 0 := by
  rw [← artificial_ne_nil_iff, ← penalty_eq_error_iff, ← hp.tableau_eq_error_iff]
  constructor
  · intro h
    cases ht : p.tableau m o with
    | error e' =>
      unfold course at h
      rw [ht] at h
      cases h
      rfl
    | ok t =>
      obtain ⟨c, hc⟩ := hp.course_of_tableau ht
      rw [hc] at h
      cases h
  · intro h
    unfold course
    rw [h]
    rfl

omit [OrderedScalar α] in
lemma solve_eq_error_iff :
    (p.solve m o).status = .error ↔ ∃ e, p.course m o = .error e := by
  cases hc : p.course m o with
  | error e =>
    unfold solve
    rw [hc]
    simp [SolveResult.failed]
  | ok c =>
    rw [solve_status hc]
    simp [status_ne_error]

/-- A valid problem in doubles, undefined and infinite ones included, is solved without a fault
under every method, except where the penalty method charges for artificial columns and the given
penalty is not finite or not positive. The fault is then that of the penalty. Otherwise all
positions that are looked up on the way are there. -/
theorem solve_error_iff {p : Problem Float} (hp : p.Valid) (m : Method) (o : SolveOptions Float) :
    ((p.solve m o).status = .error ↔
      m = .bigM ∧ (∃ c ∈ p.constraints, c.standardised.relation ≠ .le) ∧
        ∃ given ∈ o.bigM, given.isFinite = false ∨ ¬ 0 < given) ∧
      (∀ e, p.course m o = .error e → e = .penalty) ∧
      (∃ plain, p.plainTableau = .ok plain ∧ ∀ a ∈ plain.artificial, a ∈ plain.basis) ∧
      ∀ c, p.course m o = .ok c → ∀ t, c.Visits o.tol t →
        t.columns = p.columns ∧ t.InBounds o.tol := by
  have hrefused (given : Float) : (Scalar.isFinite given = false ∨ given ≤ 0) ↔
      given.isFinite = false ∨ ¬ 0 < given := by
    by_cases hfinite : given.isFinite = true
    · have hsplit : given ≤ 0 ↔ ¬ 0 < given :=
        ⟨fun h h' => OrderedScalar.not_le_of_lt h' h, Double.nonpos_of_isFinite hfinite⟩
      exact or_congr Iff.rfl hsplit
    · have hnot : given.isFinite = false := by simpa using hfinite
      exact ⟨fun _ => Or.inl hnot, fun _ => Or.inl hnot⟩
  refine ⟨?_, ?_, ⟨p.plain, hp.plainTableau_eq, p.artificial_subset_basis⟩, ?_⟩
  · rw [solve_eq_error_iff]
    simp only [hp.course_eq_error_iff, hrefused]
    constructor
    · rintro ⟨e, hm, hc, -, hgiven⟩
      exact ⟨hm, hc, hgiven⟩
    · rintro ⟨hm, hc, hgiven⟩
      exact ⟨.penalty, hm, hc, rfl, hgiven⟩
  · intro e he
    exact (hp.course_eq_error_iff.mp he).2.2.1
  · intro c hc t hv
    have hframe := (course_courses hc).sameFrame_visited hp hv
    exact ⟨hframe.columns, hframe.shaped.inBounds o.tol⟩

/-- A problem with an undefined coefficient, an infinite right-hand side and one that is turned
round. -/
def undefinedCost : Problem Float where
  direction := .max
  objective := [1, 0 / 0]
  constraints := [⟨"c1", [1, 2], .le, -4⟩, ⟨"c2", [0 / 0, 1], .le, 1 / 0⟩, ⟨"c3", [1, -1], .le, 7⟩]

theorem solve_error_iff_undefinedCost :
    undefinedCost.Valid ∧
      (undefinedCost.solve .bigM { bigM := some (0 / 0) }).status = .error ∧
      (undefinedCost.solve .bigM { bigM := some 10 }).status ≠ .error ∧
      (undefinedCost.solve .twoPhase { bigM := some (0 / 0) }).status ≠ .error := by
  have hvalid : undefinedCost.Valid := ⟨Or.inl rfl, by simp [undefinedCost], by decide⟩
  have hsurplus : ∃ c ∈ undefinedCost.constraints, c.standardised.relation ≠ .le :=
    ⟨_, List.mem_cons_self .., by decide +kernel⟩
  refine ⟨hvalid, ?_, ?_, ?_⟩
  · exact (solve_error_iff hvalid .bigM _).1.mpr
      ⟨rfl, hsurplus, _, rfl, Or.inl (by decide +kernel)⟩
  · intro h
    obtain ⟨-, -, given, hgiven, hrefused⟩ := (solve_error_iff hvalid .bigM _).1.mp h
    cases hgiven
    revert hrefused
    decide +kernel
  · intro h
    obtain ⟨hm, -⟩ := (solve_error_iff hvalid .twoPhase _).1.mp h
    cases hm

end Problem

end SimplexTableau
