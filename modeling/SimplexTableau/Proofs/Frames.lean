import SimplexTableau.Proofs.Courses
import SimplexTableau.Proofs.Steps

/-!
# The frame of a solution

Whatever the arithmetic is, all tableaux of a solution have the columns, the artificial columns and
the number of rows of the problem, and every row has a basic column strictly between the objective
column and the right-hand side. Only the numbers and the basis change, also where numbers are
rounded, infinite or undefined.
-/

namespace SimplexTableau

namespace Problem

variable {α : Type} [Scalar α]

lemma headers_nodup (p : Problem α) : (p.columns.map Column.name).Nodup :=
  p.columns_nodup.map Column.name_injective

/-- A tableau with the columns and the number of rows of a problem. -/
structure SameFrame (p : Problem α) (t : Tableau α) : Prop where
  shaped : t.Shaped
  columns : t.columns = p.columns
  artificial : t.artificial = p.plain.artificial
  rowCount : t.rows.length = p.standard.length

variable {p : Problem α} {m : Method} {o : SolveOptions α} {c : Course α} {t t' : Tableau α}
  {tol : α}

/-- A method starts on the plain tableau, but for the objective row and the saved one. -/
theorem Valid.tableau_eq (hp : p.Valid) (h : p.tableau m o = .ok t) :
    t = { p.plain with objective := t.objective, savedObjective := t.savedObjective } ∧
      t.Shaped := by
  rcases hp.tableau_cases h with ⟨rfl, -⟩ | ⟨penalty, -, -, -, rfl⟩ | ⟨-, -, rfl⟩
  · exact ⟨rfl, hp.shaped_plain⟩
  · exact ⟨rfl, hp.shaped_plain.charged penalty⟩
  · exact ⟨rfl, hp.shaped_plain.phaseOne⟩

theorem Valid.sameFrame (hp : p.Valid) (h : p.tableau m o = .ok t) : p.SameFrame t := by
  obtain ⟨he, hs⟩ := hp.tableau_eq h
  refine ⟨hs, ?_, ?_, ?_⟩ <;> rw [he]
  · rfl
  · simp [plain]

namespace SameFrame

lemma rhsCol_eq (h : p.SameFrame t) : t.rhsCol = p.columns.length - 1 := by
  rw [Tableau.rhsCol, h.columns]

lemma headers_eq (h : p.SameFrame t) : t.headers = p.columns.map Column.name := by
  rw [Tableau.headers, h.columns]

lemma basis_get (h : p.SameFrame t) {b : ℕ} (hb : b ∈ t.basis) :
    ∃ c, p.columns[b]? = some c ∧ t.nameAt b = c.name := by
  have hlt : b < p.columns.length := by
    have hin := (h.shaped.inside b hb).2
    rw [h.rhsCol_eq] at hin
    omega
  refine ⟨p.columns[b], List.getElem?_eq_getElem hlt, ?_⟩
  rw [Tableau.nameAt, h.columns, List.getElem?_eq_getElem hlt]
  rfl

lemma basic_isVariable (h : p.SameFrame t) {c : Column} {b : ℕ} (hb : b ∈ t.basis)
    (hc : p.columns[b]? = some c) : c.isVariable = true := by
  obtain ⟨hpos, hlt⟩ := h.shaped.inside b hb
  exact isVariable_of_get hpos (h.rhsCol_eq ▸ hlt) hc

/-- Every variable has a value, and no other column has one. -/
theorem values_eq (h : p.SameFrame t) :
    t.values = (p.columns.filter Column.isVariable).map fun c =>
      (c.name, t.valueAt (p.columns.idxOf c)) := by
  have hentry : ∀ q ∈ p.columns.zipIdx,
      (if q.1.isVariable || t.basis.contains q.2 then some (q.1.name, t.valueAt q.2) else none) =
        if q.1.isVariable then some (q.1.name, t.valueAt (p.columns.idxOf q.1)) else none := by
    rintro ⟨c, j⟩ hmem
    have hget : p.columns[j]? = some c := List.mk_mem_zipIdx_iff_getElem?.mp hmem
    dsimp only
    by_cases hv : c.isVariable = true
    · rw [if_pos (by simp [hv]), if_pos hv, idxOf_of_get hget]
    · have hnot : j ∉ t.basis := fun hb => hv (h.basic_isVariable hb hget)
      rw [if_neg (by simp [hv, hnot]), if_neg hv]
  calc t.values
      = p.columns.zipIdx.filterMap ((fun c : Column =>
          if c.isVariable then some (c.name, t.valueAt (p.columns.idxOf c)) else none) ∘
            Prod.fst) := by
        rw [Tableau.values, h.columns]
        exact List.filterMap_congr hentry
    _ = p.columns.filterMap fun c =>
          if c.isVariable then some (c.name, t.valueAt (p.columns.idxOf c)) else none := by
        rw [← List.filterMap_map, List.zipIdx_map_fst]
    _ = _ := by
        rw [← List.filterMap_eq_map, List.filterMap_filter]
        rfl

lemma pivoted (h : p.SameFrame t) {row col : ℕ} (hs : (t.pivoted row col tol).Shaped) :
    p.SameFrame (t.pivoted row col tol) :=
  ⟨hs, h.columns, h.artificial, (t.length_pivoted_rows row col tol).trans h.rowCount⟩

theorem pivots {blocked : List ℕ} {n : ℕ} (h : p.SameFrame t)
    (hp : Tableau.Pivots tol blocked n t t') : p.SameFrame t' := by
  refine hp.invariant (fun a b ha hx => ?_) h
  have hs := ha.shaped.exchanges hx
  obtain ⟨row, col, -, -, -, -, -, -, -, rfl⟩ := ha.shaped.exchange_spec hx
  exact ha.pivoted hs

theorem drivesOut {rows : List ℕ} (h : p.SameFrame t) (hrows : t.RowsInside rows)
    (hd : Tableau.DrivesOut tol rows t t') : p.SameFrame t' := by
  refine (h.shaped.drivesOut_invariant hrows hd ?_ h).2
  intro a a' row col _ hr hr' hc hp ha
  obtain ⟨rfl, hs⟩ := ha.shaped.swap_spec hr hr' hc hp
  exact ha.pivoted hs

lemma driveOut {d : DrivenOut α} (h : p.SameFrame t) (hd : t.driveOut tol = .ok d) :
    p.SameFrame d.tableau :=
  h.drivesOut Tableau.rowsInside_all (Tableau.driveOutOf_drivesOut hd)

lemma restored (h : p.SameFrame t) (hr : t.restore tol = .ok t') : p.SameFrame t' := by
  have hs := h.shaped.restored hr
  obtain ⟨saved, objective, -, -, rfl⟩ := Tableau.restore_eq_ok hr
  exact ⟨hs, h.columns, h.artificial, h.rowCount⟩

lemma run {s : RunSetting α} {cap done : ℕ} {r : PivotRun α} (h : p.SameFrame t)
    (hr : t.run s cap done = .ok r) : p.SameFrame r.final := by
  obtain ⟨k, hk⟩ := Tableau.run_outcome hr
  exact h.pivots hk.pivots

end SameFrame

/-- All tableaux of a course have the frame of its problem. -/
theorem Courses.sameFrame (hp : p.Valid) (h : p.Courses m o c) :
    p.SameFrame c.start ∧ p.SameFrame c.first.final ∧
      ∀ second ∈ c.second, p.SameFrame second.start ∧ p.SameFrame second.run.final := by
  cases h with
  | single hs _ hr | halted hs _ hr =>
    have hstart := hp.sameFrame hs
    exact ⟨hstart, hstart.run hr, by simp⟩
  | handedOver hs _ hr _ _ hd hres hr2 =>
    have hstart := hp.sameFrame hs
    have hfirst := hstart.run hr
    have hsecond := (hfirst.driveOut hd).restored hres
    refine ⟨hstart, hfirst, ?_⟩
    intro second hmem
    cases hmem
    exact ⟨hsecond, hsecond.run hr2⟩

lemma Courses.sameFrame_final (hp : p.Valid) (h : p.Courses m o c) : p.SameFrame c.final := by
  obtain ⟨-, hfirst, hsecond⟩ := h.sameFrame hp
  unfold Course.final
  cases hs : c.second with
  | none => exact hfirst
  | some second => exact (hsecond second hs).2

end Problem

end SimplexTableau
