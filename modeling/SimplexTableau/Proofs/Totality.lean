import SimplexTableau.Proofs.Frames

/-!
# Solutions that do not fail

Driving artificial variables out pivots only on entries that exceed the tolerance, and restoration
only reads columns that are there. So on shaped tableaux neither fails, whatever the arithmetic is.
In an ordered arithmetic the runs do not fail either: a valid problem has a course under every
method, unless the penalty method refuses the given penalty.
-/

namespace SimplexTableau

namespace Tableau

section Handover

variable {α : Type} [Scalar α] {tol : α} {t : Tableau α} {saved : List α}

/-- Only the names of basic artificial columns are looked up, and a swap makes no column of that
kind basic. -/
theorem Rectangular.driveOutOf_total {rows : List ℕ} (h : t.Rectangular)
    (hlen : t.basis.length = t.rows.length)
    (hart : ∀ b ∈ t.basis, b ∈ t.artificial → b < t.columns.length) (hrows : t.RowsInside rows) :
    ∃ d, driveOutOf tol rows t = .ok d := by
  induction rows generalizing t with
  | nil => exact ⟨_, rfl⟩
  | cons row rows ih =>
    obtain ⟨hr, hr'⟩ := hrows.head
    have hlt : row - 1 < t.basis.length := by omega
    rw [driveOutOf]
    simp only [List.getElem?_eq_getElem hlt]
    by_cases ha : t.artificial.contains t.basis[row - 1]
    · rw [if_pos ha]
      cases hc : t.replacement tol row with
      | none => exact ih h hlen hart hrows.tail
      | some c =>
        obtain ⟨-, h1, hnot, hsize⟩ := h.replacement_inside hr' hc
        have hc' : c < t.columns.length := by
          unfold rhsCol at h1
          omega
        have hcol := hart _ (List.getElem_mem hlt) (by simpa using ha)
        have hp := h.pivot_eq_ok hlen hr hr' hc' hsize
        have hart' : ∀ b ∈ (t.pivoted row c tol).basis, b ∈ t.artificial →
            b < t.columns.length := by
          intro b hb hb'
          rcases List.mem_or_eq_of_mem_set hb with hb | rfl
          · exact hart b hb hb'
          · exact absurd hb' hnot
        obtain ⟨d, hd⟩ := ih (h.pivoted hr hr' c tol) (by simpa using hlen) hart'
          hrows.tail.pivoted
        simp only [List.getElem?_eq_getElem hcol, hp, bind, Except.bind, hd]
        exact ⟨_, rfl⟩
    · rw [if_neg ha]
      exact ih h hlen hart hrows.tail

lemma Shaped.driveOut_total (h : t.Shaped) (tol : α) : ∃ d, t.driveOut tol = .ok d := by
  refine h.toRectangular.driveOutOf_total h.basis (fun b hb _ => ?_) rowsInside_all
  have hw := h.rhsCol_add_one
  have hin := (h.inside b hb).2
  omega

lemma Shaped.clearBasics_total {basis : List (ℕ × ℕ)} {o : List α} (h : t.Shaped)
    (hbasis : ∀ q ∈ basis, t.basis[q.2]? = some q.1) (ho : o.length = t.columns.length) :
    ∃ o', clearBasics tol t.rows basis o = .ok o' := by
  induction basis generalizing o with
  | nil => exact ⟨o, rfl⟩
  | cons q basis ih =>
    obtain ⟨col, r⟩ := q
    have hcol : t.basis[r]? = some col := hbasis _ (List.mem_cons_self ..)
    rw [clearBasics_cons h ho hcol]
    exact ih (fun q hq => hbasis q (List.mem_cons_of_mem _ hq)) (length_cleared h ho hcol)

theorem Shaped.restore_total (h : t.Shaped) (hs : t.savedObjective = some saved) (tol : α) :
    ∃ t', t.restore tol = .ok t' := by
  obtain ⟨o, ho⟩ : ∃ o, clearBasics tol t.rows t.basis.zipIdx saved = .ok o :=
    h.clearBasics_total (fun q hq => List.mk_mem_zipIdx_iff_getElem?.mp hq) (h.saved saved hs)
  refine ⟨{ t with objective := o, savedObjective := none }, ?_⟩
  rw [restore, hs]
  simp only [ho]
  rfl

end Handover

end Tableau

namespace Problem

section Courses

variable {α : Type} [Scalar α] {p : Problem α} {m : Method} {o : SolveOptions α} {t : Tableau α}

theorem Valid.tableau_total (hp : p.Valid)
    (hpen : m = .bigM → ∃ penalty, o.penalty p = .ok penalty) : ∃ t, p.tableau m o = .ok t := by
  rw [hp.tableau_eq_prepared]
  split_ifs
  · exact ⟨_, rfl⟩
  · cases m with
    | bigM =>
      obtain ⟨penalty, h⟩ := hpen rfl
      rw [h]
      exact ⟨_, rfl⟩
    | simplex | twoPhase | other => exact ⟨_, rfl⟩

lemma Valid.savedObjective_eq (hp : p.Valid) (h : p.tableau m o = .ok t)
    (hm : t.hasFirstPhase m = true) : t.savedObjective = some p.plain.objective := by
  obtain ⟨rfl, hne⟩ : m = .twoPhase ∧ t.artificial ≠ [] := by
    simpa [Tableau.hasFirstPhase] using hm
  rcases hp.tableau_cases h with ⟨rfl, ha | ⟨-, ha⟩⟩ | ⟨_, -, ha, -⟩ | ⟨-, -, rfl⟩
  · exact absurd ha hne
  · exact absurd rfl ha
  · cases ha
  · rfl

variable [OrderedScalar α]

/-- Once there is a tableau to start on, nothing fails. -/
theorem Valid.course_of_tableau (hp : p.Valid) (h : p.tableau m o = .ok t) :
    ∃ c, p.course m o = .ok c := by
  have hstart := (hp.sameFrame h).shaped
  by_cases hm : t.hasFirstPhase m = true
  · obtain ⟨first, hr⟩ := hstart.run_ok (firstSetting o) o.maxIters 0
    by_cases hend : first.ending = .optimal ∧
        ¬ o.feasibilityTol < size (rhsOf first.final.objective)
    · obtain ⟨k, hk⟩ := Tableau.run_outcome hr
      have hfinal := hstart.pivots hk.pivots
      obtain ⟨driven, hd⟩ := hfinal.driveOut_total o.tol
      have hdrives := Tableau.driveOutOf_drivesOut hd
      have hdriven := hfinal.drivesOut Tableau.rowsInside_all hdrives
      have hsaved : driven.tableau.savedObjective = some p.plain.objective := by
        rw [(hfinal.sameLayout_drivesOut Tableau.rowsInside_all hdrives).savedObjective,
          (hstart.sameLayout_pivots hk.pivots).savedObjective]
        exact hp.savedObjective_eq h hm
      obtain ⟨start, hres⟩ := hdriven.restore_total hsaved o.tol
      obtain ⟨second, hr2⟩ :=
        (hdriven.restored hres).run_ok (secondSetting o start first.steps) o.maxIters 0
      have hcourse : p.Courses m o ⟨t, first, some ⟨driven.swaps, start, second⟩⟩ :=
        Courses.handedOver h hm hr hend.1 hend.2 hd hres hr2 rfl
      exact ⟨_, hcourse.course_eq⟩
    · exact ⟨_, (Courses.halted h hm hr hend).course_eq⟩
  · obtain ⟨first, hr⟩ := hstart.run_ok (singleSetting o) o.maxIters 0
    exact ⟨_, (Courses.single h (by simpa using hm) hr).course_eq⟩

/-- A valid problem has a course unless its penalty is refused. -/
theorem Valid.course_total (hp : p.Valid)
    (hpen : m = .bigM → ∃ penalty, o.penalty p = .ok penalty) : ∃ c, p.course m o = .ok c := by
  obtain ⟨t, ht⟩ := hp.tableau_total hpen
  exact hp.course_of_tableau ht

end Courses

end Problem

end SimplexTableau
