import SimplexTableau.Proofs.BasicSolution
import SimplexTableau.Proofs.CleanSolve

/-!
# The point at the phase boundary

A first phase that brings every artificial variable to zero hands its basic solution over unchanged:
an exchange in a row whose right-hand side is zero moves no value. On clean entries the second phase
starts in canonical form, row 0 included, and its right-hand side is the true objective at the
point.
A row that still has an artificial basic column has vanished outside the artificial columns, so the
constraint of that artificial variable is a combination of the others.
-/

namespace SimplexTableau

namespace Tableau

variable {tol : ℚ} {t u : Tableau ℚ} {row r c : ℕ} {rows : List ℕ}

section Visits

/-- The tableau after driving an artificial variable out of a row, if there is one to drive out. -/
def visited (tol : ℚ) (t : Tableau ℚ) (row : ℕ) : Tableau ℚ :=
  match t.basis[row - 1]?, t.replacement tol row with
  | some b, some c => if b ∈ t.artificial then t.pivoted row c tol else t
  | _, _ => t

/-- If the basic column of a row is artificial, the entries that are tested for its replacement, and
those of the replacement, vanish or exceed the tolerance. -/
def CleanVisit (tol : ℚ) (t : Tableau ℚ) (row : ℕ) : Prop :=
  ∀ b ∈ t.basis[row - 1]?, b ∈ t.artificial →
    (∀ j < t.rhsCol, 0 < j → j ∉ t.artificial → (∀ c ∈ t.replacement tol row, j ≤ c) →
      t.entry row j = 0 ∨ tol < size (t.entry row j)) ∧
    ∀ c ∈ t.replacement tol row, t.CleanColumn tol c

/-- Driving artificial variables out of the listed rows meets no entry within the tolerance that is
not zero. -/
def CleanVisits (tol : ℚ) : List ℕ → Tableau ℚ → Prop
  | [], _ => True
  | row :: rows, t => t.CleanVisit tol row ∧ CleanVisits tol rows (t.visited tol row)

instance (tol : ℚ) (t : Tableau ℚ) (row : ℕ) : Decidable (CleanVisit tol t row) :=
  inferInstanceAs (Decidable (∀ b ∈ t.basis[row - 1]?, b ∈ t.artificial →
    (∀ j < t.rhsCol, 0 < j → j ∉ t.artificial → (∀ c ∈ t.replacement tol row, j ≤ c) →
      t.entry row j = 0 ∨ tol < size (t.entry row j)) ∧
    ∀ c ∈ t.replacement tol row, t.CleanColumn tol c))

instance decidableCleanVisits (tol : ℚ) :
    ∀ (rows : List ℕ) (t : Tableau ℚ), Decidable (CleanVisits tol rows t)
  | [], _ => isTrue trivial
  | row :: rows, t =>
    have := decidableCleanVisits tol rows (t.visited tol row)
    inferInstanceAs (Decidable (_ ∧ _))

lemma visited_of_keep {b : ℕ} (hb : t.basis[row - 1]? = some b)
    (hkeep : b ∈ t.artificial → t.replacement tol row = none) : t.visited tol row = t := by
  unfold visited
  rw [hb]
  cases hc : t.replacement tol row with
  | none => rfl
  | some c =>
    apply if_neg
    intro hart
    rw [hkeep hart] at hc
    cases hc

lemma visited_of_swap {b : ℕ} (hb : t.basis[row - 1]? = some b) (hart : b ∈ t.artificial)
    (hc : t.replacement tol row = some c) : t.visited tol row = t.pivoted row c tol := by
  unfold visited
  rw [hb, hc]
  exact if_pos hart

/-- Each row is visited in the tableau that the rows before it have led to. -/
lemma CleanVisits.get {done rest : List ℕ} (hclean : CleanVisits tol (done ++ row :: rest) t)
    (h : t.Shaped) (hrows : t.RowsInside done) (hd : DrivesOut tol done t u) :
    u.CleanVisit tol row := by
  induction hd with
  | nil t => exact hclean.1
  | keep hb hkeep _ ih =>
    have htail := hclean.2
    rw [visited_of_keep hb hkeep] at htail
    exact ih htail h hrows.tail
  | swap hb hart hc hp _ ih =>
    obtain ⟨hr, hr'⟩ := hrows.head
    obtain ⟨rfl, hs⟩ := h.swap_spec hr hr' hc hp
    have htail := hclean.2
    rw [visited_of_swap hb hart hc] at htail
    exact ih htail hs hrows.tail.pivoted

lemma CleanVisits.everySwap (hclean : CleanVisits tol rows t) (h : t.Shaped)
    (hrows : t.RowsInside rows) : EverySwap (fun u _ c => u.CleanColumn tol c) tol rows t := by
  intro done row rest u b c heq hd hb hart hc
  subst heq
  have hdone : t.RowsInside done := fun row' hm => hrows row' (List.mem_append_left _ hm)
  exact (hclean.get h hdone hd b hb hart).2 c hc

lemma CleanVisits.everyKept (hclean : CleanVisits tol rows t) (h : t.Shaped)
    (hrows : t.RowsInside rows) :
    EveryKept (fun u row => u.Idle 0 (row - 1)) tol rows t := by
  intro done row rest u b heq hd hb hart hnone b' cells hb' hart' hcells j hj hj' hja
  have hidle := h.toRectangular.everyKept_idle hrows done row rest u b heq hd hb hart hnone b' cells
    hb' hart' hcells j hj hj' hja
  subst heq
  have hdone : t.RowsInside done := fun row' hm => hrows row' (List.mem_append_left _ hm)
  obtain ⟨hr, -⟩ := hrows row (by simp)
  have hvisit := (hclean.get h hdone hd b hb hart).1 j hj' hj hja (by simp [hnone])
  rw [← Nat.sub_add_cancel hr, entry_of_getElem? hcells] at hvisit
  rcases hvisit with hz | hlt
  · rw [size_eq_abs, hz, abs_zero]
  · exact absurd hidle (not_le.mpr hlt)

end Visits

section Point

/-- An exchange in a row whose right-hand side is zero moves no value: the columns that leave and
enter are at zero, and the right-hand sides of the other rows stay. -/
lemma Shaped.rawValueAt_at_zero (h : t.Shaped) (hcan : t.Canonical) (hr : 0 < r)
    (hr' : r ≤ t.rows.length) (hv : t.entry r c ≠ 0) (hs : (t.pivoted r c tol).Shaped)
    (hcan' : (t.pivoted r c tol).Canonical) (hz : t.entry r t.rhsCol = 0) (j : ℕ) :
    (t.pivoted r c tol).rawValueAt j = t.rawValueAt j := by
  have hrow : r - 1 + 1 = r := Nat.sub_add_cancel hr
  have hstays : ∀ i, (t.pivoted r c tol).entry i (t.pivoted r c tol).rhsCol =
      t.entry i t.rhsCol := h.entry_pivoted_at_zero hr hr' hz
  by_cases hj : j ∈ (t.pivoted r c tol).basis
  · obtain ⟨i, hi⟩ := List.mem_iff_getElem?.mp hj
    rw [hs.rawValueAt_basic hcan' hi, hstays]
    rcases pivoted_basis_get hi with ⟨rfl, rfl⟩ | ⟨-, hb⟩
    · rw [hrow, hz]
      by_cases hj' : j ∈ t.basis
      · obtain ⟨k, hk⟩ := List.mem_iff_getElem?.mp hj'
        obtain rfl : r - 1 = k := by
          by_contra hne
          apply hv
          have hentry := hcan.rows k j hk (r - 1)
          rwa [hrow, if_neg hne] at hentry
        rw [h.rawValueAt_basic hcan hk, hrow, hz]
      · rw [rawValueAt_nonbasic hj']
    · rw [h.rawValueAt_basic hcan hb]
  · rw [rawValueAt_nonbasic hj]
    by_cases hj' : j ∈ t.basis
    · obtain ⟨i, hi⟩ := List.mem_iff_getElem?.mp hj'
      obtain rfl : r - 1 = i := by
        by_contra hne
        apply hj
        rw [pivoted_basis]
        exact List.mem_of_getElem? ((List.getElem?_set_ne hne).trans hi)
      rw [h.rawValueAt_basic hcan hi, hrow, hz]
    · rw [rawValueAt_nonbasic hj']

/-- Driving artificial variables out at zero moves no value. -/
theorem Shaped.rawValueAt_drivesOut (h : t.Shaped) (htol : 0 ≤ tol) (hcan : t.Canonical)
    (hrows : t.RowsInside rows)
    (hclean : EverySwap (fun u _ c => u.CleanColumn tol c) tol rows t)
    (hzero : EverySwap (fun u row _ => u.entry row u.rhsCol = 0) tol rows t)
    (hd : DrivesOut tol rows t u) (j : ℕ) : u.rawValueAt j = t.rawValueAt j := by
  have hboth : u.Canonical ∧ u.rawValueAt j = t.rawValueAt j := by
    refine hd.invariant (Q := fun a => a.Canonical ∧ a.rawValueAt j = t.rawValueAt j)
      (P := fun u row c => u.CleanColumn tol c ∧ u.entry row u.rhsCol = 0) h hrows ?_ ?_
      ⟨hcan, rfl⟩
    · rintro a row c ha hr hr' hc ⟨hcol, hz⟩ ⟨hq, hvalue⟩
      obtain ⟨h0, h1, -, -⟩ := ha.replacement_inside hr' hc
      have hv := ha.entry_replacement_ne htol hr' hc
      have hcan' := ha.canonical_pivoted hq hr hr' hv hcol
      have hs := ha.pivoted hr hr' h0 h1 tol
      exact ⟨hcan', (ha.rawValueAt_at_zero hq hr hr' hv hs hcan' hz j).trans hvalue⟩
    · intro done row rest u b c heq hd hb hart hc
      exact ⟨hclean done row rest u b c heq hd hb hart hc,
        hzero done row rest u b c heq hd hb hart hc⟩
  exact hboth.2

/-- The basic solution is read off the constraint rows and the basis alone. -/
lemma rawValueAt_restored {t' : Tableau ℚ} (hr : t.restore tol = .ok t') (j : ℕ) :
    t'.rawValueAt j = t.rawValueAt j := by
  obtain ⟨saved, o, -, -, rfl⟩ := restore_eq_ok hr
  rfl

end Point

end Tableau

/-- A first phase ends at an optimum with every artificial variable at zero, and neither its run
nor the handover meets an entry within the tolerance that is not zero. -/
structure Course.CleanHandover (c : Course ℚ) (o : SolveOptions ℚ) : Prop where
  run : Tableau.CleanRun o.tol [] o.maxIters c.start
  ending : c.first.ending = .optimal
  atZero : ∀ k b, c.first.final.basis[k]? = some b → b ∈ c.first.final.artificial →
    c.first.final.entry (k + 1) c.first.final.rhsCol = 0
  driven : Tableau.CleanVisits o.tol ((List.range c.first.final.rows.length).map (· + 1))
    c.first.final
  restored : ∀ driven, c.first.final.driveOut o.tol = .ok driven →
    driven.tableau.CleanRestore o.tol

/-- Whether a course has a clean handover, its first run ending within a number of tableaux. -/
def Course.handsOverClean (o : SolveOptions ℚ) (fuel : ℕ) (c : Course ℚ) : Bool :=
  Tableau.endsClean o.tol [] fuel c.start && c.first.ending = .optimal &&
    (c.first.final.basis.zip c.first.final.rows).all (fun (b, cells) =>
      b ∈ c.first.final.artificial → rhsOf cells = 0) &&
    decide (Tableau.CleanVisits o.tol ((List.range c.first.final.rows.length).map (· + 1))
      c.first.final) &&
    (c.first.final.driveOut o.tol).toOption.all (fun d => d.tableau.CleanRestore o.tol)

theorem Course.cleanHandover_of_check {o : SolveOptions ℚ} {fuel : ℕ} {c : Course ℚ}
    (hstart : c.start.Shaped) (hfinal : c.first.final.Shaped)
    (h : c.handsOverClean o fuel = true) : c.CleanHandover o := by
  simp only [handsOverClean, Bool.and_eq_true, decide_eq_true_eq] at h
  obtain ⟨⟨⟨⟨hrun, hend⟩, hzero⟩, hvisits⟩, hrestore⟩ := h
  refine ⟨hstart.cleanRun hrun, hend, fun k b hb hart => ?_, hvisits, fun driven hd => ?_⟩
  · have hlt : k < c.first.final.rows.length := by
      rw [← hfinal.basis]
      exact (List.getElem?_eq_some_iff.mp hb).1
    have hcells := List.getElem?_eq_getElem hlt
    have hmem : (b, c.first.final.rows[k]) ∈ c.first.final.basis.zip c.first.final.rows := by
      apply List.mem_of_getElem? (i := k)
      rw [List.getElem?_zip_eq_some]
      exact ⟨hb, hcells⟩
    rw [← hfinal.rhsOf_row hcells]
    exact of_decide_eq_true (List.all_eq_true.mp hzero _ hmem) hart
  · rw [hd] at hrestore
    exact of_decide_eq_true hrestore

namespace Problem

/-- Outside the artificial columns a standardised row is a linear combination of the others. -/
def Redundant (p : Problem ℚ) (i : ℕ) : Prop :=
  ∃ weight : ℕ → ℚ, ∀ j < p.columns.length, j ∉ p.plain.artificial →
    p.plain.entry (i + 1) j =
      ∑ k ∈ (Finset.range p.standard.length).erase i, weight k * p.plain.entry (k + 1) j

variable {p : Problem ℚ} {o : SolveOptions ℚ} {c : Course ℚ} {t : Tableau ℚ}

/-- A row with an artificial basic column that vanishes outside the artificial columns makes the
constraint of this column redundant: in the combination that yields the row, the constraint has
weight one. -/
theorem SameRows.redundant (h : p.SameRows t) (hcan : t.Canonical) {k b : ℕ}
    (hb : t.basis[k]? = some b) (hart : b ∈ t.artificial)
    (hzero : ∀ j < t.columns.length, j ∉ t.artificial → t.entry (k + 1) j = 0) :
    ∃ i, p.columns[b]? = some (.artificial i) ∧ p.Redundant i := by
  rw [h.artificial] at hart
  obtain ⟨i, hi⟩ := mem_artificial_iff.mp hart
  refine ⟨i, hi, ?_⟩
  have hmem : t.entry (k + 1) ∈ p.plain.rowSpace := h.rowSpace ▸ t.entry_mem_rowSpace k
  obtain ⟨a, ha⟩ := Tableau.mem_rowSpace_iff.mp hmem
  rw [plain_rows_length] at ha
  have hin : i ∈ Finset.range p.standard.length := by
    obtain ⟨r, hr, -⟩ := mem_rowsWhere.mp (artificial_mem_columns_iff.mp (List.mem_of_getElem? hi))
    exact Finset.mem_range.mpr (List.getElem?_eq_some_iff.mp hr).1
  have hone : a i = 1 := by
    have hunit : ∀ l ∈ Finset.range p.standard.length,
        a l * p.plain.entry (l + 1) b = if l = i then a l else 0 := by
      intro l hl
      have hget := List.getElem?_eq_getElem (Finset.mem_range.mp hl)
      rw [plain_entry_succ hget hi, Constraint.entry, mul_ite, mul_one, mul_zero]
      simp only [eq_comm]
    have hentry := ha b
    rw [hcan.rows k b hb k, if_pos rfl, Finset.sum_congr rfl hunit, Finset.sum_ite_eq' _ i,
      if_pos hin] at hentry
    exact hentry.symm
  refine ⟨fun l => -a l, fun j hj hja => ?_⟩
  have hsum := ha j
  rw [hzero j (h.columns ▸ hj) (h.artificial ▸ hja),
    ← Finset.add_sum_erase _ (fun l => a l * p.plain.entry (l + 1) j) hin, hone, one_mul] at hsum
  simp only [neg_mul, Finset.sum_neg_distrib]
  exact eq_neg_of_add_eq_zero_left hsum.symm

lemma SameRows.artificialTotal_eq_zero (h : p.SameRows t) (hcan : t.Canonical)
    (hzero : ∀ k b, t.basis[k]? = some b → b ∈ t.artificial → t.entry (k + 1) t.rhsCol = 0) :
    p.artificialTotal t.rowValue = 0 := by
  apply List.sum_eq_zero
  intro v hv
  obtain ⟨i, hi, rfl⟩ := List.mem_map.mp hv
  have hget := get_idxOf (artificial_mem_columns_iff.mpr hi)
  have hart : p.columns.idxOf (.artificial i) ∈ t.artificial := by
    rw [h.artificial]
    exact mem_artificial_iff.mpr ⟨i, hget⟩
  rw [Tableau.rowValue, h.columns]
  by_cases hb : p.columns.idxOf (.artificial i) ∈ t.basis
  · obtain ⟨k, hk⟩ := List.mem_iff_getElem?.mp hb
    rw [h.shaped.rawValueAt_basic hcan hk]
    exact hzero k _ hk hart
  · exact Tableau.rawValueAt_nonbasic hb

lemma SameRows.entry_eq_zero (h : p.SameRows t) {k b : ℕ} (hidle : t.Idle 0 k)
    (hb : t.basis[k]? = some b) (hart : b ∈ t.artificial)
    (hrhs : t.entry (k + 1) t.rhsCol = 0) {j : ℕ} (hj : j < t.columns.length)
    (hja : j ∉ t.artificial) : t.entry (k + 1) j = 0 := by
  have hw := h.shaped.rhsCol_add_one
  rcases Nat.eq_zero_or_pos j with rfl | hpos
  · exact rowSpace_zero (h.rowSpace ▸ t.entry_mem_rowSpace k)
  · rcases Nat.lt_or_ge j t.rhsCol with hlt | hge
    · have hsettled := (h.shaped.settled_iff_idle 0 k).mpr hidle b hb hart j hpos hlt hja
      exact abs_nonpos_iff.mp hsettled
    · obtain rfl : j = t.rhsCol := by omega
      exact hrhs

/-- If a first phase ends at an optimum with every artificial variable at zero, and no entry within
the tolerance is met that is not zero, a second phase follows. It starts at the same basic solution,
in canonical form, with the true objective as right-hand side of row 0. A row that still has an
artificial basic column has vanished outside the artificial columns, its right-hand side with it,
and the standardised row of the artificial variable is a linear combination of the others. -/
theorem handover_keeps_point (hp : p.Valid) (ho : o.Valid) (hc : p.course .twoPhase o = .ok c)
    (hm : c.start.hasFirstPhase .twoPhase = true) (h : c.CleanHandover o) :
    ∃ second ∈ c.second,
      (∀ j, second.start.rawValueAt j = c.first.final.rawValueAt j) ∧
      second.start.Canonical ∧
      second.start.entry 0 second.start.rhsCol = p.gain second.start.rowValue ∧
      ∀ k b, second.start.basis[k]? = some b → b ∈ second.start.artificial →
        second.start.entry (k + 1) second.start.rhsCol = 0 ∧
        (∀ j < second.start.columns.length, j ∉ second.start.artificial →
          second.start.entry (k + 1) j = 0) ∧
        ∃ i, p.columns[b]? = some (.artificial i) ∧ p.Redundant i := by
  have htol : 0 ≤ o.tol := ho.tol.le
  have hcourses := course_courses hc
  obtain ⟨n, hle, hn⟩ := hcourses.first_pivots
  have hstart := hp.tableau_startsOn hcourses.first_run.1
  obtain ⟨hrows, hcan, hnonneg⟩ := hstart.run_spec hp htol h.run hn hle
  have hobj := hcourses.first_objectiveIs hp htol hm
  have hsmall : ¬ o.feasibilityTol < size (rhsOf c.first.final.objective) := by
    rw [hrows.shaped.rhsOf_objective, hobj.firstRow_basic hrows hcan,
      hrows.artificialTotal_eq_zero hcan h.atZero, size_eq_abs, neg_zero, abs_zero]
    exact not_lt.mpr ho.feasibilityTol.le
  obtain ⟨second, -, hs, -⟩ := hcourses.second_run hm h.ending hsmall
  obtain ⟨driven, hd, hres, hdriven, hsecond, hobj2⟩ := hcourses.handover hp htol hs
  have hdrives := Tableau.driveOutOf_drivesOut hd
  have hinside := Tableau.rowsInside_all (t := c.first.final)
  have hwithin : c.first.final.ArtificialsWithin 0 := fun k b hb hart => (h.atZero k b hb hart).le
  have hclean := h.driven.everySwap hrows.shaped hinside
  have hzero : c.first.final.SwapsAtZero o.tol :=
    hrows.shaped.everySwap_at_zero hnonneg hwithin hinside
  have hcan' := hrows.shaped.canonical_drivesOut htol hcan hinside hclean hdrives
  have hcan2 := hdriven.shaped.canonical_restore hcan' (h.restored driven hd) hres
  refine ⟨second, hs, fun j => ?_, hcan2, ?_, fun k b hb hart => ?_⟩
  · rw [Tableau.rawValueAt_restored hres,
      hrows.shaped.rawValueAt_drivesOut htol hcan hinside hclean hzero hdrives]
  · rw [hobj2.penalised_basic hsecond hcan2, zero_mul, sub_zero]
  · have hidle : driven.tableau.Idle 0 k := hrows.shaped.idle_driveOut
      (fun _ hle => hle.trans htol) (h.driven.everyKept hrows.shaped hinside) hd k
    have hnonneg' := hrows.shaped.nonnegRhs_drivesOut hinside hzero hnonneg hdrives
    have hwithin' := hrows.shaped.artificialsWithin_drivesOut hinside hzero hwithin hdrives
    obtain ⟨saved, objective, -, -, he⟩ := Tableau.restore_eq_ok hres
    have hrhs : second.start.entry (k + 1) second.start.rhsCol = 0 := by
      rw [he] at hb hart ⊢
      exact hwithin'.entry_eq_zero hnonneg' (Nat.succ_pos k) hb hart
    have hrest : ∀ j < second.start.columns.length, j ∉ second.start.artificial →
        second.start.entry (k + 1) j = 0 :=
      fun j => hsecond.entry_eq_zero (by rw [he]; exact hidle) hb hart hrhs
    exact ⟨hrhs, hrest, hsecond.redundant hcan2 hb hart hrest⟩

/-- Two equations say the same, and a third one holds at the origin of its variables only, so that
its artificial variable has to be driven out on a negative entry. -/
def repeated : Problem ℚ where
  direction := .min
  objective := [1, 2, 3]
  constraints := [⟨"c1", [1, 1, 0], .eq, 2⟩, ⟨"c2", [2, 2, 0], .eq, 4⟩, ⟨"c3", [0, -1, -1], .eq, 0⟩]

theorem handover_keeps_point_repeated :
    ∃ c, repeated.course .twoPhase {} = .ok c ∧ c.CleanHandover {} ∧ ∃ second ∈ c.second,
      second.swaps.map (·.row) = [3] ∧ second.start.basis = [1, 5, 2] ∧
      (∀ j, second.start.rawValueAt j = c.first.final.rawValueAt j) ∧ second.start.Canonical ∧
      -2 = repeated.gain second.start.rowValue ∧ repeated.Redundant 1 := by
  have hvalid : repeated.Valid := ⟨Or.inr rfl, by decide +kernel, by decide +kernel⟩
  have hoptions : ({} : SolveOptions ℚ).Valid := SolveOptions.valid_default (by decide)
  obtain ⟨c, hc, hcheck⟩ := exists_ok_of_any (by decide +kernel :
    (repeated.course .twoPhase {}).toOption.any (fun c =>
      (c.start.hasFirstPhase .twoPhase ∧ c.handsOverClean {} 5) ∧
      c.second.any (fun second => second.swaps.map (·.row) = [3] ∧
        second.start.basis = [1, 5, 2] ∧ second.start.artificial = [4, 5, 6] ∧
        second.start.entry 0 second.start.rhsCol = -2)) = true)
  obtain ⟨⟨hm, hclean⟩, hsecond⟩ := of_decide_eq_true hcheck
  obtain ⟨hstart, hfinal, -⟩ := (course_courses hc).sameFrame hvalid
  have hhandover := Course.cleanHandover_of_check hstart.shaped hfinal.shaped hclean
  obtain ⟨second, hs, hpoint, hcan, hobj, hrows⟩ :=
    handover_keeps_point hvalid hoptions hc hm hhandover
  rw [hs] at hsecond
  obtain ⟨hswaps, hbasis, hart, hvalue⟩ := of_decide_eq_true hsecond
  obtain ⟨i, hi, hredundant⟩ := (hrows 1 5 (by rw [hbasis]; rfl) (by rw [hart]; simp)).2.2
  have hcol : repeated.columns[5]? = some (.artificial 1) := by decide +kernel
  rw [hcol] at hi
  cases hi
  exact ⟨c, hc, hhandover, second, hs, hswaps, hbasis, hpoint, hcan, hvalue ▸ hobj, hredundant⟩

end Problem

end SimplexTableau
