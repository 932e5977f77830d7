import SimplexTableau.Proofs.Canonical
import SimplexTableau.Proofs.IdleRows

/-!
# The phase boundary on clean columns

On clean columns driving artificial variables out keeps a tableau canonical, and restoration clears
the saved objective row on every basic column. A row that keeps its artificial variable has no
entry above the tolerance outside the artificial columns, so nothing that follows changes it.
-/

namespace SimplexTableau

namespace Tableau

/-- A property of every exchange that driving artificial variables out of the listed rows makes:
of the tableau, the row and the column. -/
def EverySwap (P : Tableau ℚ → ℕ → ℕ → Prop) (tol : ℚ) (rows : List ℕ) (t : Tableau ℚ) : Prop :=
  ∀ (done : List ℕ) (row : ℕ) (rest : List ℕ) (u : Tableau ℚ) (b c : ℕ),
    rows = done ++ row :: rest → DrivesOut tol done t u → u.basis[row - 1]? = some b →
      b ∈ u.artificial → u.replacement tol row = some c → P u row c

/-- Every column that is pivoted on while artificial variables are driven out is clean. -/
def CleanDrive (tol : ℚ) (t : Tableau ℚ) : Prop :=
  EverySwap (fun u _ c => u.CleanColumn tol c) tol ((List.range t.rows.length).map (· + 1)) t

/-- Every exchange that drives an artificial variable out is made in a row where it is at zero. -/
def SwapsAtZero (tol : ℚ) (t : Tableau ℚ) : Prop :=
  EverySwap (fun u row _ => u.entry row u.rhsCol = 0) tol
    ((List.range t.rows.length).map (· + 1)) t

/-- Every entry that restoration tests in the objective row vanishes or exceeds the tolerance. -/
def CleanBasics (tol : ℚ) (rows : List (List ℚ)) : List (ℕ × ℕ) → List ℚ → Prop
  | [], _ => True
  | (col, r) :: basis, o =>
    (o.getD col 0 = 0 ∨ tol < size (o.getD col 0)) ∧
      CleanBasics tol rows basis
        (if tol < size (o.getD col 0) then subtractMultiple o (o.getD col 0) (rows.getD r []) else o)

/-- Restoration clears the saved objective row without skipping an entry that is not zero. -/
def CleanRestore (tol : ℚ) (t : Tableau ℚ) : Prop :=
  CleanBasics tol t.rows t.basis.zipIdx (t.savedObjective.getD [])

/-- If a row keeps an artificial variable, its entries outside the artificial columns are within
the tolerance. -/
def Settled (tol : ℚ) (t : Tableau ℚ) (row : ℕ) : Prop :=
  ∀ b, t.basis[row - 1]? = some b → b ∈ t.artificial →
    ∀ j, 0 < j → j < t.rhsCol → j ∉ t.artificial → |t.entry row j| ≤ tol

section Driving

variable {tol bound : ℚ} {t t' u : Tableau ℚ} {P : Tableau ℚ → ℕ → ℕ → Prop} {rows : List ℕ}
  {row r c : ℕ}

lemma EverySwap.tail (h : EverySwap P tol (row :: rows) t)
    (hstep : ∀ done u, DrivesOut tol done t' u → DrivesOut tol (row :: done) t u) :
    EverySwap P tol rows t' := by
  intro done row' rest u b c heq hd
  apply h (row :: done) row' rest u b c _ (hstep done u hd)
  rw [heq, List.cons_append]

/-- What the exchanges keep, driving out keeps. -/
theorem DrivesOut.invariant {Q : Tableau ℚ → Prop} (hd : DrivesOut tol rows t u) (h : t.Shaped)
    (hrows : t.RowsInside rows)
    (hswap : ∀ a row c, a.Shaped → 0 < row → row ≤ a.rows.length →
      a.replacement tol row = some c → P a row c → Q a → Q (a.pivoted row c tol))
    (hevery : EverySwap P tol rows t) (hq : Q t) : Q u := by
  induction hd with
  | nil t => exact hq
  | keep hb hkeep _ ih =>
    exact ih h hrows.tail (hevery.tail fun done u hd => DrivesOut.keep hb hkeep hd) hq
  | @swap row b col rows t t' _ hb hart hc hp _ ih =>
    obtain ⟨hr, hr'⟩ := hrows.head
    obtain ⟨rfl, hs⟩ := h.swap_spec hr hr' hc hp
    have hprop := hevery [] row rows t b col rfl (DrivesOut.nil t) hb hart hc
    exact ih hs hrows.tail.pivoted
      (hevery.tail fun done u hd => DrivesOut.swap hb hart hc hp hd)
      (hswap t row col h hr hr' hc hprop hq)

lemma Shaped.entry_replacement_ne (h : t.Shaped) (htol : 0 ≤ tol) (hr' : row ≤ t.rows.length)
    (hc : t.replacement tol row = some c) : t.entry row c ≠ 0 := by
  have hsize := (h.replacement_inside hr' hc).2.2.2
  rw [size_eq_abs, not_le] at hsize
  exact abs_pos.mp (htol.trans_lt hsize)

theorem Shaped.canonical_drivesOut (h : t.Shaped) (htol : 0 ≤ tol) (hcan : t.Canonical)
    (hrows : t.RowsInside rows)
    (hclean : EverySwap (fun u _ c => u.CleanColumn tol c) tol rows t)
    (hd : DrivesOut tol rows t u) : u.Canonical := by
  apply hd.invariant h hrows _ hclean hcan
  intro a row c ha hr hr' hc hcol hq
  exact ha.canonical_pivoted hq hr hr' (ha.entry_replacement_ne htol hr' hc) hcol

lemma Shaped.entry_pivoted_at_zero (h : t.Shaped) (hr : 0 < r) (hr' : r ≤ t.rows.length)
    (hz : t.entry r t.rhsCol = 0) (i : ℕ) :
    (t.pivoted r c tol).entry i t.rhsCol = t.entry i t.rhsCol := by
  rw [h.entry_pivoted hr hr', hz, zero_div, mul_zero, sub_zero, ite_self]
  split_ifs with hi
  · rw [hi, hz]
  · rfl

lemma Shaped.nonnegRhs_at_zero (h : t.Shaped) (hr : 0 < r) (hr' : r ≤ t.rows.length)
    (hz : t.entry r t.rhsCol = 0) (hn : t.NonnegRhs) : (t.pivoted r c tol).NonnegRhs := by
  intro i
  rw [pivoted_rhsCol, h.entry_pivoted_at_zero hr hr' hz]
  exact hn i

lemma Shaped.artificialsWithin_at_zero (h : t.Shaped) (hr : 0 < r) (hr' : r ≤ t.rows.length)
    (hz : t.entry r t.rhsCol = 0) (hc : c ∉ t.artificial) (hw : t.ArtificialsWithin bound) :
    (t.pivoted r c tol).ArtificialsWithin bound := by
  intro k b hb hart
  rw [pivoted_rhsCol, h.entry_pivoted_at_zero hr hr' hz]
  rcases pivoted_basis_get hb with ⟨-, rfl⟩ | ⟨-, hb⟩
  · exact (hc hart).elim
  · exact hw k b hb hart

theorem Shaped.nonnegRhs_drivesOut (h : t.Shaped)
    (hrows : t.RowsInside rows)
    (hzero : EverySwap (fun u row _ => u.entry row u.rhsCol = 0) tol rows t) (hn : t.NonnegRhs)
    (hd : DrivesOut tol rows t u) : u.NonnegRhs := by
  apply hd.invariant h hrows _ hzero hn
  intro a row c ha hr hr' _ hz hq
  exact ha.nonnegRhs_at_zero hr hr' hz hq

theorem Shaped.artificialsWithin_drivesOut (h : t.Shaped)
    (hrows : t.RowsInside rows)
    (hzero : EverySwap (fun u row _ => u.entry row u.rhsCol = 0) tol rows t)
    (hw : t.ArtificialsWithin bound) (hd : DrivesOut tol rows t u) :
    u.ArtificialsWithin bound := by
  apply hd.invariant h hrows _ hzero hw
  intro a row c ha hr hr' hc hz hq
  exact ha.artificialsWithin_at_zero hr hr' hz (ha.replacement_inside hr' hc).2.2.1 hq

lemma ArtificialsWithin.entry_eq_zero (hw : t.ArtificialsWithin 0) (hn : t.NonnegRhs) (hr : 0 < r)
    {b : ℕ} (hb : t.basis[r - 1]? = some b) (hart : b ∈ t.artificial) :
    t.entry r t.rhsCol = 0 := by
  have hs : r - 1 + 1 = r := by omega
  have hle := hw (r - 1) b hb hart
  have hge := hn (r - 1)
  rw [hs] at hle hge
  exact le_antisymm hle hge

/-- If every artificial variable is at zero, driving out exchanges at zero only. -/
theorem Shaped.everySwap_at_zero (h : t.Shaped) (hn : t.NonnegRhs) (hw : t.ArtificialsWithin 0)
    (hrows : t.RowsInside rows) :
    EverySwap (fun u row _ => u.entry row u.rhsCol = 0) tol rows t := by
  intro done row rest u b c heq hd hb hart hc
  induction hd generalizing rows with
  | nil t =>
    subst heq
    exact hw.entry_eq_zero hn hrows.head.1 hb hart
  | keep _ _ _ ih =>
    subst heq
    exact ih h hn hw hrows.tail rfl hb hart hc
  | @swap first b' col _ t t' _ hb' hart' hc' hp _ ih =>
    subst heq
    obtain ⟨hr, hr'⟩ := hrows.head
    obtain ⟨rfl, hs⟩ := h.swap_spec hr hr' hc' hp
    have hz := hw.entry_eq_zero hn hr hb' hart'
    have hcol := (h.replacement_inside hr' hc').2.2.1
    exact ih hs (h.nonnegRhs_at_zero hr hr' hz hn)
      (h.artificialsWithin_at_zero hr hr' hz hcol hw) hrows.tail.pivoted rfl hb hart hc

end Driving

section Settling

variable {tol bound : ℚ} {t t' u : Tableau ℚ} {rows : List ℕ} {row r c n : ℕ}

lemma Shaped.settled_iff_idle (h : t.Shaped) (bound : ℚ) (k : ℕ) :
    t.Settled bound (k + 1) ↔ t.Idle bound k := by
  have hentry : ∀ cells, t.rows[k]? = some cells → ∀ j,
      |t.entry (k + 1) j| = size (cells.getD j 0) := by
    intro cells hcells j
    rw [entry_of_getElem? hcells, size_eq_abs]
  constructor
  · intro hs b cells hb hart hcells j hj hj' hja
    rw [← hentry cells hcells]
    exact hs b hb hart j hj hj' hja
  · intro hs b hb hart j hj hj' hja
    have hlt : k < t.rows.length := by
      rw [← h.basis]
      exact (List.getElem?_eq_some_iff.mp hb).1
    have hcells : t.rows[k]? = some t.rows[k] := List.getElem?_eq_getElem hlt
    rw [hentry _ hcells]
    exact hs b _ hb hart hcells j hj hj' hja

lemma Shaped.settled_pivoted (h : t.Shaped) (hr : 0 < r) (hr' : r ≤ t.rows.length) (hc : 0 < c)
    (hc' : c < t.rhsCol) (hart : c ∉ t.artificial) (hrow : 0 < row) (hs : t.Settled tol row) :
    (t.pivoted r c tol).Settled tol row := by
  obtain ⟨k, rfl⟩ : ∃ k, row = k + 1 := ⟨row - 1, by omega⟩
  have hidle := (h.settled_iff_idle tol k).mp hs
  exact ((h.pivoted hr hr' hc hc' tol).settled_iff_idle tol k).mpr
    (hidle.pivoted (fun _ hle => hle) hr.ne' hc hc' hart)

/-- Once artificial variables are driven out, every row is settled. -/
theorem Shaped.settled_driveOut {d : DrivenOut ℚ} (h : t.Shaped) (hd : t.driveOut tol = .ok d)
    (hrow : 0 < row) : d.tableau.Settled tol row := by
  obtain ⟨k, rfl⟩ : ∃ k, row = k + 1 := ⟨row - 1, by omega⟩
  have hshaped := h.drivesOut rowsInside_all (driveOutOf_drivesOut hd)
  apply (hshaped.settled_iff_idle tol k).mpr
  exact h.idle_driveOut (fun _ hle => hle) (h.everyKept_idle rowsInside_all) hd k

/-- A run in which no artificial column may enter leaves rows with an artificial basic variable
as they are. -/
lemma Shaped.settled_exchange (h : t.Shaped) (hx : t.Exchanges tol t.artificial t')
    (hs : ∀ row, 0 < row → t.Settled tol row) (hw : t.ArtificialsWithin bound) :
    (∀ row, 0 < row → t'.Settled tol row) ∧ t'.ArtificialsWithin bound := by
  obtain ⟨r, c, -, -, hr, hr', hc, hc', hart, rfl⟩ := h.exchange_spec hx
  constructor
  · intro row hrow
    exact h.settled_pivoted hr hr' hc hc' hart hrow (hs row hrow)
  · intro k b hb hb'
    rcases pivoted_basis_get hb with ⟨-, rfl⟩ | ⟨hi, hb⟩
    · exact (hart hb').elim
    · have hne : k + 1 ≠ r := by omega
      have hcol := hs (k + 1) (Nat.succ_pos k) b hb hb' c hc hc' hart
      rw [pivoted_rhsCol, h.entry_pivoted hr hr', if_neg hne, if_neg (not_lt.mpr hcol)]
      exact hw k b hb hb'

theorem Shaped.settled_pivots (h : t.Shaped) (hp : Pivots tol t.artificial n t u)
    (hs : ∀ row, 0 < row → t.Settled tol row) (hw : t.ArtificialsWithin bound) :
    (∀ row, 0 < row → u.Settled tol row) ∧ u.ArtificialsWithin bound := by
  have hall : u.Shaped ∧ u.artificial = t.artificial ∧ (∀ row, 0 < row → u.Settled tol row) ∧
      u.ArtificialsWithin bound := by
    refine hp.invariant (P := fun a => a.Shaped ∧ a.artificial = t.artificial ∧
      (∀ row, 0 < row → a.Settled tol row) ∧ a.ArtificialsWithin bound) ?_ ⟨h, rfl, hs, hw⟩
    rintro a b ⟨ha, hart, hsa, hwa⟩ hx
    have hart' : b.artificial = a.artificial := by
      obtain ⟨r, c, -, -, -, -, -, -, -, rfl⟩ := ha.exchange_spec hx
      rfl
    rw [← hart] at hx
    obtain ⟨hsb, hwb⟩ := ha.settled_exchange hx hsa hwa
    exact ⟨ha.exchanges hx, hart'.trans hart, hsb, hwb⟩
  exact hall.2.2

end Settling

section Checking

variable {tol : ℚ} {t : Tableau ℚ} {rows : List ℕ}

/-- Whether driving artificial variables out of the listed rows pivots on clean columns only. -/
def swapsClean (tol : ℚ) : List ℕ → Tableau ℚ → Bool
  | [], _ => true
  | row :: rows, t =>
    match t.basis[row - 1]?, t.replacement tol row with
    | some b, some c =>
      if b ∈ t.artificial then t.CleanColumn tol c && swapsClean tol rows (t.pivoted row c tol)
      else swapsClean tol rows t
    | _, _ => swapsClean tol rows t

theorem Shaped.everySwap_clean (h : t.Shaped)
    (hrows : t.RowsInside rows) (hc : swapsClean tol rows t = true) :
    EverySwap (fun u _ c => u.CleanColumn tol c) tol rows t := by
  intro done row rest u b c heq hd hb hart hcol
  induction hd generalizing rows with
  | nil t =>
    subst heq
    rw [List.nil_append, swapsClean] at hc
    simp only [hb, hcol, hart, if_true, Bool.and_eq_true, decide_eq_true_eq] at hc
    exact hc.1
  | @keep first b' done t u hb' hkeep _ ih =>
    subst heq
    rw [List.cons_append, swapsClean, hb'] at hc
    apply ih h hrows.tail _ rfl hb hart hcol
    by_cases hart' : b' ∈ t.artificial
    · rw [hkeep hart'] at hc
      exact hc
    · cases hrep : t.replacement tol first with
      | none =>
        rw [hrep] at hc
        exact hc
      | some d =>
        rw [hrep] at hc
        simp only [hart', if_false] at hc
        exact hc
  | @swap first b' col done t t' u hb' hart' hc' hp _ ih =>
    subst heq
    obtain ⟨hr, hr'⟩ := hrows.head
    obtain ⟨rfl, hs⟩ := h.swap_spec hr hr' hc' hp
    rw [List.cons_append, swapsClean] at hc
    simp only [hb', hc', hart', if_true, Bool.and_eq_true, decide_eq_true_eq] at hc
    exact ih hs hrows.tail.pivoted hc.2 rfl hb hart hcol

end Checking

section Restoring

variable {tol : ℚ} {t t' : Tableau ℚ} {basis : List (ℕ × ℕ)} {o o' : List ℚ}

instance decidableCleanBasics (tol : ℚ) (rows : List (List ℚ)) :
    ∀ (basis : List (ℕ × ℕ)) (o : List ℚ), Decidable (CleanBasics tol rows basis o)
  | [], _ => isTrue trivial
  | (_, _) :: basis, _ =>
    have := decidableCleanBasics tol rows basis
    inferInstanceAs (Decidable (_ ∧ _))

instance (tol : ℚ) (t : Tableau ℚ) : Decidable (CleanRestore tol t) :=
  inferInstanceAs (Decidable (CleanBasics _ _ _ _))

lemma Canonical.getD_cleared (hcan : t.Canonical) (h : t.Shaped) {col r b k : ℕ}
    (hcol : t.basis[r]? = some col) (hb : t.basis[k]? = some b) (ho : o.length = t.columns.length) :
    (subtractMultiple o (o.getD col 0) (t.rows.getD r [])).getD b 0 =
      if r = k then 0 else o.getD b 0 := by
  have hlt : r < t.rows.length := by
    rw [← h.basis]
    exact (List.getElem?_eq_some_iff.mp hcol).1
  have hlen : o.length = (t.rows.getD r []).length := by
    rw [List.getD_eq_getElem _ _ hlt, h.rows _ (List.getElem_mem hlt), ho]
  rw [getD_subtractMultiple hlen, ← entry_succ, hcan.rows k b hb]
  by_cases hk : r = k
  · subst hk
    rw [hb] at hcol
    cases hcol
    rw [if_pos rfl, if_pos rfl, mul_one, sub_self]
  · rw [if_neg hk, if_neg hk, mul_zero, sub_zero]

/-- On a canonical tableau restoration clears every basic column that it tests, and leaves the
zeros in others. -/
theorem Canonical.clearBasics_zero (hcan : t.Canonical) (h : t.Shaped)
    (hbasis : ∀ q ∈ basis, t.basis[q.2]? = some q.1) (ho : o.length = t.columns.length)
    (hclean : CleanBasics tol t.rows basis o)
    (hc : clearBasics tol t.rows basis o = .ok o') {b k : ℕ} (hb : t.basis[k]? = some b)
    (hz : o.getD b 0 = 0 ∨ (b, k) ∈ basis) : o'.getD b 0 = 0 := by
  induction basis generalizing o with
  | nil =>
    cases hc
    rcases hz with hz | hmem
    · exact hz
    · cases hmem
  | cons q basis ih =>
    obtain ⟨col, r⟩ := q
    have hcol : t.basis[r]? = some col := hbasis _ (List.mem_cons_self ..)
    rw [clearBasics_cons h ho hcol] at hc
    refine ih (fun q hq => hbasis q (List.mem_cons_of_mem _ hq)) (length_cleared h ho hcol)
      hclean.2 hc ?_
    rcases hz with hz | hmem
    · left
      split_ifs
      · rw [hcan.getD_cleared h hcol hb ho, hz, ite_self]
      · exact hz
    · rcases List.mem_cons.mp hmem with he | hmem
      · left
        cases he
        split_ifs with hlt'
        · rw [hcan.getD_cleared h hcol hb ho, if_pos rfl]
        · exact hclean.1.resolve_right hlt'
      · exact Or.inr hmem

/-- Restoration on clean entries keeps a tableau canonical. -/
theorem Shaped.canonical_restore (h : t.Shaped) (hcan : t.Canonical) (hclean : t.CleanRestore tol)
    (hr : t.restore tol = .ok t') : t'.Canonical := by
  obtain ⟨saved, o, hs, hc, rfl, -, -⟩ := h.restore_spec hr
  have hclean' : CleanBasics tol t.rows t.basis.zipIdx saved := by
    unfold CleanRestore at hclean
    rw [hs] at hclean
    exact hclean
  refine ⟨hcan.rows, fun i b hb => ?_⟩
  apply hcan.clearBasics_zero h _ (h.saved saved hs) hclean' hc hb
  · exact Or.inr (List.mk_mem_zipIdx_iff_getElem?.mpr hb)
  · intro q hq
    exact List.mk_mem_zipIdx_iff_getElem?.mp hq

end Restoring

end Tableau

end SimplexTableau
