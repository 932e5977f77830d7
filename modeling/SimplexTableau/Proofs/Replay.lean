import SimplexTableau.Proofs.Steps

/-!
# Replaying a run

The recorded steps of a run are a faithful log of it, in every arithmetic. A step shows the tableau
before its exchange and names what enters and what leaves, and the step after it shows what the
exchange makes of any tableau that the step depicts. So the recorded cells lead from the first step
to every later one and to the tableau left behind.
-/

namespace SimplexTableau

section Replay

variable {α : Type} [Scalar α]

namespace Tableau

/-- Tableaux look alike if they hold the same rows under the same names and have basic columns of
the same names. A column that is out of range has no name. -/
structure LooksLike (t u : Tableau α) : Prop where
  headers : t.headers = u.headers
  matrix : t.matrix = u.matrix
  basis : t.basis.map (t.headers[·]?) = u.basis.map (u.headers[·]?)

/-- Pivots on one cell after the other. -/
def replay (tol : α) : List (ℕ × ℕ) → Tableau α → Except Fault (Tableau α)
  | [], t => .ok t
  | cell :: cells, t => do replay tol cells (← t.pivot cell.1 cell.2 tol)

variable {t t' u : Tableau α} {tol : α} {row col : ℕ} {names : List String}

omit [Scalar α] in
lemma nameAt_eq (t : Tableau α) (col : ℕ) : t.nameAt col = (t.headers[col]?).getD "" := by
  rw [nameAt, headers, List.getElem?_map]

omit [Scalar α] in
lemma basicNames_eq_ok_iff :
    t.basicNames = .ok names ↔ t.basis.map (t.headers[·]?) = names.map some := by
  rw [basicNames, mapM_eq_ok_iff, ← List.forall₂_eq_eq_eq, List.forall₂_map_left_iff,
    List.forall₂_map_right_iff]
  have hname : ∀ col, (t.headers[col]?) = t.columns[col]?.map Column.name := fun col => by
    rw [headers, List.getElem?_map]
  constructor <;>
  · intro h
    refine h.imp fun col name he => ?_
    revert he
    rw [hname]
    cases t.columns[col]? <;> simp

lemma reduce_eq_ok_iff :
    t.reduce row col tol = .ok t' ↔
      ∃ v, t.cell? row col = some v ∧ ¬ size v ≤ tol ∧ t' = t.reduced row col v tol := by
  unfold reduce
  cases t.cell? row col with
  | none => simp
  | some v =>
    dsimp only
    split_ifs with hv <;> simp [hv, eq_comm]

lemma pivot_eq_ok (hrow : 0 < row) :
    t.pivot row col tol = .ok t' ↔ ∃ v, t.cell? row col = some v ∧ ¬ size v ≤ tol ∧
      row - 1 < t.basis.length ∧
      t' = { t.reduced row col v tol with basis := t.basis.set (row - 1) col } := by
  rw [pivot, bind_eq_ok]
  constructor
  · rintro ⟨w, hred, h⟩
    obtain ⟨v, hv, hsize, rfl⟩ := reduce_eq_ok_iff.mp hred
    obtain ⟨hlt, rfl⟩ := (setBasic_eq_ok_iff hrow).mp h
    exact ⟨v, hv, hsize, hlt, rfl⟩
  · rintro ⟨v, hv, hsize, hlt, rfl⟩
    exact ⟨_, reduce_eq_ok_iff.mpr ⟨v, hv, hsize, rfl⟩,
      (setBasic_eq_ok_iff hrow).mpr ⟨hlt, rfl⟩⟩

lemma matrix_reduced (t : Tableau α) (row col : ℕ) (v tol : α) :
    (t.reduced row col v tol).matrix = t.matrix.zipIdx.map fun r =>
      let pivotRow := (t.matrix.getD row []).map (· / v)
      if r.2 = row then pivotRow else clearColumn tol col pivotRow r.1 := by
  simp [matrix, reduced, List.zipIdx_cons]

namespace LooksLike

omit [Scalar α] in
lemma basicNames (h : t.LooksLike u) (hn : t.basicNames = .ok names) :
    u.basicNames = .ok names := by
  rw [basicNames_eq_ok_iff] at hn ⊢
  rw [← h.basis, hn]

omit [Scalar α] in
lemma length_basis (h : t.LooksLike u) : t.basis.length = u.basis.length := by
  have hlen := congrArg List.length h.basis
  rwa [List.length_map, List.length_map] at hlen

omit [Scalar α] in
lemma length_rows (h : t.LooksLike u) : t.rows.length = u.rows.length :=
  congrArg List.length (List.cons.inj h.matrix).2

/-- What looks alike looks alike after a pivot on the same cell. -/
theorem pivot (h : t.LooksLike u) (hrow : 0 < row) (hp : t.pivot row col tol = .ok t') :
    ∃ u', u.pivot row col tol = .ok u' ∧ t'.LooksLike u' := by
  obtain ⟨v, hv, hsize, hlt, rfl⟩ := (pivot_eq_ok hrow).mp hp
  have hcell : u.cell? row col = some v := by
    rw [← hv, cell?, cell?, h.matrix]
  rw [h.length_basis] at hlt
  refine ⟨_, (pivot_eq_ok hrow).mpr ⟨v, hcell, hsize, hlt, rfl⟩, h.headers, ?_, ?_⟩
  · have hmatrix : (t.reduced row col v tol).matrix = (u.reduced row col v tol).matrix := by
      rw [matrix_reduced, matrix_reduced, h.matrix]
    exact hmatrix
  · have hset : (t.basis.set (row - 1) col).map (t.headers[·]?) =
        (u.basis.set (row - 1) col).map (u.headers[·]?) := by
      rw [List.map_set, List.map_set, h.basis, h.headers]
    exact hset

end LooksLike

end Tableau

namespace TraceStep

variable {step next : TraceStep α} {t t' u : Tableau α} {tol : α} {row col : ℕ}

lemma Depicts.looksLike (ht : step.Depicts t) (hu : step.Depicts u) : t.LooksLike u where
  headers := ht.headers.symm.trans hu.headers
  matrix := (Tableau.snapshot_rows ht.rows).1.symm.trans (Tableau.snapshot_rows hu.rows).1
  basis := (Tableau.basicNames_eq_ok_iff.mp ht.basicVars).trans
    (Tableau.basicNames_eq_ok_iff.mp hu.basicVars).symm

lemma Depicts.of_looksLike (ht : step.Depicts t) (h : t.LooksLike u) : step.Depicts u where
  headers := ht.headers.trans h.headers
  basicVars := h.basicNames ht.basicVars
  rows := by
    obtain ⟨names, hn, hlen, hrows⟩ := Tableau.snapshot_eq_ok_iff.mp ht.rows
    rw [h.length_rows] at hlen
    rw [h.matrix] at hrows
    exact Tableau.snapshot_eq_ok_iff.mpr ⟨names, h.basicNames hn, hlen, hrows⟩

/-- The cell of the exchange that a step records. -/
def cell? (s : TraceStep α) : Option (ℕ × ℕ) :=
  match s.pivotRow, s.pivotCol with
  | some row, some col => some (row.toNat, col.toNat)
  | _, _ => none

/-- A step records an exchange on a cell and names the variables of its column and its row, and
the next step depicts what a pivot on that cell makes of every tableau depicted by the step. -/
structure LeadsTo (tol : α) (row col : ℕ) (step next : TraceStep α) : Prop where
  row_pos : 0 < row
  pivotRow : step.pivotRow = some (row : ℤ)
  pivotCol : step.pivotCol = some (col : ℤ)
  entering : ∃ name, step.enteringVar = some name ∧ step.headers[col]? = some name
  leaving : ∃ name, step.leavingVar = some name ∧ step.basicVars[row - 1]? = some name
  pivot : ∀ u, step.Depicts u → ∃ u', u.pivot row col tol = .ok u' ∧ next.Depicts u'

omit [Scalar α] in
lemma cell?_of_none (h : step.pivotRow = none) : step.cell? = none := by
  rw [cell?, h]

lemma LeadsTo.cell?_eq (h : step.LeadsTo tol row col next) : step.cell? = some (row, col) := by
  rw [cell?, h.pivotRow, h.pivotCol]
  rfl

/-- A log of steps is faithful to the tableau on which it starts and the one with which it ends.
All its steps but the last one record exchanges, and the cells of these exchanges lead from any
tableau that the first step depicts to what each later step depicts. -/
structure FaithfulLog (tol : α) (log : List (TraceStep α)) (t final : Tableau α) : Prop where
  first : ∃ step, log.head? = some step ∧ step.Depicts t
  last : ∃ step, log.getLast? = some step ∧ step.Depicts final
  kind : ∀ i step, log[i]? = some step → (step.kind = .iteration ↔ i + 1 < log.length)
  leadsTo : ∀ i step next, log[i]? = some step → log[i + 1]? = some next →
    ∃ row col, step.LeadsTo tol row col next
  reproduced : ∀ u first, log.head? = some first → first.Depicts u →
    ∀ i step, log[i]? = some step →
      ∃ u', u.replay tol ((log.take i).filterMap cell?) = .ok u' ∧ step.Depicts u'
  replay : t.replay tol (log.filterMap cell?) = .ok final

namespace FaithfulLog

variable {log : List (TraceStep α)} {final : Tableau α}

lemma single (hstep : step.Depicts t) (hkind : step.kind ≠ .iteration)
    (hcell : step.cell? = none) : FaithfulLog tol [step] t t where
  first := ⟨step, rfl, hstep⟩
  last := ⟨step, rfl, hstep⟩
  kind := by
    intro i other hi
    cases i with
    | zero =>
      cases hi
      simp [hkind]
    | succ i => cases hi
  leadsTo := by
    intro i other next _ hnext
    cases hnext
  reproduced := by
    intro u first hfirst hu i other hi
    cases hfirst
    cases i with
    | zero =>
      cases hi
      exact ⟨u, rfl, hu⟩
    | succ i => cases hi
  replay := by
    rw [List.filterMap_cons_none hcell]
    rfl

lemma cons (h : FaithfulLog tol log t' final) (hstep : step.Depicts t)
    (hkind : step.kind = .iteration) (hp : t.pivot row col tol = .ok t')
    (hlead : ∀ next, next.Depicts t' → step.LeadsTo tol row col next) :
    FaithfulLog tol (step :: log) t final := by
  obtain ⟨next, hnext, hdepicts⟩ := h.first
  have hcell := (hlead next hdepicts).cell?_eq
  have hpos : 0 < log.length := by
    cases log with
    | nil => cases hnext
    | cons => exact Nat.succ_pos _
  refine ⟨⟨step, rfl, hstep⟩, ?_, ?_, ?_, ?_, ?_⟩
  · obtain ⟨last, hlast, hshown⟩ := h.last
    refine ⟨last, ?_, hshown⟩
    rw [List.getLast?_cons, hlast]
    rfl
  · intro i other hi
    cases i with
    | zero =>
      cases hi
      simp [hkind, hpos]
    | succ i =>
      rw [h.kind i other hi, List.length_cons, Nat.add_lt_add_iff_right]
  · intro i other after hi hafter
    cases i with
    | zero =>
      cases hi
      rw [List.getElem?_cons_succ, ← List.head?_eq_getElem?, hnext] at hafter
      cases hafter
      exact ⟨row, col, hlead next hdepicts⟩
    | succ i => exact h.leadsTo i other after hi hafter
  · intro u first hfirst hu i other hi
    cases hfirst
    cases i with
    | zero =>
      cases hi
      exact ⟨u, rfl, hu⟩
    | succ i =>
      obtain ⟨w, hw, hnextw⟩ := (hlead next hdepicts).pivot u hu
      obtain ⟨u', hu', hshown⟩ := h.reproduced w next hnext hnextw i other hi
      refine ⟨u', ?_, hshown⟩
      rw [List.take_succ_cons, List.filterMap_cons_some hcell, Tableau.replay, hw]
      exact hu'
  · rw [List.filterMap_cons_some hcell, Tableau.replay, hp]
    exact h.replay

end FaithfulLog

end TraceStep

namespace Tableau

variable {t t' : Tableau α} {s : RunSetting α} {done row col : ℕ} {step next : TraceStep α}

lemma record_exchange (h : t.record s done (.exchange row col) = .ok step) :
    step.pivotRow = some (row : ℤ) ∧ step.pivotCol = some (col : ℤ) ∧
      step.enteringVar = some (t.nameAt col) ∧
      step.leavingVar = some (step.basicVars.getD (row - 1) "") := by
  obtain ⟨rows, names, -, -, rfl⟩ := record_eq_ok h
  exact ⟨rfl, rfl, rfl, rfl⟩

lemma record_pivotRow {m : Move} (h : t.record s done m = .ok step)
    (hm : ∀ row col, m ≠ .exchange row col) : step.pivotRow = none := by
  obtain ⟨rows, names, -, -, rfl⟩ := record_eq_ok h
  cases m with
  | exchange row col => exact absurd rfl (hm row col)
  | optimal | unbounded | limit => rfl

/-- The step of an exchange leads to every step that depicts the tableau after it. -/
theorem record_leadsTo (hl : t.leaving s.tol col = some row) (hp : t.pivot row col s.tol = .ok t')
    (hrec : t.record s done (.exchange row col) = .ok step) (hnext : next.Depicts t') :
    step.LeadsTo s.tol row col next := by
  have hstep := (record_depicts hrec).1
  obtain ⟨hrow, hcol, hentering, hleaving⟩ := record_exchange hrec
  obtain ⟨hpos, hle, -⟩ := leaving_inside hl
  obtain ⟨v, -, -, hlt, hpivoted⟩ := (pivot_eq_ok hpos).mp hp
  obtain ⟨names, hnames, hlen, -⟩ := snapshot_eq_ok_iff.mp hstep.rows
  rw [hstep.basicVars] at hnames
  cases hnames
  refine ⟨hpos, hrow, hcol, ⟨_, hentering, ?_⟩, ⟨_, hleaving, ?_⟩, ?_⟩
  · have hbasic := basicNames_eq_ok_iff.mp hnext.basicVars
    have hget : (t'.basis.map (t'.headers[·]?))[row - 1]? = some (t.headers[col]?) := by
      rw [hpivoted]
      simp only [List.getElem?_map, List.getElem?_set_self hlt]
      rfl
    rw [hbasic, List.getElem?_map] at hget
    obtain ⟨name, -, hname⟩ := Option.map_eq_some_iff.mp hget
    rw [hstep.headers, nameAt_eq, ← hname]
    rfl
  · have hin : row - 1 < step.basicVars.length := by omega
    rw [List.getElem?_eq_getElem hin, List.getD_eq_getElem _ _ hin]
  · intro u hu
    obtain ⟨u', hu', hlike⟩ := (hstep.looksLike hu).pivot hpos hp
    exact ⟨u', hu', hnext.of_looksLike hlike⟩

theorem run_faithfulLog {cap : ℕ} {r : PivotRun α} (h : t.run s cap done = .ok r) :
    TraceStep.FaithfulLog s.tol r.steps t r.final := by
  induction cap using Nat.strong_induction_on generalizing t done r with
  | _ cap ih =>
    rcases run_cases h with ⟨first, hrec, hr, hend⟩ |
        ⟨rest, cap, first, t', rfl, hx, hrec, hrest, rfl⟩
    · have hne : ∀ row col, r.ending ≠ .exchange row col := by
        rcases hend with ⟨-, hl⟩ | ⟨-, -, hne⟩
        · rw [hl]
          simp
        · exact hne
      have hkind : first.kind ≠ .iteration := record_kind hrec ▸ kind_ne_iteration hne
      rw [hr]
      exact TraceStep.FaithfulLog.single (record_depicts hrec).1 hkind
        (TraceStep.cell?_of_none (record_pivotRow hrec hne))
    · obtain ⟨row, col, hm, hp⟩ := hx
      rw [hm] at hrec
      exact (ih cap (Nat.lt_succ_self cap) hrest).cons (record_depicts hrec).1 (record_kind hrec) hp
        fun next hnext => record_leadsTo (move_eq_exchange_iff.mp hm).2 hp hrec hnext

end Tableau

end Replay

end SimplexTableau
