import SimplexTableau.Proofs.Pivots

/-!
# Recorded steps

Step number `i` of a run depicts the tableau after `i` exchanges: it holds all of its rows, with
their labels, and its columns by their names. Names tell columns apart, so whatever is read off a
step is read off the tableau that it shows. All steps but the last one are iterations.
-/

namespace SimplexTableau

lemma toDigits_injective : Function.Injective (Nat.toDigits 10) :=
  Function.LeftInverse.injective (g := fun l => Nat.ofDigitChars 10 l 0)
    fun _ => Nat.ofDigitChars_ten_toDigits

theorem Column.name_injective : Function.Injective Column.name := by
  intro c d h
  have hlist := congrArg String.toList h
  cases c <;> cases d <;>
    simp [Column.name, toString, String.toList_append, Nat.toList_repr] at hlist ⊢ <;>
    exact Nat.succ_injective (toDigits_injective hlist)

namespace TraceStep

/-- A step depicts a tableau if its rows are the snapshot of the tableau in the phase of the
step. -/
structure Depicts {α : Type} [Scalar α] (s : TraceStep α) (t : Tableau α) : Prop where
  headers : s.headers = t.headers
  basicVars : t.basicNames = .ok s.basicVars
  rows : t.snapshot s.phase = .ok s.rows

/-- A step shows a tableau if it holds its rows, the names of its columns, and the names of its
basic columns. -/
structure Shows {α : Type} [Scalar α] (s : TraceStep α) (t : Tableau α) : Prop where
  headers : s.headers = t.headers
  basicVars : t.basicNames = .ok s.basicVars
  coefficients : s.rows.map (·.coefficients) = t.matrix
  rhs : s.rows.map (·.rhs) = t.matrix.map rhsOf

/-- The number in a cell of a recorded tableau, the objective row being row 0. -/
def cellAt (s : TraceStep ℚ) (i j : ℕ) : ℚ :=
  ((s.rows.map (·.coefficients)).getD i []).getD j 0

/-- The right-hand side of a row of a recorded tableau. -/
def rhsAt (s : TraceStep ℚ) (i : ℕ) : ℚ :=
  (s.rows.map (·.rhs)).getD i 0

/-- The value of a variable at the basic solution of a recorded tableau: the right-hand side of
its row if it is basic, and zero if it is not. -/
def valueOf (s : TraceStep ℚ) (name : String) : ℚ :=
  if name ∈ s.basicVars then s.rhsAt (s.basicVars.idxOf name + 1) else 0

namespace Shows

variable {s : TraceStep ℚ} {t : Tableau ℚ}

lemma cellAt_eq (h : s.Shows t) (i j : ℕ) : s.cellAt i j = t.entry i j := by
  rw [cellAt, h.coefficients, Tableau.entry]

lemma rhsAt_eq (h : s.Shows t) (ht : t.Rectangular) (i : ℕ) : s.rhsAt i = t.entry i t.rhsCol := by
  rw [rhsAt, h.rhs]
  by_cases hi : i < t.matrix.length
  · have hlen := ht.length_of_mem_matrix (List.getElem_mem hi)
    rw [List.getD_eq_getElem _ _ (by simpa using hi), List.getElem_map, rhsOf_eq_getD, hlen,
      Tableau.entry, List.getD_eq_getElem _ _ hi, Tableau.rhsCol]
  · rw [List.getD_eq_default _ _ (by simpa using hi), Tableau.entry_of_lt (not_lt.mp hi)]

end Shows

end TraceStep

namespace Tableau

section Runs

variable {α : Type} [Scalar α] {t : Tableau α} {s : RunSetting α} {cap done : ℕ}

lemma map_zipWith {β : Type} {labels : List String} {rows : List (List α)}
    (h : rows.length ≤ labels.length) {f : TableauRow α → β} {g : List α → β}
    (hf : ∀ label row, f ⟨label, row, rhsOf row⟩ = g row) :
    (List.zipWith (fun label row => (⟨label, row, rhsOf row⟩ : TableauRow α)) labels rows).map f =
      rows.map g := by
  induction rows generalizing labels with
  | nil => simp
  | cons row rows ih =>
    cases labels with
    | nil => simp at h
    | cons label labels =>
      simp only [List.zipWith_cons_cons, List.map_cons, hf, ih (Nat.le_of_succ_le_succ h)]

lemma snapshot_eq_ok_iff {phase : Int} {rows : List (TableauRow α)} :
    t.snapshot phase = .ok rows ↔ ∃ names, t.basicNames = .ok names ∧
      t.rows.length ≤ names.length ∧ rows = List.zipWith (fun name row => ⟨name, row, rhsOf row⟩)
        ((if phase = 1 then "W" else "Z") :: names) t.matrix := by
  rw [snapshot, bind_eq_ok]
  refine exists_congr fun names => and_congr_right fun _ => ?_
  by_cases hlen : names.length < t.rows.length
  · rw [if_pos hlen]
    exact iff_of_false (fun h => by cases h) fun h => absurd hlen h.1.not_gt
  · rw [if_neg hlen]
    constructor
    · intro h
      cases h
      exact ⟨not_lt.mp hlen, rfl⟩
    · rintro ⟨-, rfl⟩
      rfl

lemma snapshot_rows {phase : Int} {rows : List (TableauRow α)} (h : t.snapshot phase = .ok rows) :
    rows.map (·.coefficients) = t.matrix ∧ rows.map (·.rhs) = t.matrix.map rhsOf := by
  obtain ⟨names, -, hlen, rfl⟩ := snapshot_eq_ok_iff.mp h
  have hle : ∀ label : String, t.matrix.length ≤ (label :: names).length := fun _ =>
    Nat.succ_le_succ hlen
  refine ⟨?_, map_zipWith (hle _) fun _ _ => rfl⟩
  rw [map_zipWith (hle _) (g := id) fun _ _ => rfl, List.map_id]

lemma record_depicts {m : Move} {step : TraceStep α} (h : t.record s done m = .ok step) :
    step.Depicts t ∧ step.phase = s.phase ∧ step.index = s.start + done := by
  obtain ⟨rows, names, hrows, hnames, rfl⟩ := record_eq_ok h
  exact ⟨⟨rfl, hnames, hrows⟩, rfl, rfl⟩

lemma depicts_shows {step : TraceStep α} (h : step.Depicts t) : step.Shows t :=
  ⟨h.headers, h.basicVars, (snapshot_rows h.rows).1, (snapshot_rows h.rows).2⟩

/-- Step number `i` of a run records the tableau after `i` exchanges with what the rule does there,
unless the cap is reached. -/
theorem run_records {r : PivotRun α} (h : t.run s cap done = .ok r) {i : ℕ} {step : TraceStep α}
    (hi : r.steps[i]? = some step) :
    ∃ u m, Pivots s.tol s.blocked i t u ∧ u.record s (done + i) m = .ok step ∧
      ((i < cap ∧ m = u.move s.tol s.blocked) ∨ (i = cap ∧ m = .limit)) := by
  induction cap using Nat.strong_induction_on generalizing t done r i with
  | _ cap ih =>
    rcases run_cases h with ⟨first, hrec, hr, hend⟩ |
        ⟨rest, cap, first, t', rfl, hx, hrec, hrest, rfl⟩
    · rw [hr] at hi
      cases i with
      | zero =>
        cases hi
        refine ⟨t, r.ending, Pivots.refl t, hrec, ?_⟩
        rcases hend with ⟨hz, hl⟩ | ⟨hpos, hmove, -⟩
        · exact Or.inr ⟨hz.symm, hl⟩
        · exact Or.inl ⟨hpos, hmove⟩
      | succ i => cases hi
    · cases i with
      | zero =>
        cases hi
        exact ⟨t, _, Pivots.refl t, hrec, Or.inl ⟨Nat.succ_pos cap, rfl⟩⟩
      | succ i =>
        obtain ⟨u, m, hp, hstep, hm⟩ := ih cap (Nat.lt_succ_self cap) hrest hi
        rw [Nat.add_right_comm, Nat.add_assoc] at hstep
        exact ⟨u, m, Pivots.step hx hp, hstep, hm.imp (And.imp_left Nat.succ_lt_succ)
          (And.imp_left (congrArg Nat.succ))⟩

/-- Every tableau that exchanges within the cap lead to is recorded by a step of the run. -/
theorem run_covers {r : PivotRun α} (h : t.run s cap done = .ok r) {i : ℕ} {u : Tableau α}
    (hle : i ≤ cap) (hp : Pivots s.tol s.blocked i t u) :
    ∃ step m, r.steps[i]? = some step ∧ u.record s (done + i) m = .ok step := by
  induction hp generalizing cap done r with
  | refl t =>
    rcases run_cases h with ⟨first, hrec, hr, -⟩ | ⟨rest, cap, first, t', rfl, -, hrec, -, rfl⟩
    · exact ⟨first, _, by rw [hr]; rfl, hrec⟩
    · exact ⟨first, _, rfl, hrec⟩
  | step hx _ ih =>
    rcases run_cases h with ⟨-, -, -, hend⟩ | ⟨rest, cap, first, t', rfl, hx', -, hrest, rfl⟩
    · obtain ⟨row, col, hmove, -⟩ := hx
      rcases hend with ⟨hz, -⟩ | ⟨-, he, hne⟩
      · omega
      · exact absurd (he.trans hmove) (hne row col)
    · obtain rfl := hx.unique hx'
      obtain ⟨step, m, hi, hrec⟩ := ih hrest (Nat.le_of_succ_le_succ hle)
      rw [Nat.add_right_comm, Nat.add_assoc] at hrec
      exact ⟨step, m, hi, hrec⟩

/-- Step number `i` of a run depicts the tableau after `i` exchanges. -/
theorem run_depicts {r : PivotRun α} (h : t.run s cap done = .ok r) {i : ℕ} {step : TraceStep α}
    (hi : r.steps[i]? = some step) :
    ∃ u, i ≤ cap ∧ Pivots s.tol s.blocked i t u ∧ step.Depicts u ∧ step.phase = s.phase ∧
      step.index = s.start + (done + i : ℕ) := by
  obtain ⟨u, m, hp, hrec, hm⟩ := run_records h hi
  have hle : i ≤ cap := by omega
  exact ⟨u, hle, hp, record_depicts hrec⟩

theorem run_shows {r : PivotRun α} (h : t.run s cap done = .ok r) {i : ℕ} {step : TraceStep α}
    (hi : r.steps[i]? = some step) :
    ∃ u, i ≤ cap ∧ Pivots s.tol s.blocked i t u ∧ step.Shows u ∧ step.phase = s.phase := by
  obtain ⟨u, hle, hp, hdepicts, hphase, -⟩ := run_depicts h hi
  exact ⟨u, hle, hp, depicts_shows hdepicts, hphase⟩

lemma run_phase {r : PivotRun α} (h : t.run s cap done = .ok r) {step : TraceStep α}
    (hmem : step ∈ r.steps) : step.phase = s.phase := by
  obtain ⟨i, hi⟩ := List.mem_iff_getElem?.mp hmem
  obtain ⟨u, -, -, -, hphase, -⟩ := run_depicts h hi
  exact hphase

/-- The steps of a run are iterations except for the last one, which depicts the tableau left
behind and says how the run ended. -/
theorem run_steps {r : PivotRun α} (h : t.run s cap done = .ok r) :
    ∃ earlier last, r.steps = earlier ++ [last] ∧ (∀ step ∈ earlier, step.kind = .iteration) ∧
      last.Depicts r.final ∧ last.kind = r.ending.kind ∧
      r.iterations = done + earlier.length := by
  induction cap using Nat.strong_induction_on generalizing t done r with
  | _ cap ih =>
    rcases run_cases h with ⟨first, hrec, hr, -⟩ | ⟨rest, cap, first, t', rfl, hx, hrec, hrest, rfl⟩
    · refine ⟨[], first, by rw [hr]; rfl, by simp, ?_, record_kind hrec, by rw [hr]; rfl⟩
      rw [hr]
      exact (record_depicts hrec).1
    · obtain ⟨earlier, last, hsteps, hkinds, hdepicts, hlast, hcount⟩ :=
        ih cap (Nat.lt_succ_self cap) hrest
      obtain ⟨row, col, hm, -⟩ := hx
      have hfirst : first.kind = .iteration := by
        rw [record_kind hrec, hm]
        rfl
      refine ⟨first :: earlier, last, by rw [hsteps, List.cons_append],
        List.forall_mem_cons.mpr ⟨hfirst, hkinds⟩, hdepicts, hlast, ?_⟩
      rw [hcount, List.length_cons, Nat.add_right_comm, Nat.add_assoc]

end Runs

end Tableau

end SimplexTableau
