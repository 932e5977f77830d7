import SimplexTableau.Proofs.BasicSolution
import SimplexTableau.Proofs.Replay

/-!
# Bases without duplicates

The basis of a tableau is a list, and nothing in an exchange keeps a column from becoming basic in a
second row. The basis stays a set throughout a solution exactly if no exchange makes a variable
basic that is basic in another row already, and then every basic value is reported. Whether this
happens depends on the numbers: where entries within the tolerance are not eliminated, a basic
column can come to look improving, and it enters again.
-/

namespace SimplexTableau

section Lists

variable {β : Type} {l e : List β} {i : ℕ} {a : β}

lemma nodup_set_iff (hl : l.Nodup) (hi : i < l.length) :
    (l.set i a).Nodup ↔ (a ∈ l → l[i] = a) := by
  have hperm := List.getElem_cons_eraseIdx_perm hi
  obtain ⟨hnot, herase⟩ := List.nodup_cons.mp (hperm.nodup_iff.mpr hl)
  rw [(List.set_perm_cons_eraseIdx hi a).nodup_iff, List.nodup_cons, ← hperm.mem_iff,
    List.mem_cons]
  constructor
  · rintro ⟨ha, -⟩ (rfl | hmem)
    · rfl
    · exact absurd hmem ha
  · intro h
    exact ⟨fun hmem => hnot (h (Or.inr hmem) ▸ hmem), herase⟩

/-- An entry that is found nowhere else can make room for a new one. -/
lemma nodup_append_cons_iff (hi : i < l.length) (h : l[i] ∉ l.eraseIdx i ++ a :: e) :
    (l ++ a :: e).Nodup ↔ (l.set i a ++ e).Nodup := by
  have hold : (l ++ a :: e).Perm (l[i] :: (l.eraseIdx i ++ a :: e)) :=
    ((List.getElem_cons_eraseIdx_perm hi).append_right (a :: e)).symm
  have hnew : (l.set i a ++ e).Perm (l.eraseIdx i ++ a :: e) :=
    ((List.set_perm_cons_eraseIdx hi a).append_right e).trans List.perm_middle.symm
  rw [hold.nodup_iff, hnew.nodup_iff, List.nodup_cons, and_iff_right h]

end Lists

section Bases

variable {α : Type} [Scalar α]

namespace TraceStep

/-- An exchange that makes a variable basic that is basic in another row already. -/
def Reenters (s : TraceStep α) : Prop :=
  s.kind = .iteration ∧ s.enteringVar ≠ s.leavingVar ∧
    ∃ name ∈ s.basicVars, s.enteringVar = some name

instance (s : TraceStep α) : Decidable s.Reenters :=
  inferInstanceAs (Decidable (s.kind = .iteration ∧ s.enteringVar ≠ s.leavingVar ∧
    ∃ name ∈ s.basicVars, s.enteringVar = some name))

variable {step next : TraceStep α} {t u final : Tableau α} {tol : α} {row col : ℕ}
  {log : List (TraceStep α)}

lemma LeadsTo.basicVars_eq (h : step.LeadsTo tol row col next) (hu : step.Depicts u) :
    ∃ name, step.enteringVar = some name ∧ next.basicVars = step.basicVars.set (row - 1) name := by
  obtain ⟨name, hname, hheader⟩ := h.entering
  refine ⟨name, hname, ?_⟩
  obtain ⟨u', hu', hnext⟩ := h.pivot u hu
  obtain ⟨v, -, -, -, rfl⟩ := (Tableau.pivot_eq_ok h.row_pos).mp hu'
  have hold := Tableau.basicNames_eq_ok_iff.mp hu.basicVars
  have hnew : (u.basis.set (row - 1) col).map (u.headers[·]?) = next.basicVars.map some :=
    Tableau.basicNames_eq_ok_iff.mp hnext.basicVars
  rw [List.map_set, hold, ← hu.headers, hheader, ← List.map_set] at hnew
  exact (List.map_injective_iff.mpr (Option.some_injective _) hnew).symm

theorem LeadsTo.nodup_iff (h : step.LeadsTo tol row col next) (hu : step.Depicts u)
    (hkind : step.kind = .iteration) (hn : step.basicVars.Nodup) :
    next.basicVars.Nodup ↔ ¬ step.Reenters := by
  obtain ⟨name, hname, hnext⟩ := h.basicVars_eq hu
  obtain ⟨old, hold, hget⟩ := h.leaving
  obtain ⟨hlt, hget⟩ := List.getElem?_eq_some_iff.mp hget
  rw [hnext, nodup_set_iff hn hlt, hget, Reenters, hname, hold]
  simp only [hkind, true_and, Option.some.injEq, exists_eq_right', ne_eq, not_and, eq_comm]
  exact ⟨fun h hne hmem => hne (h hmem), fun h hmem => by_contra fun hne => h hne hmem⟩

/-- The basis stays a set along a log exactly if no step of it makes a variable basic again. -/
theorem FaithfulLog.nodup_iff (h : FaithfulLog tol log t final)
    (hn : ∀ first, log.head? = some first → first.basicVars.Nodup) :
    (∀ s ∈ log, s.basicVars.Nodup) ↔ ∀ s ∈ log, ¬ s.Reenters := by
  have hstep : ∀ i s, log[i]? = some s → s.basicVars.Nodup → s.kind = .iteration →
      ∃ next, log[i + 1]? = some next ∧ (next.basicVars.Nodup ↔ ¬ s.Reenters) := by
    intro i s hi hs hkind
    have hlt := (h.kind i s hi).mp hkind
    obtain ⟨row, col, hlead⟩ := h.leadsTo i s _ hi (List.getElem?_eq_getElem hlt)
    obtain ⟨first, hfirst, ht⟩ := h.first
    obtain ⟨u, -, hu⟩ := h.reproduced t first hfirst ht i s hi
    exact ⟨_, List.getElem?_eq_getElem hlt, hlead.nodup_iff hu hkind hs⟩
  constructor
  · intro hall s hs hre
    obtain ⟨i, hi⟩ := List.mem_iff_getElem?.mp hs
    obtain ⟨next, hnext, hiff⟩ := hstep i s hi (hall s hs) hre.1
    exact hiff.mp (hall next (List.mem_of_getElem? hnext)) hre
  · intro hall s hs
    obtain ⟨i, hi⟩ := List.mem_iff_getElem?.mp hs
    clear hs
    induction i generalizing s with
    | zero => exact hn s (by rwa [List.head?_eq_getElem?])
    | succ i ih =>
      have hlt := (List.getElem?_eq_some_iff.mp hi).1
      have hprev : log[i]? = some log[i] := List.getElem?_eq_getElem _
      obtain ⟨next, hnext, hiff⟩ := hstep i _ hprev (ih _ hprev) ((h.kind i _ hprev).mpr hlt)
      rw [hi] at hnext
      cases hnext
      exact hiff.mpr (hall _ (List.mem_of_getElem? hprev))

end TraceStep

namespace Tableau

lemma valueAt_basic {t : Tableau α} (hn : t.basis.Nodup) {i b : ℕ} {row : List α}
    (hb : t.basis[i]? = some b) (hrow : t.rows[i]? = some row) :
    t.valueAt b = clean (rhsOf row) := by
  rcases foldl_matching (fun row => clean (rhsOf row)) (t.basis.zip t.rows) b 0 with
    ⟨-, hne⟩ | ⟨row', hmem, he⟩
  · have hin : (b, row) ∈ t.basis.zip t.rows :=
      List.mem_of_getElem? (List.getElem?_zip_eq_some.mpr ⟨hb, hrow⟩)
    exact absurd rfl (hne _ hin)
  · obtain ⟨k, hk⟩ := List.mem_iff_getElem?.mp hmem
    obtain ⟨hb', hrow'⟩ := List.getElem?_zip_eq_some.mp hk
    have hlt := (List.getElem?_eq_some_iff.mp hb).1
    obtain rfl := (List.getElem?_inj hlt hn).mp (hb.trans hb'.symm)
    rw [hrow] at hrow'
    cases hrow'
    exact he

end Tableau

namespace Problem

variable {p : Problem α} {m : Method} {o : SolveOptions α} {c : Course α} {t t' : Tableau α}
  {tol : α}

lemma SameFrame.nodup_names_iff (h : p.SameFrame t) {cols : List ℕ}
    (hcols : ∀ b ∈ cols, b < t.columns.length) :
    (cols.map t.nameAt).Nodup ↔ cols.Nodup := by
  refine ⟨fun hn => hn.of_map _, fun hn => hn.map_on ?_⟩
  intro b hb d hd he
  have hget : ∀ j, j < t.columns.length → t.headers[j]? = some (t.nameAt j) := by
    intro j hj
    have hj' : j < t.headers.length := by rwa [Tableau.headers, List.length_map]
    rw [Tableau.nameAt_eq, List.getElem?_eq_getElem hj']
    rfl
  have hnodup : t.headers.Nodup := h.headers_eq ▸ p.headers_nodup
  have hb' : b < t.headers.length := by
    rw [Tableau.headers, List.length_map]
    exact hcols b hb
  apply (List.getElem?_inj hb' hnodup).mp
  rw [hget b (hcols b hb), hget d (hcols d hd), he]

lemma SameFrame.basis_lt (h : p.SameFrame t) {b : ℕ} (hb : b ∈ t.basis) :
    b < t.columns.length :=
  (h.shaped.inside b hb).2.trans_le (Nat.sub_le _ _)

lemma SameFrame.nodup_basicVars_iff (h : p.SameFrame t) {s : TraceStep α} (hs : s.Depicts t) :
    s.basicVars.Nodup ↔ t.basis.Nodup := by
  have hnames := hs.basicVars
  rw [h.shaped.basicNames_eq] at hnames
  rw [← Except.ok.inj hnames]
  exact h.nodup_names_iff fun b hb => h.basis_lt hb

/-- The columns that are swapped in stay duplicates or not, whatever artificial columns they are
swapped for, if no artificial column is basic twice. -/
theorem SameFrame.driveOutOf_nodup_iff {rows : List ℕ} {d : DrivenOut α} (h : p.SameFrame t)
    (hrows : t.RowsInside rows) (hart : (t.basis.filter (· ∈ p.plain.artificial)).Nodup)
    (hd : Tableau.driveOutOf tol rows t = .ok d) :
    ∃ cols : List ℕ, d.swaps.map (·.entering) = cols.map t.nameAt ∧
      (∀ b ∈ cols, b < t.columns.length ∧ b ∉ p.plain.artificial) ∧
      (d.tableau.basis.Nodup ↔ (t.basis ++ cols).Nodup) := by
  induction rows generalizing t d with
  | nil =>
    cases hd
    exact ⟨[], rfl, by simp, by rw [List.append_nil]⟩
  | cons row rows ih =>
    obtain ⟨b, hb, ⟨-, hrest⟩ | ⟨col, leaving, t', rest, hmem, hc, hp, hrest, rfl⟩⟩ :=
      Tableau.driveOutOf_cons hd
    · exact ih h hrows.tail hart hrest
    · obtain ⟨hr, hr'⟩ := hrows.head
      obtain ⟨-, hcol, hnot, -⟩ := h.shaped.replacement_inside hr' hc
      obtain ⟨rfl, hs⟩ := h.shaped.swap_spec hr hr' hc hp
      rw [h.artificial] at hmem hnot
      obtain ⟨hlt, hb⟩ := List.getElem?_eq_some_iff.mp hb
      have hothers : b ∉ t.basis.eraseIdx (row - 1) ∧
          ((t.basis.eraseIdx (row - 1)).filter (· ∈ p.plain.artificial)).Nodup := by
        have hperm := (List.getElem_cons_eraseIdx_perm hlt).filter (· ∈ p.plain.artificial)
        rw [hb, List.filter_cons_of_pos (by simpa using hmem)] at hperm
        obtain ⟨hnin, hnodup⟩ := List.nodup_cons.mp (hperm.nodup_iff.mpr hart)
        exact ⟨fun hin => hnin (List.mem_filter.mpr ⟨hin, by simpa using hmem⟩), hnodup⟩
      have hart' : ((t.basis.set (row - 1) col).filter (· ∈ p.plain.artificial)).Nodup := by
        have hperm := (List.set_perm_cons_eraseIdx hlt col).filter (· ∈ p.plain.artificial)
        rw [List.filter_cons_of_neg (by simpa using hnot)] at hperm
        exact hperm.nodup_iff.mpr hothers.2
      obtain ⟨cols, hnames, hcols, hiff⟩ := ih (h.pivoted hs) hrows.tail.pivoted hart' hrest
      refine ⟨col :: cols, ?_, ?_, ?_⟩
      · rw [List.map_cons, List.map_cons, hnames]
        rfl
      · exact List.forall_mem_cons.mpr ⟨⟨hcol.trans_le (Nat.sub_le _ _), hnot⟩, hcols⟩
      · rw [hiff, Tableau.pivoted_basis, nodup_append_cons_iff hlt]
        rw [hb, List.mem_append, List.mem_cons]
        rintro (hin | rfl | hin)
        · exact hothers.1 hin
        · exact hnot hmem
        · exact (hcols b hin).2 hmem

theorem SameFrame.driveOut_nodup_iff {d : DrivenOut α} (h : p.SameFrame t) (hn : t.basis.Nodup)
    (hd : t.driveOut tol = .ok d) :
    d.tableau.basis.Nodup ↔ (t.basis.map t.nameAt ++ d.swaps.map (·.entering)).Nodup := by
  obtain ⟨cols, hnames, hcols, hiff⟩ :=
    h.driveOutOf_nodup_iff Tableau.rowsInside_all (hn.filter _) hd
  rw [hiff, hnames, ← List.map_append, h.nodup_names_iff]
  intro b hb
  rcases List.mem_append.mp hb with hb | hb
  · exact h.basis_lt hb
  · exact (hcols b hb).1

section Runs

variable {s : RunSetting α} {cap : ℕ} {r : PivotRun α}

/-- Along a run the basis stays a set exactly if no step makes a variable basic again. -/
theorem SameFrame.run_nodup_iff (h : p.SameFrame t) (hr : t.run s cap 0 = .ok r)
    (hn : t.basis.Nodup) :
    (∀ step ∈ r.steps, step.basicVars.Nodup) ↔ ∀ step ∈ r.steps, ¬ step.Reenters := by
  have hlog := Tableau.run_faithfulLog hr
  apply hlog.nodup_iff
  intro first hfirst
  obtain ⟨step, hstep, hdepicts⟩ := hlog.first
  rw [hfirst] at hstep
  cases hstep
  exact (h.nodup_basicVars_iff hdepicts).mpr hn

/-- A run shows the basis on which it starts and the one with which it ends. -/
lemma SameFrame.run_nodup_ends (h : p.SameFrame t) (hr : t.run s cap 0 = .ok r)
    (hall : ∀ step ∈ r.steps, step.basicVars.Nodup) :
    t.basis.Nodup ∧ r.final.basis.Nodup := by
  have hlog := Tableau.run_faithfulLog hr
  obtain ⟨first, hfirst, ht⟩ := hlog.first
  obtain ⟨last, hlast, hfinal⟩ := hlog.last
  exact ⟨(h.nodup_basicVars_iff ht).mp (hall first (List.mem_of_head? hfirst)),
    ((h.run hr).nodup_basicVars_iff hfinal).mp (hall last (List.mem_of_getLast? hlast))⟩

end Runs

lemma Valid.start_basis_nodup (hp : p.Valid) (h : p.tableau m o = .ok t) : t.basis.Nodup := by
  rw [(hp.tableau_eq h).1]
  exact p.plain_basis_nodup

/-- In the steps of a solution and in the tableau from which its answer is read, the basis is a set
exactly if no exchange of a run and no swap between the phases makes a variable basic that is basic
in another row already. If it is a set in that last tableau, every basic variable is reported with
the value of its row. -/
theorem solve_basis_nodup (hp : p.Valid) (hc : p.course m o = .ok c) :
    ((∀ s ∈ (p.solve m o).steps, s.basicVars.Nodup) ∧ c.final.basis.Nodup ↔
      (∀ s ∈ (p.solve m o).steps, ¬ s.Reenters) ∧ ∀ second ∈ c.second,
        (c.first.final.basis.map c.first.final.nameAt ++
          second.swaps.map (·.entering)).Nodup) ∧
    (c.final.basis.Nodup → ∀ (i b : ℕ) (row : List α), c.final.basis[i]? = some b →
      c.final.rows[i]? = some row → c.final.valueAt b = clean (rhsOf row)) := by
  refine ⟨?_, fun hn i b row hb hrow => Tableau.valueAt_basic hn hb hrow⟩
  rw [solve_steps hc]
  have hcourses := course_courses hc
  obtain ⟨hstart, hfirst, hsecond⟩ := hcourses.sameFrame hp
  cases hcourses with
  | single hs _ hr | halted hs _ hr =>
    have hiff := hstart.run_nodup_iff hr (hp.start_basis_nodup hs)
    constructor
    · rintro ⟨hall, -⟩
      exact ⟨hiff.mp hall, by simp⟩
    · rintro ⟨hall, -⟩
      exact ⟨hiff.mpr hall, (hstart.run_nodup_ends hr (hiff.mpr hall)).2⟩
  | @handedOver start first driven second hs _ hr _ _ hd hres hr2 hswaps =>
    have hiff := hstart.run_nodup_iff hr (hp.start_basis_nodup hs)
    have hframe := (hsecond second rfl).1
    have hbasis : second.start.basis = driven.tableau.basis := by
      obtain ⟨saved, objective, -, -, he⟩ := Tableau.restore_eq_ok hres
      rw [he]
    have hdriven : ∀ hn : first.final.basis.Nodup, second.start.basis.Nodup ↔
        (first.final.basis.map first.final.nameAt ++ second.swaps.map (·.entering)).Nodup := by
      intro hn
      rw [hbasis, hswaps]
      exact hfirst.driveOut_nodup_iff hn hd
    simp only [Course.steps, List.forall_mem_append, Option.mem_def, Option.some.injEq,
      forall_eq']
    constructor
    · rintro ⟨⟨hall, hall2⟩, -⟩
      have hends := (hstart.run_nodup_ends hr hall).2
      have hstart2 := (hframe.run_nodup_ends hr2 hall2).1
      exact ⟨⟨hiff.mp hall, (hframe.run_nodup_iff hr2 hstart2).mp hall2⟩,
        (hdriven hends).mp hstart2⟩
    · rintro ⟨⟨hall, hall2⟩, hnames⟩
      have hfirst' := hiff.mpr hall
      have hstart2 := (hdriven (hstart.run_nodup_ends hr hfirst').2).mpr hnames
      have hsecond' := (hframe.run_nodup_iff hr2 hstart2).mpr hall2
      exact ⟨⟨hfirst', hsecond'⟩, (hframe.run_nodup_ends hr2 hsecond').2⟩

end Problem

end Bases

/-- Equations of doubles that are tied at a vertex, so that one artificial variable is still basic
after the first phase. -/
def tied : Problem Float where
  direction := .min
  objective := [1, 1, 1]
  constraints :=
    [⟨"c1", [1, 1, 0], .eq, 1⟩, ⟨"c2", [1, 0, 1], .eq, 1⟩, ⟨"c3", [0, 1, -1], .eq, 0⟩,
      ⟨"c4", [1, -1, 0.1], .eq, 1⟩]

theorem solve_basis_nodup_tied :
    ∃ c, tied.course .twoPhase {} = .ok c ∧
      c.second.map (fun second => second.swaps.map (·.entering)) = some ["x2"] ∧
      (∀ s ∈ (tied.solve .twoPhase {}).steps, s.basicVars.Nodup) ∧ c.final.basis.Nodup := by
  have hvalid : tied.Valid := ⟨Or.inr rfl, by decide +kernel, by decide +kernel⟩
  have hcourse : (tied.course .twoPhase {}).toOption.any (fun c =>
      c.second.map (fun second => second.swaps.map (·.entering)) = some ["x2"] ∧
        c.first.final.basis.map c.first.final.nameAt = ["x1", "x3", "a3", "a4"]) = true := by
    decide +kernel
  obtain ⟨c, hc, hvalues⟩ := exists_ok_of_any hcourse
  obtain ⟨hswaps, hnames⟩ := of_decide_eq_true hvalues
  refine ⟨c, hc, hswaps, (Problem.solve_basis_nodup hvalid hc).1.mpr ⟨by decide +kernel, ?_⟩⟩
  intro second hsecond
  rw [Option.mem_def.mp hsecond, Option.map_some, Option.some.injEq] at hswaps
  rw [hnames, hswaps]
  decide +kernel

/-- A problem with two coefficients that are small against the others. -/
def unbalanced : Problem Float where
  direction := .max
  objective := [1, 0.5]
  constraints :=
    [⟨"c1", [1, 0], .le, 100⟩, ⟨"c2", [-5e-10, 1e-8], .le, 0⟩, ⟨"c3", [0, 1], .le, 1⟩]

/-- The entry `-5e-10` is within the tolerance and stays when `x1` becomes basic. Dividing its row
by `1e-8` and adding it to the objective row makes `x1` look improving, so that it enters once more,
and the value of the row in which it was basic before is lost. -/
theorem unbalanced_reenters :
    unbalanced.Valid ∧ (∀ v ∈ unbalanced.sizes, Scalar.isFinite v = true) ∧
      (unbalanced.solve .simplex {}).steps.map (·.basicVars) =
        [["s1", "s2", "s3"], ["x1", "s2", "s3"], ["x1", "x2", "s3"], ["x1", "x2", "x1"]] ∧
      ¬ (∀ s ∈ (unbalanced.solve .simplex {}).steps, s.basicVars.Nodup) ∧
      (unbalanced.course .simplex {}).toOption.map (fun c =>
        (c.final.basis, c.final.rows.map rhsOf, c.final.valueAt 1)) =
        some ([1, 2, 1], [80, 1, 20], 20) := by
  refine ⟨⟨Or.inl rfl, by decide +kernel, by decide +kernel⟩, ?_, ?_, ?_, ?_⟩ <;> decide +kernel

end SimplexTableau
