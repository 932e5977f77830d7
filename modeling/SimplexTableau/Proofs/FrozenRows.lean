import SimplexTableau.Proofs.Doubles
import SimplexTableau.Proofs.IdleRows
import SimplexTableau.Proofs.Totality

/-!
# Rows that keep an artificial variable

Once artificial variables are driven out, the rows that keep one are idle. The test that clears a
column skips such a row, the ratio test leaves it out, and no artificial column enters. So the row
stays as it is in all that follows, bit by bit, and in any ordered arithmetic.
-/

namespace SimplexTableau

namespace Tableau

variable {α : Type} [Scalar α]

/-- The rows with an artificial basic column are the same in both tableaux, with all of their
entries and the basic column, and no artificial column is basic anywhere else in the second. -/
structure Frozen (t u : Tableau α) : Prop where
  kept (k b : ℕ) : t.basis[k]? = some b → b ∈ t.artificial →
    u.rows[k]? = t.rows[k]? ∧ u.basis[k]? = some b
  nowhereElse (k b : ℕ) : u.basis[k]? = some b → b ∈ t.artificial → t.basis[k]? = some b

variable {tol : α} {t t' u : Tableau α} {k r c n : ℕ}

omit [Scalar α] in
lemma Frozen.refl (t : Tableau α) : t.Frozen t :=
  ⟨fun _ _ hb _ => ⟨rfl, hb⟩, fun _ _ hb _ => hb⟩

omit [Scalar α] in
lemma Frozen.trans (h : t.Frozen t') (ha : t'.artificial = t.artificial) (h' : t'.Frozen u) :
    t.Frozen u := by
  constructor
  · intro k b hb hart
    obtain ⟨hrows, hbasis⟩ := h.kept k b hb hart
    obtain ⟨hrows', hbasis'⟩ := h'.kept k b hbasis (ha ▸ hart)
    exact ⟨hrows'.trans hrows, hbasis'⟩
  · intro k b hb hart
    exact h.nowhereElse k b (h'.nowhereElse k b hb (ha ▸ hart)) hart

variable [OrderedScalar α]

section Leaving

/-- The ratio test takes no idle row with an artificial basic column. -/
lemma Idle.leaving_ne (h : t.Idle tol k) {b : ℕ} (hb : t.basis[k]? = some b)
    (hart : b ∈ t.artificial) (hc : 0 < c) (hc' : c < t.rhsCol) (hca : c ∉ t.artificial)
    (hl : t.leaving tol c = some r) : r ≠ k + 1 := by
  rintro rfl
  obtain ⟨-, hr', hlt⟩ := leaving_inside hl
  have hrow : t.rows[k]? = some t.rows[k] := List.getElem?_eq_getElem hr'
  rw [List.getD_eq_getElem?_getD (i := k + 1), matrix, List.getElem?_cons_succ, hrow,
    Option.getD_some] at hlt
  exact not_size_le_of_lt hlt (h b _ hb hart hrow c hc hc' hca)

/-- One exchange in which no artificial column may enter freezes what is idle. -/
theorem Rectangular.frozen_exchange (h : t.Rectangular) (hidle : ∀ k, t.Idle tol k)
    (hx : t.Exchanges tol t.artificial t') : t.Frozen t' ∧ ∀ k, t'.Idle tol k := by
  obtain ⟨r, c, -, hl, hr, -, hc, hc', hca, rfl⟩ := h.exchange_spec hx
  refine ⟨⟨fun k b hb hart => ?_, fun k b hb hart => ?_⟩, fun k => ?_⟩
  · have hne := (hidle k).leaving_ne hb hart hc hc' hca hl
    refine ⟨(hidle k).row_pivoted (fun _ h => h) hb hart hr.ne' hne hc hc' hca, ?_⟩
    rw [pivoted_basis, List.getElem?_set_ne (by omega), hb]
  · rcases pivoted_basis_get hb with ⟨-, rfl⟩ | ⟨-, hb⟩
    · exact absurd hart hca
    · exact hb
  · exact (hidle k).pivoted (fun _ h => h) hr.ne' hc hc' hca

end Leaving

section Continuing

/-- Restorations and runs with one tolerance and the same blocked columns, in any order and of any
length. -/
inductive Continues (tol : α) (blocked : List ℕ) (t : Tableau α) : Tableau α → Prop
  | start : Continues tol blocked t t
  | restore {u v : Tableau α} (h : Continues tol blocked t u) (hr : u.restore tol = .ok v) :
      Continues tol blocked t v
  | run {u : Tableau α} {s : RunSetting α} {cap : ℕ} {r : PivotRun α}
      (h : Continues tol blocked t u) (htol : s.tol = tol) (hblocked : s.blocked = blocked)
      (hr : u.run s cap 0 = .ok r) : Continues tol blocked t r.final

/-- What all that follows keeps of a tableau whose rows are idle. -/
structure Rests (tol : α) (t u : Tableau α) : Prop where
  rectangular : u.Rectangular
  saved : ∀ o ∈ u.savedObjective, o.length = u.columns.length
  artificial : u.artificial = t.artificial
  idle (k : ℕ) : u.Idle tol k
  frozen : t.Frozen u

namespace Rests

variable {v : Tableau α}

lemma exchange (h : t.Rests tol u) (hx : u.Exchanges tol t.artificial v) : t.Rests tol v := by
  rw [← h.artificial] at hx
  have hlayout := h.rectangular.sameLayout_pivots (Pivots.step hx (Pivots.refl v))
  obtain ⟨hfrozen, hidle⟩ := h.rectangular.frozen_exchange h.idle hx
  constructor
  · exact h.rectangular.exchanges hx
  · rw [hlayout.savedObjective, hlayout.columns]
    exact h.saved
  · exact hlayout.artificial.trans h.artificial
  · exact hidle
  · exact h.frozen.trans h.artificial hfrozen

lemma pivots (h : t.Rests tol u) (hp : Pivots tol t.artificial n u v) : t.Rests tol v :=
  hp.invariant (fun _ _ ha hx => ha.exchange hx) h

omit [OrderedScalar α] in
lemma restored (h : t.Rests tol u) (hr : u.restore tol = .ok v) : t.Rests tol v := by
  have hrect := h.rectangular.restored h.saved hr
  obtain ⟨saved, o, -, -, rfl⟩ := restore_eq_ok hr
  exact ⟨hrect, by simp, h.artificial, h.idle, ⟨h.frozen.kept, h.frozen.nowhereElse⟩⟩

end Rests

theorem Continues.rests (hc : Continues tol t.artificial t u) (h : t.Rests tol t) :
    t.Rests tol u := by
  induction hc with
  | start => exact h
  | restore _ hr ih => exact ih.restored hr
  | run _ htol hblocked hr ih =>
    obtain ⟨k, hk⟩ := run_outcome hr
    have hpivots := hk.pivots
    rw [htol, hblocked] at hpivots
    exact ih.pivots hpivots

end Continuing

/-- Driving artificial variables out of a tableau leaves rows with an artificial basic column idle.
Whatever restorations and runs without artificial columns follow, no such row changes and no
artificial column becomes basic elsewhere, in a recorded step as little as at the end. On a shaped
tableau the operations of a second phase do not fail. -/
theorem driveOut_frozen (h : t.Rectangular)
    (hsaved : ∀ o ∈ t.savedObjective, o.length = t.columns.length)
    (hbasis : t.basis.length = t.rows.length) (hart : ∀ a ∈ t.artificial, a < t.columns.length)
    (tol : α) :
    ∃ d, t.driveOut tol = .ok d ∧ t.SameLayout d.tableau ∧ (∀ k, d.tableau.Idle tol k) ∧
      (t.Shaped → t.savedObjective ≠ none → ∃ u, d.tableau.restore tol = .ok u ∧
        ∀ s cap, ∃ r, u.run s cap 0 = .ok r) ∧
      ∀ u, Continues tol t.artificial d.tableau u → d.tableau.Frozen u ∧
        ∀ s cap r i step, s.tol = tol → s.blocked = t.artificial → u.run s cap 0 = .ok r →
          r.steps[i]? = some step →
            ∃ w, Pivots tol t.artificial i u w ∧ step.Depicts w ∧ d.tableau.Frozen w := by
  obtain ⟨d, hd⟩ : ∃ d, t.driveOut tol = .ok d :=
    h.driveOutOf_total hbasis (fun b _ hb => hart b hb) rowsInside_all
  have hdrives := driveOutOf_drivesOut hd
  have hlayout := h.sameLayout_drivesOut rowsInside_all hdrives
  have hidle := h.idle_driveOut (fun _ h => h) (h.everyKept_idle rowsInside_all) hd
  refine ⟨d, hd, hlayout, hidle, fun hs hne => ?_, fun u hu => ?_⟩
  · obtain ⟨saved, hsaved⟩ := Option.ne_none_iff_exists'.mp hne
    have hshaped := hs.drivesOut rowsInside_all hdrives
    obtain ⟨u, hu⟩ := hshaped.restore_total (hlayout.savedObjective.trans hsaved) tol
    exact ⟨u, hu, fun s cap => (hshaped.restored hu).run_ok s cap 0⟩
  · rw [← hlayout.artificial] at hu ⊢
    have hstart : d.tableau.Rests tol d.tableau := by
      refine ⟨h.drivesOut rowsInside_all hdrives, ?_, rfl, hidle, Frozen.refl d.tableau⟩
      rw [hlayout.savedObjective, hlayout.columns]
      exact hsaved
    have hrests := hu.rests hstart
    refine ⟨hrests.frozen, fun s cap r i step htol hblocked hr hi => ?_⟩
    obtain ⟨w, -, hp, hdepicts, -⟩ := run_depicts hr hi
    rw [htol, hblocked] at hp
    exact ⟨w, hp, hdepicts, (hrests.pivots hp).frozen⟩

end Tableau

/-- A finished first phase in doubles. The second row is redundant up to rounding. -/
def redundant : Tableau Float where
  columns := [.objective, .decision 0, .decision 1, .artificial 0, .artificial 1, .rhs]
  objective := [1, 0, 0, 1, 1, 0]
  rows := [[0, 3, 2, 1, 0, 0], [0, 1e-12, 0, 0.3, 1, 0]]
  basis := [3, 4]
  artificial := [3, 4]
  savedObjective := some [1, -1, -3, 0, 0, 0]

theorem driveOut_frozen_redundant :
    ∃ d u r, redundant.driveOut 1e-9 = .ok d ∧ d.tableau.basis = [1, 4] ∧
      (∀ k, d.tableau.Idle 1e-9 k) ∧ d.tableau.restore 1e-9 = .ok u ∧
      u.run { phase := 2, tol := 1e-9, blocked := [3, 4] } 50 0 = .ok r ∧ r.iterations = 1 ∧
      d.tableau.Frozen r.final := by
  obtain ⟨d, hd, -, hidle, -, hfrozen⟩ := Tableau.driveOut_frozen (t := redundant)
    ⟨by decide, by decide⟩ (by decide) (by decide) (by decide) 1e-9
  obtain ⟨d', hd', hbasis⟩ := exists_ok_of_any (by decide +kernel :
    (redundant.driveOut 1e-9).toOption.any (fun d => d.tableau.basis = [1, 4] ∧
      ((d.tableau.restore 1e-9).bind fun u =>
        u.run { phase := 2, tol := 1e-9, blocked := [3, 4] } 50 0).toOption.any
          (fun r => r.iterations = 1)) = true)
  rw [hd] at hd'
  cases hd'
  obtain ⟨hbasis, hrun⟩ := of_decide_eq_true hbasis
  cases hu : d.tableau.restore 1e-9 with
  | error e =>
    rw [hu] at hrun
    cases hrun
  | ok u =>
    rw [hu] at hrun
    obtain ⟨r, hr, hcount⟩ := exists_ok_of_any hrun
    exact ⟨d, u, r, hd, hbasis, hidle, hu, hr, of_decide_eq_true hcount,
      (hfrozen r.final (.run (.restore .start hu) rfl rfl hr)).1⟩

end SimplexTableau
