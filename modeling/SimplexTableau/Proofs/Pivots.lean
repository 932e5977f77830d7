import SimplexTableau.Proofs.Ordered
import SimplexTableau.Proofs.Selection

/-!
# Sequences of pivots

A run makes one exchange after the other until it stops. `Pivots` relates a tableau to the one
that a given number of exchanges leads to; what a run leaves behind and how it ends is read off
this relation, and every property that one exchange keeps holds for the tableau left behind.
-/

namespace SimplexTableau

/-- The row of an exchange. -/
def Move.row? : Move → Option ℕ
  | .exchange row _ => some row
  | _ => none

/-- The column that improves the objective. -/
def Move.col? : Move → Option ℕ
  | .exchange _ col | .unbounded col => some col
  | _ => none

lemma kind_eq_iterationLimit {ending : Move} (h : ending.kind = .iterationLimit) :
    ending = .limit := by
  cases ending with
  | limit => rfl
  | exchange | optimal | unbounded => cases h

lemma kind_eq_unbounded {ending : Move} (h : ending.kind = .unbounded) :
    ∃ col, ending = .unbounded col := by
  cases ending with
  | unbounded col => exact ⟨col, rfl⟩
  | exchange | optimal | limit => cases h

lemma kind_ne_iteration {ending : Move} (h : ∀ row col, ending ≠ .exchange row col) :
    ending.kind ≠ .iteration := by
  cases ending with
  | exchange row col => exact absurd rfl (h row col)
  | optimal | unbounded | limit => simp [Move.kind]

namespace Tableau

section Runs

variable {α : Type} [Scalar α]

/-- A tableau that follows from another one by the pivot rule. -/
def Exchanges (tol : α) (blocked : List ℕ) (t t' : Tableau α) : Prop :=
  ∃ row col, t.move tol blocked = .exchange row col ∧ t.pivot row col tol = .ok t'

/-- A tableau that follows from another one by a number of exchanges. -/
inductive Pivots (tol : α) (blocked : List ℕ) : ℕ → Tableau α → Tableau α → Prop
  | refl (t : Tableau α) : Pivots tol blocked 0 t t
  | step {n : ℕ} {t t' u : Tableau α} (h : t.Exchanges tol blocked t')
      (rest : Pivots tol blocked n t' u) : Pivots tol blocked (n + 1) t u

variable {tol : α} {blocked : List ℕ} {t t' u v : Tableau α} {n k : ℕ}

lemma move_eq_exchange_iff {row col : ℕ} :
    t.move tol blocked = .exchange row col ↔
      t.entering tol blocked = some col ∧ t.leaving tol col = some row := by
  unfold move
  cases t.entering tol blocked with
  | none => simp
  | some c =>
    dsimp only
    cases hl : t.leaving tol c with
    | none =>
      constructor
      · intro h
        cases h
      · rintro ⟨he, h⟩
        cases he
        rw [hl] at h
        cases h
    | some r =>
      constructor
      · intro h
        cases h
        exact ⟨rfl, hl⟩
      · rintro ⟨he, h⟩
        cases he
        rw [hl] at h
        cases h
        rfl

lemma move_eq_optimal_iff : t.move tol blocked = .optimal ↔ t.entering tol blocked = none := by
  unfold move
  cases t.entering tol blocked with
  | none => simp
  | some c =>
    dsimp only
    split <;> simp

lemma move_eq_unbounded_iff {col : ℕ} :
    t.move tol blocked = .unbounded col ↔
      t.entering tol blocked = some col ∧ t.leaving tol col = none := by
  unfold move
  cases t.entering tol blocked with
  | none => simp
  | some c =>
    dsimp only
    cases hl : t.leaving tol c with
    | none =>
      constructor
      · intro h
        cases h
        exact ⟨rfl, hl⟩
      · rintro ⟨he, -⟩
        cases he
        rfl
    | some r =>
      constructor
      · intro h
        cases h
      · rintro ⟨he, h⟩
        cases he
        rw [hl] at h
        cases h

lemma move_ne_limit : t.move tol blocked ≠ .limit := by
  unfold move
  cases t.entering tol blocked with
  | none => simp
  | some c =>
    dsimp only
    split <;> simp

/-- All that an exchange does to a rectangular tableau. -/
theorem Rectangular.exchange_spec (h : t.Rectangular) (hx : t.Exchanges tol blocked t') :
    ∃ row col, t.entering tol blocked = some col ∧ t.leaving tol col = some row ∧
      0 < row ∧ row ≤ t.rows.length ∧ 0 < col ∧ col < t.rhsCol ∧ col ∉ blocked ∧
      t' = t.pivoted row col tol := by
  obtain ⟨row, col, hm, hp⟩ := hx
  obtain ⟨he, hl⟩ := move_eq_exchange_iff.mp hm
  obtain ⟨hc, hc', hb⟩ := entering_inside he
  obtain ⟨hr, hr', -⟩ := leaving_inside hl
  rw [h.objective] at hc'
  have hin : col < t.rhsCol := Nat.lt_sub_of_add_lt hc'
  exact ⟨row, col, he, hl, hr, hr', hc, hin, hb, (h.pivot_spec hr hp).2.2.2⟩

theorem Rectangular.exchanges (h : t.Rectangular) (hx : t.Exchanges tol blocked t') :
    t'.Rectangular := by
  obtain ⟨row, col, -, -, hr, hr', -, -, -, rfl⟩ := h.exchange_spec hx
  exact h.pivoted hr hr' col tol

theorem Shaped.exchanges (h : t.Shaped) (hx : t.Exchanges tol blocked t') : t'.Shaped := by
  obtain ⟨row, col, -, -, hr, hr', hc, hc', -, rfl⟩ := h.exchange_spec hx
  exact h.pivoted hr hr' hc hc' tol

theorem Exchanges.unique (h : t.Exchanges tol blocked u) (h' : t.Exchanges tol blocked v) :
    u = v := by
  obtain ⟨row, col, hm, hp⟩ := h
  obtain ⟨row', col', hm', hp'⟩ := h'
  rw [hm] at hm'
  cases hm'
  rw [hp] at hp'
  cases hp'
  rfl

/-- What every exchange keeps, a sequence of exchanges keeps. -/
theorem Pivots.invariant {P : Tableau α → Prop}
    (hstep : ∀ a b, P a → a.Exchanges tol blocked b → P b)
    (h : Pivots tol blocked n t u) (ht : P t) : P u := by
  induction h with
  | refl t => exact ht
  | step hx _ ih => exact ih (hstep _ _ ht hx)

theorem Rectangular.pivots (h : t.Rectangular) (hp : Pivots tol blocked n t u) : u.Rectangular :=
  hp.invariant (fun _ _ ha hx => ha.exchanges hx) h

theorem Shaped.pivots (h : t.Shaped) (hp : Pivots tol blocked n t u) : u.Shaped :=
  hp.invariant (fun _ _ ha hx => ha.exchanges hx) h

lemma Rectangular.sameLayout_pivots (h : t.Rectangular) (hp : Pivots tol blocked n t u) :
    t.SameLayout u := by
  induction hp with
  | refl t => exact SameLayout.refl t
  | @step n t t' u hx _ ih =>
    have hrect := h.exchanges hx
    obtain ⟨row, col, -, -, -, -, -, -, -, rfl⟩ := h.exchange_spec hx
    exact (t.sameLayout_pivoted row col tol).trans (ih hrect)

theorem Pivots.trans (h : Pivots tol blocked n t u) (h' : Pivots tol blocked k u v) :
    Pivots tol blocked (n + k) t v := by
  induction h with
  | refl t => simpa using h'
  | step hx _ ih =>
    rw [Nat.add_right_comm]
    exact Pivots.step hx (ih h')

theorem Pivots.unique (h : Pivots tol blocked n t u) (h' : Pivots tol blocked n t v) : u = v := by
  induction h with
  | refl t =>
    cases h'
    rfl
  | step hx _ ih =>
    cases h' with
    | step hx' rest =>
      rw [hx.unique hx'] at ih
      exact ih rest

/-- A longer sequence of exchanges passes through what a shorter one reaches. -/
theorem Pivots.split (h : Pivots tol blocked (n + k) t u) :
    ∃ w, Pivots tol blocked n t w ∧ Pivots tol blocked k w u := by
  induction n generalizing t with
  | zero => exact ⟨t, Pivots.refl t, by simpa using h⟩
  | succ n ih =>
    rw [Nat.add_right_comm] at h
    cases h with
    | step hx rest =>
      obtain ⟨w, h1, h2⟩ := ih rest
      exact ⟨w, Pivots.step hx h1, h2⟩

/-- All that a recorded step says. -/
theorem record_eq_ok {s : RunSetting α} {done : ℕ} {m : Move} {step : TraceStep α}
    (h : t.record s done m = .ok step) :
    ∃ rows names, t.snapshot s.phase = .ok rows ∧ t.basicNames = .ok names ∧ step = {
      index := s.start + done
      kind := m.kind
      description := t.describe s.phase done names m
      headers := t.headers
      rows
      basicVars := names
      pivotRow := m.row?.map fun row => (row : ℤ)
      pivotCol := m.col?.map fun col => (col : ℤ)
      enteringVar := m.col?.map t.nameAt
      leavingVar := m.row?.map fun row => names.getD (row - 1) ""
      phase := s.phase
      isPhaseOne := s.phase = 1 } := by
  obtain ⟨rows, hrows, h⟩ := bind_eq_ok.mp h
  obtain ⟨names, hnames, h⟩ := bind_eq_ok.mp h
  refine ⟨rows, names, hrows, hnames, ?_⟩
  cases m <;> cases h <;> rfl

lemma record_kind {s : RunSetting α} {done : ℕ} {m : Move} {step : TraceStep α}
    (h : t.record s done m = .ok step) : step.kind = m.kind := by
  obtain ⟨rows, names, -, -, rfl⟩ := record_eq_ok h
  rfl

/-- A run makes exchanges until it reaches its cap or a tableau on which the rule makes none. -/
structure Outcome (s : RunSetting α) (cap done : ℕ) (t : Tableau α) (k : ℕ) (r : PivotRun α) :
    Prop where
  pivots : Pivots s.tol s.blocked k t r.final
  iterations : r.iterations = done + k
  ending : (k = cap ∧ r.ending = .limit) ∨
    (k < cap ∧ r.ending = r.final.move s.tol s.blocked ∧ ∀ row col, r.ending ≠ .exchange row col)
  lastKind : r.steps.getLast?.map (·.kind) = some r.ending.kind

lemma Outcome.le_cap {s : RunSetting α} {cap done : ℕ} {r : PivotRun α}
    (h : Outcome s cap done t k r) : k ≤ cap := by
  rcases h.ending with ⟨he, -⟩ | ⟨hlt, -⟩
  · exact he.le
  · exact hlt.le

lemma Outcome.ne_exchange {s : RunSetting α} {cap done : ℕ} {r : PivotRun α}
    (h : Outcome s cap done t k r) (row col : ℕ) : r.ending ≠ .exchange row col := by
  rcases h.ending with ⟨-, hl⟩ | ⟨-, -, hne⟩
  · rw [hl]
    simp
  · exact hne row col

lemma Outcome.entering_none {s : RunSetting α} {cap done : ℕ} {r : PivotRun α}
    (h : Outcome s cap done t k r) (he : r.ending = .optimal) :
    r.final.entering s.tol s.blocked = none := by
  apply move_eq_optimal_iff.mp
  rcases h.ending with ⟨-, hl⟩ | ⟨-, hl, -⟩
  · rw [he] at hl
    cases hl
  · exact hl.symm.trans he

lemma Outcome.unbounded {s : RunSetting α} {cap done : ℕ} {r : PivotRun α}
    (h : Outcome s cap done t k r) {col : ℕ} (he : r.ending = .unbounded col) :
    k < cap ∧ r.final.entering s.tol s.blocked = some col ∧ r.final.leaving s.tol col = none := by
  rcases h.ending with ⟨-, hl⟩ | ⟨hlt, hl, -⟩
  · rw [he] at hl
    cases hl
  · exact ⟨hlt, move_eq_unbounded_iff.mp (hl.symm.trans he)⟩

/-- A run records the tableau and stops there, or it records it, makes an exchange and goes on
under a cap that is one smaller. -/
theorem run_cases {s : RunSetting α} {cap done : ℕ} {r : PivotRun α}
    (h : t.run s cap done = .ok r) :
    (∃ step, t.record s done r.ending = .ok step ∧ r = ⟨[step], r.ending, done, t⟩ ∧
      ((cap = 0 ∧ r.ending = .limit) ∨ (0 < cap ∧ r.ending = t.move s.tol s.blocked ∧
        ∀ row col, r.ending ≠ .exchange row col))) ∨
    ∃ rest cap' step t', cap = cap' + 1 ∧ t.Exchanges s.tol s.blocked t' ∧
      t.record s done (t.move s.tol s.blocked) = .ok step ∧ t'.run s cap' (done + 1) = .ok rest ∧
      r = { rest with steps := step :: rest.steps } := by
  cases cap with
  | zero =>
    obtain ⟨step, hrec, h⟩ := bind_eq_ok.mp h
    cases h
    exact Or.inl ⟨step, hrec, rfl, Or.inl ⟨rfl, rfl⟩⟩
  | succ cap =>
    obtain ⟨step, hrec, h⟩ := bind_eq_ok.mp h
    cases hm : t.move s.tol s.blocked with
    | exchange row col =>
      simp only [hm] at h
      obtain ⟨t', hp, h⟩ := bind_eq_ok.mp h
      obtain ⟨rest, hr, h⟩ := bind_eq_ok.mp h
      cases h
      exact Or.inr ⟨rest, cap, step, t', rfl, ⟨row, col, hm, hp⟩, hm ▸ hrec, hr, rfl⟩
    | optimal | unbounded | limit =>
      rw [hm] at hrec
      simp only [hm] at h
      cases h
      exact Or.inl ⟨step, hrec, rfl, Or.inr ⟨Nat.succ_pos cap, rfl, by simp⟩⟩

theorem run_outcome {s : RunSetting α} {cap done : ℕ} {r : PivotRun α}
    (h : t.run s cap done = .ok r) : ∃ k, Outcome s cap done t k r := by
  induction cap using Nat.strong_induction_on generalizing t done r with
  | _ cap ih =>
    rcases run_cases h with ⟨step, hrec, hr, hend⟩ | ⟨rest, cap, step, t', rfl, hx, -, hrest, rfl⟩
    · rw [hr]
      refine ⟨0, Pivots.refl t, rfl, ?_, by simp [record_kind hrec]⟩
      rcases hend with ⟨hz, hl⟩ | hend
      · exact Or.inl ⟨hz.symm, hl⟩
      · exact Or.inr hend
    · obtain ⟨k, hk⟩ := ih cap (Nat.lt_succ_self cap) hrest
      have hlast := hk.lastKind
      refine ⟨k + 1, Pivots.step hx hk.pivots, ?_, ?_, ?_⟩
      · rw [hk.iterations]
        omega
      · rcases hk.ending with ⟨he, hl⟩ | ⟨he, hl⟩
        · exact Or.inl ⟨by omega, hl⟩
        · exact Or.inr ⟨by omega, hl⟩
      · cases hs : rest.steps with
        | nil => simp [hs] at hlast
        | cons first others =>
          rw [hs] at hlast
          simpa using hlast

lemma run_succ_of_ne {s : RunSetting α} {cap done : ℕ} {step : TraceStep α}
    (hrec : t.record s done (t.move s.tol s.blocked) = .ok step)
    (hne : ∀ row col, t.move s.tol s.blocked ≠ .exchange row col) :
    t.run s (cap + 1) done = .ok ⟨[step], t.move s.tol s.blocked, done, t⟩ := by
  rw [run, hrec]
  cases hm : t.move s.tol s.blocked with
  | exchange row col => exact absurd hm (hne row col)
  | optimal | unbounded | limit => rfl

lemma run_succ_of_exchanges {s : RunSetting α} {cap done : ℕ} {step : TraceStep α}
    {rest : PivotRun α} (hrec : t.record s done (t.move s.tol s.blocked) = .ok step)
    (hx : t.Exchanges s.tol s.blocked t') (hrest : t'.run s cap (done + 1) = .ok rest) :
    t.run s (cap + 1) done = .ok { rest with steps := step :: rest.steps } := by
  obtain ⟨row, col, hm, hp⟩ := hx
  refine bind_eq_ok.mpr ⟨step, hrec, ?_⟩
  rw [hm]
  exact bind_eq_ok.mpr ⟨t', hp, bind_eq_ok.mpr ⟨rest, hrest, rfl⟩⟩

/-- A run that has not ended at its cap is the same under a larger one. -/
theorem run_of_le {s : RunSetting α} {cap cap' done : ℕ} {r : PivotRun α}
    (h : t.run s cap done = .ok r) (hne : r.ending ≠ .limit) (hle : cap ≤ cap') :
    t.run s cap' done = .ok r := by
  induction cap using Nat.strong_induction_on generalizing t cap' done r with
  | _ cap ih =>
    rcases run_cases h with
      ⟨step, hrec, hr, hend⟩ | ⟨rest, cap, step, t', rfl, hx, hrec, hrest, rfl⟩
    · obtain ⟨hpos, he, hstop⟩ := hend.resolve_left fun hlimit => hne hlimit.2
      obtain ⟨n, rfl⟩ := Nat.exists_eq_succ_of_ne_zero (hpos.trans_le hle).ne'
      rw [he] at hrec hstop hr
      rw [run_succ_of_ne hrec hstop, hr]
    · obtain ⟨n, rfl⟩ := Nat.exists_eq_succ_of_ne_zero (Nat.succ_pos cap |>.trans_le hle).ne'
      exact run_succ_of_exchanges hrec hx
        (ih cap (Nat.lt_succ_self cap) hrest hne (Nat.le_of_succ_le_succ hle))

omit [Scalar α] in
lemma Shaped.basicNames_eq (h : t.Shaped) : t.basicNames = .ok (t.basis.map t.nameAt) := by
  apply mapM_eq_ok
  intro b hb
  have hw := h.rhsCol_add_one
  have hlt : b < t.columns.length := by
    have hin := (h.inside b hb).2
    omega
  simp only [nameAt, List.getElem?_eq_getElem hlt]
  rfl

lemma Shaped.record_ok (h : t.Shaped) (s : RunSetting α) (done : ℕ) (m : Move) :
    ∃ step, t.record s done m = .ok step := by
  have hlen : ¬ (t.basis.map t.nameAt).length < t.rows.length := by
    rw [List.length_map, h.basis]
    exact lt_irrefl _
  unfold record snapshot
  simp only [h.basicNames_eq, bind, Except.bind, if_neg hlen]
  cases m <;> exact ⟨_, rfl⟩

variable [OrderedScalar α]

/-- The cell of an exchange exceeds the tolerance, so it can be pivoted on. -/
lemma Shaped.pivot_ok (h : t.Shaped) {row col : ℕ}
    (hm : t.move tol blocked = .exchange row col) :
    t.pivot row col tol = .ok (t.pivoted row col tol) := by
  obtain ⟨he, hl⟩ := move_eq_exchange_iff.mp hm
  obtain ⟨hr, hr', hv⟩ := leaving_inside hl
  have hc := (entering_inside he).2.1
  rw [h.objective] at hc
  exact h.pivot_eq_ok h.basis hr hr' (by omega) (not_size_le_of_lt hv)

/-- A run on a shaped tableau never fails. -/
theorem Shaped.run_ok (h : t.Shaped) (s : RunSetting α) (cap done : ℕ) :
    ∃ r, t.run s cap done = .ok r := by
  induction cap generalizing t done with
  | zero =>
    obtain ⟨step, hrec⟩ := h.record_ok s done .limit
    exact ⟨_, by rw [run, hrec]; rfl⟩
  | succ cap ih =>
    obtain ⟨step, hrec⟩ := h.record_ok s done (t.move s.tol s.blocked)
    cases hm : t.move s.tol s.blocked with
    | exchange row col =>
      have hx : t.Exchanges s.tol s.blocked (t.pivoted row col s.tol) :=
        ⟨row, col, hm, h.pivot_ok hm⟩
      obtain ⟨r, hr⟩ := ih (h.exchanges hx) (done + 1)
      exact ⟨_, run_succ_of_exchanges hrec hx hr⟩
    | optimal | unbounded | limit => exact ⟨_, run_succ_of_ne hrec (by simp [hm])⟩

end Runs

end Tableau

end SimplexTableau
