import Mathlib.Data.Fintype.BigOperators
import Mathlib.Data.Fintype.Pigeonhole
import SimplexTableau.Proofs.Determined

/-!
# Runs that come back to a basis

There are finitely many bases, so a run that is long enough comes back to one. A canonical tableau
is determined by its basis and its row space. On clean columns a run that comes back to a basis
therefore comes back to the tableau, and goes round for ever. An exchange whose leaving variable is
positive raises the objective value, so a run of such exchanges never comes back.
-/

namespace SimplexTableau

namespace Tableau

/-- A run comes back to a basis that it had before. -/
def Revisits (tol : ℚ) (blocked : List ℕ) (t : Tableau ℚ) : Prop :=
  ∃ n k u v, 0 < k ∧ Pivots tol blocked n t u ∧ Pivots tol blocked k u v ∧ v.basis = u.basis

/-- A run makes as many exchanges as one likes. -/
def Endless (tol : ℚ) (blocked : List ℕ) (t : Tableau ℚ) : Prop :=
  ∀ n, ∃ u, Pivots tol blocked n t u

/-- A run comes back to one basis again and again. -/
def Cycles (tol : ℚ) (blocked : List ℕ) (t : Tableau ℚ) : Prop :=
  ∃ b, ∀ n, ∃ k u, n ≤ k ∧ Pivots tol blocked k t u ∧ u.basis = b

/-- Every variable that leaves the basis in a run is positive. -/
def Nondegenerate (tol : ℚ) (blocked : List ℕ) (t : Tableau ℚ) : Prop :=
  ∀ n u row col, Pivots tol blocked n t u → u.move tol blocked = .exchange row col →
    0 < u.entry row u.rhsCol

/-- The tableau after a number of exchanges, if the rule makes as many. -/
def after (tol : ℚ) (blocked : List ℕ) : ℕ → Tableau ℚ → Option (Tableau ℚ)
  | 0, t => some t
  | n + 1, t =>
    match t.move tol blocked with
    | .exchange r c => after tol blocked n (t.pivoted r c tol)
    | _ => none

variable {tol : ℚ} {blocked : List ℕ} {t t' u v w : Tableau ℚ} {n k cap : ℕ}

lemma Shaped.after_iff (h : t.Shaped) :
    after tol blocked n t = some u ↔ Pivots tol blocked n t u := by
  induction n generalizing t with
  | zero =>
    rw [after, Option.some.injEq]
    constructor
    · rintro rfl
      exact Pivots.refl _
    · intro hp
      cases hp
      rfl
  | succ n ih =>
    rw [after]
    constructor
    · intro ha
      cases hm : t.move tol blocked with
      | exchange r c =>
        simp only [hm] at ha
        have hx : t.Exchanges tol blocked (t.pivoted r c tol) := ⟨r, c, hm, h.pivot_ok hm⟩
        exact Pivots.step hx ((ih (h.exchanges hx)).mp ha)
      | optimal | unbounded | limit =>
        simp only [hm] at ha
        cases ha
    · intro hp
      cases hp with
      | step hx rest =>
        have hshape := h.exchanges hx
        obtain ⟨r, c, hm, hpiv⟩ := hx
        rw [h.pivot_ok hm] at hpiv
        cases hpiv
        simp only [hm]
        exact (ih hshape).mpr rest

lemma Pivots.exists_of_le (h : Pivots tol blocked n t u) (hle : k ≤ n) :
    ∃ w, Pivots tol blocked k t w := by
  obtain ⟨d, rfl⟩ := Nat.exists_eq_add_of_le hle
  obtain ⟨w, hw, -⟩ := h.split
  exact ⟨w, hw⟩

section Pigeonhole

lemma Shaped.exists_table (h : t.Shaped) (htol : 0 ≤ tol) (blocked : List ℕ) :
    ∃ f : Tableau ℚ → Fin t.rows.length → Fin t.columns.length, ∀ i j u v,
      Pivots tol blocked i t u → Pivots tol blocked j t v → f u = f v → u.basis = v.basis := by
  have hpos : 0 < t.columns.length := by
    have hcols := h.rhsCol_add_one
    omega
  have hlen : ∀ i u, Pivots tol blocked i t u → u.basis.length = t.rows.length := by
    intro i u hu
    rw [(h.pivots hu).basis, (h.rowEquivalent_pivots htol hu).rowCount]
  have hinside : ∀ i u, Pivots tol blocked i t u → ∀ b ∈ u.basis, b < t.columns.length := by
    intro i u hu b hb
    have hin := ((h.pivots hu).inside b hb).2
    have hcols := (h.pivots hu).rhsCol_add_one
    rw [(h.rowEquivalent_pivots htol hu).columns] at hcols
    omega
  refine ⟨fun u r => ⟨u.basis.getD r 0 % t.columns.length, Nat.mod_lt _ hpos⟩, ?_⟩
  intro i j u v hu hv he
  apply List.ext_getElem
  · rw [hlen i u hu, hlen j v hv]
  · intro r hr hr'
    have hlt : r < t.rows.length := by rwa [hlen i u hu] at hr
    have hval := congrArg Fin.val (congrFun he ⟨r, hlt⟩)
    dsimp only at hval
    rwa [List.getD_eq_getElem _ _ hr, List.getD_eq_getElem _ _ hr',
      Nat.mod_eq_of_lt (hinside i u hu _ (List.getElem_mem hr)),
      Nat.mod_eq_of_lt (hinside j v hv _ (List.getElem_mem hr'))] at hval

lemma Pivots.between {i j : ℕ} (hu : Pivots tol blocked i t u) (hv : Pivots tol blocked j t v)
    (hlt : i < j) : Pivots tol blocked (j - i) u v := by
  have hsum : i + (j - i) = j := by omega
  rw [← hsum] at hv
  obtain ⟨x, hx, hy⟩ := hv.split
  rwa [hx.unique hu] at hy

/-- A run with at least as many exchanges as there are lists of columns comes back to a basis. -/
theorem Shaped.revisits (h : t.Shaped) (htol : 0 ≤ tol) (hp : Pivots tol blocked n t u)
    (hn : t.columns.length ^ t.rows.length ≤ n) : t.Revisits tol blocked := by
  have hpre : ∀ i : Fin (n + 1), ∃ w, Pivots tol blocked i t w := by
    intro i
    exact hp.exists_of_le (Nat.le_of_lt_succ i.isLt)
  choose w hw using hpre
  obtain ⟨f, hf⟩ := h.exists_table htol blocked
  obtain ⟨i, j, hne, he⟩ := Fintype.exists_ne_map_eq_of_card_lt (fun i => f (w i)) (by
    rw [Fintype.card_fun, Fintype.card_fin, Fintype.card_fin, Fintype.card_fin]
    exact Nat.lt_succ_of_le hn)
  have key : ∀ a b : Fin (n + 1), a < b → f (w a) = f (w b) → t.Revisits tol blocked := by
    intro a b hab heq
    have hlt : (a : ℕ) < b := hab
    exact ⟨a, b - a, w a, w b, Nat.sub_pos_of_lt hlt, hw a, (hw a).between (hw b) hlt,
      (hf a b _ _ (hw a) (hw b) heq).symm⟩
  rcases lt_or_gt_of_ne hne with hlt | hlt
  · exact key i j hlt he
  · exact key j i hlt he.symm

/-- Some basis of an endless run occurs again and again. -/
theorem Shaped.cycles_iff (h : t.Shaped) (htol : 0 ≤ tol) :
    t.Cycles tol blocked ↔ t.Endless tol blocked := by
  constructor
  · rintro ⟨b, hb⟩ n
    obtain ⟨k, u, hk, hu, -⟩ := hb n
    exact hu.exists_of_le hk
  · intro hends
    choose w hw using hends
    obtain ⟨f, hf⟩ := h.exists_table htol blocked
    obtain ⟨y, hy⟩ := Finite.exists_infinite_fiber (fun n => f (w n))
    have hinf := Set.infinite_coe_iff.mp hy
    obtain ⟨i, hi⟩ := hinf.nonempty
    refine ⟨(w i).basis, fun n => ?_⟩
    obtain ⟨k, hk, hlt⟩ := hinf.exists_gt n
    exact ⟨k, w k, hlt.le, hw k, hf k i _ _ (hw k) (hw i) (hk.trans hi.symm)⟩

lemma Cycles.revisits (h : t.Cycles tol blocked) : t.Revisits tol blocked := by
  obtain ⟨b, hb⟩ := h
  obtain ⟨i, u, -, hu, hub⟩ := hb 0
  obtain ⟨j, v, hij, hv, hvb⟩ := hb (i + 1)
  exact ⟨i, j - i, u, v, by omega, hu, hu.between hv hij, hvb.trans hub.symm⟩

end Pigeonhole

section Loops

lemma Pivots.repeat (h : Pivots tol blocked k u u) (j : ℕ) : Pivots tol blocked (j * k) u u := by
  induction j with
  | zero =>
    rw [Nat.zero_mul]
    exact Pivots.refl u
  | succ j ih =>
    rw [Nat.succ_mul]
    exact ih.trans h

/-- A run that comes back to a tableau makes as many exchanges as one likes. -/
theorem Pivots.endless (h : Pivots tol blocked n t u) (hloop : Pivots tol blocked k u u)
    (hk : 0 < k) : t.Endless tol blocked := by
  intro cap
  have hle : cap ≤ n + cap * k := by
    have hmul := Nat.le_mul_of_pos_right cap hk
    omega
  exact (h.trans (hloop.repeat cap)).exists_of_le hle

/-- On clean columns a run that comes back to a basis comes back to the tableau. -/
theorem Shaped.loop_of_basis (h : t.Shaped) (htol : 0 ≤ tol) (hcan : t.Canonical)
    (hclean : CleanRun tol blocked (n + k) t) (hp : Pivots tol blocked n t u)
    (hloop : Pivots tol blocked k u v) (hb : v.basis = u.basis) : Pivots tol blocked k u u := by
  have hu := h.canonical_pivots htol hcan hclean hp (Nat.le_add_right n k)
  have hv := h.canonical_pivots htol hcan hclean (hp.trans hloop) le_rfl
  have hshape := h.pivots hp
  have heq : v = u := hshape.eq_of_basis (hshape.pivots hloop) hu hv
    (hshape.rowEquivalent_pivots htol hloop) hb
  rwa [heq] at hloop

lemma Outcome.ending_limit {s : RunSetting ℚ} {done : ℕ} {r : PivotRun ℚ}
    (h : Outcome s cap done t k r) (hp : Pivots s.tol s.blocked cap t w) : r.ending = .limit := by
  rcases h.ending with ⟨-, hl⟩ | ⟨hlt, hmove, hne⟩
  · exact hl
  · obtain ⟨d, rfl⟩ := Nat.exists_eq_add_of_lt hlt
    rw [Nat.add_assoc] at hp
    obtain ⟨x, hx, hrest⟩ := hp.split
    rw [hx.unique h.pivots] at hrest
    cases hrest with
    | step hex _ =>
      obtain ⟨row, col, hm, -⟩ := hex
      exact (hne row col (hmove.trans hm)).elim

end Loops

section Nondegenerate

lemma Nondegenerate.pivots (h : t.Nondegenerate tol blocked) (hp : Pivots tol blocked n t u) :
    u.Nondegenerate tol blocked :=
  fun _ w row col hw => h _ w row col (hp.trans hw)

/-- An exchange whose leaving variable is positive raises the objective value. -/
lemma Rectangular.objective_lt_exchange (h : t.Rectangular) (htol : 0 ≤ tol)
    (hpos : t.Nondegenerate tol blocked) (hx : t.Exchanges tol blocked t') :
    t.entry 0 t.rhsCol < t'.entry 0 t'.rhsCol := by
  obtain ⟨row, col, he, hl, hr, hr', -, -, -, rfl⟩ := h.exchange_spec hx
  have hlt := (h.entering_least he).1
  have hneg : t.entry 0 col < 0 := by linarith
  have hbig : tol < |t.entry 0 col| := by
    rw [abs_of_neg hneg]
    linarith
  have hpivot : 0 < t.entry row col := htol.trans_lt (leaving_inside hl).2.2
  have hratio : 0 < t.entry row t.rhsCol / t.entry row col :=
    div_pos (hpos 0 t row col (Pivots.refl t) (move_eq_exchange_iff.mpr ⟨he, hl⟩)) hpivot
  have hmul := mul_neg_of_neg_of_pos hneg hratio
  rw [pivoted_rhsCol, h.entry_pivoted hr hr', if_neg hr.ne, if_pos hbig]
  linarith

/-- A run with positive leaving variables raises the objective value from exchange to exchange. -/
theorem Shaped.objective_lt_pivots (h : t.Shaped) (htol : 0 ≤ tol)
    (hpos : t.Nondegenerate tol blocked) (hp : Pivots tol blocked n t u) (hn : 0 < n) :
    t.entry 0 t.rhsCol < u.entry 0 u.rhsCol := by
  induction hp with
  | refl => exact absurd hn (Nat.lt_irrefl 0)
  | @step n t t' u hx hrest ih =>
    have hfirst := h.objective_lt_exchange htol hpos hx
    have hpos' := hpos.pivots (Pivots.step hx (Pivots.refl t'))
    rcases Nat.eq_zero_or_pos n with rfl | hn'
    · cases hrest
      exact hfirst
    · exact hfirst.trans (ih (h.exchanges hx) hpos' hn')

/-- On clean columns a run with positive leaving variables never comes back to a basis. -/
theorem Shaped.not_revisits (h : t.Shaped) (htol : 0 ≤ tol) (hcan : t.Canonical)
    (hclean : ∀ cap, CleanRun tol blocked cap t) (hpos : t.Nondegenerate tol blocked) :
    ¬ t.Revisits tol blocked := by
  rintro ⟨n, k, u, v, hk, hu, hv, hb⟩
  have hloop := h.loop_of_basis htol hcan (hclean (n + k)) hu hv hb
  exact lt_irrefl _ ((h.pivots hu).objective_lt_pivots htol (hpos.pivots hu) hloop hk)

end Nondegenerate

end Tableau

end SimplexTableau
