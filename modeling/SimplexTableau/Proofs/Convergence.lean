import SimplexTableau.Proofs.CleanSolve
import SimplexTableau.Proofs.Points
import SimplexTableau.Proofs.Revisits
import SimplexTableau.Proofs.Totality

/-!
# Convergence of a solution

A solution ends before every large cap exactly if none of its runs comes back to one basis again
and again; if one does, it hits every large cap. A cap of the number of lists of columns is large
enough if no run comes back to a basis at all, and on clean columns one return is enough to go
round for ever. There no run comes back whose leaving variables are all positive. Where they are
not, Dantzig's rule with its tie breaking can go round: it does so through six bases on a problem
that has an optimum.
-/

namespace SimplexTableau

/-- The same options under another cap on pivots. -/
def SolveOptions.withCap (o : SolveOptions ℚ) (cap : ℕ) : SolveOptions ℚ :=
  { o with maxIters := cap }

namespace Problem

/-- A solution ends because its cap on pivots is reached. -/
def HitsLimit (p : Problem ℚ) (m : Method) (o : SolveOptions ℚ) : Prop :=
  (p.solve m o).steps.getLast?.map (·.kind) = some .iterationLimit

/-- The tableaux on which a run of a solution starts under some cap, with the columns that may
not enter. -/
inductive RunStart (p : Problem ℚ) (m : Method) (o : SolveOptions ℚ) : Tableau ℚ → List ℕ → Prop
  | first {t : Tableau ℚ} (h : p.tableau m o = .ok t) : RunStart p m o t []
  | second {cap : ℕ} {c : Course ℚ} {second : SecondPhase ℚ}
      (hc : p.course m (o.withCap cap) = .ok c) (hs : second ∈ c.second) :
      RunStart p m o second.start second.start.artificial

/-- One of the runs of a solution comes back to a basis. -/
def Revisits (p : Problem ℚ) (m : Method) (o : SolveOptions ℚ) : Prop :=
  ∃ t blocked, p.RunStart m o t blocked ∧ t.Revisits o.tol blocked

/-- One of the runs of a solution comes back to one basis again and again. -/
def Cycles (p : Problem ℚ) (m : Method) (o : SolveOptions ℚ) : Prop :=
  ∃ t blocked, p.RunStart m o t blocked ∧ t.Cycles o.tol blocked

variable {p : Problem ℚ} {m : Method} {o : SolveOptions ℚ} {c : Course ℚ} {t : Tableau ℚ}
  {blocked : List ℕ}

section Endings

/-- A solution hits its cap if its last run does. -/
theorem Courses.hitsLimit_iff (h : p.Courses m o c) :
    p.HitsLimit m o ↔ (c.second = none ∧ c.first.ending = .limit) ∨
      ∃ second ∈ c.second, second.run.ending = .limit := by
  unfold HitsLimit
  rw [h.last_kind, Option.some.injEq]
  unfold Course.ending
  cases hsec : c.second with
  | none =>
    dsimp only
    constructor
    · intro hkind
      exact Or.inl ⟨rfl, kind_eq_iterationLimit hkind⟩
    · rintro (⟨-, he⟩ | ⟨second, hs, -⟩)
      · rw [he]
        rfl
      · cases hs
  | some second =>
    dsimp only
    constructor
    · intro hkind
      exact Or.inr ⟨second, rfl, kind_eq_iterationLimit hkind⟩
    · rintro (⟨hnone, -⟩ | ⟨second', hs, he⟩)
      · cases hnone
      · cases hs
        rw [he]
        rfl

lemma HitsLimit.course (h : p.HitsLimit m o) : ∃ c, p.course m o = .ok c := by
  unfold HitsLimit solve at h
  cases hc : p.course m o with
  | error e =>
    rw [hc] at h
    cases h
  | ok c => exact ⟨c, rfl⟩

/-- A solution that hits its cap is reported as unbounded. -/
theorem HitsLimit.status (h : p.HitsLimit m o) : (p.solve m o).status = .unbounded := by
  obtain ⟨c, hc⟩ := h.course
  rw [solve_status hc]
  apply Course.status_of_ending
  unfold HitsLimit at h
  rw [(course_courses hc).last_kind, Option.some.injEq] at h
  rw [kind_eq_iterationLimit h]
  simp

end Endings

section Bound

lemma pivots_of_limit {s : RunSetting ℚ} {cap done : ℕ} {r : PivotRun ℚ}
    (h : t.run s cap done = .ok r) (he : r.ending = .limit) :
    Tableau.Pivots s.tol s.blocked cap t r.final := by
  obtain ⟨k, hk⟩ := Tableau.run_outcome h
  rcases hk.ending with ⟨hcap, -⟩ | ⟨-, hmove, -⟩
  · rw [← hcap]
    exact hk.pivots
  · exact (Tableau.move_ne_limit (hmove.symm.trans he)).elim

lemma RunStart.sameRows (hp : p.Valid) (htol : 0 ≤ o.tol) (h : p.RunStart m o t blocked) :
    p.SameRows t := by
  cases h with
  | first ht => exact (hp.tableau_startsOn ht).sameRows hp
  | @second cap c second hc hs =>
    obtain ⟨-, -, -, -, hrows, -⟩ :=
      (course_courses hc).handover (o := o.withCap cap) hp htol hs
    exact hrows

/-- In a solution that hits its cap, some run makes as many exchanges as the cap. -/
theorem HitsLimit.pivots {cap : ℕ} (h : p.HitsLimit m (o.withCap cap)) :
    ∃ t blocked u, p.RunStart m o t blocked ∧ Tableau.Pivots o.tol blocked cap t u := by
  obtain ⟨c, hc⟩ := h.course
  have hcourses := course_courses hc
  rcases hcourses.hitsLimit_iff.mp h with ⟨hnone, hend⟩ | ⟨second, hs, hend⟩
  · cases hcourses with
    | @single start first ht _ hr | @halted start first ht _ hr =>
      exact ⟨start, [], first.final, RunStart.first ht, pivots_of_limit hr hend⟩
    | handedOver => cases hnone
  · have hstart := RunStart.second hc hs
    cases hcourses with
    | single | halted => cases hs
    | handedOver _ _ _ _ _ _ _ hr2 =>
      cases hs
      exact ⟨second.start, _, second.run.final, hstart, pivots_of_limit hr2 hend⟩

/-- A solution that hits a large cap has come back to a basis. -/
theorem HitsLimit.revisits (hp : p.Valid) (htol : 0 ≤ o.tol) {cap : ℕ}
    (h : p.HitsLimit m (o.withCap cap))
    (hcap : p.columns.length ^ p.constraints.length ≤ cap) : p.Revisits m o := by
  obtain ⟨t, blocked, u, hstart, hpiv⟩ := h.pivots
  have hrows := hstart.sameRows hp htol
  refine ⟨t, blocked, hstart, hrows.shaped.revisits htol hpiv ?_⟩
  rwa [hrows.columns, hrows.rowCount, standard, List.length_map]

end Bound

section Loops

/-- If the rule makes as many exchanges on the first tableau as the cap allows, the solution hits
the cap in its first run. -/
theorem hitsLimit_first (hp : p.Valid) (ht : p.tableau m o = .ok t)
    {u : Tableau ℚ} (hpiv : Tableau.Pivots o.tol [] o.maxIters t u) :
    ∃ c, p.course m o = .ok c ∧ c.start = t ∧ p.HitsLimit m o := by
  have hshape := (hp.tableau_startsOn ht).shaped hp
  by_cases hm : t.hasFirstPhase m = true
  · obtain ⟨r, hr⟩ := hshape.run_ok (firstSetting o) o.maxIters 0
    obtain ⟨k, hk⟩ := Tableau.run_outcome hr
    have hend := hk.ending_limit hpiv
    have hcourses : p.Courses m o ⟨t, r, none⟩ := by
      apply Courses.halted ht hm hr
      rw [hend]
      rintro ⟨he, -⟩
      cases he
    exact ⟨_, hcourses.course_eq, rfl, hcourses.hitsLimit_iff.mpr (Or.inl ⟨rfl, hend⟩)⟩
  · obtain ⟨r, hr⟩ := hshape.run_ok (singleSetting o) o.maxIters 0
    obtain ⟨k, hk⟩ := Tableau.run_outcome hr
    have hend := hk.ending_limit hpiv
    have hcourses : p.Courses m o ⟨t, r, none⟩ := Courses.single ht (by simpa using hm) hr
    exact ⟨_, hcourses.course_eq, rfl, hcourses.hitsLimit_iff.mpr (Or.inl ⟨rfl, hend⟩)⟩

/-- A second run starts on the same tableau under every larger cap. -/
theorem course_of_le (hp : p.Valid) (htol : 0 ≤ o.tol) {cap cap' : ℕ}
    (hc : p.course m (o.withCap cap) = .ok c) {second : SecondPhase ℚ} (hs : second ∈ c.second)
    (hle : cap ≤ cap') : ∃ c', p.course m (o.withCap cap') = .ok c' ∧
      ∃ second' ∈ c'.second, second'.start = second.start := by
  have hcourses := course_courses hc
  obtain ⟨-, -, -, -, hrows, -⟩ := hcourses.handover (o := o.withCap cap) hp htol hs
  cases hcourses with
  | single | halted => cases hs
  | @handedOver start first driven second ht hm hr hend hsmall hd hres _ hswaps =>
    cases hs
    have hne : first.ending ≠ .limit := by
      rw [hend]
      simp
    obtain ⟨r, hr2⟩ := hrows.shaped.run_ok
      (secondSetting (o.withCap cap') second.start first.steps) cap' 0
    have hlarge : p.Courses m (o.withCap cap')
        ⟨start, first, some ⟨second.swaps, second.start, r⟩⟩ :=
      Courses.handedOver ht hm (Tableau.run_of_le hr hne hle) hend hsmall hd hres hr2 hswaps
    exact ⟨_, hlarge.course_eq, _, rfl, rfl⟩

lemma Courses.hitsLimit_second (h : p.Courses m o c) {second : SecondPhase ℚ}
    (hs : second ∈ c.second) {u : Tableau ℚ}
    (hpiv : Tableau.Pivots o.tol second.start.artificial o.maxIters second.start u) :
    p.HitsLimit m o := by
  obtain ⟨k, hk⟩ := h.second_outcome hs
  apply h.hitsLimit_iff.mpr
  exact Or.inr ⟨second, hs, hk.ending_limit hpiv⟩

lemma second_unique (hp : p.Valid) (htol : 0 ≤ o.tol) {cap cap' : ℕ} {c' : Course ℚ}
    (hc : p.course m (o.withCap cap) = .ok c) (hc' : p.course m (o.withCap cap') = .ok c')
    {second second' : SecondPhase ℚ} (hs : second ∈ c.second) (hs' : second' ∈ c'.second) :
    second.start = second'.start := by
  obtain ⟨d, hd, s, hsd, he⟩ := course_of_le hp htol hc hs (le_max_left cap cap')
  obtain ⟨d', hd', s', hsd', he'⟩ := course_of_le hp htol hc' hs' (le_max_right cap cap')
  rw [hd] at hd'
  cases hd'
  rw [← he, ← he', Option.mem_unique hsd hsd']

/-- If a run of a solution is endless, the solution hits every large cap. -/
theorem RunStart.hitsLimit (hp : p.Valid) (htol : 0 ≤ o.tol) (h : p.RunStart m o t blocked)
    (hends : t.Endless o.tol blocked) :
    ∃ bound, ∀ cap, bound ≤ cap → p.HitsLimit m (o.withCap cap) := by
  cases h with
  | first ht =>
    refine ⟨0, fun cap _ => ?_⟩
    obtain ⟨w, hw⟩ := hends cap
    obtain ⟨c, -, -, hlimit⟩ := hitsLimit_first (o := o.withCap cap) hp ht hw
    exact hlimit
  | @second cap₀ c second hc hs =>
    refine ⟨cap₀, fun cap hle => ?_⟩
    obtain ⟨c', hc', s', hs', he⟩ := course_of_le hp htol hc hs hle
    obtain ⟨w, hw⟩ := hends cap
    rw [← he] at hw
    exact (course_courses hc').hitsLimit_second hs' hw

/-- If no run of a solution is endless, one bound holds for the exchanges of all of them. -/
theorem exists_bound (hp : p.Valid) (htol : 0 ≤ o.tol)
    (h : ∀ t blocked, p.RunStart m o t blocked → ¬ t.Endless o.tol blocked) :
    ∃ bound, ∀ t blocked cap u, p.RunStart m o t blocked → bound ≤ cap →
      ¬ Tableau.Pivots o.tol blocked cap t u := by
  have hone : ∀ t blocked, p.RunStart m o t blocked →
      ∃ bound, ∀ cap u, bound ≤ cap → ¬ Tableau.Pivots o.tol blocked cap t u := by
    intro t blocked hstart
    obtain ⟨bound, hbound⟩ := not_forall.mp (h t blocked hstart)
    refine ⟨bound, fun cap u hle hpiv => hbound ?_⟩
    exact hpiv.exists_of_le hle
  have hfirst : ∃ bound, ∀ t, p.tableau m o = .ok t → ∀ cap u, bound ≤ cap →
      ¬ Tableau.Pivots o.tol [] cap t u := by
    cases ht : p.tableau m o with
    | error e =>
      refine ⟨0, fun t h => ?_⟩
      cases h
    | ok start =>
      obtain ⟨bound, hbound⟩ := hone start [] (RunStart.first ht)
      refine ⟨bound, fun t h => ?_⟩
      cases h
      exact hbound
  have hsecond : ∃ bound, ∀ cap₀ c second, p.course m (o.withCap cap₀) = .ok c →
      second ∈ c.second → ∀ cap u, bound ≤ cap →
        ¬ Tableau.Pivots o.tol second.start.artificial cap second.start u := by
    by_cases hsec : ∃ cap c second, p.course m (o.withCap cap) = .ok c ∧ second ∈ c.second
    · obtain ⟨cap₀, c, second, hc, hs⟩ := hsec
      obtain ⟨bound, hbound⟩ := hone _ _ (RunStart.second hc hs)
      refine ⟨bound, fun cap₁ c' second' hc' hs' => ?_⟩
      rw [second_unique hp htol hc' hc hs' hs]
      exact hbound
    · refine ⟨0, fun cap₁ c second hc hs => ?_⟩
      exact (hsec ⟨cap₁, c, second, hc, hs⟩).elim
  obtain ⟨k, hk⟩ := hfirst
  obtain ⟨l, hl⟩ := hsecond
  refine ⟨max k l, fun t blocked cap u hstart hle => ?_⟩
  cases hstart with
  | first ht => exact hk t ht cap u ((le_max_left k l).trans hle)
  | second hc hs => exact hl _ _ _ hc hs cap u ((le_max_right k l).trans hle)

/-- All runs of a solution on clean columns start on canonical tableaux and have clean columns,
however many exchanges they make. -/
theorem RunStart.clean (hp : p.Valid) (htol : 0 ≤ o.tol)
    (hclean : ∀ cap, p.CleanSolve m (o.withCap cap)) (h : p.RunStart m o t blocked) :
    t.Canonical ∧ ∀ cap, Tableau.CleanRun o.tol blocked cap t := by
  cases h with
  | first ht =>
    refine ⟨(hp.tableau_startsOn ht).canonical hp, fun cap => ?_⟩
    obtain ⟨c, hc⟩ := hp.course_of_tableau (o := o.withCap cap) ht
    obtain rfl := Except.ok.inj (ht.symm.trans (course_courses hc).first_run.1)
    exact (hclean cap c hc).first
  | @second cap₀ c second hc hs =>
    obtain ⟨hcan, -, -⟩ :=
      (course_courses hc).second_spec (o := o.withCap cap₀) hp htol (hclean cap₀ c hc) hs
    refine ⟨hcan, fun cap => ?_⟩
    obtain ⟨c', hc', s, hs', he⟩ := course_of_le hp htol hc hs (Nat.le_add_right cap₀ cap)
    have hrun := (hclean _ c' hc').second s hs'
    rw [he] at hrun
    exact hrun.mono (Nat.le_add_left cap cap₀)

/-- On clean columns a run that comes back to a basis is endless. -/
theorem RunStart.endless (hp : p.Valid) (htol : 0 ≤ o.tol)
    (hclean : ∀ cap, p.CleanSolve m (o.withCap cap)) (h : p.RunStart m o t blocked)
    (hrev : t.Revisits o.tol blocked) : t.Endless o.tol blocked := by
  obtain ⟨n, k, u, v, hk, hu, hv, hb⟩ := hrev
  obtain ⟨hcan, hrun⟩ := h.clean hp htol hclean
  have hshape := (h.sameRows hp htol).shaped
  exact hu.endless (hshape.loop_of_basis htol hcan (hrun (n + k)) hu hv hb) hk

/-- On clean columns a solution whose leaving variables are all positive ends before every cap of at
least the number of lists of columns. -/
theorem not_hitsLimit_of_nondegenerate (hp : p.Valid) (htol : 0 ≤ o.tol)
    (hclean : ∀ cap, p.CleanSolve m (o.withCap cap))
    (hpos : ∀ t blocked, p.RunStart m o t blocked → t.Nondegenerate o.tol blocked) {cap : ℕ}
    (hcap : p.columns.length ^ p.constraints.length ≤ cap) :
    ¬ p.HitsLimit m (o.withCap cap) := by
  intro h
  obtain ⟨t, blocked, hstart, hrev⟩ := h.revisits hp htol hcap
  obtain ⟨hcan, hrun⟩ := hstart.clean hp htol hclean
  exact (hstart.sameRows hp htol).shaped.not_revisits htol hcan hrun (hpos t blocked hstart) hrev

end Loops

section Convergence

/-- A solution ends before every large cap exactly if it does not cycle; if it cycles, it hits
every large cap. The number of lists of columns is a bound if no run comes back to a basis. If all
columns are clean, coming back to a basis is the same as cycling. -/
theorem converges_iff (hp : p.Valid) (ho : o.Valid) :
    ((∃ bound, ∀ cap, bound ≤ cap → ¬ p.HitsLimit m (o.withCap cap)) ↔ ¬ p.Cycles m o) ∧
    (p.Cycles m o → ∃ bound, ∀ cap, bound ≤ cap → p.HitsLimit m (o.withCap cap)) ∧
    (¬ p.Revisits m o → ∀ cap, p.columns.length ^ p.constraints.length ≤ cap →
      ¬ p.HitsLimit m (o.withCap cap)) ∧
    ((∀ cap, p.CleanSolve m (o.withCap cap)) → (p.Cycles m o ↔ p.Revisits m o)) := by
  have htol : (0 : ℚ) ≤ o.tol := le_of_lt ho.tol
  have hends : ∀ t blocked, p.RunStart m o t blocked →
      (t.Cycles o.tol blocked ↔ t.Endless o.tol blocked) :=
    fun t blocked hstart => (hstart.sameRows hp htol).shaped.cycles_iff htol
  have hcycles : p.Cycles m o → ∃ bound, ∀ cap, bound ≤ cap → p.HitsLimit m (o.withCap cap) := by
    rintro ⟨t, blocked, hstart, hc⟩
    exact hstart.hitsLimit hp htol ((hends t blocked hstart).mp hc)
  refine ⟨⟨?_, ?_⟩, hcycles, ?_, ?_⟩
  · rintro ⟨bound, hbound⟩ hc
    obtain ⟨bound', hbound'⟩ := hcycles hc
    exact hbound _ (le_max_left bound bound') (hbound' _ (le_max_right bound bound'))
  · intro hnot
    have hfinite : ∀ t blocked, p.RunStart m o t blocked → ¬ t.Endless o.tol blocked := by
      intro t blocked hstart he
      exact hnot ⟨t, blocked, hstart, (hends t blocked hstart).mpr he⟩
    obtain ⟨bound, hbound⟩ := exists_bound hp htol hfinite
    refine ⟨bound, fun cap hle hlimit => ?_⟩
    obtain ⟨t, blocked, u, hstart, hpiv⟩ := hlimit.pivots
    exact hbound t blocked cap u hstart hle hpiv
  · intro hnot cap hcap hlimit
    exact hnot (hlimit.revisits hp htol hcap)
  · intro hclean
    constructor
    · rintro ⟨t, blocked, hstart, hc⟩
      exact ⟨t, blocked, hstart, hc.revisits⟩
    · rintro ⟨t, blocked, hstart, hrev⟩
      exact ⟨t, blocked, hstart, (hends t blocked hstart).mpr
        (hstart.endless hp htol hclean hrev)⟩

theorem converges_diet :
    ∃ bound, ∀ cap, bound ≤ cap →
      ¬ diet.HitsLimit .bigM (({} : SolveOptions ℚ).withCap cap) := by
  have hvalid : ({} : SolveOptions ℚ).Valid := SolveOptions.valid_default (by decide)
  apply (converges_iff (m := .bigM) diet_valid hvalid).1.mpr
  rintro ⟨t, blocked, hstart, hc⟩
  have hshape := (hstart.sameRows diet_valid hvalid.tol.le).shaped
  obtain ⟨u, hu⟩ := (hshape.cycles_iff hvalid.tol.le).mp hc 5
  cases hstart with
  | first ht =>
    have hstop : (diet.tableau .bigM {}).toOption.all
        (fun t => Tableau.after 1e-9 [] 5 t = none) = true := by decide +kernel
    rw [ht] at hstop
    have hnone : Tableau.after 1e-9 [] 5 t = none := of_decide_eq_true hstop
    rw [hshape.after_iff.mpr hu] at hnone
    cases hnone
  | second hcourse hs =>
    cases course_courses hcourse with
    | single | halted => cases hs
    | handedOver _ hm => cases hm

/-- A problem on which the rule goes round through six bases, all of them at the origin. -/
def cycling : Problem ℚ where
  direction := .max
  objective := [10, -57, -9, -24]
  constraints := [⟨"c1", [1 / 2, -11 / 2, -5 / 2, 9], .le, 0⟩,
    ⟨"c2", [1 / 2, -3 / 2, -1 / 2, 1], .le, 0⟩, ⟨"c3", [1, 0, 0, 0], .le, 1⟩]

lemma cycling_valid : cycling.Valid :=
  ⟨Or.inl rfl, by simp [cycling], by decide +kernel⟩

lemma cycling_endless : ∃ t, cycling.tableau .simplex {} = .ok t ∧
    t.Endless (({} : SolveOptions ℚ).tol) [] := by
  obtain ⟨t, ht, hloop⟩ := exists_ok_of_any (by decide +kernel :
    (cycling.tableau .simplex {}).toOption.any
      (fun t => Tableau.after (({} : SolveOptions ℚ).tol) [] 6 t = some t) = true)
  have hshape := (cycling_valid.tableau_startsOn ht).shaped cycling_valid
  have hback := hshape.after_iff.mp (of_decide_eq_true hloop)
  exact ⟨t, ht, (Tableau.Pivots.refl t).endless hback (by decide)⟩

/-- Eighteen times the second row plus the third one bounds the objective. -/
lemma cycling_bounded {x : List ℚ} (h : cycling.Feasible x) : dot cycling.objective x ≤ 1 := by
  obtain ⟨hlength, hnonneg, hholds⟩ := h
  match x, hlength with
  | [a, b, c, d], _ =>
    have h2 := hholds ⟨"c2", [1 / 2, -3 / 2, -1 / 2, 1], .le, 0⟩ (by simp [cycling])
    have h3 := hholds ⟨"c3", [1, 0, 0, 0], .le, 1⟩ (by simp [cycling])
    have hb := hnonneg b (by simp)
    have hd := hnonneg d (by simp)
    simp only [Constraint.Holds, dot] at h2 h3
    simp only [cycling, dot]
    linarith

/-- The rule does not converge on every problem. There is one with an optimum on which it hits
every cap. -/
theorem cycling_hitsLimit :
    cycling.Valid ∧ cycling.Feasible [1, 0, 1, 0] ∧
    (∀ x, cycling.Feasible x → dot cycling.objective x ≤ dot cycling.objective [1, 0, 1, 0]) ∧
    (∀ cap, cycling.HitsLimit .simplex (({} : SolveOptions ℚ).withCap cap) ∧
      (cycling.solve .simplex (({} : SolveOptions ℚ).withCap cap)).status = .unbounded) ∧
    ¬ ∀ (p : Problem ℚ) (m : Method), p.Valid → ∃ bound, ∀ cap, bound ≤ cap →
      ¬ p.HitsLimit m (({} : SolveOptions ℚ).withCap cap) := by
  have hlimit : ∀ cap, cycling.HitsLimit .simplex (({} : SolveOptions ℚ).withCap cap) := by
    intro cap
    obtain ⟨t, ht, hends⟩ := cycling_endless
    obtain ⟨u, hu⟩ := hends cap
    obtain ⟨c, -, -, h⟩ := hitsLimit_first (o := ({} : SolveOptions ℚ).withCap cap)
      cycling_valid ht hu
    exact h
  refine ⟨cycling_valid, ⟨rfl, by decide +kernel, ?_⟩, ?_, ?_, ?_⟩
  · intro c hc
    simp only [cycling, List.mem_cons, List.not_mem_nil, or_false] at hc
    rcases hc with rfl | rfl | rfl <;> simp only [Constraint.Holds] <;> decide +kernel
  · intro x hx
    rw [show dot cycling.objective [1, 0, 1, 0] = 1 by decide +kernel]
    exact cycling_bounded hx
  · intro cap
    exact ⟨hlimit cap, (hlimit cap).status⟩
  · intro hall
    obtain ⟨bound, hbound⟩ := hall cycling .simplex cycling_valid
    exact hbound bound le_rfl (hlimit bound)

end Convergence

end Problem

end SimplexTableau
