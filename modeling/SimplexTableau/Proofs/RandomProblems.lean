import SimplexTableau.Proofs.Exact
import SimplexTableau.Proofs.Hundredths
import SimplexTableau.Instance.Seeded

/-!
# Feasibility of random problems

The covering row of a random problem asks the variables to sum to at least one. The coefficients of
its packing rows are at most five and their right-hand sides at least twice the number of variables,
before and after rounding to hundredths. With three variables or more, each variable alone may
therefore be one. With fewer variables the draws decide, and points that sum to exactly one are
enough to look at.
-/

namespace SimplexTableau

/-- A point satisfies a constraint on doubles, all of them taken at their exact values. -/
def Constraint.Admits (c : Constraint Float) (x : List ℚ) : Prop :=
  ∃ as : List ℚ, c.coefficients.map Double.value = as.map (fun a => some (Double.rational a)) ∧
    ∃ r ∈ Double.value c.rhs,
      match c.relation with
      | .le => Double.rational (dot as x) ≤ r
      | .ge => r ≤ Double.rational (dot as x)
      | .eq => Double.rational (dot as x) = r

/-- A point with an entry for each variable, none of them negative, satisfies all constraints on
doubles at their exact values. -/
structure Problem.Admits (p : Problem Float) (x : List ℚ) : Prop where
  length : x.length = p.numVars
  nonneg : ∀ v ∈ x, 0 ≤ v
  constraints : ∀ c ∈ p.constraints, c.Admits x

/-- The point with a one for a single variable. -/
def unitPoint (n j : ℕ) : List ℚ :=
  (List.range n).map fun k => if k = j then 1 else 0

lemma dot_unitPoint {as : List ℚ} {j : ℕ} (hj : j < as.length) :
    dot as (unitPoint as.length j) = as.getD j 0 := by
  rw [dot_eq_sum, Finset.sum_eq_single_of_mem j (Finset.mem_range.mpr hj)]
  · simp [unitPoint, hj]
  · intro k hk hkj
    simp [unitPoint, Finset.mem_range.mp hk, hkj]

lemma sum_unitPoint {n j : ℕ} (hj : j < n) : (unitPoint n j).sum = 1 := by
  simp [unitPoint, List.sum_map_ite_eq, hj]

lemma dot_replicate_one (x : List ℚ) : dot (List.replicate x.length 1) x = x.sum := by
  induction x with
  | nil => rfl
  | cons a x ih => rw [List.length_cons, List.replicate_succ, dot, ih, one_mul, List.sum_cons]

lemma dot_map_div (as x : List ℚ) (s : ℚ) : dot as (x.map (· / s)) = dot as x / s := by
  induction as generalizing x with
  | nil => simp [dot]
  | cons a as ih =>
    cases x with
    | nil => simp [dot]
    | cons v x =>
      rw [List.map_cons, dot, dot, ih]
      ring

lemma dot_nonneg {as x : List ℚ} (ha : ∀ a ∈ as, 0 ≤ a) (hx : ∀ v ∈ x, 0 ≤ v) : 0 ≤ dot as x := by
  induction as generalizing x with
  | nil => simp [dot]
  | cons a as ih =>
    cases x with
    | nil => simp [dot]
    | cons v x =>
      obtain ⟨hpos, ha⟩ := List.forall_mem_cons.mp ha
      obtain ⟨hv, hx⟩ := List.forall_mem_cons.mp hx
      exact add_nonneg (mul_nonneg hpos hv) (ih ha hx)

namespace Instance

variable {σ : Type}

section Draws

lemma mapM_cons {β γ : Type} (f : β → StateM σ γ) (b : β) (l : List β) (s : σ) :
    ((b :: l).mapM f s).1 = (f b s).1 :: (l.mapM f (f b s).2).1 := by
  rw [List.mapM_cons]
  rfl

lemma forall_mapM {β γ : Type} {f : β → StateM σ γ} {P : γ → Prop} (h : ∀ b s, P (f b s).1)
    (l : List β) (s : σ) : ∀ c ∈ (l.mapM f s).1, P c := by
  induction l generalizing s with
  | nil => exact fun _ hc => absurd hc List.not_mem_nil
  | cons b l ih =>
    rw [mapM_cons]
    exact List.forall_mem_cons.mpr ⟨h b s, ih _⟩

lemma length_mapM {β γ : Type} (f : β → StateM σ γ) (l : List β) (s : σ) :
    (l.mapM f s).1.length = l.length := by
  induction l generalizing s with
  | nil => rfl
  | cons b l ih => rw [mapM_cons, List.length_cons, ih, List.length_cons]

/-- The numbers that a source gives between two bounds lie between them. -/
def Uniform.Within (uniform : Uniform σ) (low high : Float) : Prop :=
  ∀ s, low ≤ (uniform low high s).1 ∧ (uniform low high s).1 ≤ high

/-- A packing row over `n` variables: its coefficients are not negative and at most five, and with
three variables or more its right-hand side is at least six. -/
structure Packing (n : ℕ) (c : Constraint Float) : Prop where
  relation : c.relation = .le
  length : c.coefficients.length = n
  coefficients : ∀ a ∈ c.coefficients, ∃ q, Double.value a = some (Double.rational q) ∧
    0 ≤ q ∧ q ≤ 5
  rhs : 3 ≤ n → ∃ v ∈ Double.value c.rhs, Double.rational 6 ≤ v

lemma six_le_twice {n : ℕ} (h : 3 ≤ n) {x : Float} (hx : Float.ofNat n * 2 ≤ x) :
    ∃ v ∈ Double.value x, Double.rational (6 : ℕ) ≤ v := by
  have htwo : Double.Exactly 2 (2 : Float).toModel.unpack := by decide +kernel
  obtain ⟨a, ha, hle⟩ := Double.reaches_mul (by norm_num) (by norm_num)
    (Double.reaches_ofNat (by norm_num) (by norm_num) h) htwo
  obtain ⟨a', ha', v, hv, hle'⟩ := Double.le_iff_value.mp hx
  obtain rfl := Option.mem_unique ha' ha
  exact ⟨v, hv, hle.trans hle'⟩

lemma length_drawRow (uniform : Uniform σ) (low high : Float) (n : ℕ) (s : σ) :
    (drawRow uniform low high n s).1.length = n :=
  (length_mapM _ _ s).trans List.length_range

lemma packing_packingRow {uniform : Uniform σ} {n : ℕ} (hcoefficients : uniform.Within 0.5 5)
    (hrhs : uniform.Within (Float.ofNat n * 2) (Float.ofNat n * 6)) (i : ℕ) (s : σ) :
    Packing n (packingRow uniform n i s).1 where
  relation := rfl
  length := length_drawRow uniform 0.5 5 n s
  coefficients := forall_mapM (fun _ s => Double.hundredths_between (hcoefficients s).1
    (hcoefficients s).2) _ s
  rhs h := Double.hundredths_reaches (by norm_num) (by norm_num) (six_le_twice h (hrhs _).1)

end Draws

section Rows

variable {n : ℕ} {c : Constraint Float} {x : List ℚ}

lemma exists_values {P : ℚ → Prop} {l : List Float}
    (h : ∀ a ∈ l, ∃ q, Double.value a = some (Double.rational q) ∧ P q) :
    ∃ as : List ℚ, l.map Double.value = as.map (fun a => some (Double.rational a)) ∧
      ∀ a ∈ as, P a := by
  induction l with
  | nil => exact ⟨[], rfl, by simp⟩
  | cons a l ih =>
    obtain ⟨⟨q, hq, hP⟩, hl⟩ := List.forall_mem_cons.mp h
    obtain ⟨as, has, hall⟩ := ih hl
    exact ⟨q :: as, by rw [List.map_cons, hq, has]; rfl, List.forall_mem_cons.mpr ⟨hP, hall⟩⟩

lemma Packing.admits_unitPoint (h : Packing n c) (hn : 3 ≤ n) {j : ℕ} (hj : j < n) :
    c.Admits (unitPoint n j) := by
  obtain ⟨as, has, hall⟩ := exists_values h.coefficients
  obtain ⟨r, hr, hle⟩ := h.rhs hn
  have hlen : as.length = n := by
    have hmap := congrArg List.length has
    rw [List.length_map, List.length_map, h.length] at hmap
    exact hmap.symm
  refine ⟨as, has, r, hr, ?_⟩
  subst hlen
  rw [h.relation]
  have hentry : dot as (unitPoint as.length j) ≤ 5 := by
    rw [dot_unitPoint hj, List.getD_eq_getElem _ _ hj]
    exact (hall _ (List.getElem_mem hj)).2
  exact (Double.rational_le.mpr (hentry.trans (by norm_num))).trans hle

lemma Packing.admits_shrunk (h : Packing n c) (hx : ∀ v ∈ x, 0 ≤ v) {s : ℚ} (hs : 1 ≤ s)
    (hadmits : c.Admits x) : c.Admits (x.map (· / s)) := by
  obtain ⟨as, has, r, hr, hle⟩ := hadmits
  refine ⟨as, has, r, hr, ?_⟩
  rw [h.relation] at hle ⊢
  have hnonneg : ∀ a ∈ as, 0 ≤ a := by
    intro a ha
    have hmem : some (Double.rational a) ∈ c.coefficients.map Double.value := by
      rw [has]
      exact List.mem_map_of_mem ha
    obtain ⟨f, hf, hvalue⟩ := List.mem_map.mp hmem
    obtain ⟨q, hq, hpos, -⟩ := h.coefficients f hf
    have heq : a = q := by simpa [hq] using hvalue.symm
    exact heq ▸ hpos
  have hdot := dot_nonneg hnonneg hx
  rw [dot_map_div]
  exact (Double.rational_le.mpr (div_le_self hdot hs)).trans hle

lemma admits_coveringRow {number : ℤ} (hx : x.length = n) :
    (coveringRow n number).Admits x ↔ 1 ≤ x.sum := by
  subst hx
  constructor
  · rintro ⟨as, has, r, hr, hle⟩
    obtain rfl : as = List.replicate x.length 1 := by
      rw [coveringRow, List.map_replicate, Double.value_one] at has
      refine List.eq_replicate_iff.mpr ⟨?_, fun a ha => ?_⟩
      · simpa using (congrArg List.length has).symm
      · have hmem : some (Double.rational a) ∈ List.replicate x.length (some (Double.rational 1)) := by
          rw [has]
          exact List.mem_map_of_mem ha
        simpa using List.eq_of_mem_replicate hmem
    obtain rfl := Option.mem_unique hr Double.value_one
    rw [dot_replicate_one] at hle
    exact Double.rational_le.mp hle
  · intro h
    refine ⟨List.replicate x.length 1, by simp [coveringRow, Double.value_one], _, Double.value_one, ?_⟩
    rw [dot_replicate_one]
    exact Double.rational_le.mpr h

end Rows

lemma exists_packing {uniform : Uniform σ} {vars : ℤ} (rows : ℤ)
    (hcoefficients : uniform.Within 0.5 5)
    (hrhs : uniform.Within (Float.ofNat vars.toNat * 2) (Float.ofNat vars.toNat * 6)) (s : σ) :
    ∃ packing, (randomProblem uniform vars rows s).1.constraints =
        packing ++ [coveringRow vars.toNat (rows + 1)] ∧
      (∀ c ∈ packing, Packing vars.toNat c) ∧
      (randomProblem uniform vars rows s).1.numVars = vars.toNat :=
  ⟨_, rfl, forall_mapM (packing_packingRow hcoefficients hrhs) _ s, length_drawRow _ _ _ _ _⟩

/-- With three variables or more, a random problem is feasible: each variable alone may be one. With
any number of variables, feasible problems have a point that sums to exactly one; for a single
variable it is the point one. -/
theorem randomProblem_feasible {uniform : Uniform σ} {vars : ℤ} (rows : ℤ) (hvars : 1 ≤ vars)
    (hcoefficients : uniform.Within 0.5 5)
    (hrhs : uniform.Within (Float.ofNat vars.toNat * 2) (Float.ofNat vars.toNat * 6)) (s : σ) :
    (3 ≤ vars → ∀ j < vars.toNat,
        (randomProblem uniform vars rows s).1.Admits (unitPoint vars.toNat j)) ∧
      ((∃ x, (randomProblem uniform vars rows s).1.Admits x) ↔
        ∃ x, (randomProblem uniform vars rows s).1.Admits x ∧ x.sum = 1) ∧
      (vars = 1 → ((∃ x, (randomProblem uniform vars rows s).1.Admits x) ↔
        (randomProblem uniform vars rows s).1.Admits [1])) := by
  obtain ⟨packing, hconstraints, hpacking, hcount⟩ := exists_packing rows hcoefficients hrhs s
  generalize (randomProblem uniform vars rows s).1 = p at hconstraints hcount
  have hsum : (∃ x, p.Admits x) ↔ ∃ x, p.Admits x ∧ x.sum = 1 := by
    refine ⟨?_, fun ⟨x, hx, _⟩ => ⟨x, hx⟩⟩
    rintro ⟨x, hlength, hnonneg, hadmits⟩
    rw [hconstraints, List.forall_mem_append, List.forall_mem_singleton,
      admits_coveringRow (hlength.trans hcount)] at hadmits
    obtain ⟨hrows, hcover⟩ := hadmits
    have hpos : 0 < x.sum := by linarith
    have hone : (x.map (· / x.sum)).sum = 1 := by
      simp only [div_eq_mul_inv, List.sum_map_mul_right, List.map_id']
      exact mul_inv_cancel₀ hpos.ne'
    have hlength' : (x.map (· / x.sum)).length = p.numVars := (List.length_map _).trans hlength
    refine ⟨x.map (· / x.sum), ⟨hlength', ?_, ?_⟩, hone⟩
    · intro v hv
      obtain ⟨w, hw, rfl⟩ := List.mem_map.mp hv
      exact div_nonneg (hnonneg w hw) hpos.le
    · rw [hconstraints, List.forall_mem_append, List.forall_mem_singleton,
        admits_coveringRow (hlength'.trans hcount), hone]
      exact ⟨fun c hc => (hpacking c hc).admits_shrunk hnonneg hcover (hrows c hc), le_rfl⟩
  refine ⟨fun hthree j hj => ?_, hsum, ?_⟩
  · have hlength : (unitPoint vars.toNat j).length = vars.toNat := by simp [unitPoint]
    refine ⟨hlength.trans hcount.symm, ?_, ?_⟩
    · intro v hv
      obtain ⟨k, -, rfl⟩ := List.mem_map.mp hv
      split_ifs <;> norm_num
    · rw [hconstraints, List.forall_mem_append, List.forall_mem_singleton,
        admits_coveringRow hlength, sum_unitPoint hj]
      exact ⟨fun c hc => (hpacking c hc).admits_unitPoint (by omega) hj, le_rfl⟩
  · rintro rfl
    refine ⟨fun h => ?_, fun h => ⟨_, h⟩⟩
    obtain ⟨x, hx, hone⟩ := hsum.mp h
    obtain ⟨v, rfl⟩ := List.length_eq_one_iff.mp (hx.length.trans hcount)
    rw [List.sum_singleton] at hone
    exact hone ▸ hx

/-- A source that gives the upper and the lower bound in turn. -/
def alternating : Uniform Bool :=
  fun low high upper => (if upper then high else low, !upper)

theorem randomProblem_feasible_three :
    alternating.Within 0.5 5 ∧ alternating.Within (Float.ofNat 3 * 2) (Float.ofNat 3 * 6) ∧
      ((randomProblem alternating 3 2 true).1.constraints.map fun c => (c.coefficients, c.rhs)) =
        [([5, 0.5, 5], 6), ([5, 0.5, 5], 6), ([1, 1, 1], 1)] ∧
      (randomProblem alternating 3 2 true).1.Admits [0, 0, 1] := by
  have hcoefficients : alternating.Within 0.5 5 := by
    rintro (_ | _) <;> decide +kernel
  have hrhs : alternating.Within (Float.ofNat 3 * 2) (Float.ofNat 3 * 6) := by
    rintro (_ | _) <;> decide +kernel
  have hcount : (3 : ℤ).toNat = 3 := rfl
  have hfeasible := @randomProblem_feasible Bool alternating 3 2 (by norm_num) hcoefficients
    (by rw [hcount]; exact hrhs) true
  have hpoint : unitPoint 3 2 = [0, 0, 1] := by decide
  have hadmits := hfeasible.1 le_rfl 2 (by decide)
  rw [hcount, hpoint] at hadmits
  exact ⟨hcoefficients, hrhs, by decide +kernel, hadmits⟩

/-- The largest coefficient with the smallest right-hand side: `5 x ≤ 2` and `x ≥ 1`. -/
theorem randomProblem_infeasible :
    alternating.Within 0.5 5 ∧ alternating.Within (Float.ofNat 1 * 2) (Float.ofNat 1 * 6) ∧
      (randomProblem alternating 1 1 true).1 =
        ⟨.max, [4], [⟨"c1", [5], .le, 2⟩, ⟨"c2", [1], .ge, 1⟩]⟩ ∧
      ¬ ∃ x, (randomProblem alternating 1 1 true).1.Admits x := by
  have hproblem : (randomProblem alternating 1 1 true).1 =
      ⟨.max, [4], [⟨"c1", [5], .le, 2⟩, ⟨"c2", [1], .ge, 1⟩]⟩ := by
    decide +kernel
  refine ⟨by rintro (_ | _) <;> decide +kernel, by rintro (_ | _) <;> decide +kernel,
    hproblem, ?_⟩
  rw [hproblem]
  rintro ⟨x, hlength, -, hadmits⟩
  obtain ⟨v, rfl⟩ := List.length_eq_one_iff.mp hlength
  obtain ⟨hpacking, hcovering⟩ := List.forall_mem_cons.mp hadmits
  have hcover : 1 ≤ v := by
    have hsame : (⟨"c2", [1], .ge, 1⟩ : Constraint Float) = coveringRow 1 2 := by decide +kernel
    have hlength' : [v].length = 1 := rfl
    rw [List.forall_mem_singleton, hsame, admits_coveringRow hlength'] at hcovering
    simpa using hcovering
  have hpack : 5 * v ≤ 2 := by
    obtain ⟨as, has, r, hr, hle⟩ := hpacking
    obtain ⟨q, rfl⟩ : ∃ q, as = [q] :=
      List.length_eq_one_iff.mp (by simpa using (congrArg List.length has).symm)
    obtain rfl : 5 = q := by simpa [Double.value_five] using has
    obtain rfl := Option.mem_unique hr Double.value_two
    simpa [dot] using hle
  linarith

end Instance

end SimplexTableau
