import SimplexTableau.Proofs.DoubleValues
import SimplexTableau.Proofs.Segments

/-!
# Dropped statements

A statement is dropped as saying that a variable is not negative if it bounds a single variable with
a positive coefficient from below and the bound is within `1e-12` of zero. The coefficient is not
set against the bound. So the statement asks for nothing but a value near zero if the bound is not
positive or the coefficient is not small, and with a small coefficient it can ask for any value.
-/

namespace SimplexTableau

namespace Double

lemma value_tiny : value 1e-12 = some (rational (4951760157141521 * 2 ^ (-92 : ℤ))) :=
  rfl

lemma value_of_size_le {x : Float} (h : ¬ 1e-12 < size x) :
    value x = none ∨ ∃ q, value x = some (rational q) ∧ |q| ≤ 1 / 10 ^ 12 := by
  have htiny : (4951760157141521 * 2 ^ (-92 : ℤ) : ℚ) ≤ 1 / 10 ^ 12 := by norm_num
  have hzero : value 0 = some (rational 0) := rfl
  cases hx : value x with
  | none => exact Or.inl rfl
  | some v =>
    right
    rw [lt_iff_value, value_tiny] at h
    unfold size at h
    have hsign : x < 0 ↔ v < rational 0 := by simp [lt_iff_value, hx, hzero]
    rcases value_cases v with rfl | rfl | ⟨q, rfl⟩
    · rw [if_pos (hsign.mpr (bot_lt_rational 0)), value_neg_bot hx] at h
      simp at h
    · rw [if_neg (fun hlt => absurd (hsign.mp hlt) (rational_lt_top 0).not_gt), hx] at h
      simp at h
    · refine ⟨q, rfl, ?_⟩
      rw [rational_lt] at hsign
      split_ifs at h with hneg
      · rw [value_neg hx] at h
        simp only [Option.mem_some_iff, exists_eq_left', rational_lt, not_lt] at h
        rw [abs_of_neg (hsign.mp hneg)]
        exact h.trans htiny
      · rw [hx] at h
        simp only [Option.mem_some_iff, exists_eq_left', rational_lt, not_lt] at h
        rw [abs_of_nonneg (not_lt.mp (mt hsign.mpr hneg))]
        exact h.trans htiny

end Double

namespace Specification

open SimplexTableau.Text

/-- The statements that the constraint part of a specification makes, in order. -/
def statementsOf (spec : String) : Except SpecFault (List (Statement Float)) := do
  let parts := cut introductionWidth none 0 (collapse spec.toList)
  let found ← (← segments (trim (parts.getD 1 []))).mapM statements
  return found.flatten

/-- A statement reads `γ v ≥ ρ` for a single variable `v`, with exact values. -/
def Statement.Bounds (s : Statement Float) (γ ρ : ℚ) : Prop :=
  s.relation = .ge ∧ ∃ name c, s.terms = [(name, c)] ∧
    Double.value c = some (Double.rational γ) ∧ Double.value s.rhs = some (Double.rational ρ)

/-- Every value that is not negative satisfies `γ v ≥ ρ` up to a distance. -/
def Vacuous (tol γ ρ : ℚ) : Prop :=
  ∀ v : ℚ, 0 ≤ v → ρ ≤ γ * (v + tol)

lemma vacuous_iff {tol γ ρ : ℚ} (hγ : 0 < γ) : Vacuous tol γ ρ ↔ ρ / γ ≤ tol := by
  rw [div_le_iff₀' hγ]
  constructor
  · intro h
    simpa using h 0 le_rfl
  · intro h v hv
    exact h.trans (mul_le_mul_of_nonneg_left (le_add_of_nonneg_left hv) hγ.le)

lemma Statement.Bounds.unique {s : Statement Float} {γ γ' ρ ρ' : ℚ} (h : s.Bounds γ ρ)
    (h' : s.Bounds γ' ρ') : γ = γ' ∧ ρ = ρ' := by
  obtain ⟨-, name, c, hterms, hγ, hρ⟩ := h
  obtain ⟨-, name', c', hterms', hγ', hρ'⟩ := h'
  obtain ⟨rfl, rfl⟩ : name = name' ∧ c = c' := by simpa [hterms] using hterms'
  exact ⟨by simpa [hγ] using hγ', by simpa [hρ] using hρ'⟩

/-- What is dropped bounds a single variable from below. Its coefficient may be infinite, and its
bound undefined. -/
lemma bounds_of_isNonNegativity {s : Statement Float} (h : s.isNonNegativity = true) :
    s.relation = .ge ∧ ∃ name c, s.terms = [(name, c)] ∧ 0 < c ∧
      (Double.value s.rhs = none ∨ Double.value c = some ⊤ ∨
        ∃ γ ρ, s.Bounds γ ρ ∧ 0 < γ ∧ |ρ| ≤ 1 / 10 ^ 12) := by
  simp only [Statement.isNonNegativity, Bool.and_eq_true, Bool.not_eq_eq_eq_not, Bool.not_true,
    decide_eq_true_eq, decide_eq_false_iff_not] at h
  obtain ⟨⟨hrel, hsize⟩, hterms⟩ := h
  obtain ⟨name, c, hname, hpos⟩ : ∃ name c, s.terms = [(name, c)] ∧ 0 < c := by
    split at hterms
    · next name c hname => exact ⟨name, c, hname, of_decide_eq_true hterms⟩
    · cases hterms
  refine ⟨hrel, name, c, hname, hpos, ?_⟩
  have hzero : Double.value 0 = some (Double.rational 0) := rfl
  obtain ⟨a, ha, b, hb, hlt⟩ := Double.lt_iff_value.mp hpos
  obtain rfl := Option.mem_unique ha hzero
  rcases Double.value_of_size_le hsize with hrhs | ⟨ρ, hrhs, hle⟩
  · exact .inl hrhs
  · rcases Double.value_cases b with rfl | rfl | ⟨γ, rfl⟩
    · exact absurd hlt (Double.bot_lt_rational 0).not_gt
    · exact .inr (.inl hb)
    · exact .inr (.inr ⟨γ, ρ, ⟨hrel, name, c, hname, hb, hrhs⟩, Double.rational_lt.mp hlt, hle⟩)

/-- A bound near zero asks for nothing if it is not positive or its coefficient is not small. -/
lemma vacuous_of_abs_le {γ ρ : ℚ} (hγ : 0 < γ) (hρ : |ρ| ≤ 1 / 10 ^ 12)
    (h : ρ ≤ 0 ∨ 1 / 10 ^ 7 ≤ γ) : Vacuous (1 / 10 ^ 5) γ ρ := by
  rw [vacuous_iff hγ, div_le_iff₀' hγ]
  rcases h with h | h
  · exact h.trans (by positivity)
  · have hle := (abs_le.mp hρ).2
    linarith

/-- The constraints of an accepted specification are its statements, in their order, apart from the
dropped ones. A dropped statement bounds a single variable with a positive coefficient from below,
and unless the bound is undefined or the coefficient infinite, the bound is within `1e-12` of zero.
All values that are not negative then satisfy the statement up to `1e-5` if the bound is not
positive or the coefficient is at least `1e-7`. -/
theorem read_dropped {spec : String} {p : Problem Float} (h : read spec = .ok p) :
    ∃ stated direction objective, statementsOf spec = .ok stated ∧
      p = assemble direction objective (mentioned objective stated)
        (stated.filter (!·.isNonNegativity)) ∧
      ∀ s ∈ stated, s.isNonNegativity = true →
        s.relation = .ge ∧ ∃ name c, s.terms = [(name, c)] ∧ 0 < c ∧
          (Double.value s.rhs = none ∨ Double.value c = some ⊤ ∨
            ∃ γ ρ, s.Bounds γ ρ ∧ 0 < γ ∧ |ρ| ≤ 1 / 10 ^ 12 ∧
              (ρ ≤ 0 ∨ 1 / 10 ^ 7 ≤ γ → Vacuous (1 / 10 ^ 5) γ ρ)) := by
  have hne : collapse spec.toList ≠ [] := by
    intro hnil
    rw [read, hnil] at h
    cases h
  rw [read_eq_readParts hne] at h
  obtain ⟨direction, form, texts, found, -, htexts, hfound, rfl⟩ := readParts_eq_ok h
  refine ⟨found.flatten, direction, form.terms, ?_, rfl, ?_⟩
  · rw [statementsOf, htexts]
    simp only [bind, Except.bind, hfound]
    rfl
  · intro s _ hs
    obtain ⟨hrel, name, c, hterms, hpos, hcases⟩ := bounds_of_isNonNegativity hs
    refine ⟨hrel, name, c, hterms, hpos, hcases.imp_right (Or.imp_right ?_)⟩
    rintro ⟨γ, ρ, hbounds, hγ, hρ⟩
    exact ⟨γ, ρ, hbounds, hγ, hρ, vacuous_of_abs_le hγ hρ⟩

/-- The value of the double nearest to `1e-12`. -/
def tiny : ℚ :=
  4951760157141521 * 2 ^ (-92 : ℤ)

/-- The bound is above zero, but the coefficient is not small. -/
theorem read_dropped_two :
    ∃ p, read "min x subject to 2 x >= 0.000000000001, x <= 4" = .ok p ∧
      ∃ s, statementsOf "min x subject to 2 x >= 0.000000000001, x <= 4" =
          .ok [s, ⟨[("x", 1)], .le, 4⟩] ∧
        s.isNonNegativity = true ∧ s.Bounds 2 tiny ∧ Vacuous (1 / 10 ^ 5) 2 tiny := by
  have hs : (⟨[("x", 2)], .ge, 1e-12⟩ : Statement Float).isNonNegativity = true := by
    decide +kernel
  have hbounds : (⟨[("x", 2)], .ge, 1e-12⟩ : Statement Float).Bounds 2 tiny :=
    ⟨rfl, "x", 2, rfl, Double.value_two, Double.value_tiny⟩
  obtain ⟨p, hread⟩ : ∃ p, read "min x subject to 2 x >= 0.000000000001, x <= 4" = .ok p :=
    ⟨_, rfl⟩
  refine ⟨p, hread, ⟨[("x", 2)], .ge, 1e-12⟩, rfl, hs, hbounds, ?_⟩
  obtain ⟨stated, direction, objective, hstated, -, hdropped⟩ := read_dropped hread
  obtain rfl : stated = [⟨[("x", 2)], .ge, 1e-12⟩, ⟨[("x", 1)], .le, 4⟩] :=
    Except.ok.inj (hstated.symm.trans rfl)
  obtain ⟨-, name, c, hterms, -, hcases⟩ := hdropped _ (List.mem_cons_self ..) hs
  rcases hcases with hundefined | hinfinite | ⟨γ, ρ, h, -, -, hvacuous⟩
  · cases hundefined.symm.trans Double.value_tiny
  · obtain ⟨-, rfl⟩ : "x" = name ∧ 2 = c := by simpa using hterms
    exact absurd (Option.some.inj (Double.value_two.symm.trans hinfinite)) (Double.rational_lt_top 2).ne
  · obtain ⟨rfl, rfl⟩ := hbounds.unique h
    exact hvacuous (Or.inr (by norm_num))

/-- The dropped statement is satisfied from `x = 1` on, and without it the minimum is at zero. -/
theorem read_dropped_small :
    read "min x subject to 0.000000000001 x >= 0.000000000001, x <= 4" =
        .ok ⟨.min, [1], [⟨"c1", [1], .le, 4⟩]⟩ ∧
      ∃ s, statementsOf "min x subject to 0.000000000001 x >= 0.000000000001, x <= 4" =
          .ok [s, ⟨[("x", 1)], .le, 4⟩] ∧
        s.isNonNegativity = true ∧ s.Bounds tiny tiny ∧ tiny / tiny = 1 ∧
        ¬ Vacuous (1 / 10 ^ 5) tiny tiny := by
  have hpos : 0 < tiny := by
    unfold tiny
    positivity
  refine ⟨rfl, ⟨[("x", 1e-12)], .ge, 1e-12⟩, rfl, by decide +kernel,
    ⟨rfl, "x", 1e-12, rfl, Double.value_tiny, Double.value_tiny⟩, div_self hpos.ne', ?_⟩
  rw [vacuous_iff hpos, div_self hpos.ne']
  norm_num

end Specification

end SimplexTableau
