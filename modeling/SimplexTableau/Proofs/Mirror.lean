import SimplexTableau.Proofs.Courses
import SimplexTableau.Proofs.Doubles

/-!
# Minimisation by maximisation

To minimise is to maximise the negated objective. Both problems have the same objective row, since
a row for a maximisation is negated once more, and the same penalty, since a penalty depends on
absolute values only. So their solutions take the same course, number by number and in any ordered
arithmetic, and only the sign of the objective value tells them apart.
-/

namespace SimplexTableau

variable {α : Type} [Scalar α]

/-- The problem that maximises the negated objective. -/
def Problem.mirrored (p : Problem α) : Problem α :=
  { p with direction := .max, objective := p.objective.map (-·) }

namespace SameNumber

variable {x x' y y' : α}

/-- A scale does not tell the zeros apart, since it is one for both. -/
lemma scale_eq (h : SameNumber x x') :
    (if x ≤ 0 then 1 else x) = if x' ≤ 0 then 1 else x' := by
  rcases h with rfl | ⟨⟨hx, -⟩, hx', -⟩
  · rfl
  · rw [if_pos hx, if_pos hx']

variable [OrderedScalar α]

lemma larger (hx : SameNumber x x') (hy : SameNumber y y') :
    SameNumber (SimplexTableau.larger x y) (SimplexTableau.larger x' y') := by
  unfold SimplexTableau.larger
  have hlt : x < y ↔ x' < y' := hx.lt_iff_left.trans hy.lt_iff_right
  by_cases h : x < y
  · rwa [if_pos h, if_pos (hlt.mp h)]
  · rwa [if_neg h, if_neg (mt hlt.mpr h)]

lemma foldl_larger {l l' : List α} (h : List.Forall₂ SameNumber l l') (hx : SameNumber x x') :
    SameNumber (l.foldl SimplexTableau.larger x) (l'.foldl SimplexTableau.larger x') := by
  induction h generalizing x x' with
  | nil => exact hx
  | cons hy _ ih => exact ih (hx.larger hy)

end SameNumber

namespace Problem

section Agreement

variable {p q : Problem α} {m : Method} {o : SolveOptions α}

/-- A solution depends on its problem through the plain tableau and the scale of the penalty. -/
lemma course_congr (hplain : q.plainTableau = p.plainTableau) (hscale : q.scale = p.scale) :
    q.course m o = p.course m o := by
  unfold course tableau SolveOptions.penalty
  rw [hplain, hscale]

lemma scale_congr [OrderedScalar α] (h : List.Forall₂ SameNumber q.sizes p.sizes) :
    q.scale = p.scale := by
  unfold scale
  cases hs : p.sizes with
  | nil =>
    rw [hs, List.forall₂_nil_right_iff] at h
    rw [h]
  | cons first rest =>
    rw [hs, List.forall₂_cons_right_iff] at h
    obtain ⟨first', rest', hfirst, hrest, hs'⟩ := h
    rw [hs']
    exact (SameNumber.foldl_larger hrest hfirst).scale_eq

end Agreement

variable (p : Problem α)

lemma numVars_mirrored : p.mirrored.numVars = p.numVars :=
  List.length_map _

variable [OrderedScalar α]

lemma sizes_mirrored : List.Forall₂ SameNumber p.mirrored.sizes p.sizes := by
  have hobjective : List.Forall₂ SameNumber ((p.objective.map (-·)).map size)
      (p.objective.map size) := by
    rw [List.map_map, List.forall₂_map_left_iff, List.forall₂_map_right_iff, List.forall₂_same]
    exact fun x _ => size_neg x
  exact List.rel_append hobjective (List.forall₂_same.mpr fun x _ => Or.inl rfl)

variable {p}

lemma signedObjective_mirrored (h : p.direction = .min) :
    p.mirrored.signedObjective = p.signedObjective := by
  have hneg : (fun x : α => -x) ∘ (fun x => -x) = id := funext OrderedScalar.neg_neg
  simp [signedObjective, mirrored, h, hneg]

lemma plainTableau_mirrored (h : p.direction = .min) :
    p.mirrored.plainTableau = p.plainTableau := by
  have hconstraints : p.mirrored.constraints = p.constraints := rfl
  simp only [plainTableau, numVars_mirrored, hconstraints, signedObjective_mirrored h]

theorem course_mirrored (h : p.direction = .min) (m : Method) (o : SolveOptions α) :
    p.mirrored.course m o = p.course m o :=
  course_congr (plainTableau_mirrored h) (scale_congr p.sizes_mirrored)

end Problem

section Answer

variable [OrderedScalar α]

/-- What is reported for a negated number is the negation, except that zero has no sign. -/
lemma clean_neg_or_zero (x : α) : clean (-x) = -clean x ∨ clean (-x) = 0 ∧ clean x = 0 := by
  have hsize : size (-x) < 1e-12 ↔ size x < 1e-12 := (size_neg x).lt_iff_left
  unfold clean
  by_cases h : size x < 1e-12
  · rw [if_pos h, if_pos (hsize.mpr h)]
    exact Or.inr ⟨rfl, rfl⟩
  · rw [if_neg h, if_neg (mt hsize.mp h)]
    exact Or.inl rfl

/-- The direction enters a result by the sign of the objective value only. -/
lemma Course.result_max_min (c : Course α) (m : Method) (o : SolveOptions α) :
    { c.result .max m o with objectiveValue := none } =
        { c.result .min m o with objectiveValue := none } ∧
      Option.Rel (fun v w => v = -w ∨ v = 0 ∧ w = 0)
        (c.result .min m o).objectiveValue (c.result .max m o).objectiveValue := by
  unfold Course.result
  cases c.verdict m o with
  | optimal =>
    refine ⟨rfl, Option.Rel.some ?_⟩
    exact clean_neg_or_zero (rhsOf c.final.objective)
  | _ => exact ⟨rfl, Option.Rel.none⟩

/-- To minimise an objective and to maximise its negation give the same result, up to the sign of
the objective value. -/
theorem Problem.solve_mirrored {p : Problem α} (h : p.direction = .min) (m : Method)
    (o : SolveOptions α) :
    { p.mirrored.solve m o with objectiveValue := none } =
        { p.solve m o with objectiveValue := none } ∧
      Option.Rel (fun v w => v = -w ∨ v = 0 ∧ w = 0)
        (p.solve m o).objectiveValue (p.mirrored.solve m o).objectiveValue := by
  have hdirection : p.mirrored.direction = .max := rfl
  unfold Problem.solve
  rw [course_mirrored h, h, hdirection]
  cases p.course m o with
  | error e => exact ⟨rfl, Option.Rel.none⟩
  | ok c => exact c.result_max_min m o

/-- A minimisation in doubles whose coefficients are not exact in binary. -/
def tenths : Problem Float where
  direction := .min
  objective := [0.1, 0.7]
  constraints := [⟨"c1", [0.3, 0.1], .ge, 0.2⟩, ⟨"c2", [1, 1], .eq, 0.9⟩]

theorem solve_mirrored_tenths :
    tenths.direction = .min ∧ (tenths.solve .twoPhase {}).status = .optimal ∧
      { tenths.mirrored.solve .twoPhase {} with objectiveValue := none } =
        { tenths.solve .twoPhase {} with objectiveValue := none } ∧
      Option.Rel (fun v w => v = -w ∨ v = 0 ∧ w = 0) (tenths.solve .twoPhase {}).objectiveValue
        (tenths.mirrored.solve .twoPhase {}).objectiveValue :=
  ⟨rfl, by decide +kernel, Problem.solve_mirrored rfl .twoPhase {}⟩

end Answer

end SimplexTableau
