import Mathlib.Order.Bounds.Basic
import SimplexTableau.Proofs.Entries
import SimplexTableau.Proofs.Ordered
import SimplexTableau.Tableau.Run

/-!
# What the pivot rule selects

The entering column is the first one with the least objective entry among the columns that may
enter, and its entry lies below the negated tolerance. The leaving row is the first one with the
least ratio among the rows whose entry in that column exceeds the tolerance. If nothing is selected,
no entry passes the test. All this holds in every arithmetic with an order, as far as what is
compared is defined.
-/

namespace SimplexTableau

/-- The lowest index in a set at which a value is minimal on the set. -/
def IsFirstMin {α : Type} [Scalar α] (S : Set ℕ) (f : ℕ → α) (i : ℕ) : Prop :=
  IsLeast {j ∈ S | ∀ k ∈ S, f j ≤ f k} i

section Scan

variable {α β : Type} [Scalar α]

lemma lowest_eq_or_mem (best : α) (held : β) (l : List (β × α)) :
    lowest best held l = held ∨ ∃ v, (lowest best held l, v) ∈ l := by
  induction l generalizing best held with
  | nil => exact Or.inl rfl
  | cons p l ih =>
    obtain ⟨b, v⟩ := p
    rw [lowest]
    split_ifs
    · rcases ih v b with h | ⟨w, h⟩
      · exact Or.inr ⟨v, by rw [h]; exact List.mem_cons_self ..⟩
      · exact Or.inr ⟨w, List.mem_cons_of_mem _ h⟩
    · rcases ih best held with h | ⟨w, h⟩
      · exact Or.inl h
      · exact Or.inr ⟨w, List.mem_cons_of_mem _ h⟩

/-- The first of the least candidates: none in front of it is as small, and none behind it is
smaller. -/
def FirstLeast (p : β × α) (l : List (β × α)) : Prop :=
  ∃ front back, l = front ++ p :: back ∧ (∀ q ∈ front, ¬ q.2 ≤ p.2) ∧ ∀ q ∈ back, ¬ q.2 < p.2

lemma FirstLeast.head {p : β × α} {l : List (β × α)} (h : ∀ q ∈ l, ¬ q.2 < p.2) :
    FirstLeast p (p :: l) :=
  ⟨[], l, rfl, by simp, h⟩

lemma FirstLeast.cons {p q : β × α} {l : List (β × α)} (h : FirstLeast p l) (hq : ¬ q.2 ≤ p.2) :
    FirstLeast p (q :: l) := by
  obtain ⟨front, back, rfl, hfront, hback⟩ := h
  exact ⟨q :: front, back, rfl, List.forall_mem_cons.mpr ⟨hq, hfront⟩, hback⟩

lemma FirstLeast.mem {p : β × α} {l : List (β × α)} (h : FirstLeast p l) : p ∈ l := by
  obtain ⟨front, back, rfl, -, -⟩ := h
  exact List.mem_append_right front (List.mem_cons_self ..)

/-- A scan keeps what it held if no candidate is below the bound, and else returns the first of the
least candidates. -/
theorem lowest_spec [OrderedScalar α] (best : α) (held : β) (l : List (β × α)) :
    (lowest best held l = held ∧ ∀ q ∈ l, ¬ q.2 < best) ∨
      ∃ p, FirstLeast p l ∧ lowest best held l = p.1 ∧ p.2 < best := by
  induction l generalizing best held with
  | nil => exact Or.inl ⟨rfl, by simp⟩
  | cons q l ih =>
    obtain ⟨b, v⟩ := q
    rw [lowest]
    split_ifs with hv
    · right
      rcases ih v b with ⟨he, hle⟩ | ⟨p, hp, he, hlt⟩
      · exact ⟨(b, v), FirstLeast.head hle, he, hv⟩
      · exact ⟨p, hp.cons (OrderedScalar.not_le_of_lt hlt), he, OrderedScalar.lt_trans hlt hv⟩
    · rcases ih best held with ⟨he, hle⟩ | ⟨p, hp, he, hlt⟩
      · exact Or.inl ⟨he, List.forall_mem_cons.mpr ⟨hv, hle⟩⟩
      · have hpass : ¬ v ≤ p.2 := fun hle => hv (OrderedScalar.lt_of_le_of_lt hle hlt)
        exact Or.inr ⟨p, hp.cons hpass, he, hlt⟩

/-- The first of the least candidates in a list that is in the order of their indices has the lowest
index at which the value is minimal. -/
theorem FirstLeast.isFirstMin [LinearScalar α] {key : ℕ → β} (hkey : Function.Injective key)
    {S : Set ℕ} {f : ℕ → α} {c : ℕ} {l : List (β × α)} (h : FirstLeast (key c, f c) l)
    (hc : c ∈ S) (hmem : ∀ j ∈ S, (key j, f j) ∈ l)
    (hsorted : l.Pairwise fun p q => ∀ i j, p.1 = key i → q.1 = key j → i < j)
    (hdef : ∀ j ∈ S, IsDefined (f j)) : IsFirstMin S f c := by
  obtain ⟨front, back, rfl, hfront, hback⟩ := h
  have hbehind := (List.pairwise_cons.mp (List.pairwise_append.mp hsorted).2.1).1
  have hcases : ∀ j ∈ S, (key j, f j) ∈ front ∨ j = c ∨ (key j, f j) ∈ back := by
    intro j hj
    rcases List.mem_append.mp (hmem j hj) with hq | hq
    · exact Or.inl hq
    · rcases List.mem_cons.mp hq with he | hq
      · exact Or.inr (Or.inl (hkey (congrArg Prod.fst he)))
      · exact Or.inr (Or.inr hq)
  refine ⟨⟨hc, fun k hk => ?_⟩, ?_⟩
  · apply (LinearScalar.not_lt (hdef k hk) (hdef c hc)).mp
    rcases hcases k hk with hq | rfl | hq
    · exact fun hlt => hfront _ hq (OrderedScalar.le_of_lt hlt)
    · exact (LinearScalar.not_lt (hdef k hk) (hdef k hk)).mpr (hdef k hk)
    · exact hback _ hq
  · rintro j ⟨hj, hmin⟩
    rcases hcases j hj with hq | rfl | hq
    · exact (hfront _ hq (hmin c hc)).elim
    · exact le_rfl
    · exact (hbehind _ hq c j rfl rfl).le

end Scan

section Matrices

variable {α : Type} [Scalar α]

/-- A cell of a matrix, zero outside of it. -/
def cellOf (matrix : List (List α)) (i j : ℕ) : α :=
  (matrix.getD i []).getD j 0

/-- The columns of a matrix that may enter the basis: all but the first one, the last one and the
blocked ones. -/
def mayEnter (width : ℕ) (blocked : List ℕ) : Set ℕ :=
  {j | 0 < j ∧ j < width - 1 ∧ j ∉ blocked}

/-- The constraint rows whose cell in a column exceeds the tolerance. -/
def mayLeave (matrix : List (List α)) (tol : α) (col : ℕ) : Set ℕ :=
  {i | 0 < i ∧ i < matrix.length ∧ tol < cellOf matrix i col}

/-- The right-hand side of a row, divided by its cell in a column. -/
def ratioOf (matrix : List (List α)) (col i : ℕ) : α :=
  rhsOf (matrix.getD i []) / cellOf matrix i col

end Matrices

lemma pairwise_zipIdx {α : Type} (l : List α) (n : ℕ) :
    (l.zipIdx n).Pairwise fun a b => a.2 < b.2 := by
  have hrange : ((l.zipIdx n).map Prod.snd).Pairwise (· < ·) := by
    rw [List.zipIdx_map_snd]
    exact List.pairwise_lt_range' ..
  exact List.pairwise_map.mp hrange

lemma mem_inner_zipIdx {α : Type} (row : List α) (v : α) (j : ℕ) :
    (v, j) ∈ row.zipIdx.dropLast.drop 1 ↔ 0 < j ∧ j + 1 < row.length ∧ row[j]? = some v := by
  rw [List.mem_iff_getElem?]
  simp only [List.getElem?_drop, List.getElem?_dropLast, List.length_zipIdx, List.getElem?_zipIdx]
  constructor
  · rintro ⟨i, hi⟩
    split_ifs at hi with hlt
    obtain ⟨w, hw, he⟩ := Option.map_eq_some_iff.mp hi
    obtain ⟨rfl, rfl⟩ := Prod.mk.inj he
    exact ⟨by omega, by omega, by simpa using hw⟩
  · rintro ⟨hpos, hlt, hv⟩
    have hj : 1 + (j - 1) = j := by omega
    exact ⟨j - 1, by rw [if_pos (by omega), hj, hv]; simp⟩

namespace Tableau

section Inside

variable {α : Type} [Scalar α] {t : Tableau α} {tol : α} {blocked : List ℕ} {c r : ℕ}

/-- The columns that may enter, with their objective entries, in the order of the scan. -/
def candidates (t : Tableau α) (blocked : List ℕ) : List (Option ℕ × α) :=
  (t.objective.zipIdx.dropLast.drop 1).filterMap fun (v, j) =>
    if blocked.contains j then none else some (some j, v)

omit [Scalar α] in
lemma mem_candidates {o : Option ℕ} {v : α} :
    (o, v) ∈ t.candidates blocked ↔
      ∃ j, o = some j ∧ j ∉ blocked ∧ 0 < j ∧ j + 1 < t.objective.length ∧
        t.objective[j]? = some v := by
  simp only [candidates, List.mem_filterMap, Prod.exists, mem_inner_zipIdx]
  constructor
  · rintro ⟨w, j, hj, he⟩
    split_ifs at he with hb
    simp only [Option.some.injEq, Prod.mk.injEq] at he
    obtain ⟨rfl, rfl⟩ := he
    exact ⟨j, rfl, by simpa using hb, hj⟩
  · rintro ⟨j, rfl, hb, hj⟩
    exact ⟨v, j, hj, by simp [hb]⟩

omit [Scalar α] in
lemma candidates_sorted (t : Tableau α) (blocked : List ℕ) : (t.candidates blocked).Pairwise
    fun p q => ∀ i j, p.1 = some i → q.1 = some j → i < j := by
  have hinner := (pairwise_zipIdx t.objective 0).sublist
    ((List.drop_sublist 1 _).trans (List.dropLast_sublist _))
  apply hinner.filterMap
  rintro ⟨v, i⟩ ⟨w, j⟩ hlt p hp q hq k l hk hl
  dsimp only at hp hq
  split_ifs at hp hq
  cases hp
  cases hq
  cases hk
  cases hl
  exact hlt

lemma entering_eq : t.entering tol blocked = lowest (-tol) none (t.candidates blocked) :=
  rfl

theorem entering_inside (h : t.entering tol blocked = some c) :
    0 < c ∧ c + 1 < t.objective.length ∧ c ∉ blocked := by
  rw [entering_eq] at h
  rcases lowest_eq_or_mem (-tol) (none : Option ℕ) (t.candidates blocked) with he | ⟨v, hv⟩
  · rw [h] at he
    cases he
  · rw [h] at hv
    obtain ⟨j, hj, hb, h0, h1, -⟩ := mem_candidates.mp hv
    cases hj
    exact ⟨h0, h1, hb⟩

lemma mem_ratios {q : α} :
    (r, q) ∈ t.ratios tol c ↔ r ∈ mayLeave t.matrix tol c ∧ q = ratioOf t.matrix c r := by
  have hget : ∀ {i : ℕ} {row : List α}, t.rows[i]? = some row →
      t.matrix.getD (i + 1) [] = row := by
    intro i row hrow
    rw [List.getD_eq_getElem?_getD, matrix, List.getElem?_cons_succ, hrow, Option.getD_some]
  simp only [ratios, List.mem_filterMap, Prod.exists]
  constructor
  · rintro ⟨row, k, hmem, he⟩
    obtain ⟨i, hi⟩ := List.mem_iff_getElem?.mp hmem
    rw [List.getElem?_zipIdx] at hi
    obtain ⟨row', hrow, he'⟩ := Option.map_eq_some_iff.mp hi
    obtain ⟨rfl, rfl⟩ := Prod.mk.inj he'
    split_ifs at he with hc
    simp only [Option.some.injEq, Prod.mk.injEq] at he
    obtain ⟨rfl, rfl⟩ := he
    have hlt : i < t.rows.length := (List.getElem?_eq_some_iff.mp hrow).1
    rw [Nat.add_comm 1 i]
    refine ⟨⟨Nat.succ_pos i, Nat.succ_lt_succ hlt, ?_⟩, ?_⟩
    · rwa [cellOf, hget hrow]
    · rw [ratioOf, cellOf, hget hrow]
  · rintro ⟨⟨hpos, hlt, hc⟩, rfl⟩
    obtain ⟨i, rfl⟩ : ∃ i, r = i + 1 := ⟨r - 1, by omega⟩
    have hi : i < t.rows.length := Nat.lt_of_succ_lt_succ hlt
    have hrow : t.rows[i]? = some t.rows[i] := List.getElem?_eq_getElem hi
    rw [cellOf, hget hrow] at hc
    refine ⟨t.rows[i], i + 1, List.mem_iff_getElem?.mpr ⟨i, ?_⟩, ?_⟩
    · rw [List.getElem?_zipIdx, hrow, Nat.add_comm 1 i]
      rfl
    · rw [if_pos hc, ratioOf, cellOf, hget hrow]

lemma ratios_sorted (t : Tableau α) (tol : α) (c : ℕ) :
    (t.ratios tol c).Pairwise fun p q => ∀ i j, p.1 = id i → q.1 = id j → i < j := by
  apply (pairwise_zipIdx t.rows 1).filterMap
  rintro ⟨row, i⟩ ⟨row', j⟩ hlt p hp q hq k l rfl rfl
  dsimp only at hp hq
  split_ifs at hp hq
  cases hp
  cases hq
  exact hlt

lemma leaving_mem (h : t.leaving tol c = some r) : ∃ q, (r, q) ∈ t.ratios tol c := by
  unfold leaving at h
  split at h
  · cases h
  · rename_i r₀ v rest he
    cases h
    rw [he]
    rcases lowest_eq_or_mem v r₀ rest with hl | ⟨q, hq⟩
    · rw [hl]
      exact ⟨v, List.mem_cons_self ..⟩
    · exact ⟨q, List.mem_cons_of_mem _ hq⟩

theorem leaving_inside (h : t.leaving tol c = some r) :
    0 < r ∧ r ≤ t.rows.length ∧ tol < (t.matrix.getD r []).getD c 0 := by
  obtain ⟨q, hq⟩ := leaving_mem h
  obtain ⟨⟨hpos, hlt, hc⟩, -⟩ := mem_ratios.mp hq
  exact ⟨hpos, Nat.le_of_lt_succ hlt, hc⟩

/-- No row leaves if no cell of the column exceeds the tolerance, and only then. -/
theorem leaving_eq_none_iff : t.leaving tol c = none ↔ mayLeave t.matrix tol c = ∅ := by
  have hempty : mayLeave t.matrix tol c = ∅ ↔ t.ratios tol c = [] := by
    rw [Set.eq_empty_iff_forall_notMem, List.eq_nil_iff_forall_not_mem]
    constructor
    · rintro h ⟨r, q⟩ hq
      exact h r (mem_ratios.mp hq).1
    · intro h r hr
      exact h (r, ratioOf t.matrix c r) (mem_ratios.mpr ⟨hr, rfl⟩)
  rw [hempty]
  unfold leaving
  split <;> simp_all

end Inside

section Ordered

variable {α : Type} [Scalar α] {t : Tableau α} {tol : α} {blocked : List ℕ} {c r : ℕ}

lemma Rectangular.mem_candidates_iff (h : t.Rectangular) {o : Option ℕ} {v : α} :
    (o, v) ∈ t.candidates blocked ↔
      ∃ j ∈ mayEnter t.columns.length blocked, o = some j ∧ v = cellOf t.matrix 0 j := by
  rw [mem_candidates]
  constructor
  · rintro ⟨j, rfl, hb, hpos, hlt, hv⟩
    rw [h.objective] at hlt
    refine ⟨j, ⟨hpos, by omega, hb⟩, rfl, ?_⟩
    rw [cellOf, matrix, List.getD_cons_zero, List.getD_eq_getElem?_getD, hv, Option.getD_some]
  · rintro ⟨j, ⟨hpos, hlt, hb⟩, rfl, rfl⟩
    have hj : j < t.objective.length := by
      rw [h.objective]
      omega
    refine ⟨j, rfl, hb, hpos, by rw [h.objective]; omega, ?_⟩
    rw [cellOf, matrix, List.getD_cons_zero, List.getElem?_eq_getElem hj,
      List.getD_eq_getElem _ _ hj]

lemma entering_cases [OrderedScalar α] (t : Tableau α) (tol : α) (blocked : List ℕ) :
    (t.entering tol blocked = none ∧ ∀ q ∈ t.candidates blocked, ¬ q.2 < -tol) ∨
      ∃ p, FirstLeast p (t.candidates blocked) ∧ t.entering tol blocked = p.1 ∧ p.2 < -tol :=
  lowest_spec (-tol) none (t.candidates blocked)

/-- No column enters if no entry of the objective row is below the negated tolerance where a column
may enter, and only then. -/
theorem Rectangular.entering_eq_none_iff [OrderedScalar α] (h : t.Rectangular) :
    t.entering tol blocked = none ↔
      ∀ j ∈ mayEnter t.columns.length blocked, ¬ cellOf t.matrix 0 j < -tol := by
  rcases t.entering_cases tol blocked with ⟨he, hle⟩ | ⟨p, hp, he, hlt⟩
  · refine ⟨fun _ j hj => ?_, fun _ => he⟩
    exact hle (some j, cellOf t.matrix 0 j) (h.mem_candidates_iff.mpr ⟨j, hj, rfl, rfl⟩)
  · obtain ⟨j, hj, ho, hv⟩ := h.mem_candidates_iff.mp hp.mem
    rw [he, ho]
    refine ⟨fun hn => (Option.some_ne_none j hn).elim, fun hall => ?_⟩
    exact (hall j hj (hv ▸ hlt)).elim

variable [LinearScalar α]

/-- The entering column is the first one with the least entry among the columns that may enter, and
its entry lies below the negated tolerance. -/
theorem Rectangular.entering_first (h : t.Rectangular)
    (hdef : ∀ j ∈ mayEnter t.columns.length blocked, IsDefined (cellOf t.matrix 0 j))
    (hc : t.entering tol blocked = some c) :
    IsFirstMin (mayEnter t.columns.length blocked) (cellOf t.matrix 0) c ∧
      cellOf t.matrix 0 c < -tol := by
  rcases t.entering_cases tol blocked with ⟨he, -⟩ | ⟨⟨o, v⟩, hp, he, hlt⟩
  · rw [hc] at he
    cases he
  · obtain ⟨j, hj, rfl, rfl⟩ := h.mem_candidates_iff.mp hp.mem
    rw [hc] at he
    cases he
    refine ⟨hp.isFirstMin (Option.some_injective ℕ) hj ?_ (t.candidates_sorted blocked) hdef, hlt⟩
    intro k hk
    exact h.mem_candidates_iff.mpr ⟨k, hk, rfl, rfl⟩

/-- The leaving row is the first one with the least ratio among the rows whose cell exceeds the
tolerance. -/
theorem leaving_first
    (hdef : ∀ i ∈ mayLeave t.matrix tol c, IsDefined (ratioOf t.matrix c i))
    (hr : t.leaving tol c = some r) :
    IsFirstMin (mayLeave t.matrix tol c) (ratioOf t.matrix c) r := by
  have hfirst : ∃ q, FirstLeast (r, q) (t.ratios tol c) := by
    unfold leaving at hr
    split at hr
    · cases hr
    · rename_i r₀ v rest he
      cases hr
      rw [he]
      rcases lowest_spec v r₀ rest with ⟨hl, hle⟩ | ⟨⟨k, q⟩, hp, hl, hlt⟩
      · rw [hl]
        exact ⟨v, FirstLeast.head hle⟩
      · rw [hl]
        exact ⟨q, hp.cons (OrderedScalar.not_le_of_lt hlt)⟩
  obtain ⟨q, hq⟩ := hfirst
  obtain ⟨hmem, rfl⟩ := mem_ratios.mp hq.mem
  apply hq.isFirstMin Function.injective_id hmem _ (t.ratios_sorted tol c) hdef
  intro i hi
  exact mem_ratios.mpr ⟨hi, rfl⟩

end Ordered

section Least

variable {t : Tableau ℚ} {tol : ℚ}

/-- The entering column has the least entry among the columns that may enter, and it lies below
the negated tolerance. -/
theorem Rectangular.entering_least (h : t.Rectangular) {blocked : List ℕ} {c : ℕ}
    (hc : t.entering tol blocked = some c) :
    t.entry 0 c < -tol ∧ ∀ j, 0 < j → j < t.rhsCol → j ∉ blocked → t.entry 0 c ≤ t.entry 0 j := by
  obtain ⟨hmin, hlt⟩ := h.entering_first (fun j _ => le_refl (cellOf t.matrix 0 j)) hc
  exact ⟨hlt, fun j hj hj' hb => hmin.1.2 j ⟨hj, hj', hb⟩⟩

theorem Rectangular.entering_none (h : t.Rectangular) {blocked : List ℕ}
    (hn : t.entering tol blocked = none) {j : ℕ} (hj : 0 < j) (hj' : j < t.rhsCol)
    (hb : j ∉ blocked) : -tol ≤ t.entry 0 j :=
  not_lt.mp (h.entering_eq_none_iff.mp hn j ⟨hj, hj', hb⟩)

lemma Rectangular.ratioOf_eq (h : t.Rectangular) {i : ℕ} (hi : i ≤ t.rows.length) (c : ℕ) :
    ratioOf t.matrix c i = t.entry i t.rhsCol / t.entry i c := by
  rw [ratioOf, rhsOf_eq_getD, h.length_getD_matrix hi]
  rfl

/-- The leaving row has the least ratio among the rows whose entry exceeds the tolerance. -/
theorem Rectangular.leaving_least (h : t.Rectangular) {c r : ℕ} (hr : t.leaving tol c = some r)
    (i : ℕ) (hi : 0 < i) (hi' : i ≤ t.rows.length) (hc : tol < t.entry i c) :
    t.entry r t.rhsCol / t.entry r c ≤ t.entry i t.rhsCol / t.entry i c := by
  have hmin := leaving_first (fun i _ => le_refl (ratioOf t.matrix c i)) hr
  have hle := hmin.1.2 i ⟨hi, Nat.lt_succ_of_le hi', hc⟩
  rwa [h.ratioOf_eq (leaving_inside hr).2.1, h.ratioOf_eq hi'] at hle

theorem leaving_none {c : ℕ} (hn : t.leaving tol c = none) (i : ℕ) (hi : 0 < i)
    (hi' : i ≤ t.rows.length) : t.entry i c ≤ tol := by
  by_contra hc
  have hmem : i ∈ mayLeave t.matrix tol c := ⟨hi, Nat.lt_succ_of_le hi', not_le.mp hc⟩
  rw [leaving_eq_none_iff.mp hn] at hmem
  exact hmem

end Least

end Tableau

end SimplexTableau
