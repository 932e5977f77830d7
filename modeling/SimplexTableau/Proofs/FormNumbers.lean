import SimplexTableau.Form
import SimplexTableau.Proofs.Amounts
import SimplexTableau.Proofs.NearestDecimals

/-!
# Numbers in form fields

A form field stands for a number if it holds a whole number, a decimal or a numeral. It counts as
the nearest double if that is finite, and every other field counts as zero. Only a whole number that
is rounded to an infinity is refused.
-/

namespace SimplexTableau

open SimplexTableau.Text SimplexTableau.Decimal SimplexTableau.Double

namespace Decimal

/-- A numeral that denotes a rational number is read as the nearest double. -/
theorem Numeral.isNearest_toFloat {n : Numeral} {q : ℚ} (h : n.rational? = some q) :
    IsNearest q n.toFloat := by
  cases n with
  | nan => cases h
  | infinite negative => cases h
  | finite negative digits exponent =>
    have hsize := isNearest_nearestDouble digits exponent
    cases negative with
    | false =>
      obtain rfl : 1 * (digits * 10 ^ exponent : ℚ) = q := Option.some_inj.mp h
      rw [one_mul]
      exact hsize
    | true =>
      obtain rfl : -1 * (digits * 10 ^ exponent : ℚ) = q := Option.some_inj.mp h
      rw [neg_one_mul]
      exact hsize.neg

/-- All other numerals denote infinities or no number. -/
lemma Numeral.isFinite_toFloat_eq_false {n : Numeral} (h : n.rational? = none) :
    n.toFloat.isFinite = false := by
  rcases n with _ | (_ | _) | _
  · rfl
  · rfl
  · rfl
  · cases h

end Decimal

namespace Form

/-- A whole number that is too large for a double. -/
inductive TooLarge : Json → Prop
  | int {n : ℤ} (beyond : rangeEnd ≤ |(n : ℚ)|) : TooLarge (.int n)

/-- The doubles that a field stands for: a decimal is a double, and whole numbers and the numbers
that texts denote stand for the nearest one. -/
inductive StandsFor : Json → Float → Prop
  | whole {n : ℤ} {x : Float} (nearest : IsNearest n x) : StandsFor (.int n) x
  | decimal {x : Float} : StandsFor (.float x) x
  | numeral {s : String} {q : ℚ} {x : Float} (read : readRational? (trim s.toList) = some q)
      (nearest : IsNearest q x) : StandsFor (.str s) x

/-- What a field counts as: the finite double that it stands for, and zero without one. -/
structure CountsAs (field : Json) (x : Float) : Prop where
  finite : x.isFinite = true
  eq : StandsFor field x ∨ x = 0 ∧ ∀ y, StandsFor field y → y.isFinite = false

/-- A double passes for a size exactly if it has a value and the value lies between the bounds. -/
theorem floatWithin_iff {low high : ℤ} {x : Float} : floatWithin low high x = true ↔
    ∃ q : ℚ, value x = some (rational q) ∧ low ≤ q ∧ q ≤ high := by
  by_cases hfinite : x.isFinite = true
  · obtain ⟨negative, m, e, hbinary, hvalue⟩ := exists_binary hfinite
    obtain ⟨hden, hquotient⟩ := div_binaryQuotient m e
    have hden' : (0 : ℚ) < (binaryQuotient m e).2 := by exact_mod_cast hden
    have hbounds : floatWithin low high x = true ↔
        low * (binaryQuotient m e).2 ≤ (if negative then -1 else 1) * ((binaryQuotient m e).1 : ℤ) ∧
          (if negative then -1 else 1) * ((binaryQuotient m e).1 : ℤ) ≤
            high * (binaryQuotient m e).2 := by
      rw [floatWithin, hbinary]
      cases negative <;> simp
    rw [hbounds, ← Int.cast_le (R := ℚ), ← Int.cast_le (R := ℚ)]
    push_cast
    rw [← le_div_iff₀ hden', ← div_le_iff₀ hden', mul_div_assoc, hquotient, hvalue]
    constructor
    · exact fun h => ⟨_, rfl, h⟩
    · rintro ⟨q, hq, h⟩
      obtain rfl := rational_inj.mp (Option.some_inj.mp hq)
      exact h
  · have hinside : floatWithin low high x = false := by
      have hbinary := ofFloat_eq x
      replace hfinite : ¬ x.toModel.unpack.isFinite = true := hfinite
      rw [floatWithin, hbinary]
      generalize x.toModel.unpack = a at hfinite
      rcases a with s | _ | s | ⟨s, m, e, hm⟩
      · rfl
      · rfl
      · exact absurd rfl hfinite
      · exact absurd rfl hfinite
    have hnone : ¬ ∃ q, value x = some (rational q) := mt isFinite_iff_value.mpr hfinite
    rw [hinside]
    exact ⟨fun h => (nomatch h), fun ⟨q, hq, _⟩ => absurd ⟨q, hq⟩ hnone⟩

section Numbers

variable {field : Json} {x y : Float}

/-- What a field stands for is determined up to the sign of zero. -/
lemma StandsFor.value_unique (hx : StandsFor field x) (hy : StandsFor field y) :
    value x = value y := by
  cases hx with
  | whole nearest =>
    cases hy with
    | whole nearest' => exact nearest.value_unique nearest'
  | decimal =>
    cases hy
    rfl
  | numeral read nearest =>
    cases hy with
    | numeral read' nearest' =>
      obtain rfl := Option.some_inj.mp (read.symm.trans read')
      exact nearest.value_unique nearest'

lemma StandsFor.isFinite_eq (hx : StandsFor field x) (hy : StandsFor field y) :
    x.isFinite = y.isFinite := by
  rw [Bool.eq_iff_iff, isFinite_iff_value, isFinite_iff_value, hx.value_unique hy]

/-- What a field counts as is determined up to the sign of zero. -/
theorem CountsAs.value_unique (hx : CountsAs field x) (hy : CountsAs field y) :
    value x = value y := by
  rcases hx.eq with hx' | ⟨rfl, hnone⟩
  · rcases hy.eq with hy' | ⟨rfl, hnone⟩
    · exact hx'.value_unique hy'
    · exact absurd hx.finite (by rw [hnone x hx']; exact Bool.false_ne_true)
  · rcases hy.eq with hy' | ⟨rfl, -⟩
    · exact absurd hy.finite (by rw [hnone y hy']; exact Bool.false_ne_true)
    · rfl

lemma isFinite_finiteOrZero (x : Float) : (finiteOrZero x).isFinite = true := by
  unfold finiteOrZero
  split_ifs with h
  · exact h
  · rfl

/-- A double that a field stands for is counted unless it is not finite. -/
lemma countsAs_finiteOrZero (hx : StandsFor field x) : CountsAs field (finiteOrZero x) := by
  refine ⟨isFinite_finiteOrZero x, ?_⟩
  unfold finiteOrZero
  split_ifs with h
  · exact .inl hx
  · exact .inr ⟨rfl, fun y hy => (hy.isFinite_eq hx).trans (Bool.eq_false_of_not_eq_true h)⟩

lemma countsAs_zero (h : ∀ y, ¬ StandsFor field y) : CountsAs field 0 :=
  ⟨rfl, .inr ⟨rfl, fun y hy => absurd hy (h y)⟩⟩

/-- A text counts as the number that it denotes. -/
lemma countsAs_text (s : String) :
    CountsAs (.str s) (((readFloat? (trim s.toList)).map finiteOrZero).getD 0) := by
  rw [readFloat?]
  cases hread : Numeral.read? (trim s.toList) with
  | none =>
    have hnone : readRational? (trim s.toList) = none := by rw [readRational?, hread]; rfl
    refine countsAs_zero fun y hy => ?_
    cases hy with
    | numeral read => rw [hnone] at read; cases read
  | some n =>
    have hrational : readRational? (trim s.toList) = n.rational? := by rw [readRational?, hread]; rfl
    cases hn : n.rational? with
    | none =>
      have hzero : finiteOrZero n.toFloat = 0 := by
        rw [finiteOrZero, n.isFinite_toFloat_eq_false hn]
        rfl
      simp only [Option.map_some, Option.getD_some, hzero]
      refine countsAs_zero fun y hy => ?_
      cases hy with
      | numeral read => rw [hrational, hn] at read; cases read
    | some q =>
      have hnearest := Numeral.isNearest_toFloat hn
      exact countsAs_finiteOrZero (.numeral (hrational.trans hn) hnearest)

lemma number_eq_error (h : TooLarge field) : number field = .error .tooLarge := by
  obtain ⟨beyond⟩ := h
  rename_i n
  have hinfinite : ¬ (ofInt n).isFinite = true := by
    rw [(isNearest_ofInt n).isFinite_iff]
    exact not_lt.mpr beyond
  unfold number
  dsimp only
  rw [if_neg hinfinite]

/-- Every field that is not too large counts as a finite double. -/
lemma exists_number (h : ¬ TooLarge field) : ∃ x, number field = .ok x ∧ CountsAs field x := by
  cases field with
  | null => exact ⟨0, rfl, countsAs_zero fun y hy => by cases hy⟩
  | bool b => exact ⟨0, rfl, countsAs_zero fun y hy => by cases hy⟩
  | arr items => exact ⟨0, rfl, countsAs_zero fun y hy => by cases hy⟩
  | obj fields => exact ⟨0, rfl, countsAs_zero fun y hy => by cases hy⟩
  | str s => exact ⟨_, rfl, countsAs_text s⟩
  | float x => exact ⟨_, rfl, countsAs_finiteOrZero .decimal⟩
  | int n =>
    have hnearest := isNearest_ofInt n
    have hfinite : (ofInt n).isFinite = true :=
      hnearest.isFinite_iff.mpr (not_le.mp fun beyond => h ⟨beyond⟩)
    refine ⟨ofInt n, ?_, hfinite, .inl (.whole hnearest)⟩
    unfold number
    dsimp only
    rw [if_pos hfinite]

end Numbers

/-- Every field counts as a finite double, except for a whole number that is too large for one:
that is refused, although a numeral of the same size counts as zero. -/
theorem number_counts (field : Json) :
    (TooLarge field ∧ number field = .error .tooLarge) ∨
      (¬ TooLarge field ∧ ∃ x, number field = .ok x ∧ CountsAs field x) := by
  by_cases h : TooLarge field
  · exact .inl ⟨h, number_eq_error h⟩
  · exact .inr ⟨h, exists_number h⟩

/-- The whole number `10 ^ 400` is refused, while the text of the same number counts as zero. -/
theorem number_refuses_large :
    number (.int (10 ^ 400)) = .error .tooLarge ∧ number (.str "1e400") = .ok 0 ∧
      ¬ ∃ x, number (.int (10 ^ 400)) = .ok x := by
  have hlarge : TooLarge (.int (10 ^ 400)) := by
    have hpow : (10 : ℚ) ^ (309 : ℤ) ≤ 10 ^ (400 : ℤ) := zpow_le_zpow_right₀ (by norm_num) (by norm_num)
    have hcast : |((10 ^ 400 : ℤ) : ℚ)| = 10 ^ (400 : ℤ) := by
      rw [Int.cast_pow, abs_of_pos (by positivity), Int.cast_ofNat]
      exact (zpow_natCast 10 400).symm
    exact ⟨(rangeEnd_le.trans hpow).trans_eq hcast.symm⟩
  have herror := number_eq_error hlarge
  refine ⟨herror, rfl, ?_⟩
  rintro ⟨x, hx⟩
  rw [herror] at hx
  cases hx

end Form

end SimplexTableau
