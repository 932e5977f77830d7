import SimplexTableau.Proofs.Doubles

/-!
# The values of doubles

A double that is defined stands for a rational number or for an infinity. Packed doubles are
written in one way only: the mantissa fills its 53 bits unless the exponent is the lowest one. So
the comparisons of doubles, which look at exponents first, are those of their values.
-/

namespace SimplexTableau

namespace Double

open Float.Model (UnpackedFloat Format)
open Float.Model.UnpackedFloat

/-- A rational number among the rational numbers and the two infinities. -/
def rational (q : ℚ) : WithBot (WithTop ℚ) :=
  ((q : WithTop ℚ) : WithBot (WithTop ℚ))

@[simp] lemma rational_lt {a b : ℚ} : rational a < rational b ↔ a < b := by
  simp [rational]

@[simp] lemma rational_le {a b : ℚ} : rational a ≤ rational b ↔ a ≤ b := by
  simp [rational]

@[simp] lemma rational_inj {a b : ℚ} : rational a = rational b ↔ a = b := by
  simp [rational]

@[simp] lemma bot_lt_rational (a : ℚ) : ⊥ < rational a :=
  WithBot.bot_lt_coe _

@[simp] lemma rational_lt_top (a : ℚ) : rational a < ⊤ :=
  WithBot.coe_lt_coe.mpr (WithTop.coe_lt_top a)

/-- The mantissas and exponents in which packed doubles are written. -/
structure Canonical (m : ℕ) (e : ℤ) : Prop where
  pos : 0 < m
  short : m < 2 ^ 53
  lowest : -1074 ≤ e
  full : e = -1074 ∨ 2 ^ 52 ≤ m

/-- What is finite is written canonically. -/
def Proper : UnpackedFloat → Prop
  | .finite _ m e _ => Canonical m e
  | _ => True

/-- The value of a double, if it is defined. -/
def valueOf : UnpackedFloat → Option (WithBot (WithTop ℚ))
  | .notANumber => none
  | .infinity .positive => some ⊤
  | .infinity .negative => some ⊥
  | .zero _ => some (rational 0)
  | .finite .positive m e _ => some (rational (m * 2 ^ e))
  | .finite .negative m e _ => some (rational (-(m * 2 ^ e)))

/-- The rational number or the infinity that a double stands for. -/
def value (x : Float) : Option (WithBot (WithTop ℚ)) :=
  valueOf x.toModel.unpack

/-- The leading bit of a normal mantissa is not stored. -/
lemma toNat_one_append (v : BitVec 52) : (1#1 ++ v).toNat = 2 ^ 52 + v.toNat := by
  rw [BitVec.toNat_append]
  exact (Nat.shiftLeft_add_eq_or_of_lt v.isLt 1).symm

lemma proper_unpack (b : BitVec (Format.binary64).numBits) : Proper (unpack .binary64 b) := by
  have hshort : (@unpackMantissa .binary64 b).toNat < 2 ^ 52 := (unpackMantissa b).isLt
  unfold UnpackedFloat.unpack
  dsimp only
  split_ifs with h h' h'' h'''
  · trivial
  · trivial
  · trivial
  · have hpos : (@unpackMantissa .binary64 b).toNat ≠ 0 := fun h => h''' (BitVec.eq_of_toNat_eq h)
    have hexp : (@unpackExponent .binary64 b).toNat = 0 := by rw [h'']; rfl
    refine ⟨Nat.pos_of_ne_zero hpos, hshort.trans (by norm_num), ?_, Or.inl ?_⟩ <;>
      rw [hexp] <;> decide
  · have hexp : (@unpackExponent .binary64 b).toNat ≠ 0 := fun h => h'' (BitVec.eq_of_toNat_eq h)
    have hbias : (Format.exponentBias .binary64 : ℤ) = 1023 := rfl
    have hm := toNat_one_append (@unpackMantissa .binary64 b)
    refine ⟨?_, ?_, ?_, Or.inr ?_⟩
    · rw [hm]; omega
    · rw [hm]; omega
    · rw [hbias]; simp only [Nat.cast_ofNat]; omega
    · rw [hm]; omega

lemma Canonical.value_pos {m : ℕ} {e : ℤ} (h : Canonical m e) : (0 : ℚ) < m * 2 ^ e := by
  have hm : (0 : ℚ) < m := by exact_mod_cast h.pos
  positivity

lemma Canonical.lt_of_lt {m n : ℕ} {e f : ℤ} (h : Canonical m e) (h' : Canonical n f) (he : e < f) :
    (m * 2 ^ e : ℚ) < n * 2 ^ f := by
  have hm : (m : ℚ) < 2 ^ 53 := by exact_mod_cast h.short
  have hn : (2 : ℚ) ^ 52 ≤ n := by
    have hfull := h'.full.resolve_left (by have := h.lowest; omega)
    exact_mod_cast hfull
  have hstep : (2 : ℚ) ^ (e + 1) ≤ 2 ^ f := zpow_le_zpow_right₀ (by norm_num) (by omega)
  calc (m * 2 ^ e : ℚ)
      < 2 ^ 53 * 2 ^ e := by gcongr
    _ = 2 ^ 52 * 2 ^ (e + 1) := by
        rw [zpow_add₀ (by norm_num : (2 : ℚ) ≠ 0)]
        ring
    _ ≤ n * 2 ^ f := by gcongr

lemma Canonical.lt_iff {m n : ℕ} {e f : ℤ} (h : Canonical m e) (h' : Canonical n f) :
    (m * 2 ^ e : ℚ) < n * 2 ^ f ↔ e < f ∨ e = f ∧ m < n := by
  rcases lt_trichotomy e f with he | rfl | he
  · simp [he, h.lt_of_lt h' he]
  · have hpos : (0 : ℚ) < 2 ^ e := by positivity
    simp [hpos]
  · have hgt := h'.lt_of_lt h he
    simp [he.not_gt, he.ne', hgt.le]

/-- Proper numbers are in the order of their values: there is one case for each pair of classes. -/
lemma place_lt_iff_valueOf {a b : UnpackedFloat} (ha : Proper a) (hb : Proper b) :
    (∃ x ∈ place a, ∃ y ∈ place b, x < y) ↔ ∃ x ∈ valueOf a, ∃ y ∈ valueOf b, x < y := by
  rcases a with (_ | _) | _ | _ | ⟨_ | _, m, e, hm⟩ <;>
    rcases b with (_ | _) | _ | _ | ⟨_ | _, n, f, hn⟩ <;>
    simp [place, valueOf, Prod.Lex.toLex_lt_toLex]
  case zero.finite.negative => exact (Canonical.value_pos hb).le
  case zero.finite.positive => exact Canonical.value_pos hb
  case finite.negative.zero => exact Canonical.value_pos ha
  case finite.negative.finite.negative => rw [eq_comm (a := e), Canonical.lt_iff hb ha]
  case finite.negative.finite.positive =>
    exact (neg_neg_of_pos (Canonical.value_pos ha)).trans (Canonical.value_pos hb)
  case finite.positive.zero => exact (Canonical.value_pos ha).le
  case finite.positive.finite.negative =>
    exact (neg_neg_of_pos (Canonical.value_pos hb)).le.trans (Canonical.value_pos ha).le
  case finite.positive.finite.positive => rw [Canonical.lt_iff ha hb]

lemma place_isSome_iff (a : UnpackedFloat) : (∃ x, x ∈ place a) ↔ ∃ x, x ∈ valueOf a := by
  rcases a with (_ | _) | _ | _ | ⟨_ | _, m, e, hm⟩ <;> simp [place, valueOf]

variable {x y : Float}

lemma proper (x : Float) : Proper x.toModel.unpack :=
  proper_unpack _

theorem lt_iff_value : x < y ↔ ∃ a ∈ value x, ∃ b ∈ value y, a < b := by
  rw [lt_iff]
  exact place_lt_iff_valueOf (proper x) (proper y)

lemma exists_le_iff {β : Type} [LinearOrder β] (o p : Option β) :
    (∃ a ∈ o, ∃ b ∈ p, a ≤ b) ↔
      (∃ a, a ∈ o) ∧ (∃ b, b ∈ p) ∧ ¬ ∃ b ∈ p, ∃ a ∈ o, b < a := by
  cases o <;> cases p <;> simp

theorem le_iff_value : x ≤ y ↔ ∃ a ∈ value x, ∃ b ∈ value y, a ≤ b := by
  rw [le_iff, exists_le_iff, exists_le_iff, place_isSome_iff, place_isSome_iff,
    place_lt_iff_valueOf (proper y) (proper x)]
  rfl

lemma valueOf_neg {a : UnpackedFloat} {q : ℚ} (h : valueOf a = some (rational q)) :
    valueOf a.neg = some (rational (-q)) := by
  rcases a with (_ | _) | _ | _ | ⟨_ | _, m, e, hm⟩ <;> simp [valueOf] at h
  case infinity.negative => exact absurd h (bot_lt_rational q).ne
  case infinity.positive => exact absurd h (rational_lt_top q).ne'
  all_goals simp [UnpackedFloat.neg, valueOf, ← h]

lemma isFinite_neg (x : Float) : (-x).isFinite = x.isFinite := by
  have hneg : (-x).isFinite = x.toModel.unpack.neg.isFinite :=
    congrArg UnpackedFloat.isFinite (unpack_neg x)
  have hx : x.isFinite = x.toModel.unpack.isFinite := rfl
  rw [hneg, hx]
  rcases x.toModel.unpack with _ | _ | _ | _ <;> rfl

lemma le_of_not_lt_of_isFinite (hx : x.isFinite = true) (hy : y.isFinite = true) (h : ¬ y < x) :
    x ≤ y := by
  have hplace : ∀ {z : Float}, z.isFinite = true → ∃ a, a ∈ place z.toModel.unpack := by
    intro z hz
    refine Option.ne_none_iff_exists'.mp fun hnone => ?_
    have hfinite : z.toModel.unpack.isFinite = true := hz
    rw [place_eq_none hnone] at hfinite
    cases hfinite
  rw [le_iff, exists_le_iff, ← lt_iff]
  exact ⟨hplace hx, hplace hy, h⟩

/-- Negation negates values. -/
theorem value_neg {q : ℚ} (h : value x = some (rational q)) : value (-x) = some (rational (-q)) := by
  unfold value
  rw [unpack_neg]
  exact valueOf_neg h

lemma value_neg_bot (h : value x = some ⊥) : value (-x) = some ⊤ := by
  unfold value at h ⊢
  rw [unpack_neg]
  generalize x.toModel.unpack = a at h
  rcases a with (_ | _) | _ | _ | ⟨_ | _, m, e, hm⟩ <;> simp [valueOf] at h
  case infinity.negative => rfl
  all_goals exact absurd h (bot_lt_rational _).ne'

lemma unpack_of_value_top (h : value x = some ⊤) : x.toModel.unpack = .infinity .positive := by
  unfold value at h
  generalize x.toModel.unpack = a at h
  rcases a with (_ | _) | _ | _ | ⟨_ | _, m, e, hm⟩ <;> simp [valueOf] at h
  case infinity.positive => rfl
  all_goals exact absurd h (rational_lt_top _).ne

lemma value_neg_top (h : value x = some ⊤) : value (-x) = some ⊥ := by
  rw [value, unpack_neg, unpack_of_value_top h]
  rfl

lemma isFinite_iff_value : x.isFinite = true ↔ ∃ q, value x = some (rational q) := by
  have hfinite : x.isFinite = x.toModel.unpack.isFinite := rfl
  rw [hfinite, value]
  rcases x.toModel.unpack with (_ | _) | _ | _ | ⟨_ | _, m, e, hm⟩ <;>
    simp [UnpackedFloat.isFinite, valueOf]
  case infinity.negative => exact fun q => (bot_lt_rational q).ne
  case infinity.positive => exact fun q => (rational_lt_top q).ne'

lemma value_cases (v : WithBot (WithTop ℚ)) : v = ⊥ ∨ v = ⊤ ∨ ∃ q, v = rational q := by
  induction v using WithBot.recBotCoe with
  | bot => exact Or.inl rfl
  | coe v =>
    induction v using WithTop.recTopCoe with
    | top => exact Or.inr (Or.inl rfl)
    | coe q => exact Or.inr (Or.inr ⟨q, rfl⟩)

lemma value_one : value 1 = some (rational 1) := by
  have h : value 1 = some (rational (((2 ^ 52 : ℕ) : ℚ) * 2 ^ (-52 : ℤ))) := rfl
  rw [h]
  norm_num

lemma value_two : value 2 = some (rational 2) := by
  have h : value 2 = some (rational (((2 ^ 52 : ℕ) : ℚ) * 2 ^ (-51 : ℤ))) := rfl
  rw [h]
  norm_num

lemma value_five : value 5 = some (rational 5) := by
  have h : value 5 = some (rational (((5 * 2 ^ 50 : ℕ) : ℚ) * 2 ^ (-50 : ℤ))) := rfl
  rw [h]
  norm_num

end Double

end SimplexTableau
