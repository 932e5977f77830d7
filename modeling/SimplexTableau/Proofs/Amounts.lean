import SimplexTableau.Proofs.NearestEven
import SimplexTableau.Proofs.Hundredths
import SimplexTableau.Proofs.Literals

/-!
# Amounts in hundredths

An amount is written as a plain decimal numeral: a minus sign or none, the digits of its whole part,
and two decimals or none. Such a numeral reads back as the amount. The text of a finite double is
the amount of its value rounded to hundredths, so equal texts stand for equal hundredths, and the
texts are in the order of the doubles.
-/

namespace SimplexTableau.Decimal

open SimplexTableau.Text SimplexTableau.Specification

/-- A plain decimal numeral: a sign, a whole part and two decimals or none. -/
structure Amount where
  minus : Bool
  whole : ℕ
  decimals : Option (Fin 10 × Fin 10)

namespace Amount

def decimalText : Option (Fin 10 × Fin 10) → List Char
  | none => []
  | some (tenths, hundredths) => ['.', tenths.val.digitChar, hundredths.val.digitChar]

def text (a : Amount) : List Char :=
  (if a.minus then ['-'] else []) ++ (Nat.toDigits 10 a.whole ++ decimalText a.decimals)

def decimalValue : Option (Fin 10 × Fin 10) → ℚ
  | none => 0
  | some (tenths, hundredths) => (10 * tenths.val + hundredths.val : ℕ) / 100

/-- The number that an amount stands for. -/
def value (a : Amount) : ℚ :=
  (if a.minus then -1 else 1) * (a.whole + decimalValue a.decimals)

end Amount

/-- The rational number that a numeral denotes. -/
def Numeral.rational? : Numeral → Option ℚ
  | .finite negative digits exponent =>
    some ((if negative then -1 else 1) * (digits * 10 ^ exponent))
  | _ => none

/-- The rational number that a text reads as. -/
def readRational? (text : List Char) : Option ℚ :=
  (Numeral.read? text).bind Numeral.rational?

section Digits

lemma digit?_of_isDigit {c : Char} (h : c.isDigit = true) : digit? c = some (c.toNat - 48) := by
  have hrange : 48 ≤ c.toNat ∧ c.toNat ≤ 57 := by
    simpa [Char.isDigit, UInt32.le_iff_toNat_le] using h
  unfold digit?
  simp only [if_pos (show c.toNat < 128 by omega), if_pos hrange]

lemma ofDigits_append (ds es : List ℕ) :
    ofDigits (ds ++ es) = es.foldl (fun n d => 10 * n + d) (ofDigits ds) := by
  simp only [ofDigits, List.foldl_append]

lemma ofDigits_toDigits (n : ℕ) : ofDigits ((Nat.toDigits 10 n).filterMap digit?) = n := by
  have hall : ∀ c ∈ Nat.toDigits 10 n, c.isDigit = true :=
    fun _ => Nat.isDigit_of_mem_toDigits (by norm_num) le_rfl
  have hfold : ∀ cs : List Char, (∀ c ∈ cs, c.isDigit = true) → ∀ start,
      (cs.filterMap digit?).foldl (fun n d => 10 * n + d) start =
        Nat.ofDigitChars 10 cs start := by
    intro cs hcs
    induction cs with
    | nil => exact fun _ => rfl
    | cons c cs ih =>
      intro start
      obtain ⟨hc, hcs⟩ := List.forall_mem_cons.mp hcs
      rw [List.filterMap_cons_some (digit?_of_isDigit hc), List.foldl_cons, ih hcs]
      rfl
  rw [ofDigits, hfold _ hall]
  exact Nat.ofDigitChars_ten_toDigits

end Digits

namespace Amount

/-- An amount among the numerals in the digits of any script. -/
def mantissa (a : Amount) : Mantissa where
  whole := Nat.toDigits 10 a.whole
  part := a.decimals.map fun (tenths, hundredths) =>
    [tenths.val.digitChar, hundredths.val.digitChar]
  isDigit_whole := by
    intro c hc
    have hdigit := Nat.isDigit_of_mem_toDigits (by norm_num) le_rfl hc
    rw [isDigit, digit?_of_isDigit hdigit]
    rfl
  isDigit_part := by
    intro ds hds c hc
    obtain ⟨⟨tenths, hundredths⟩, -, rfl⟩ := Option.map_eq_some_iff.mp hds
    obtain ⟨d, rfl⟩ : ∃ d : Fin 10, c = d.val.digitChar := by
      simpa using (List.mem_pair.mp hc).elim (fun h => ⟨tenths, h⟩) (fun h => ⟨hundredths, h⟩)
    rw [isDigit, Written.digit?_digitChar]
    rfl

lemma text_mantissa (a : Amount) :
    a.mantissa.text = Nat.toDigits 10 a.whole ++ decimalText a.decimals := by
  obtain ⟨minus, whole, _ | ⟨tenths, hundredths⟩⟩ := a <;> rfl

/-- A plain decimal numeral reads back as the number that it stands for. -/
theorem readRational?_text (a : Amount) : readRational? a.text = some a.value := by
  have hsign : IsSign (if a.minus then ['-'] else []) := by
    split_ifs
    · exact .inr (.inr rfl)
    · exact .inl rfl
  have hminus : decide ((if a.minus then ['-'] else []) = ['-']) = a.minus := by
    cases a.minus <;> rfl
  have hdigits : a.mantissa.digits ≠ [] := by
    simp [Mantissa.digits, mantissa, Nat.toDigits_ne_nil]
  rw [readRational?, text, ← text_mantissa, Mantissa.read?_signed hsign, if_neg hdigits, hminus]
  obtain ⟨minus, whole, _ | ⟨tenths, hundredths⟩⟩ := a
  · simp [mantissa, Mantissa.digits, Mantissa.decimals, Numeral.rational?, value, decimalValue,
      ofDigits_toDigits]
  · have hvalue : ofDigits ((Nat.toDigits 10 whole ++
        [tenths.val.digitChar, hundredths.val.digitChar]).filterMap digit?) =
          10 * (10 * whole + tenths.val) + hundredths.val := by
      rw [List.filterMap_append, ofDigits_append, ofDigits_toDigits]
      simp [Written.digit?_digitChar]
    have hshift : ((10 * (10 * whole + tenths.val) + hundredths.val : ℕ) : ℚ) * 10 ^ (-2 : ℤ) =
        whole + (10 * tenths.val + hundredths.val : ℕ) / 100 := by
      push_cast
      ring
    simp only [mantissa, Mantissa.digits, Mantissa.decimals, Option.map_some, Option.getD_some,
      Option.bind_some, Numeral.rational?, hvalue, value, decimalValue, ← hshift]
    rfl

/-- The two decimals of a number of hundredths, unless it is whole. -/
def decimalsOf (count : ℕ) : Option (Fin 10 × Fin 10) :=
  if count % 100 = 0 then none
  else some (⟨count % 100 / 10, by omega⟩, ⟨count % 10, by omega⟩)

/-- A number of hundredths as an amount. -/
def ofHundredths (k : ℤ) : Amount where
  minus := decide (k < 0)
  whole := k.natAbs / 100
  decimals := decimalsOf k.natAbs

lemma decimalValue_decimalsOf (count : ℕ) :
    decimalValue (decimalsOf count) = (count % 100 : ℕ) / 100 := by
  unfold decimalsOf
  split_ifs with h
  · simp [decimalValue, h]
  · have hdigits : 10 * (count % 100 / 10) + count % 10 = count % 100 := by omega
    simp only [decimalValue, hdigits]

theorem value_ofHundredths (k : ℤ) : (ofHundredths k).value = k / 100 := by
  have hsize : ((k.natAbs / 100 : ℕ) + (k.natAbs % 100 : ℕ) / 100 : ℚ) = k.natAbs / 100 := by
    have hsplit : (k.natAbs : ℚ) = 100 * (k.natAbs / 100 : ℕ) + (k.natAbs % 100 : ℕ) := by
      exact_mod_cast (Nat.div_add_mod k.natAbs 100).symm
    rw [hsplit]
    ring
  have habs : ((k.natAbs : ℤ) : ℚ) = (|k| : ℤ) := by rw [Int.natCast_natAbs]
  rw [value, ofHundredths, decimalValue_decimalsOf, hsize, ← Int.cast_natCast, habs]
  rcases lt_or_ge k 0 with hneg | hpos
  · rw [if_pos (by simpa using hneg), abs_of_neg hneg]
    push_cast
    ring
  · rw [if_neg (by simpa using hpos), abs_of_nonneg hpos, one_mul]

lemma minus_ofHundredths (k : ℤ) : (ofHundredths k).minus = true ↔ (k / 100 : ℚ) < 0 := by
  have hcast : (k / 100 : ℚ) < 0 ↔ k < 0 := by
    rw [div_lt_iff₀ (by norm_num), zero_mul]
    exact_mod_cast Iff.rfl
  rw [hcast]
  exact decide_eq_true_iff

lemma decimals_ofHundredths (k : ℤ) :
    (ofHundredths k).decimals = none ↔ ∃ z : ℤ, (k / 100 : ℚ) = z := by
  have hwhole : (∃ z : ℤ, (k / 100 : ℚ) = z) ↔ (100 : ℤ) ∣ k := by
    refine exists_congr fun z => ?_
    rw [div_eq_iff (by norm_num), mul_comm]
    exact_mod_cast Iff.rfl
  rw [hwhole, ofHundredths, decimalsOf]
  split_ifs with h
  · simp only [true_iff]
    omega
  · simp only [false_iff]
    omega

lemma toList_twoDigits : ∀ n < 100,
    (twoDigits n).toList = [(n / 10 % 10).digitChar, (n % 10).digitChar] := by
  decide

lemma twoDigits_eq_zeros : ∀ n < 100,
    (n / 10 % 10).digitChar = '0' ∧ (n % 10).digitChar = '0' ↔ n = 0 := by
  decide

/-- Decimals are left out where they are zeros, and then a zero loses its sign. -/
lemma shortened_append (front : List Char) (a b : Char) :
    shortened (front ++ ['.', a, b]) =
      if a = '0' ∧ b = '0' then if front = ['-', '0'] then ['0'] else front
      else front ++ ['.', a, b] := by
  have hdrop : (front ++ ['.', a, b]).drop ((front ++ ['.', a, b]).length - 3) = ['.', a, b] := by
    simp
  have hsuffix : ['.', '0', '0'].isSuffixOf (front ++ ['.', a, b]) = true ↔
      a = '0' ∧ b = '0' := by
    rw [List.isSuffixOf_iff_suffix, List.suffix_iff_eq_drop, List.length_cons, List.length_cons,
      List.length_singleton, hdrop]
    simp [eq_comm]
  have hlong : front ++ ['.', a, b] ≠ ['-', '0'] := by
    intro h
    have hlen := congrArg List.length h
    simp at hlen
  unfold shortened
  simp only [hsuffix]
  by_cases hzeros : a = '0' ∧ b = '0'
  · simp [hzeros]
  · simp only [if_neg hzeros, if_neg hlong]

lemma toList_hundredthsText (negative : Bool) (count : ℕ) :
    (hundredthsText negative count).toList = ((if negative then ['-'] else []) ++
      Nat.toDigits 10 (count / 100)) ++
        ['.', (count % 100 / 10 % 10).digitChar, (count % 100 % 10).digitChar] := by
  have hsign : (if negative then "-" else "").toList = if negative then ['-'] else [] := by
    cases negative <;> rfl
  rw [hundredthsText, String.toList_append, String.toList_append, String.toList_append, hsign,
    Nat.toString_eq_repr, Nat.toList_repr, toList_twoDigits _ (Nat.mod_lt _ (by norm_num)),
    List.append_assoc _ ".".toList]
  rfl

lemma toDigits_eq_zero {n : ℕ} : Nat.toDigits 10 n = ['0'] ↔ n = 0 := by
  constructor
  · intro h
    have hback := Nat.ofDigitChars_ten_toDigits (n := n)
    rw [h] at hback
    exact hback.symm
  · rintro rfl
    rfl

/-- Only a negative whole zero is written with a sign that is dropped. -/
lemma signed_eq_zero {negative : Bool} {n : ℕ} :
    (if negative then ['-'] else []) ++ Nat.toDigits 10 n = ['-', '0'] ↔
      negative = true ∧ n = 0 := by
  cases negative with
  | true => simp [toDigits_eq_zero]
  | false =>
    have hminus : Nat.toDigits 10 n ≠ ['-', '0'] := by
      intro h
      have hdigit := Nat.isDigit_of_mem_toDigits (b := 10) (n := n) (c := '-') (by norm_num) le_rfl
        (h ▸ List.mem_cons_self ..)
      exact absurd hdigit (by decide)
    simpa using hminus

/-- The shortened text is the amount. -/
lemma shortened_hundredthsText (negative : Bool) (count : ℕ) :
    shortened (hundredthsText negative count).toList =
      (ofHundredths (if negative then -count else count)).text := by
  have hcount : (if negative then -(count : ℤ) else count).natAbs = count := by
    cases negative <;> simp
  have hminus : (if negative then -(count : ℤ) else count) < 0 ↔ negative = true ∧ count ≠ 0 := by
    cases negative <;> simp [Nat.pos_iff_ne_zero]
  have hzeros := twoDigits_eq_zeros _ (Nat.mod_lt count (by norm_num : 0 < 100))
  rw [toList_hundredthsText, shortened_append, text, ofHundredths, hcount, decimalsOf]
  simp only [hzeros, signed_eq_zero, hminus, decide_eq_true_eq]
  by_cases hwhole : count % 100 = 0
  · simp only [if_pos hwhole, decimalText, List.append_nil]
    by_cases hzero : count = 0
    · subst hzero
      cases negative <;> rfl
    · have hunits : count / 100 ≠ 0 := by omega
      simp [hzero, hunits]
  · have hzero : count ≠ 0 := by
      rintro rfl
      exact hwhole rfl
    have htenths : count % 100 / 10 % 10 = count % 100 / 10 := by omega
    have hlast : count % 100 % 10 = count % 10 := by omega
    simp [if_neg hwhole, decimalText, hzero, htenths, hlast]

end Amount

/-- A double, its exact value, and this value rounded to hundredths. -/
structure RoundedTo (x : Float) (exact rounded : ℚ) : Prop where
  value : Double.value x = some (Double.rational exact)
  nearest : ∃ k : ℤ, rounded = k / 100 ∧ NearestEven (100 * exact) k

section Doubles

variable {x : Float}

lemma exists_binary (h : x.isFinite = true) : ∃ (negative : Bool) (m : ℕ) (e : ℤ),
    Binary.ofFloat x = .finite negative m e ∧
      Double.value x = some (Double.rational ((if negative then -1 else 1) * (m * 2 ^ e))) := by
  replace h : x.toModel.unpack.isFinite = true := h
  have hbinary := Double.ofFloat_eq x
  rw [Double.value]
  generalize x.toModel.unpack = a at h hbinary
  rcases a with s | _ | s | ⟨_ | _, m, e, hm⟩
  case infinity => cases h
  case notANumber => cases h
  case zero => exact ⟨_, 0, -1074, hbinary, by simp [Double.valueOf]⟩
  case finite.negative => exact ⟨true, m, e, hbinary, by simp [Double.valueOf]⟩
  case finite.positive => exact ⟨false, m, e, hbinary, by simp [Double.valueOf]⟩

/-- The text of a finite double is that of its hundredths. -/
lemma exists_amount (h : x.isFinite = true) : ∃ (a : ℚ) (k : ℤ),
    Double.value x = some (Double.rational a) ∧ NearestEven (100 * a) k ∧
      (twoPlaces x).toList = (Amount.ofHundredths k).text := by
  obtain ⟨negative, m, e, hbinary, hvalue⟩ := exists_binary h
  obtain ⟨hden, hquotient⟩ := Double.div_binaryQuotient m e
  have hround : NearestEven _ (hundredths (binaryQuotient m e).1 (binaryQuotient m e).2 : ℕ) :=
    nearestEven_roundHalfEven (100 * (binaryQuotient m e).1) hden
  rw [Nat.cast_mul, mul_div_assoc, hquotient, Nat.cast_ofNat] at hround
  refine ⟨_, if negative then -(hundredths (binaryQuotient m e).1 (binaryQuotient m e).2 : ℤ)
    else hundredths (binaryQuotient m e).1 (binaryQuotient m e).2, hvalue, ?_, ?_⟩
  · cases negative with
    | true => simpa using hround.neg
    | false => simpa using hround
  · rw [twoPlaces, String.toList_ofList, fixedText, hbinary, ← Amount.shortened_hundredthsText]

/-- The text of a finite double is the plain decimal numeral of its exact value rounded to the
nearest hundredth, a half going to the even one: with a minus sign for a negative number of
hundredths only, and without decimals for a whole number. It reads back as that number, which is
at most half a hundredth away. Two doubles have the same text exactly when they are rounded to the
same hundredths, and the numbers read back are in the order of the doubles. -/
theorem twoPlaces_rounded {v : Float} (hv : v.isFinite = true) :
    ∃ a q : ℚ, RoundedTo v a q ∧
      (∃ n : Amount, (twoPlaces v).toList = n.text ∧ n.value = q ∧ (n.minus = true ↔ q < 0) ∧
        (n.decimals = none ↔ ∃ z : ℤ, q = z)) ∧
      readRational? (twoPlaces v).toList = some q ∧ |q - a| ≤ 1 / 200 ∧
      ∀ w : Float, w.isFinite = true → ∃ b r : ℚ, RoundedTo w b r ∧
        readRational? (twoPlaces w).toList = some r ∧ (twoPlaces v = twoPlaces w ↔ q = r) ∧
        (v ≤ w → q ≤ r) := by
  obtain ⟨a, k, ha, hk, htext⟩ := exists_amount hv
  have hread {x : Float} {k : ℤ} (h : (twoPlaces x).toList = (Amount.ofHundredths k).text) :
      readRational? (twoPlaces x).toList = some (k / 100 : ℚ) := by
    rw [h, Amount.readRational?_text, Amount.value_ofHundredths]
  refine ⟨a, k / 100, ⟨ha, k, rfl, hk⟩, ⟨Amount.ofHundredths k, htext, Amount.value_ofHundredths k,
    Amount.minus_ofHundredths k, Amount.decimals_ofHundredths k⟩, hread htext, ?_,
    fun w hw => ?_⟩
  · have hscale : |(k / 100 : ℚ) - a| = |100 * a - k| / 100 := by
      rw [abs_sub_comm, show a - k / 100 = (100 * a - k) / 100 by ring, abs_div]
      norm_num
    rw [hscale, div_le_iff₀ (by norm_num)]
    linarith [hk.near]
  · obtain ⟨b, l, hb, hl, htext'⟩ := exists_amount hw
    refine ⟨b, l / 100, ⟨hb, l, rfl, hl⟩, hread htext', ⟨fun hsame => ?_, fun hsame => ?_⟩,
      fun hle => ?_⟩
    · have hback := hread htext
      rw [hsame, hread htext', Option.some_inj] at hback
      exact hback.symm
    · have hkl : k = l := by
        rw [div_left_inj' (by norm_num)] at hsame
        exact_mod_cast hsame
      rw [← String.toList_inj, htext, htext', hkl]
    · obtain ⟨a', ha', b', hb', hle'⟩ := Double.le_iff_value.mp hle
      obtain rfl := Option.mem_unique ha' ha
      obtain rfl := Option.mem_unique hb' hb
      have hmono : k ≤ l := hk.mono hl (by linarith [Double.rational_le.mp hle'])
      gcongr

theorem twoPlaces_rounded_tie : (-0.125 : Float).isFinite = true ∧
    ∃ a q : ℚ, RoundedTo (-0.125) a q ∧
      (∃ n : Amount, (twoPlaces (-0.125)).toList = n.text ∧ n.value = q ∧
        (n.minus = true ↔ q < 0) ∧ (n.decimals = none ↔ ∃ z : ℤ, q = z)) ∧
      readRational? (twoPlaces (-0.125)).toList = some q ∧ |q - a| ≤ 1 / 200 ∧
      ∀ w : Float, w.isFinite = true → ∃ b r : ℚ, RoundedTo w b r ∧
        readRational? (twoPlaces w).toList = some r ∧ (twoPlaces (-0.125) = twoPlaces w ↔ q = r) ∧
        (-0.125 ≤ w → q ≤ r) :=
  have hfinite : (-0.125 : Float).isFinite = true := by decide +kernel
  ⟨hfinite, twoPlaces_rounded hfinite⟩

/-- Halves go to the even hundredth, and what is rounded to zero has no sign. -/
example : ["-0.12", "0.38", "0", "36", "-0.33"] =
    [-0.125, 0.375, -0.004, 36, -1 / 3].map twoPlaces := by
  decide +kernel

end Doubles

end SimplexTableau.Decimal
