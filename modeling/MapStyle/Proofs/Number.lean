import MapStyle.Value.Basic

/-!
# Numbers through binary64

A number that is taken to binary64 and back is the same number as far as computation can tell,
except that negative zero comes back as zero.  Whole numbers of 64 bits stay finite on the way,
and a whole result is written as a whole number only where binary64 holds it exactly.
-/

namespace MapStyle

namespace Magnitude

theorem one_pos : 0 < one := by
  unfold one
  generalize 1074 = bits
  exact Nat.two_pow_pos bits

theorem le_nearestEven (numerator denominator : Nat) :
    numerator / denominator ≤ nearestEven numerator denominator := by
  unfold nearestEven
  dsimp only
  repeat' split
  all_goals omega

theorem spacing_le {units : Nat} (positive : 0 < units) : spacing units ≤ units := by
  have bits : 2 ^ units.log2 ≤ units := Nat.log2_self_le (by omega)
  exact Nat.le_trans (Nat.pow_le_pow_right (by omega) (Nat.sub_le _ _)) bits

/-- A positive magnitude is not rounded to nothing, nor to more than its double. -/
theorem round_one_bounds {units : Nat} (positive : 0 < units) :
    0 < round units 1 ∧ round units 1 ≤ 2 * units := by
  have narrow := spacing_le positive
  have stepPositive : 0 < spacing units := Nat.two_pow_pos _
  unfold round
  dsimp only
  rw [Nat.div_one, Nat.one_mul]
  generalize spacing units = step at *
  have atLeast := le_nearestEven units step
  have atMost := nearestEven_le units step
  have quotient : 0 < units / step := Nat.div_pos narrow stepPositive
  constructor
  · exact Nat.mul_pos (Nat.lt_of_lt_of_le quotient atLeast) stepPositive
  · calc nearestEven units step * step
        ≤ (units / step + 1) * step := Nat.mul_le_mul_right step atMost
      _ = units / step * step + step := by rw [Nat.add_mul, Nat.one_mul]
      _ ≤ units + units := Nat.add_le_add (Nat.div_mul_le_self units step) narrow
      _ = 2 * units := by omega

/-- Whole numbers of 64 bits are far below the overflow threshold. -/
theorem double_word_lt_overflow {whole : Nat} (small : whole ≤ 2 ^ 64) :
    2 * (whole * one) < overflow := by
  have scaled : 2 * (whole * one) ≤ 2 * (2 ^ 64 * one) :=
    Nat.mul_le_mul_left 2 (Nat.mul_le_mul_right one small)
  have room : 2 * (2 ^ 64 * one) < overflow := by decide +kernel
  exact Nat.lt_of_le_of_lt scaled room

/-- Whole numbers of 53 bits are representable. -/
theorem representable_whole {whole : Nat} (small : whole ≤ 2 ^ 53) :
    Representable (whole * one) := by
  have room := double_word_lt_overflow (Nat.le_trans small (by decide))
  have bounded : whole * one < overflow := by omega
  exact representable_mul_two_pow small bounded

end Magnitude

namespace FiniteDouble

def isNegativeZero (x : FiniteDouble) : Bool := x.negative && x.units == 0

/-- A number without fraction is its whole part, counted in units. -/
theorem units_of_isIntegral {x : FiniteDouble} (integral : x.isIntegral = true) :
    x.truncated.natAbs * Magnitude.one = x.units := by
  have whole : x.units % Magnitude.one = 0 := by simpa [isIntegral] using integral
  have parts := Nat.div_add_mod x.units Magnitude.one
  rw [whole, Nat.add_zero, Nat.mul_comm] at parts
  have size : x.truncated.natAbs = x.units / Magnitude.one := by
    unfold truncated
    dsimp only
    split
    · exact Int.natAbs_neg _
    · rfl
  rw [size, parts]

/-- The sign of a number without fraction is that of its whole part, but for negative zero. -/
theorem truncated_neg_iff {x : FiniteDouble} (integral : x.isIntegral = true)
    (clean : x.isNegativeZero = false) : x.truncated < 0 ↔ x.negative = true := by
  have whole := units_of_isIntegral integral
  constructor
  · intro below
    cases sign : x.negative with
    | true => rfl
    | false =>
        have shape : ∃ size : Nat, x.truncated = size := by
          refine ⟨x.units / Magnitude.one, ?_⟩
          unfold truncated
          rw [sign]
          rfl
        obtain ⟨size, shape⟩ := shape
        omega
  · intro sign
    have occupied : x.units ≠ 0 := by simpa [isNegativeZero, sign] using clean
    have shape : ∃ size : Nat, x.truncated = -(size : Int) := by
      refine ⟨x.units / Magnitude.one, ?_⟩
      unfold truncated
      rw [sign]
      rfl
    obtain ⟨size, shape⟩ := shape
    have nonzero : x.truncated.natAbs ≠ 0 := by
      intro zero
      rw [zero, Nat.zero_mul] at whole
      exact occupied whole.symm
    omega

end FiniteDouble

namespace Double

/-- A whole number of 64 bits is finite as binary64, and never negative zero. -/
theorem ofInt_finite {whole : Int} (small : whole.natAbs ≤ 2 ^ 64) :
    ∃ x, ofInt whole = .finite x ∧ x.isNegativeZero = false := by
  have bounded : Magnitude.round (whole.natAbs * Magnitude.one) 1 < Magnitude.overflow := by
    have room := Magnitude.double_word_lt_overflow small
    by_cases zero : whole.natAbs * Magnitude.one = 0
    · rw [zero, Magnitude.round_one Magnitude.representable_zero]
      exact Magnitude.representable_zero.2
    · have upper := (Magnitude.round_one_bounds (Nat.pos_of_ne_zero zero)).2
      omega
  unfold ofInt rounded
  rw [dif_pos bounded]
  refine ⟨_, rfl, ?_⟩
  by_cases negative : whole < 0
  · have positive : 0 < whole.natAbs * Magnitude.one :=
      Nat.mul_pos (by omega) Magnitude.one_pos
    have lower := (Magnitude.round_one_bounds positive).1
    simp only [FiniteDouble.isNegativeZero, Bool.and_eq_false_iff, beq_eq_false_iff_ne]
    exact .inr (by omega)
  · simp [FiniteDouble.isNegativeZero, negative]

/-- A number without fraction, but for negative zero, is the binary64 number of its whole part. -/
theorem ofInt_truncated {x : FiniteDouble} (integral : x.isIntegral = true)
    (clean : x.isNegativeZero = false) : ofInt x.truncated = .finite x := by
  have sign : decide (x.truncated < 0) = x.negative := by
    simp [FiniteDouble.truncated_neg_iff integral clean]
  unfold ofInt
  rw [FiniteDouble.units_of_isIntegral integral, sign]
  exact rounded_units x

end Double

namespace Number

def isNegativeZero : Number → Bool
  | .whole _ _ _ => false
  | .double value => value.isNegativeZero

/-- A computed number is never negative zero. -/
theorem ofDouble?_clean {x : Double} {number : Number} (found : ofDouble? x = some number) :
    number.isNegativeZero = false := by
  unfold ofDouble? at found
  split at found
  · rename_i value
    split at found
    · cases found
      rfl
    · rename_i fractional
      cases found
      cases zero : value.isNegativeZero with
      | false => exact zero
      | true =>
          -- Negative zero has no fraction, so it would have become a whole number.
          simp only [FiniteDouble.isNegativeZero, Bool.and_eq_true, beq_iff_eq] at zero
          refine absurd ⟨?_, ?_, ?_⟩ fractional
          · simp [FiniteDouble.isIntegral, zero.2]
          · simp [FiniteDouble.truncated, zero.2, greatestExact]
          · simp [FiniteDouble.truncated, zero.2, greatestExact]
  · cases found

/-- Every number is finite as binary64. -/
theorem toDouble_eq_finite (number : Number) : ∃ x, number.toDouble = .finite x := by
  cases number with
  | whole value low high =>
      have small : value.natAbs ≤ 2 ^ 64 := by omega
      obtain ⟨x, finite, _⟩ := Double.ofInt_finite small
      exact ⟨x, finite⟩
  | double value => exact ⟨value, rfl⟩

/-- A finite result is a number. -/
theorem ofDouble?_finite (x : FiniteDouble) : ∃ number, ofDouble? (.finite x) = some number := by
  unfold ofDouble?
  dsimp only
  split
  · exact ⟨_, rfl⟩
  · exact ⟨_, rfl⟩

/-- A number other than negative zero is finite as binary64, and not negative zero there. -/
theorem toDouble_finite {number : Number} (clean : number.isNegativeZero = false) :
    ∃ x, number.toDouble = .finite x ∧ x.isNegativeZero = false := by
  cases number with
  | whole value low high => exact Double.ofInt_finite (by omega)
  | double value => exact ⟨value, rfl, clean⟩

/-- A number other than negative zero survives the way through binary64. -/
theorem ofDouble?_toDouble {number : Number} (clean : number.isNegativeZero = false) :
    ∃ result, ofDouble? number.toDouble = some result ∧ result.toDouble = number.toDouble := by
  obtain ⟨x, finite, clean⟩ := toDouble_finite clean
  rw [finite]
  unfold ofDouble?
  dsimp only
  split
  · rename_i whole
    exact ⟨_, rfl, Double.ofInt_truncated whole.1 clean⟩
  · exact ⟨_, rfl, rfl⟩

end Number

end MapStyle
