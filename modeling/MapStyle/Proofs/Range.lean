import MapStyle.Builtin.Operation
import MapStyle.Double.Arithmetic
import MapStyle.Proofs.Number

/-!
# Operations that stay finite

A sign change, rounding to a whole number, and the choice of the greatest or least of some
numbers never leave the range of finite numbers: a number beyond `2 ^ 52` is whole already, and
the choice is among the numbers that are given.
-/

namespace MapStyle

namespace Magnitude

/-- A magnitude of 53 bits that is large enough is a whole number. -/
theorem one_dvd_of_large {units exponent : Nat} (representable : Representable units)
    (enough : 1074 + 52 ≤ exponent) (large : 2 ^ exponent ≤ units) : one ∣ units := by
  have divides : spacing units ∣ units := Nat.dvd_of_mod_eq_zero representable.1
  have positive : 0 < units := Nat.lt_of_lt_of_le (Nat.two_pow_pos exponent) large
  have bits : exponent ≤ units.log2 := (Nat.le_log2 (Nat.pos_iff_ne_zero.mp positive)).mpr large
  unfold one
  generalize 1074 = whole at enough
  exact Nat.dvd_trans (Nat.pow_dvd_pow 2 (by omega)) divides

/-- Rounding to whole steps, down or up, leaves a multiple of the step as it is. -/
theorem mul_step_eq {step units whole : Nat} (positive : 0 < step) (divides : step ∣ units)
    (atLeast : units / step ≤ whole) (atMost : whole ≤ (units + (step - 1)) / step) :
    whole * step = units := by
  obtain ⟨count, rfl⟩ := divides
  rw [Nat.mul_div_cancel_left count positive] at atLeast
  rw [Nat.mul_add_div positive, Nat.div_eq_of_lt (by omega), Nat.add_zero] at atMost
  rw [Nat.le_antisymm atMost atLeast, Nat.mul_comm]

/-- A whole number next to a finite magnitude is finite. -/
theorem round_whole_lt_overflow {units whole : Nat} (representable : Representable units)
    (atLeast : units / one ≤ whole) (atMost : whole ≤ (units + (one - 1)) / one) :
    round (whole * one) 1 < overflow := by
  by_cases large : 2 ^ 1126 ≤ units
  · have whole := mul_step_eq one_pos (one_dvd_of_large representable (by omega) large) atLeast
      atMost
    rw [whole, round_one representable]
    exact representable.2
  · by_cases zero : whole * one = 0
    · rw [zero, round_one representable_zero]
      exact representable_zero.2
    · have near : whole * one ≤ units + (one - 1) :=
        Nat.le_trans (Nat.mul_le_mul_right one atMost) (Nat.div_mul_le_self _ _)
      have upper := (round_one_bounds (Nat.pos_of_ne_zero zero)).2
      have room : 2 * (2 ^ 1126 + one) < overflow := by decide +kernel
      generalize 2 ^ 1126 = bound at large room
      omega

end Magnitude

namespace Double

theorem rounded_finite {negative : Bool} {numerator denominator : Nat}
    (bounded : Magnitude.round numerator denominator < Magnitude.overflow) :
    ∃ y, rounded negative numerator denominator = .finite y := by
  unfold rounded
  rw [dif_pos bounded]
  exact ⟨_, rfl⟩

/-- A rule that rounds a magnitude down or up keeps numbers finite. -/
theorem integralBy_finite {rule : Bool → Nat → Nat}
    (near : ∀ negative units, units / Magnitude.one ≤ rule negative units ∧
      rule negative units ≤ magnitudeCeil units) (x : FiniteDouble) :
    ∃ y, integralBy rule (.finite x) = .finite y := by
  obtain ⟨atLeast, atMost⟩ := near x.negative x.units
  exact rounded_finite (Magnitude.round_whole_lt_overflow x.representable atLeast atMost)

theorem round_finite (x : FiniteDouble) : ∃ y, round (.finite x) = .finite y := by
  apply integralBy_finite
  intro negative units
  have half : Magnitude.one / 2 ≤ Magnitude.one - 1 := by
    have positive := Magnitude.one_pos
    omega
  exact ⟨Nat.div_le_div_right (Nat.le_add_right _ _),
    Nat.div_le_div_right (Nat.add_le_add_left half units)⟩

end Double

/-- The functions of an angle that the machine computes, and the angle with a given tangent. -/
def UnaryFunction.isCircular : UnaryFunction → Bool
  | .atan | .cos | .sin | .tan => true
  | _ => false

/-- The sine, cosine and tangent of a finite number are finite, and so is the angle of a tangent. -/
def Double.MachineKeepsRange : Prop :=
  ∀ function : UnaryFunction, function.isCircular = true →
    ∀ x : FiniteDouble, ∃ y, function.run (.finite x) = .finite y

end MapStyle
