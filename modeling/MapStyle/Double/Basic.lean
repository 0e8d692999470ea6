/-!
# Binary64 numbers

Magnitudes, which are whole numbers of a least unit, and the numbers that are made of them.
-/

namespace MapStyle

/-!
## Magnitudes of binary64 numbers

Every finite binary64 number is a whole number of units of `2 ^ -1074`, the least positive one.
A magnitude is therefore a natural number, and it is representable when it has at most 53
significant bits and lies below the overflow threshold.  Sums and comparisons of magnitudes are
exact; a quotient is rounded once, to the nearest representable magnitude, a half going to the
even neighbour.
-/

/-- Powers of natural numbers are the built-in ones, whatever other structure is known. -/
@[default_instance 10100]
instance (priority := 1100) naturalPower : Pow Nat Nat := instPowNat

@[default_instance 10050]
instance (priority := 1100) wholePower : Pow Int Nat := instPowNat

namespace Magnitude

/-- The number one, counted in units of `2 ^ -1074`. -/
def one : Nat := 2 ^ 1074

/-- The least magnitude that is too large for a finite number. -/
def overflow : Nat := 2 ^ 2098

/-- The distance between neighbouring magnitudes around `units`: 53 bits are kept. -/
def spacing (units : Nat) : Nat := 2 ^ (units.log2 - 52)

/-- A magnitude that a finite binary64 number can hold. -/
def Representable (units : Nat) : Prop :=
  units % spacing units = 0 ∧ units < overflow

instance (units : Nat) : Decidable (Representable units) :=
  inferInstanceAs (Decidable (_ ∧ _))

/-- Nothing at all is a magnitude. -/
theorem representable_zero : Representable 0 := by
  refine ⟨Nat.zero_mod _, ?_⟩
  unfold overflow
  generalize 2098 = bits
  exact Nat.two_pow_pos bits

/-- The whole number nearest to `numerator / denominator`, a half going to the even one. -/
def nearestEven (numerator denominator : Nat) : Nat :=
  let quotient := numerator / denominator
  let remainder := numerator % denominator
  if 2 * remainder < denominator then quotient
  else if denominator < 2 * remainder then quotient + 1
  else if quotient % 2 = 0 then quotient
  else quotient + 1

/-- The magnitude of 53 bits nearest to `numerator / denominator`, not yet bounded above. -/
def round (numerator denominator : Nat) : Nat :=
  let step := spacing (numerator / denominator)
  nearestEven numerator (denominator * step) * step

/-- Rounding to a whole number moves up by at most one. -/
theorem nearestEven_le (numerator denominator : Nat) :
    nearestEven numerator denominator ≤ numerator / denominator + 1 := by
  unfold nearestEven
  dsimp only
  repeat' split
  all_goals omega

/-- A whole quotient is its own rounding. -/
theorem nearestEven_mul {denominator : Nat} (positive : 0 < denominator) (whole : Nat) :
    nearestEven (whole * denominator) denominator = whole := by
  simp [nearestEven, Nat.mul_div_cancel _ positive, positive]

/-- A significand of at most 53 bits, scaled by a power of two below overflow, is representable. -/
theorem representable_mul_two_pow {significand exponent : Nat}
    (small : significand ≤ 2 ^ 53) (bounded : significand * 2 ^ exponent < overflow) :
    Representable (significand * 2 ^ exponent) := by
  refine ⟨?_, bounded⟩
  by_cases zero : significand = 0
  · simp [zero]
  have positive : significand * 2 ^ exponent ≠ 0 :=
    Nat.mul_ne_zero zero (Nat.pos_iff_ne_zero.mp (Nat.two_pow_pos exponent))
  by_cases full : significand = 2 ^ 53
  · subst full
    rw [← Nat.pow_add, spacing, Nat.log2_two_pow]
    exact Nat.mod_eq_zero_of_dvd (Nat.pow_dvd_pow 2 (by omega))
  · have less : significand * 2 ^ exponent < 2 ^ (53 + exponent) := by
      rw [Nat.pow_add]
      exact Nat.mul_lt_mul_of_pos_right (by omega) (Nat.two_pow_pos exponent)
    have bits : (significand * 2 ^ exponent).log2 < 53 + exponent :=
      (Nat.log2_lt positive).mpr less
    exact Nat.mod_eq_zero_of_dvd
      (Nat.dvd_trans (Nat.pow_dvd_pow 2 (by omega)) (Nat.dvd_mul_left _ _))

/-- A quotient measured in its own spacing has at most 53 bits. -/
theorem div_spacing_lt (numerator denominator : Nat) :
    numerator / (denominator * spacing (numerator / denominator)) < 2 ^ 53 := by
  rw [← Nat.div_div_eq_div_mul, spacing]
  generalize numerator / denominator = quotient
  rw [Nat.div_lt_iff_lt_mul (Nat.two_pow_pos _), ← Nat.pow_add]
  exact Nat.lt_of_lt_of_le Nat.lt_log2_self (Nat.pow_le_pow_right (by omega) (by omega))

/-- Rounding yields a representable magnitude unless it overflows. -/
theorem representable_round {numerator denominator : Nat}
    (bounded : round numerator denominator < overflow) :
    Representable (round numerator denominator) := by
  have small : nearestEven numerator (denominator * spacing (numerator / denominator)) ≤ 2 ^ 53 :=
    Nat.le_trans (nearestEven_le _ _) (div_spacing_lt _ _)
  exact representable_mul_two_pow small bounded

/-- A representable magnitude is its own rounding. -/
theorem round_one {units : Nat} (representable : Representable units) : round units 1 = units := by
  have divides : spacing units ∣ units := Nat.dvd_of_mod_eq_zero representable.1
  obtain ⟨significand, equal⟩ := divides
  have positive : 0 < spacing units := Nat.two_pow_pos _
  unfold round
  dsimp only
  rw [Nat.div_one, Nat.one_mul]
  generalize spacing units = step at equal positive
  subst equal
  rw [Nat.mul_comm step significand, nearestEven_mul positive]

end Magnitude

/-!
## Signed numbers, infinities and no number

A finite number is a sign and a representable magnitude, so negative zero is kept apart from
zero.  Finite numbers are ordered by their exact value; the two zeros compare equal, and the
datum that is not a number compares with nothing.  `Double.rounded` is the only way an
operation builds a finite number from an exact quotient.
-/

/-- A finite binary64 number: a sign and a magnitude in units of `2 ^ -1074`. -/
structure FiniteDouble where
  negative : Bool
  units : Nat
  representable : Magnitude.Representable units
  deriving DecidableEq

inductive Double where
  | finite (number : FiniteDouble)
  | infinite (negative : Bool)
  | nan
  deriving DecidableEq

namespace FiniteDouble

/-- The exact value, as a whole number of units. -/
def value (x : FiniteDouble) : Int :=
  if x.negative then -(x.units : Int) else x.units

def zero (negative : Bool) : FiniteDouble := ⟨negative, 0, Magnitude.representable_zero⟩

def isIntegral (x : FiniteDouble) : Bool := x.units % Magnitude.one == 0

def truncated (x : FiniteDouble) : Int :=
  let whole : Nat := x.units / Magnitude.one
  if x.negative then -(whole : Int) else whole

def neg (x : FiniteDouble) : FiniteDouble := { x with negative := !x.negative }

@[simp] theorem value_zero (negative : Bool) : (zero negative).value = 0 := by
  cases negative <;> rfl

@[simp] theorem value_neg (x : FiniteDouble) : x.neg.value = -x.value := by
  cases h : x.negative <;> simp [neg, value, h]

end FiniteDouble

namespace Double

/-- The number nearest to a signed quotient of units; too large a quotient becomes infinite. -/
def rounded (negative : Bool) (numerator denominator : Nat) : Double :=
  if bounded : Magnitude.round numerator denominator < Magnitude.overflow then
    .finite ⟨negative, Magnitude.round numerator denominator,
      Magnitude.representable_round bounded⟩
  else .infinite negative

/-- Rounding the value of a finite number gives that number. -/
theorem rounded_units (x : FiniteDouble) : rounded x.negative x.units 1 = .finite x := by
  have same := Magnitude.round_one x.representable
  simp [rounded, same, x.representable.2]

def ofInt (whole : Int) : Double := rounded (whole < 0) (whole.natAbs * Magnitude.one) 1

def finite? : Double → Option FiniteDouble
  | .finite x => some x
  | _ => none

def isNegative : Double → Bool
  | .finite x => x.negative
  | .infinite negative => negative
  | .nan => false

def neg : Double → Double
  | .finite x => .finite x.neg
  | .infinite negative => .infinite !negative
  | .nan => .nan

def abs : Double → Double
  | .finite x => .finite { x with negative := false }
  | .infinite _ => .infinite false
  | .nan => .nan

/-- The order of two numbers, undefined when one of them is not a number. -/
def compare? : Double → Double → Option Ordering
  | .finite x, .finite y => some (compare x.value y.value)
  | .infinite negative, .infinite other => some (compare other.toNat negative.toNat)
  | .infinite negative, .finite _ => some (if negative then .lt else .gt)
  | .finite _, .infinite negative => some (if negative then .gt else .lt)
  | _, _ => none

def lt (x y : Double) : Bool := compare? x y == some .lt

def le (x y : Double) : Bool := compare? x y == some .lt || compare? x y == some .eq

def eq (x y : Double) : Bool := compare? x y == some .eq

/-- Finite numbers are ordered as their exact values are. -/
@[simp] theorem lt_finite (x y : FiniteDouble) :
    lt (.finite x) (.finite y) = decide (x.value < y.value) := by
  simp only [lt, compare?, compare, compareOfLessAndEq]
  repeat' split
  all_goals simp_all

/-- Finite numbers are equal when their exact values are. -/
@[simp] theorem eq_finite (x y : FiniteDouble) :
    eq (.finite x) (.finite y) = decide (x.value = y.value) := by
  simp only [eq, compare?, compare, compareOfLessAndEq]
  repeat' split
  all_goals simp_all
  all_goals omega

/-- The weak order of finite numbers is that of their exact values. -/
@[simp] theorem le_finite (x y : FiniteDouble) :
    le (.finite x) (.finite y) = decide (x.value ≤ y.value) := by
  simp only [le, compare?, compare, compareOfLessAndEq]
  repeat' split
  all_goals simp_all
  all_goals omega

/-- The greater of two numbers; a datum that is not a number gives way to the other. -/
def max (x y : Double) : Double :=
  match compare? x y with
  | some .lt => y
  | some _ => x
  | none => if x = .nan then y else x

def min (x y : Double) : Double :=
  match compare? x y with
  | some .gt => y
  | some _ => x
  | none => if x = .nan then y else x

/-- The number moved into the interval from `low` to `high`. -/
def clamp (x low high : Double) : Double :=
  if lt x low then low else if lt high x then high else x

def zero : Double := .finite (.zero false)

def one : Double := ofInt 1

end Double

end MapStyle
