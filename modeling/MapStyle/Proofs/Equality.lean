import Mathlib.Algebra.Field.Basic
import Mathlib.Algebra.Field.Rat
import Mathlib.Data.Int.Cast.Lemmas
import MapStyle.Proofs.Number
import MapStyle.Value.Basic

/-!
# Equality of numbers

A number of a document denotes a rational number, whichever way it is written.  Numbers that
denote the same one are equal.  The converse fails where binary64 stands between two numbers: a
whole number of more than 53 bits is equal to each number with the same nearest binary64 number,
unless both are whole numbers of 63 bits and a sign, which are compared as they are.
-/

namespace MapStyle

theorem Magnitude.one_ne_zero : (Magnitude.one : ℚ) ≠ 0 :=
  Nat.cast_ne_zero.mpr (Nat.ne_of_gt Magnitude.one_pos)

namespace FiniteDouble

/-- The size of a value is its magnitude. -/
theorem natAbs_value (x : FiniteDouble) : x.value.natAbs = x.units := by
  unfold value
  split
  · rw [Int.natAbs_neg, Int.natAbs_natCast]
  · rw [Int.natAbs_natCast]

end FiniteDouble

namespace Double

/-- A whole number whose magnitude is representable keeps its value as binary64. -/
theorem ofInt_of_representable {whole : Int}
    (fits : Magnitude.Representable (whole.natAbs * Magnitude.one)) :
    ∃ x, ofInt whole = .finite x ∧ x.value = whole * Magnitude.one := by
  refine ⟨⟨whole < 0, _, fits⟩, rounded_units ⟨whole < 0, _, fits⟩, ?_⟩
  unfold FiniteDouble.value
  split
  · rename_i negative
    rw [Int.natCast_mul, Int.ofNat_natAbs_of_nonpos (by simp at negative; omega),
      Int.neg_mul, Int.neg_neg]
  · rename_i positive
    rw [Int.natCast_mul, Int.natAbs_of_nonneg (by simpa using positive)]

end Double

namespace Number

def denoted : Number → ℚ
  | .whole value _ _ => value
  | .double x => x.value / Magnitude.one

/-- The same number, counted in units of the least positive binary64 number. -/
def units : Number → Int
  | .whole value _ _ => value * Magnitude.one
  | .double x => x.value

theorem denoted_eq_units (a : Number) : a.denoted = a.units / Magnitude.one := by
  cases a with
  | whole value low high =>
      rw [denoted, units, Int.cast_mul, Int.cast_natCast,
        mul_div_cancel_right₀ _ Magnitude.one_ne_zero]
  | double x => rfl

/-- Numbers denote the same number when they have as many units. -/
theorem denoted_inj {a b : Number} : a.denoted = b.denoted ↔ a.units = b.units := by
  rw [denoted_eq_units, denoted_eq_units, div_left_inj' Magnitude.one_ne_zero, Int.cast_inj]

def FitsDouble (a : Number) : Prop := Magnitude.Representable a.units.natAbs

theorem fitsDouble_double (x : FiniteDouble) : (double x).FitsDouble := by
  unfold FitsDouble units
  rw [x.natAbs_value]
  exact x.representable

/-- Whether a number fits does not depend on how it is written. -/
theorem fitsDouble_congr {a b : Number} (same : a.denoted = b.denoted) :
    a.FitsDouble ↔ b.FitsDouble := by
  unfold FitsDouble
  rw [denoted_inj.mp same]

/-- A whole number of more than 53 bits. -/
def Wide : Number → Prop
  | .whole value _ _ => 2 ^ 53 < value.natAbs
  | .double _ => False

theorem fitsDouble_of_not_wide {a : Number} (narrow : ¬a.Wide) : a.FitsDouble := by
  cases a with
  | whole value low high =>
      unfold FitsDouble units
      rw [Int.natAbs_mul, Int.natAbs_natCast]
      exact Magnitude.representable_whole (Nat.le_of_not_lt narrow)
  | double x => exact fitsDouble_double x

/-- A number that fits keeps its value as binary64. -/
theorem toDouble_of_fits {a : Number} (fits : a.FitsDouble) :
    ∃ x, a.toDouble = .finite x ∧ x.value = a.units := by
  cases a with
  | whole value low high =>
      unfold FitsDouble units at fits
      rw [Int.natAbs_mul, Int.natAbs_natCast] at fits
      exact Double.ofInt_of_representable fits
  | double x => exact ⟨x, rfl, rfl⟩

/-- Numbers that fit have one nearest binary64 number only if they are the same number. -/
theorem eq_toDouble_of_fits {a b : Number} (left : a.FitsDouble) (right : b.FitsDouble) :
    Double.eq a.toDouble b.toDouble = true ↔ a.denoted = b.denoted := by
  obtain ⟨x, first, sameFirst⟩ := toDouble_of_fits left
  obtain ⟨y, second, sameSecond⟩ := toDouble_of_fits right
  rw [first, second, Double.eq_finite, decide_eq_true_iff, sameFirst, sameSecond, denoted_inj]

/-- The same number, written in two ways, has one nearest binary64 number. -/
theorem eq_toDouble_of_denoted {a b : Number} (same : a.denoted = b.denoted) :
    Double.eq a.toDouble b.toDouble = true := by
  by_cases fits : a.FitsDouble
  · exact (eq_toDouble_of_fits fits ((fitsDouble_congr same).mp fits)).mpr same
  · -- Only whole numbers do not fit, and there the nearest number is a function of the value.
    cases a with
    | double x => exact absurd (fitsDouble_double x) fits
    | whole value low high =>
        cases b with
        | double x => exact absurd ((fitsDouble_congr same).mpr (fitsDouble_double x)) fits
        | whole other low' high' =>
            obtain rfl : value = other := Int.cast_inj.mp same
            obtain ⟨x, nearest⟩ := toDouble_eq_finite (.whole value low high)
            unfold toDouble at nearest ⊢
            rw [nearest, Double.eq_finite, decide_eq_true_iff]

structure Merged (a b : Number) : Prop where
  different : a.denoted ≠ b.denoted
  nearest : Double.eq a.toDouble b.toDouble = true

/-- Binary64 takes together only numbers of which one is a whole number of more than 53 bits. -/
theorem Merged.wide {a b : Number} (merged : a.Merged b) : a.Wide ∨ b.Wide := by
  by_contra narrow
  obtain ⟨left, right⟩ := not_or.mp narrow
  have exact := eq_toDouble_of_fits (fitsDouble_of_not_wide left) (fitsDouble_of_not_wide right)
  exact merged.different (exact.mp merged.nearest)

/-- Different numbers with one nearest binary64 number that are compared through it. -/
structure Confused (a b : Number) : Prop extends Merged a b where
  unsigned : a.toInt64? = none ∨ b.toInt64? = none

theorem toInt64?_eq_some {a : Number} {value : Int} (signed : a.toInt64? = some value) :
    ∃ low high, a = .whole value low high := by
  cases a with
  | double x => cases signed
  | whole held low high =>
      unfold toInt64? at signed
      dsimp only at signed
      split at signed
      · cases signed
        exact ⟨low, high, rfl⟩
      · cases signed

/-- Whole numbers of 63 bits and a sign are compared exactly. -/
theorem equal_of_signed {a b : Number} {x y : Int} (left : a.toInt64? = some x)
    (right : b.toInt64? = some y) : equal a b = true ↔ a.denoted = b.denoted := by
  unfold equal
  rw [left, right]
  obtain ⟨_, _, rfl⟩ := toInt64?_eq_some left
  obtain ⟨_, _, rfl⟩ := toInt64?_eq_some right
  simp [denoted]

/-- Other numbers are compared through binary64. -/
theorem equal_of_unsigned {a b : Number} (unsigned : a.toInt64? = none ∨ b.toInt64? = none) :
    equal a b = Double.eq a.toDouble b.toDouble := by
  unfold equal
  split
  · rename_i left right
    rw [left, right] at unsigned
    simp at unsigned
  · rfl

/-- Numbers are equal when they are the same number, and when they are taken for one. -/
theorem equal_iff (a b : Number) :
    equal a b = true ↔ a.denoted = b.denoted ∨ a.Confused b := by
  by_cases signed : a.toInt64? = none ∨ b.toInt64? = none
  · rw [equal_of_unsigned signed]
    constructor
    · intro nearest
      by_cases same : a.denoted = b.denoted
      · exact .inl same
      · exact .inr ⟨⟨same, nearest⟩, signed⟩
    · rintro (same | confused)
      · exact eq_toDouble_of_denoted same
      · exact confused.nearest
  · obtain ⟨left, right⟩ := not_or.mp signed
    obtain ⟨x, left⟩ := Option.ne_none_iff_exists'.mp left
    obtain ⟨y, right⟩ := Option.ne_none_iff_exists'.mp right
    rw [equal_of_signed left right]
    constructor
    · exact .inl
    · rintro (same | confused)
      · exact same
      · have unsigned := confused.unsigned
        simp [left, right] at unsigned

end Number

/--
Numbers are equal when they denote the same number, and otherwise only when they are compared
through the one binary64 number nearest to both, which takes a whole number of more than 53 bits.
Without such a pair, a number equal to two others makes these equal to each other.
-/
theorem numbers_equal_by_value (a b : Number) :
    (Value.equal (.number a) (.number b) = true ↔ a.denoted = b.denoted ∨ a.Confused b) ∧
    (a.Confused b → a.Wide ∨ b.Wide) ∧
    ∀ c : Number, ¬a.Confused b → ¬a.Confused c →
      Value.equal (.number a) (.number b) = true → Value.equal (.number a) (.number c) = true →
      Value.equal (.number b) (.number c) = true := by
  simp only [Value.equal]
  refine ⟨Number.equal_iff a b, fun confused => confused.toMerged.wide, ?_⟩
  intro c clear clear' first second
  have same : a.denoted = b.denoted := ((Number.equal_iff a b).mp first).resolve_right clear
  have same' : a.denoted = c.denoted := ((Number.equal_iff a c).mp second).resolve_right clear'
  exact (Number.equal_iff b c).mpr (.inl (same.symm.trans same'))

/-- One, written as a whole number and with a point, equals itself in both orders. -/
theorem numbers_equal_by_value_case :
    Value.equal (.number (.whole 1 (by decide) (by decide)))
      (.number (.double ⟨false, Magnitude.one, by decide +kernel⟩)) = true ∧
    Value.equal (.number (.double ⟨false, Magnitude.one, by decide +kernel⟩))
      (.number (.whole 1 (by decide) (by decide))) = true := by
  have same : (Number.whole 1 (by decide) (by decide)).denoted =
      (Number.double ⟨false, Magnitude.one, by decide +kernel⟩).denoted :=
    Number.denoted_inj.mpr (by decide +kernel)
  obtain ⟨exact, wide, transitive⟩ :=
    numbers_equal_by_value (.whole 1 (by decide) (by decide))
      (.double ⟨false, Magnitude.one, by decide +kernel⟩)
  obtain ⟨exact', wide', _⟩ :=
    numbers_equal_by_value (.whole 1 (by decide) (by decide)) (.whole 1 (by decide) (by decide))
  have narrow : ¬(Number.whole 1 (by decide) (by decide)).Wide := by simp [Number.Wide]
  have first := exact.mpr (.inl same)
  have clear : ¬(Number.whole 1 (by decide) (by decide)).Confused
      (.double ⟨false, Magnitude.one, by decide +kernel⟩) := fun confused =>
    (wide confused).elim narrow id
  have clear' : ¬(Number.whole 1 (by decide) (by decide)).Confused
      (.whole 1 (by decide) (by decide)) := fun confused => (wide' confused).elim narrow narrow
  exact ⟨first, transitive _ clear clear' first (exact'.mpr (.inl rfl))⟩

/-- The number after `2 ^ 53` equals the binary64 number `2 ^ 53`, but not the whole one. -/
theorem numbers_equal_beyond_value :
    Value.equal (.number (.whole (2 ^ 53 + 1) (by decide) (by decide)))
      (.number (.double ⟨false, 2 ^ 53 * Magnitude.one, by decide +kernel⟩)) = true ∧
    (Number.whole (2 ^ 53 + 1) (by decide) (by decide)).denoted ≠
      (Number.double ⟨false, 2 ^ 53 * Magnitude.one, by decide +kernel⟩).denoted ∧
    Value.equal (.number (.double ⟨false, 2 ^ 53 * Magnitude.one, by decide +kernel⟩))
      (.number (.whole (2 ^ 53) (by decide) (by decide))) = true ∧
    Value.equal (.number (.whole (2 ^ 53 + 1) (by decide) (by decide)))
      (.number (.whole (2 ^ 53) (by decide) (by decide))) = false := by
  simp only [Value.equal]
  refine ⟨by decide +kernel, ?_, by decide +kernel, by decide +kernel⟩
  intro same
  exact absurd (Number.denoted_inj.mp same) (by decide +kernel)

end MapStyle
