import Mathlib.Algebra.Order.Group.Abs
import Mathlib.Algebra.Order.Ring.Cast
import Mathlib.Algebra.Order.Ring.Rat
import MapStyle.Proofs.Builtin.Passage
import MapStyle.Value.Text

/-!
# The spelling of a number

One number can be written as a whole number or as a binary64 number.  A concatenation writes the
first in digits alone; it writes the second so as well as long as it has no fraction and lies below
a bound, and otherwise with a point or an exponent, which digits alone never have.  So the text of
a number goes by its value below the bound, and by its value and its form from there on.
-/

namespace MapStyle

/-! ## Points and exponents -/

namespace DecimalLayout

def Marked (text : String) : Prop := '.' ∈ text.toList ∨ 'e' ∈ text.toList

/-- Digits around a point have the point. -/
theorem marked_plain (digits : List Char) (leading : Int) : Marked (plain digits leading) := by
  left
  unfold plain
  dsimp only
  split
  · simp
  · split
    · simp
    · simp

/-- Digits that are followed by an exponent have its letter. -/
theorem marked_scientific (digits : List Char) (leading : Int) :
    Marked (scientific digits leading) := by
  right
  unfold scientific
  by_cases small : leading < 0
  · simp [small]
  · simp [small]

theorem marked_write (layout : DecimalLayout) (decimal : Decimal) :
    Marked (layout.write decimal) := by
  unfold write
  dsimp only
  split
  · exact marked_plain _ _
  · exact marked_scientific _ _

/-- A sign in front of a text takes no mark away. -/
theorem Marked.append {text : String} (marked : Marked text) (front : String) :
    Marked (front ++ text) := by
  unfold Marked
  simp only [String.toList_append, List.mem_append]
  exact marked.imp .inr .inr

end DecimalLayout

/-- The text of a binary64 number has a point or an exponent. -/
theorem FiniteDouble.marked_text (x : FiniteDouble) : DecimalLayout.Marked x.text :=
  (DecimalLayout.marked_write _ _).append _

namespace DecimalLayout

/-- A whole number is written with digits and perhaps a minus sign. -/
theorem mem_toString {value : Int} {c : Char} (member : c ∈ (toString value).toList) :
    c = '-' ∨ c.isDigit = true := by
  have digit {size : Nat} (inside : c ∈ (toString size).toList) : c.isDigit = true := by
    rw [Nat.toString_eq_repr, Nat.toList_repr] at inside
    exact Nat.isDigit_of_mem_toDigits (by decide) (by decide) inside
  cases value with
  | ofNat size => exact .inr (digit member)
  | negSucc size =>
      have signed : toString (Int.negSucc size) = "-" ++ toString (size + 1) := rfl
      rw [signed, String.toList_append] at member
      rcases List.mem_append.mp member with sign | inside
      · exact .inl (List.mem_singleton.mp sign)
      · exact .inr (digit inside)

theorem not_marked_toString (value : Int) : ¬Marked (toString value) := by
  rintro (point | exponent)
  · rcases mem_toString point with sign | digit
    · cases sign
    · cases digit
  · rcases mem_toString exponent with sign | digit
    · cases sign
    · cases digit

end DecimalLayout

/-- No binary64 number has the text of a whole one. -/
theorem FiniteDouble.text_ne_toString (x : FiniteDouble) (value : Int) :
    x.text ≠ toString value := fun same =>
  DecimalLayout.not_marked_toString value (same ▸ x.marked_text)

/-! ## Whole values -/

namespace FiniteDouble

/-- The value of a number without fraction is its whole part, counted in units. -/
theorem value_of_isIntegral {x : FiniteDouble} (integral : x.isIntegral = true) :
    x.value = x.truncated * Magnitude.one := by
  have parts : x.units / Magnitude.one * Magnitude.one = x.units :=
    Nat.div_mul_cancel (Nat.dvd_of_mod_eq_zero (by simpa [isIntegral] using integral))
  unfold value truncated
  dsimp only
  split
  · rw [Int.neg_mul, ← Int.natCast_mul, parts]
  · rw [← Int.natCast_mul, parts]

/-- A value that counts whole numbers has no fraction, and that many is its whole part. -/
theorem truncated_of_value {x : FiniteDouble} {whole : Int}
    (same : x.value = whole * Magnitude.one) : x.isIntegral = true ∧ x.truncated = whole := by
  have integral : x.isIntegral = true := by
    have units : x.units = whole.natAbs * Magnitude.one := by
      rw [← x.natAbs_value, same, Int.natAbs_mul, Int.natAbs_natCast]
    simp [isIntegral, units]
  have occupied : (Magnitude.one : Int) ≠ 0 :=
    Int.natCast_ne_zero.mpr (Nat.ne_of_gt Magnitude.one_pos)
  rw [value_of_isIntegral integral] at same
  exact ⟨integral, Int.eq_of_mul_eq_mul_right occupied same⟩

end FiniteDouble

namespace Number

def isWhole : Number → Bool
  | .whole _ _ _ => true
  | .double _ => false

/-- A whole number is concatenated in digits alone, however large it is. -/
theorem plainText_whole (value : Int) (low : -(2 ^ 63) ≤ value) (high : value < 2 ^ 64) :
    (whole value low high).plainText = toString value := by
  by_cases signed : value < 2 ^ 63
  · unfold plainText toInt64?
    dsimp only
    rw [if_pos signed]
  · -- The bound is never in question here: the nearest binary64 number is far beyond it.
    obtain ⟨x, nearest⟩ := toDouble_eq_finite (whole value low high)
    have unsigned : (whole value low high).toInt64? = none := if_neg signed
    have beyond : ¬(x.isIntegral = true ∧ x.truncated.natAbs < wholeTextBound.natAbs) := by
      rintro ⟨integral, small⟩
      have wide : (whole value low high).Wide := by
        unfold Wide
        omega
      have large := wide.greatestExact_lt (nearest ▸ .refl _) integral
      unfold greatestExact at large
      unfold wholeTextBound at small
      omega
    unfold plainText
    rw [unsigned, nearest]
    dsimp only
    rw [if_neg beyond]
    rfl

/-- Does the number lie below the bound up to which a concatenation shows digits alone? -/
def IsSmall (a : Number) : Prop := |a.denoted| < wholeTextBound

theorem isSmall_whole {value : Int} {low : -(2 ^ 63) ≤ value} {high : value < 2 ^ 64} :
    (whole value low high).IsSmall ↔ value.natAbs < wholeTextBound.natAbs := by
  unfold IsSmall denoted wholeTextBound
  rw [← Int.cast_abs, Int.cast_lt, Int.abs_eq_natAbs]
  omega

/-- A binary64 number without fraction is concatenated in digits alone if it is small. -/
theorem plainText_double_whole {x : FiniteDouble} {value : Int}
    (same : x.value = value * Magnitude.one) (small : value.natAbs < wholeTextBound.natAbs) :
    (double x).plainText = toString value := by
  obtain ⟨integral, whole⟩ := FiniteDouble.truncated_of_value same
  subst whole
  simp [plainText, toInt64?, toDouble, integral, small]

/-- A binary64 number that is not small is concatenated with a point or an exponent. -/
theorem plainText_double_large {x : FiniteDouble}
    (large : ¬(x.isIntegral = true ∧ x.truncated.natAbs < wholeTextBound.natAbs)) :
    (double x).plainText = x.text := by
  unfold plainText toInt64? toDouble
  dsimp only
  rw [if_neg large]
  rfl

/-- Binary64 numbers of one value have one text; the two zeros have that of zero. -/
theorem plainText_double_congr {x y : FiniteDouble} (same : x.value = y.value) :
    (double x).plainText = (double y).plainText := by
  by_cases occupied : x.units = 0
  · have zero (z : FiniteDouble) (empty : z.units = 0) :
        (double z).plainText = toString (0 : Int) := by
      apply plainText_double_whole
      · rw [Int.zero_mul]
        exact Int.natAbs_eq_zero.mp (z.natAbs_value.trans empty)
      · decide
    rw [zero x occupied, zero y (FiniteDouble.units_of_value same ▸ occupied)]
  · rw [FiniteDouble.eq_of_value same occupied]

example : (double (.zero true)).plainText = "0" := by decide +kernel

/-- A whole number and a binary64 number that denote the same are told apart unless small. -/
theorem plainText_eq_of_forms {value : Int} {low : -(2 ^ 63) ≤ value} {high : value < 2 ^ 64}
    {x : FiniteDouble} (same : (whole value low high).denoted = (double x).denoted) :
    (whole value low high).plainText = (double x).plainText ↔ (whole value low high).IsSmall := by
  have counted : x.value = value * Magnitude.one := (denoted_inj.mp same).symm
  rw [plainText_whole, isSmall_whole]
  constructor
  · intro texts
    by_contra large
    rw [plainText_double_large] at texts
    · exact x.text_ne_toString value texts.symm
    · rw [(FiniteDouble.truncated_of_value counted).2]
      exact fun found => large found.2
  · intro small
    exact (plainText_double_whole counted small).symm

/--
Numbers that denote the same have one text in a concatenation if they are of one form or small, and
only then.
-/
theorem plainText_eq_iff {a b : Number} (same : a.denoted = b.denoted) :
    a.plainText = b.plainText ↔ a.isWhole = b.isWhole ∨ a.IsSmall := by
  cases a with
  | whole value low high =>
      cases b with
      | whole other low' high' =>
          obtain rfl : value = other := Int.cast_inj.mp same
          simp [isWhole]
      | double y => simpa [isWhole] using plainText_eq_of_forms same
  | double x =>
      cases b with
      | whole other low' high' =>
          have small : (double x).IsSmall ↔ (whole other low' high').IsSmall := by
            unfold IsSmall
            rw [same]
          rw [eq_comm, small]
          simpa [isWhole] using plainText_eq_of_forms same.symm
      | double y =>
          have texts := plainText_double_congr (denoted_inj.mp same)
          simp [isWhole, texts]

/-- A number without fraction denotes its whole part. -/
theorem denoted_of_isIntegral {x : FiniteDouble} (integral : x.isIntegral = true) :
    (double x).denoted = x.truncated := by
  rw [denoted, FiniteDouble.value_of_isIntegral integral, Int.cast_mul, Int.cast_natCast,
    mul_div_cancel_right₀ _ Magnitude.one_ne_zero]

/--
A computed number denotes what was computed, and it is written as a whole number if it is one that
binary64 keeps apart from its neighbours.
-/
theorem ofDouble?_spelled (x : FiniteDouble) :
    ∃ computed, ofDouble? (.finite x) = some computed ∧
      computed.denoted = (double x).denoted ∧
      (computed.isWhole = true ↔ x.isIntegral = true ∧ |(double x).denoted| ≤ greatestExact) := by
  have within (integral : x.isIntegral = true) : |(double x).denoted| ≤ greatestExact ↔
      -greatestExact ≤ x.truncated ∧ x.truncated ≤ greatestExact := by
    rw [denoted_of_isIntegral integral, ← Int.cast_abs, Int.cast_le, abs_le]
  unfold ofDouble?
  dsimp only
  split
  · rename_i whole
    refine ⟨_, rfl, (denoted_of_isIntegral whole.1).symm, ?_⟩
    exact iff_of_true rfl ⟨whole.1, (within whole.1).mpr whole.2⟩
  · rename_i other
    refine ⟨_, rfl, rfl, iff_of_false Bool.false_ne_true ?_⟩
    rintro ⟨integral, bounded⟩
    exact other ⟨integral, (within integral).mp bounded⟩

/-! ## Both forms -/

def inWholeForm (size : Nat) (small : size ≤ 2 ^ 53) : Number :=
  .whole size (by omega) (by omega)

def inDoubleForm (size : Nat) (small : size ≤ 2 ^ 53) : Number :=
  .double ⟨false, size * Magnitude.one, Magnitude.representable_whole small⟩

theorem denoted_inForms (size : Nat) (small : size ≤ 2 ^ 53) :
    (inWholeForm size small).denoted = (inDoubleForm size small).denoted := by
  rw [denoted_inj]
  exact (Int.natCast_mul _ _).symm

end Number

end MapStyle
