import MapStyle.Proofs.Builtin.Segment
import MapStyle.Proofs.Equality

/-!
# Interpolation at a stop

At the lower end of a segment an output has not moved yet: the factor is zero, and the blend of
two numbers is the first of them.  There are two ways to miss it.  The factor of an exponential
curve is a quotient, and its divisor can be zero or no number at all; and the difference of the
two outputs can be infinite, so that no multiple of it is a number.
-/

namespace MapStyle

namespace Magnitude

theorem round_zero (denominator : Nat) : round 0 denominator = 0 := by
  simp [round, nearestEven]

/-- Rounding does not fall below a power of two that has been reached. -/
theorem two_pow_le_round {units exponent : Nat} (reached : 2 ^ exponent ≤ units) :
    2 ^ exponent ≤ round units 1 := by
  have positive : units ≠ 0 := Nat.pos_iff_ne_zero.mp
    (Nat.lt_of_lt_of_le (Nat.two_pow_pos exponent) reached)
  have bits : exponent ≤ units.log2 := (Nat.le_log2 positive).mpr reached
  -- The greatest power of two below the magnitude is a whole number of steps.
  have steps : 2 ^ (units.log2 - (units.log2 - 52)) * spacing units = 2 ^ units.log2 := by
    rw [spacing, ← Nat.pow_add, Nat.sub_add_cancel (Nat.sub_le _ _)]
  have counted : 2 ^ (units.log2 - (units.log2 - 52)) ≤ units / spacing units := by
    have step : 0 < spacing units := Nat.two_pow_pos _
    rw [Nat.le_div_iff_mul_le step, steps]
    exact Nat.log2_self_le positive
  unfold round
  dsimp only
  rw [Nat.div_one, Nat.one_mul]
  calc 2 ^ exponent
      ≤ 2 ^ units.log2 := Nat.pow_le_pow_right (by omega) bits
    _ = 2 ^ (units.log2 - (units.log2 - 52)) * spacing units := steps.symm
    _ ≤ nearestEven units (spacing units) * spacing units :=
        Nat.mul_le_mul_right _ (Nat.le_trans counted (le_nearestEven _ _))

end Magnitude

namespace Double

theorem Alike.symm {x y : Double} (alike : Alike x y) : Alike y x := by
  cases alike with
  | finite same => exact .finite same.symm
  | infinite negative => exact .infinite negative
  | nan => exact .nan

theorem Alike.value_eq {x y : Double} (alike : Alike x y) : x.value = y.value := by
  cases alike with
  | finite same => exact same
  | infinite negative => rfl
  | nan => rfl

theorem Alike.eq_nan {x : Double} (alike : Alike x .nan) : x = .nan := by
  cases alike
  rfl

theorem exists_of_finite? {x : Double} (finite : x.finite?.isSome = true) : ∃ y, x = .finite y := by
  cases x with
  | finite y => exact ⟨y, rfl⟩
  | _ => cases finite

/-- Finite numbers are equal when they have one value. -/
theorem alike_iff_eq {x : Double} {y : FiniteDouble} :
    Alike x (.finite y) ↔ x.eq (.finite y) = true := by
  constructor
  · intro alike
    cases alike with
    | finite same => simp [same]
  · intro same
    cases x with
    | finite x => exact .finite (by simpa using same)
    | infinite negative => cases negative <;> cases same
    | nan => cases same

end Double

/-! ## Computed numbers -/

namespace Number

/-- The binary64 number of a wide one is beyond the whole numbers that are written as such. -/
theorem Wide.greatestExact_lt {held : Number} {x : FiniteDouble} (wide : held.Wide)
    (alike : Double.Alike (.finite x) held.toDouble) (integral : x.isIntegral = true) :
    greatestExact < x.truncated.natAbs := by
  cases held with
  | double y => cases wide
  | whole value low high =>
      have split : 2 ^ 1127 = 2 ^ 53 * Magnitude.one := by decide +kernel
      have reached : 2 ^ 1127 ≤ value.natAbs * Magnitude.one := by
        rw [split]
        exact Nat.mul_le_mul_right _ (Nat.le_of_lt wide)
      have units : x.units = Magnitude.round (value.natAbs * Magnitude.one) 1 := by
        unfold toDouble Double.ofInt Double.rounded at alike
        dsimp only at alike
        split at alike
        · cases alike with
          | finite same => exact FiniteDouble.units_of_value same
        · cases alike
      have large := Magnitude.two_pow_le_round reached
      rw [← units, ← FiniteDouble.units_of_isIntegral integral, split] at large
      have beyond : 2 ^ 53 ≤ x.truncated.natAbs := Nat.le_of_mul_le_mul_right large Magnitude.one_pos
      unfold greatestExact
      omega

/-- A number that is computed as the nearest one of another is equal to it. -/
theorem equal_of_ofDouble? {held result : Number} {x : Double}
    (alike : Double.Alike x held.toDouble) (found : ofDouble? x = some result) :
    equal result held = true := by
  obtain ⟨h, nearest⟩ := toDouble_eq_finite held
  obtain ⟨x, rfl⟩ : ∃ y, x = .finite y := by
    rw [nearest] at alike
    cases alike
    exact ⟨_, rfl⟩
  have same : Double.eq result.toDouble held.toDouble = true := by
    obtain ⟨y, written, back⟩ := Value.toDouble?_ofDouble_finite x
    rw [Value.ofDouble, found] at written
    obtain rfl := Option.some.inj written
    have near := back.symm.trans alike
    rw [nearest] at near ⊢
    exact Double.alike_iff_eq.mp near
  by_cases unsigned : result.toInt64? = none ∨ held.toInt64? = none
  · rw [equal_of_unsigned unsigned, same]
  · -- The computed number is written as a whole one, so neither of the two is wide.
    cases result with
    | double y => simp [toInt64?] at unsigned
    | whole value low high =>
        unfold ofDouble? at found
        dsimp only at found
        split at found
        · rename_i whole
          obtain ⟨integral, above, below⟩ := whole
          cases found
          have bounded : x.truncated.natAbs ≤ greatestExact := by omega
          have narrow : ¬held.Wide := fun wide =>
            Int.not_lt.mpr bounded (wide.greatestExact_lt alike integral)
          have exact : ¬(whole x.truncated low high).Wide := by
            unfold greatestExact at bounded
            unfold Wide
            omega
          have denoted := (eq_toDouble_of_fits (fitsDouble_of_not_wide exact)
            (fitsDouble_of_not_wide narrow)).mp same
          exact (equal_iff _ _).mpr (.inl denoted)
        · cases found

end Number

/-! ## The lower end of a segment -/

namespace Double

theorem exists_zero_of_alike {t : Double} (start : Alike t zero) :
    ∃ negative, t = .finite (.zero negative) := by
  rcases start.eq_or_zero with rfl | ⟨negative, _, rfl, _⟩
  · exact ⟨false, rfl⟩
  · exact ⟨negative, rfl⟩

theorem rounded_zero (negative : Bool) (denominator : Nat) :
    rounded negative 0 denominator = .finite (.zero negative) := by
  have bounded : Magnitude.round 0 denominator < Magnitude.overflow := by
    rw [Magnitude.round_zero]
    exact Magnitude.representable_zero.2
  unfold rounded
  rw [dif_pos bounded]
  simp [FiniteDouble.zero, Magnitude.round_zero]

theorem rounded_ne_nan (negative : Bool) (numerator denominator : Nat) :
    rounded negative numerator denominator ≠ .nan := by
  unfold rounded
  split
  · rintro ⟨⟩
  · rintro ⟨⟩

/-- The difference of finite numbers is a number, if maybe an infinite one. -/
theorem sub_finite_ne_nan (x y : FiniteDouble) : (.finite x : Double) - .finite y ≠ .nan := by
  show add (.finite x) (.finite y.neg) ≠ .nan
  unfold add
  dsimp only
  split
  · rintro ⟨⟩
  · exact rounded_ne_nan _ _ _

theorem sub_self (x : FiniteDouble) : (.finite x : Double) - .finite x = zero := by
  show add (.finite x) (.finite x.neg) = zero
  have nothing : x.value + x.neg.value = 0 := by simp
  unfold add
  dsimp only
  rw [if_pos nothing]
  simp [FiniteDouble.neg, zero]

theorem add_nan (x : Double) : x + .nan = .nan := by
  cases x <;> rfl

theorem mul_nan (x : Double) : x * .nan = .nan := by
  cases x <;> rfl

/-- A zero divided by anything but a zero is a zero. -/
theorem zero_div {divisor : Double} (number : divisor ≠ .nan)
    (occupied : divisor.eq zero = false) : Alike (zero / divisor) zero := by
  show Alike (div zero divisor) zero
  cases divisor with
  | finite d =>
      have units : d.units ≠ 0 := by
        intro none
        have value : d.value = 0 := by simp [FiniteDouble.value, none]
        simp [zero, value] at occupied
      have quotient : div zero (.finite d) = .finite (.zero d.negative) := by
        simp [div, zero, FiniteDouble.zero, units, rounded_zero]
      rw [quotient]
      exact .finite (by simp)
  | infinite negative => exact .finite (by simp)
  | nan => exact absurd rfl number

/-- A zero divided by a zero is not a number, and nor is what is divided by none. -/
theorem zero_div_nothing {divisor : Double} (nothing : divisor = .nan ∨ divisor.eq zero = true) :
    zero / divisor = .nan := by
  show div zero divisor = .nan
  rcases nothing with rfl | same
  · rfl
  · cases alike_iff_eq.mpr same with
    | @finite d _ same =>
        have units : d.units = 0 := FiniteDouble.units_of_value same
        simp [div, zero, FiniteDouble.zero, units]

/-- The difference of numbers of different values is not zero. -/
theorem sub_ne_zero {x y : FiniteDouble} (different : x.value ≠ y.value) :
    Double.eq (.finite x - .finite y) zero = false := by
  show Double.eq (add (.finite x) (.finite y.neg)) zero = false
  have something : x.value + y.neg.value ≠ 0 := by
    rw [FiniteDouble.value_neg]
    omega
  have kept : 2 ^ 0 ≤ Magnitude.round (x.value + y.neg.value).natAbs 1 :=
    Magnitude.two_pow_le_round (by omega)
  unfold add rounded
  dsimp only
  rw [if_neg something]
  split
  · rw [zero, eq_finite, FiniteDouble.value_zero, decide_eq_false_iff_not]
    intro nothing
    have units := FiniteDouble.units_of_value (nothing.trans (FiniteDouble.value_zero false).symm)
    change Magnitude.round _ 1 = 0 at units
    omega
  · cases decide (x.value + y.neg.value < 0) <;> rfl

/-- A sum with a zero keeps the value. -/
theorem add_zero_alike (x : FiniteDouble) (negative : Bool) :
    Alike (.finite x + .finite (.zero negative)) (.finite x) := by
  show Alike (add (.finite x) (.finite (.zero negative))) (.finite x)
  unfold add
  dsimp only
  rw [FiniteDouble.value_zero, Int.add_zero]
  split
  · rename_i nothing
    exact .finite (by simp [nothing])
  · rename_i something
    have sign : decide (x.value < 0) = x.negative := by
      unfold FiniteDouble.value at something ⊢
      cases x.negative <;> simp at something ⊢
      omega
    rw [sign, x.natAbs_value, rounded_units]
    exact .refl _

end Double

/--
A curve that starts at the lower end of a segment: where it is exponential and not a line, the
divisor of its factor is a number other than zero.
-/
inductive Curve.Starts (lower upper : Double) : Curve → Prop where
  | linear : Starts lower upper .linear
  | straight {base : Double} (one : base.eq 1 = true) : Starts lower upper (.exponential base)
  | exponential {base : Double} (number : base.pow (upper - lower) - 1 ≠ .nan)
      (rises : (base.pow (upper - lower) - 1).eq .zero = false) :
      Starts lower upper (.exponential base)

/-- At the lower end of a segment nothing of the way is done. -/
theorem Curve.Starts.factor {curve : Curve} {lower upper : FiniteDouble} {input : Double}
    (starts : curve.Starts (.finite lower) (.finite upper))
    (alike : Double.Alike input (.finite lower)) :
    Double.Alike (curve.factor input (.finite lower) (.finite upper)) .zero := by
  apply (curve.factor_alike alike _ _).trans
  have zero : (0 : Double) = .zero := by decide +kernel
  unfold Curve.factor
  dsimp only
  split
  · rw [zero]
    exact .refl _
  · rename_i wide
    have width : Double.eq (.finite upper - .finite lower) .zero = false := by
      rw [← zero]
      exact Bool.eq_false_iff.mpr wide
    have line : Double.Alike ((.finite lower - .finite lower) / (.finite upper - .finite lower))
        .zero := by
      rw [Double.sub_self]
      exact Double.zero_div (Double.sub_finite_ne_nan _ _) width
    cases starts with
    | linear => exact line
    | straight one =>
        dsimp only
        rw [if_pos one]
        exact line
    | @exponential base number rises =>
        have start : base.pow .zero - 1 = .zero := by
          rw [base.pow_zero]
          decide +kernel
        dsimp only
        split
        · exact line
        · rw [Double.sub_self, start]
          exact Double.zero_div number rises

/-- At a stop at which it does not start, an exponential curve divides a zero by nothing. -/
theorem Curve.factor_of_not_starts {base : Double} {lower upper : FiniteDouble} {input : Double}
    (stalls : ¬(Curve.exponential base).Starts (.finite lower) (.finite upper))
    (apart : upper.value ≠ lower.value) (alike : Double.Alike input (.finite lower)) :
    (Curve.exponential base).factor input (.finite lower) (.finite upper) = .nan := by
  have zero : (0 : Double) = .zero := by decide +kernel
  have bent : ¬base.eq 1 = true := fun one => stalls (.straight one)
  have wide : ¬Double.eq (.finite upper - .finite lower) 0 = true := by
    rw [zero, Double.sub_ne_zero apart]
    exact Bool.false_ne_true
  have nothing : base.pow (.finite upper - .finite lower) - 1 = .nan ∨
      (base.pow (.finite upper - .finite lower) - 1).eq .zero = true := by
    by_contra something
    rw [not_or, Bool.not_eq_true] at something
    exact stalls (.exponential something.1 something.2)
  have start : base.pow .zero - 1 = .zero := by
    rw [base.pow_zero]
    decide +kernel
  apply Double.Alike.eq_nan
  apply ((Curve.exponential base).factor_alike alike _ _).trans
  unfold Curve.factor
  dsimp only
  rw [if_neg wide, if_neg bent, Double.sub_self, start, Double.zero_div_nothing nothing]
  exact .nan

namespace Ramp

variable {a b : FiniteDouble} {t : Double}

/-- A blend by nothing is the first number, if the difference of the two is finite. -/
theorem between_start (start : Double.Alike t .zero) {difference : FiniteDouble}
    (near : (.finite b : Double) - .finite a = .finite difference) :
    Double.Alike (between (.finite a) (.finite b) t) (.finite a) := by
  obtain ⟨negative, rfl⟩ := Double.exists_zero_of_alike start
  unfold between
  rw [near]
  have product : Double.finite difference * .finite (.zero negative) =
      .finite (.zero (difference.negative != negative)) := by
    show Double.mul _ _ = _
    simp only [Double.mul, FiniteDouble.zero, Nat.mul_zero]
    exact Double.rounded_zero _ _
  rw [product]
  exact Double.add_zero_alike a _

/-- A blend by nothing of two numbers that lie too far apart is not a number. -/
theorem between_far (start : Double.Alike t .zero)
    (far : ((.finite b : Double) - .finite a).finite? = none) :
    between (.finite a) (.finite b) t = .nan := by
  obtain ⟨negative, rfl⟩ := Double.exists_zero_of_alike start
  unfold between
  cases apart : (.finite b : Double) - .finite a with
  | finite difference =>
      rw [apart] at far
      cases far
  | infinite sign => rfl
  | nan => exact absurd apart (Double.sub_finite_ne_nan _ _)

/-- What is blended by no number is none. -/
theorem between_nan (a b : Double) : between a b .nan = .nan := by
  rw [between, Double.mul_nan, Double.add_nan]

/-- The blend of two numbers is what their arithmetic gives. -/
theorem blendSegment_numbers (curve : Curve) (x : Double) (place : Nat) {a b : Number}
    (lower upper : Double) :
    blendSegment curve x ⟨place, ⟨lower, .ok (.number a)⟩, ⟨upper, .ok (.number b)⟩⟩ =
      .ok (.ofDouble (between a.toDouble b.toDouble (curve.factor x lower upper))) := rfl

/-- What is blended by nothing is equal to the first number, or null if the second is too far. -/
theorem ofDouble_between_start {a b : Number} (start : Double.Alike t .zero) :
    ((b.toDouble - a.toDouble).finite?.isSome = true →
      ∃ result, Value.ofDouble (between a.toDouble b.toDouble t) = .number result ∧
        result.equal a = true) ∧
    ((b.toDouble - a.toDouble).finite? = none →
      Value.ofDouble (between a.toDouble b.toDouble t) = .null) := by
  obtain ⟨x, first⟩ := a.toDouble_eq_finite
  obtain ⟨y, second⟩ := b.toDouble_eq_finite
  rw [second]
  constructor
  · intro finite
    obtain ⟨difference, near⟩ := Double.exists_of_finite? finite
    have kept : Double.Alike (between a.toDouble (.finite y) t) a.toDouble := by
      rw [first] at near ⊢
      exact between_start start near
    obtain ⟨z, finite⟩ : ∃ z, between a.toDouble (.finite y) t = .finite z := by
      rw [first] at kept ⊢
      generalize between (.finite x) (.finite y) t = moved at kept
      cases kept
      exact ⟨_, rfl⟩
    obtain ⟨result, found⟩ := Number.ofDouble?_finite z
    rw [finite] at kept ⊢
    exact ⟨result, by rw [Value.ofDouble, found], Number.equal_of_ofDouble? kept found⟩
  · intro far
    rw [first] at far ⊢
    rw [between_far start far]
    rfl

end Ramp

end MapStyle
