import Mathlib.Data.List.Forall2
import MapStyle.Builtin.Operation
import MapStyle.Builtin.Ramp
import MapStyle.Proofs.Value

/-!
# The two zeros

Zero and negative zero are equal in value, and arithmetic takes numbers that are equal in value to
such numbers again, except where it divides by them: then the infinities differ in sign.  As a
computed number that is not finite becomes null and a whole one is written without its sign, no
value tells the two zeros apart.  Of the machine's functions, which nothing is known of here, this
is what is asked.
-/

namespace MapStyle

namespace FiniteDouble

/-- Numbers of one value, other than zero, are the same. -/
theorem eq_of_value {x y : FiniteDouble} (same : x.value = y.value) (occupied : x.units ≠ 0) :
    x = y := by
  obtain ⟨negative, units, representable⟩ := x
  obtain ⟨other, otherUnits, otherRepresentable⟩ := y
  cases negative <;> cases other <;>
    simp only [value, Bool.false_eq_true, if_true, if_false, FiniteDouble.mk.injEq, true_and,
      reduceCtorEq, false_and] at same occupied ⊢ <;> omega

theorem units_of_value {x y : FiniteDouble} (same : x.value = y.value) : x.units = y.units := by
  unfold value at same
  split at same <;> split at same <;> omega

end FiniteDouble

namespace Double

/-- Two numbers of one value: the same one, or zeros of either sign. -/
inductive Alike : Double → Double → Prop where
  | finite {x y : FiniteDouble} (same : x.value = y.value) : Alike (.finite x) (.finite y)
  | infinite (negative : Bool) : Alike (.infinite negative) (.infinite negative)
  | nan : Alike .nan .nan

namespace Alike

variable {x y a b : Double}

theorem refl (x : Double) : Alike x x := by
  cases x with
  | finite x => exact .finite rfl
  | infinite negative => exact .infinite negative
  | nan => exact .nan

theorem trans (first : Alike x y) (second : Alike y a) : Alike x a := by
  cases first with
  | finite same =>
      cases second with
      | finite otherSame => exact .finite (same.trans otherSame)
  | infinite negative => exact second
  | nan => exact second

/-- Numbers of one value are the same, or they are two zeros. -/
theorem eq_or_zero (alike : Alike x y) :
    x = y ∨ ∃ negative other, x = .finite (.zero negative) ∧ y = .finite (.zero other) := by
  cases alike with
  | @finite x y same =>
      by_cases occupied : x.units = 0
      · have otherUnits := FiniteDouble.units_of_value same
        obtain ⟨negative, units, representable⟩ := x
        obtain ⟨other, units', representable'⟩ := y
        cases occupied
        cases otherUnits
        exact .inr ⟨negative, other, rfl, rfl⟩
      · exact .inl (congrArg Double.finite (FiniteDouble.eq_of_value same occupied))
  | infinite negative => exact .inl rfl
  | nan => exact .inl rfl

/-- Rounding nothing comes to a zero. -/
theorem rounded_zero (negative other : Bool) (denominator : Nat) :
    Alike (rounded negative 0 denominator) (rounded other 0 denominator) := by
  have nothing : Magnitude.round 0 denominator = 0 := by
    simp [Magnitude.round, Magnitude.nearestEven]
  have bounded : Magnitude.round 0 denominator < Magnitude.overflow := by
    rw [nothing]
    exact Magnitude.representable_zero.2
  unfold rounded
  rw [dif_pos bounded, dif_pos bounded]
  apply Alike.finite
  simp [FiniteDouble.value, nothing]

/-- Comparison goes by value. -/
theorem compare?_eq (first : Alike x a) (second : Alike y b) : compare? x y = compare? a b := by
  cases first with
  | finite same =>
      cases second with
      | finite otherSame => simp [compare?, same, otherSame]
      | infinite negative => rfl
      | nan => rfl
  | infinite negative => cases second <;> rfl
  | nan => cases second <;> rfl

theorem lt_eq (first : Alike x a) (second : Alike y b) : lt x y = lt a b := by
  unfold lt
  rw [first.compare?_eq second]

theorem le_eq (first : Alike x a) (second : Alike y b) : le x y = le a b := by
  unfold le
  rw [first.compare?_eq second]

/-- Numbers of one value have one whole part. -/
theorem toInt64_eq (alike : Alike x y) : x.toInt64 = y.toInt64 := by
  have zero (negative : Bool) : toInt64 (.finite (.zero negative)) = 0 := by
    have nothing : (FiniteDouble.zero negative).truncated = 0 := by
      simp [FiniteDouble.truncated, FiniteDouble.zero]
    rw [toInt64, nothing]
    rfl
  rcases alike.eq_or_zero with rfl | ⟨negative, other, rfl, rfl⟩
  · rfl
  · rw [zero, zero]

protected theorem neg (alike : Alike x y) : Alike x.neg y.neg := by
  cases alike with
  | finite same =>
      apply Alike.finite
      rw [FiniteDouble.value_neg, FiniteDouble.value_neg, same]
  | infinite negative => exact .infinite _
  | nan => exact .nan

protected theorem abs (alike : Alike x y) : Alike x.abs y.abs := by
  cases alike with
  | finite same =>
      apply Alike.finite
      simp [FiniteDouble.value, FiniteDouble.units_of_value same]
  | infinite negative => exact .infinite _
  | nan => exact .nan

protected theorem add (first : Alike x a) (second : Alike y b) : Alike (add x y) (add a b) := by
  cases first with
  | finite same =>
      cases second with
      | finite otherSame =>
          unfold Double.add
          dsimp only
          rw [same, otherSame]
          split
          · exact .finite (by simp)
          · exact .refl _
      | infinite negative => exact .infinite _
      | nan => exact .nan
  | infinite negative => cases second <;> exact .refl _
  | nan => cases second <;> exact .refl _

protected theorem sub (first : Alike x a) (second : Alike y b) : Alike (sub x y) (sub a b) :=
  first.add second.neg

/-- A product with a zero is a zero or, if the other factor is infinite, not a number. -/
theorem zero_mul (negative other : Bool) (y : Double) :
    Alike (mul (.finite (.zero negative)) y) (mul (.finite (.zero other)) y) := by
  cases y with
  | finite y =>
      simp only [Double.mul, FiniteDouble.zero, Nat.zero_mul]
      exact rounded_zero _ _ _
  | infinite sign => exact .nan
  | nan => exact .nan

theorem mul_zero (x : Double) (negative other : Bool) :
    Alike (mul x (.finite (.zero negative))) (mul x (.finite (.zero other))) := by
  cases x with
  | finite x =>
      simp only [Double.mul, FiniteDouble.zero, Nat.mul_zero]
      exact rounded_zero _ _ _
  | infinite sign => exact .nan
  | nan => exact .nan

protected theorem mul (first : Alike x a) (second : Alike y b) : Alike (mul x y) (mul a b) := by
  have left : Alike (mul x y) (mul a y) := by
    rcases first.eq_or_zero with rfl | ⟨negative, other, rfl, rfl⟩
    · exact .refl _
    · exact zero_mul negative other y
  have right : Alike (mul a y) (mul a b) := by
    rcases second.eq_or_zero with rfl | ⟨negative, other, rfl, rfl⟩
    · exact .refl _
    · exact mul_zero a negative other
  exact left.trans right

/-- A quotient goes by the value of the dividend; the sign of a zero divisor matters. -/
protected theorem div (alike : Alike x a) (y : Double) : Alike (div x y) (div a y) := by
  rcases alike.eq_or_zero with rfl | ⟨negative, other, rfl, rfl⟩
  · exact .refl _
  · cases y with
    | finite y =>
        simp only [Double.div, FiniteDouble.zero, Nat.zero_mul, if_true]
        split
        · exact .nan
        · exact rounded_zero _ _ _
    | infinite sign => exact .finite (by simp)
    | nan => exact .nan

theorem orElse (first : Alike x a) (second : Alike y b) :
    Alike (if x = .nan then y else x) (if a = .nan then b else a) := by
  cases first with
  | finite same => exact .finite same
  | infinite negative => exact .infinite negative
  | nan => exact second

/-- Choices by comparison take the arguments at one place. -/
protected theorem max (first : Alike x a) (second : Alike y b) : Alike (max x y) (max a b) := by
  have order := first.compare?_eq second
  unfold Double.max
  rw [order]
  split
  · exact second
  · exact first
  · exact first.orElse second

protected theorem min (first : Alike x a) (second : Alike y b) : Alike (min x y) (min a b) := by
  have order := first.compare?_eq second
  unfold Double.min
  rw [order]
  split
  · exact second
  · exact first
  · exact first.orElse second

end Alike

end Double

/-- A computed value does not show the sign of zero. -/
theorem Value.ofDouble_alike {x y : Double} (alike : Double.Alike x y) :
    ofDouble x = ofDouble y := by
  have zeros : ∀ negative other : Bool, Number.ofDouble? (.finite (.zero negative)) =
      Number.ofDouble? (.finite (.zero other)) := by
    decide +kernel
  rcases alike.eq_or_zero with rfl | ⟨negative, other, rfl, rfl⟩
  · rfl
  · unfold ofDouble
    rw [zeros negative other]

/-- A finite number is written as one of its value. -/
theorem Value.toDouble?_ofDouble_finite (x : FiniteDouble) :
    ∃ y, (ofDouble (.finite x)).toDouble? = some y ∧ Double.Alike (.finite x) y := by
  have written (clean : x.isNegativeZero = false) :
      (ofDouble (.finite x)).toDouble? = some (.finite x) :=
    @toDouble?_ofDouble (.number (.double x)) (.finite x) clean rfl
  cases zero : x.isNegativeZero with
  | false => exact ⟨_, written zero, .refl _⟩
  | true =>
      have unsigned : Double.Alike (.finite x) (.finite (.zero false)) := by
        simp only [FiniteDouble.isNegativeZero, Bool.and_eq_true, beq_iff_eq] at zero
        exact .finite (by simp [FiniteDouble.value, FiniteDouble.zero, zero.2])
      have clean : (Value.number (.double (.zero false))).Clean := rfl
      rw [ofDouble_alike unsigned]
      exact ⟨_, toDouble?_ofDouble clean rfl, unsigned⟩

/-! ### Functions of numbers -/

def UnaryFunction.isElementary : UnaryFunction → Bool
  | .acos | .asin | .atan | .cos | .ln | .log10 | .log2 | .sin | .tan => true
  | _ => false

/--
The machine's functions come to one value for both zeros: zeros and infinities that come of them
may differ in sign, which no value shows.
-/
structure Double.MachineIgnoresZeroSign : Prop where
  unary : ∀ function : UnaryFunction, function.isElementary = true → ∀ negative other : Bool,
    Value.ofDouble (function.run (.finite (.zero negative))) =
      Value.ofDouble (function.run (.finite (.zero other)))
  power : ∀ (negative other : Bool) (exponent : Double),
    Value.ofDouble (pow (.finite (.zero negative)) exponent) =
      Value.ofDouble (pow (.finite (.zero other)) exponent)

/-- Numbers that no function tells apart: the same, or of one value if the machine agrees. -/
def Double.Interchangeable (x y : Double) : Prop :=
  x = y ∨ MachineIgnoresZeroSign ∧ Alike x y

theorem Double.Interchangeable.alike {x y : Double} (interchangeable : x.Interchangeable y) :
    Alike x y := by
  rcases interchangeable with rfl | ⟨_, alike⟩
  · exact .refl x
  · exact alike

theorem UnaryFunction.run_zero {function : UnaryFunction} (own : function.isElementary = false)
    (negative other : Bool) : Number.ofDouble? (function.run (.finite (.zero negative))) =
      Number.ofDouble? (function.run (.finite (.zero other))) := by
  revert negative other
  cases function with
  | neg | abs | ceil | floor | round | sqrt => decide +kernel
  | _ => cases own

theorem UnaryFunction.ofDouble_run (function : UnaryFunction) {x y : Double}
    (interchangeable : x.Interchangeable y) :
    Value.ofDouble (function.run x) = Value.ofDouble (function.run y) := by
  rcases interchangeable with rfl | ⟨machine, alike⟩
  · rfl
  · rcases alike.eq_or_zero with rfl | ⟨negative, other, rfl, rfl⟩
    · rfl
    · cases elementary : function.isElementary with
      | true => exact machine.unary function elementary negative other
      | false =>
          unfold Value.ofDouble
          rw [function.run_zero elementary negative other]

/-- An infinite quotient is null, whatever its sign. -/
theorem Value.ofDouble_div_zero (x : Double) (negative other : Bool) :
    ofDouble (Double.div x (.finite (.zero negative))) =
      ofDouble (Double.div x (.finite (.zero other))) := by
  cases x with
  | finite x =>
      simp only [Double.div, FiniteDouble.zero, if_true]
      split
      · rfl
      · rfl
  | infinite sign => rfl
  | nan => rfl

/-- A remainder goes by the value of the dividend, and there is none of a division by zero. -/
theorem Double.Alike.rem {x y a b : Double} (first : Alike x a) (second : Alike y b) :
    Alike (rem x y) (rem a b) := by
  have left : Alike (Double.rem x y) (Double.rem a y) := by
    rcases first.eq_or_zero with rfl | ⟨negative, other, rfl, rfl⟩
    · exact .refl _
    · cases y with
      | finite y =>
          simp only [Double.rem, FiniteDouble.zero, Nat.zero_mod]
          split
          · exact .nan
          · exact rounded_zero _ _ _
      | infinite sign => exact .finite (by simp)
      | nan => exact .nan
  have right : Alike (Double.rem a y) (Double.rem a b) := by
    rcases second.eq_or_zero with rfl | ⟨negative, other, rfl, rfl⟩
    · exact .refl _
    · cases a <;> exact .nan
  exact left.trans right

/-- Any power zero is one. -/
theorem Double.pow_finite_zero (base : Double) (negative : Bool) :
    pow base (.finite (.zero negative)) = one := by
  have zeros : eq (.finite (.zero negative)) zero = true := by simp [zero]
  simp [pow, zeros]

theorem Double.pow_eq (base : Double) {x y : Double} (alike : Alike x y) :
    pow base x = pow base y := by
  rcases alike.eq_or_zero with rfl | ⟨negative, other, rfl, rfl⟩
  · rfl
  · rw [pow_finite_zero, pow_finite_zero]

theorem BinaryFunction.ofDouble_run (function : BinaryFunction) {x y a b : Double}
    (first : x.Interchangeable a) (second : y.Interchangeable b) :
    Value.ofDouble (function.run x y) = Value.ofDouble (function.run a b) := by
  cases function with
  | sub => exact Value.ofDouble_alike (first.alike.sub second.alike)
  | mod => exact Value.ofDouble_alike (first.alike.rem second.alike)
  | div =>
      calc Value.ofDouble (Double.div x y)
        _ = Value.ofDouble (Double.div a y) := Value.ofDouble_alike (first.alike.div y)
        _ = Value.ofDouble (Double.div a b) := by
            rcases second.alike.eq_or_zero with rfl | ⟨negative, other, rfl, rfl⟩
            · rfl
            · exact Value.ofDouble_div_zero a negative other
  | pow =>
      calc Value.ofDouble (Double.pow x y)
        _ = Value.ofDouble (Double.pow a y) := by
            rcases first with rfl | ⟨machine, alike⟩
            · rfl
            · rcases alike.eq_or_zero with rfl | ⟨negative, other, rfl, rfl⟩
              · rfl
              · exact machine.power negative other y
        _ = Value.ofDouble (Double.pow a b) :=
            congrArg Value.ofDouble (Double.pow_eq a second.alike)

theorem ListFunction.ofDouble_run (function : ListFunction) {numbers others : List Double}
    (interchangeable : List.Forall₂ Double.Interchangeable numbers others) :
    Value.ofDouble (function.run numbers) = Value.ofDouble (function.run others) := by
  have alike : List.Forall₂ Double.Alike numbers others := interchangeable.imp fun _ _ => (·.alike)
  apply Value.ofDouble_alike
  cases function with
  | add => exact List.rel_foldl (fun _ _ first _ _ second => first.add second) (.refl _) alike
  | mul => exact List.rel_foldl (fun _ _ first _ _ second => first.mul second) (.refl _) alike
  | max => exact List.rel_foldl (fun _ _ first _ _ second => first.max second) (.refl _) alike
  | min => exact List.rel_foldl (fun _ _ first _ _ second => first.min second) (.refl _) alike

/-! ### Curves -/

theorem Double.Alike.clamp {x a : Double} (alike : Alike x a) (low high : Double) :
    Alike (x.clamp low high) (a.clamp low high) := by
  unfold Double.clamp
  rw [alike.lt_eq (.refl low), Alike.lt_eq (.refl high) alike]
  split
  · exact .refl low
  · split
    · exact .refl high
    · exact alike

/-- A number that is not small is the only one of its value. -/
theorem Double.Alike.eq_of_not_small {x a : Double} (alike : Alike x a)
    (large : x.abs.lt Cubic.tolerance = false) : x = a := by
  have small : ∀ negative : Bool,
      (Double.abs (.finite (.zero negative))).lt Cubic.tolerance = true := by
    decide +kernel
  rcases alike.eq_or_zero with same | ⟨negative, other, rfl, rfl⟩
  · exact same
  · rw [small negative] at large
    cases large

namespace Cubic

open Double (Alike)

variable (cubic : Cubic) {goal otherGoal t otherT : Double}

theorem sample_alike (alike : Alike t otherT) : Alike (cubic.sample t) (cubic.sample otherT) :=
  (((((Alike.refl _).mul alike).add (.refl _)).mul alike).add (.refl _)).mul alike

theorem slope_alike (alike : Alike t otherT) : Alike (cubic.slope t) (cubic.slope otherT) := by
  have square : Alike (3 * cubic.a * t) (3 * cubic.a * otherT) :=
    (Alike.refl (3 * cubic.a)).mul alike
  have linear : Alike (3 * cubic.a * t + 2 * cubic.b) (3 * cubic.a * otherT + 2 * cubic.b) :=
    square.add (.refl (2 * cubic.b))
  unfold slope
  exact (linear.mul alike).add (.refl cubic.c)

theorem newton?_alike (goals : Alike goal otherGoal) (fuel : Nat) (alike : Alike t otherT) :
    Option.Rel Alike (cubic.newton? goal fuel t) (cubic.newton? otherGoal fuel otherT) := by
  induction fuel generalizing t otherT with
  | zero => exact .none
  | succ fuel ih =>
      have excess : Alike (cubic.sample t - goal) (cubic.sample otherT - otherGoal) :=
        (cubic.sample_alike alike).sub goals
      have slope := cubic.slope_alike alike
      unfold newton?
      dsimp only
      rw [excess.abs.lt_eq (.refl tolerance), slope.abs.lt_eq (.refl tolerance)]
      split
      · exact .some alike
      · split
        · exact .none
        · rename_i large
          have same : cubic.slope t = cubic.slope otherT := by
            apply slope.eq_of_not_small
            rw [slope.abs.lt_eq (.refl tolerance)]
            exact Bool.eq_false_iff.mpr large
          rw [same]
          exact ih (alike.sub (excess.div _))

theorem bisect_alike (goals : Alike goal otherGoal) (fuel : Nat)
    {low otherLow high otherHigh : Double} (lows : Alike low otherLow)
    (highs : Alike high otherHigh) (alike : Alike t otherT) :
    Alike (cubic.bisect goal fuel low high t)
      (cubic.bisect otherGoal fuel otherLow otherHigh otherT) := by
  induction fuel generalizing low otherLow high otherHigh t otherT with
  | zero => exact alike
  | succ fuel ih =>
      have reached := cubic.sample_alike alike
      have excess : Alike (cubic.sample t - goal) (cubic.sample otherT - otherGoal) :=
        reached.sub goals
      unfold bisect
      dsimp only
      rw [lows.lt_eq highs, excess.abs.lt_eq (.refl tolerance), reached.lt_eq goals]
      generalize (cubic.sample otherT).lt otherGoal = below
      have lowNext : Alike (if below then t else low) (if below then otherT else otherLow) := by
        split
        · exact alike
        · exact lows
      have highNext : Alike (if below then high else t) (if below then otherHigh else otherT) := by
        split
        · exact highs
        · exact alike
      generalize (if below then t else low) = lower,
        (if below then otherT else otherLow) = otherLower at lowNext
      generalize (if below then high else t) = upper,
        (if below then otherHigh else otherT) = otherUpper at highNext
      have width : Alike (upper - lower) (otherUpper - otherLower) := highNext.sub lowNext
      have middle : Alike ((upper - lower) * (1 / 2) + lower)
          ((otherUpper - otherLower) * (1 / 2) + otherLower) :=
        (width.mul (.refl (1 / 2))).add lowNext
      rw [width.lt_eq (.refl tolerance)]
      split
      · split
        · exact alike
        · split
          · exact middle
          · exact ih lowNext highNext middle
      · exact alike

theorem parameterAt_alike (goals : Alike goal otherGoal) :
    Alike (cubic.parameterAt goal) (cubic.parameterAt otherGoal) := by
  have newton := cubic.newton?_alike goals 8 goals
  unfold parameterAt
  generalize cubic.newton? goal 8 goal = found, cubic.newton? otherGoal 8 otherGoal = otherFound
    at newton
  cases newton with
  | some alike => exact alike
  | none => exact cubic.bisect_alike goals 64 (.refl 0) (.refl 1) (goals.clamp 0 1)

end Cubic

/-- How far an output has moved goes by the value of the input. -/
theorem Curve.factor_alike (curve : Curve) {input otherInput : Double}
    (alike : Double.Alike input otherInput) (lower upper : Double) :
    Double.Alike (curve.factor input lower upper) (curve.factor otherInput lower upper) := by
  have progress : Double.Alike (input - lower) (otherInput - lower) := alike.sub (.refl lower)
  have linear : Double.Alike ((input - lower) / (upper - lower))
      ((otherInput - lower) / (upper - lower)) := progress.div _
  unfold factor
  dsimp only
  split
  · exact .refl 0
  · cases curve with
    | linear => exact linear
    | exponential base =>
        dsimp only
        rw [Double.pow_eq base progress]
        split
        · exact linear
        · exact .refl _
    | cubicBezier x1 y1 x2 y2 => exact Cubic.sample_alike _ (Cubic.parameterAt_alike _ linear)

/-! ### Values -/

namespace Value

/-- Negative zero does not occur in the value, or the machine ignores the sign of zero. -/
def SafeZeros (value : Value) : Prop := value.Clean ∨ Double.MachineIgnoresZeroSign

theorem hereditary_safeZeros : Hereditary SafeZeros := by
  constructor
  · intro items safe item member
    exact safe.imp (fun clean => hereditary_clean.items items clean item member) id
  · intro entries safe entry member
    exact safe.imp (fun clean => hereditary_clean.entries entries clean entry member) id

/-- A number that is converted once more is one that no function tells apart from it. -/
theorem SafeZeros.toDouble?_ofDouble {value : Value} {x : Double} (safe : value.SafeZeros)
    (number : value.toDouble? = some x) :
    ∃ y, (ofDouble x).toDouble? = some y ∧ x.Interchangeable y := by
  rcases safe with clean | machine
  · exact ⟨x, Value.toDouble?_ofDouble clean number, .inl rfl⟩
  · obtain ⟨held, rfl⟩ := toDouble?_finite number
    obtain ⟨y, written, alike⟩ := toDouble?_ofDouble_finite held
    exact ⟨y, written, .inr ⟨machine, alike⟩⟩

end Value

/-!
## Curves in documents

The parameters of a curve that a document names are finite, so the curve can be written down
again.  What is written names an equal curve: a negative zero loses its sign, and nothing else
changes.  Written once more, that curve is the same text.
-/

namespace Curve

def equal : Curve → Curve → Bool
  | .linear, .linear => true
  | .exponential base, .exponential other => base.eq other
  | .cubicBezier x1 y1 x2 y2, .cubicBezier a1 b1 a2 b2 =>
      x1.eq a1 && y1.eq b1 && x2.eq a2 && y2.eq b2
  | _, _ => false

/-- Parameters that are read from a document are finite. -/
theorem finite_of_mapM {written : List Value} {parameters : List Double}
    (reads : written.mapM Value.toDouble? = some parameters) :
    ∀ x ∈ parameters, ∃ y, x = .finite y := by
  induction written generalizing parameters with
  | nil =>
      obtain rfl := Option.some.inj reads
      intro x impossible
      cases impossible
  | cons first rest ih =>
      rw [List.mapM_cons] at reads
      obtain ⟨x, head, reads⟩ := Option.bind_eq_some_iff.mp reads
      obtain ⟨others, tail, same⟩ := Option.bind_eq_some_iff.mp reads
      obtain rfl := Option.some.inj same
      intro y member
      cases member with
      | head => exact Value.toDouble?_finite head
      | tail _ member => exact ih tail y member

/-- A number that stands for a parameter once it has been written and read. -/
structure Restores (x y : Double) : Prop where
  read : (Value.ofDouble x).toDouble? = some y
  equal : y.eq x = true
  written : Value.ofDouble y = Value.ofDouble x

/-- A parameter that is finite is restored. -/
theorem restores_of_finite {x : Double} (finite : ∃ y, x = .finite y) : ∃ y, Restores x y := by
  obtain ⟨held, rfl⟩ := finite
  obtain ⟨y, read, alike⟩ := Value.toDouble?_ofDouble_finite held
  refine ⟨y, read, ?_, (Value.ofDouble_alike alike).symm⟩
  cases alike with
  | finite same => simp [same]

/-- A curve that a document names can be written down, and what is written names it again. -/
theorem ofValue?_toValue {value : Value} {curve : Curve} (reads : ofValue? value = some curve) :
    ∃ again, ofValue? curve.toValue = some again ∧ again.equal curve = true ∧
      again.toValue = curve.toValue := by
  unfold ofValue? at reads
  split at reads
  · rename_i name written
    split at reads
    · obtain rfl := Option.some.inj reads
      exact ⟨.linear, rfl, rfl, rfl⟩
    · rename_i base parameters
      obtain rfl := Option.some.inj reads
      have finite := finite_of_mapM parameters
      obtain ⟨again, restored⟩ := restores_of_finite (finite base (by simp))
      refine ⟨.exponential again, ?_, restored.equal, ?_⟩
      · simp [toValue, ofValue?, restored.read]
      · simp [toValue, restored.written]
    · rename_i x1 y1 x2 y2 parameters
      obtain rfl := Option.some.inj reads
      have finite := finite_of_mapM parameters
      obtain ⟨a, first⟩ := restores_of_finite (finite x1 (by simp))
      obtain ⟨b, second⟩ := restores_of_finite (finite y1 (by simp))
      obtain ⟨c, third⟩ := restores_of_finite (finite x2 (by simp))
      obtain ⟨d, fourth⟩ := restores_of_finite (finite y2 (by simp))
      refine ⟨.cubicBezier a b c d, ?_, ?_, ?_⟩
      · simp [toValue, ofValue?, first.read, second.read, third.read, fourth.read]
      · simp [equal, first.equal, second.equal, third.equal, fourth.equal]
      · simp [toValue, first.written, second.written, third.written, fourth.written]
    · cases reads
  · cases reads

/-- What a compiled curve is written as names a curve. -/
theorem readable_toValue {value : Value} {curve : Curve} (reads : ofValue? value = some curve) :
    ∃ again, ofValue? curve.toValue = some again := by
  obtain ⟨again, readable, _⟩ := ofValue?_toValue reads
  exact ⟨again, readable⟩

end Curve

end MapStyle
