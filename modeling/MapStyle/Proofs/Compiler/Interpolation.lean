import MapStyle.Proofs.Builtin.Blend
import MapStyle.Proofs.Compiler.Failure
import MapStyle.Proofs.Compiler.Segment
import MapStyle.Proofs.Term.Class

/-!
# Interpolations

The curve that an interpolation is compiled with, and the values that it comes to.
-/

namespace MapStyle

/-!
## Curves from the document to the evaluation

A compilation reads the curve of an interpolation, writes it down anew, and every evaluation reads
it again.  What it finds is the curve of the document, so it never complains that there is none.
-/

abbrev Error.noCurve (function : String) (position : Nat) (found : String) : Error :=
  .invalidArgument function position "an interpolation type" found

/-- A source whose answers, where it has none, complain of no curve. -/
abbrev Source.BlamesNoCurve (source : Source) : Prop :=
  source.Confined fun cause => cause.blamesCurve = false

/-- A well-formed term finds a curve in each interpolation, whatever it is evaluated for. -/
theorem Term.WellFormed.evaluate_blamesNoCurve {term : Term} (wellFormed : term.WellFormed)
    {source : Source} (known : source.BlamesNoCurve) (limit depth : Nat) :
    Confined (fun cause => cause.blamesCurve = false)
      (Evaluator.evaluate { source, limit } depth term) := by
  have means := wellFormed.meaning_confined (fun _ => Error.blamesCurve_of_blamesOperand) known
  let evaluator : Evaluator := { source, limit }
  have evaluates := evaluator.evaluate_confined means depth
  intro cause failed
  rcases evaluates cause failed with other | deep
  · exact other
  · cases cause with
    | calledTooDeep => rfl
    | _ => cases deep

/--
Curves survive compilation.  The curve that a value names is written as a value that names an
equal curve, which is written as the same value again.  No compilation and no evaluation of a
compiled term, under whatever limit and at whatever depth, complains that a curve is none, for any
source that does not answer so of itself; while nothing is known, and for a feature, none does.
-/
theorem curves_survive_compilation :
    (∀ value curve, Curve.ofValue? value = some curve →
      ∃ again, Curve.ofValue? curve.toValue = some again ∧ again.equal curve = true ∧
        again.toValue = curve.toValue) ∧
    ∀ (options : Options) (document : Value) (function : String) (position : Nat) (found : String),
      Compiler.compile { options } document ≠ .error (.noCurve function position found) ∧
      ∀ term, Compiler.compile { options } document = .ok term →
        ∀ source : Source, source.BlamesNoCurve → ∀ limit depth : Nat,
          Evaluator.evaluate { source, limit } depth term ≠
            .error (.noCurve function position found) := by
  refine ⟨fun value curve reads => Curve.ofValue?_toValue reads, ?_⟩
  intro options document function position found
  constructor
  · intro refused
    cases Compiler.compile_external options document _ refused
  · intro term compiled source known limit depth failed
    have wellFormed :=
      (Compiler.compile_emitted Value.hereditary_true trivial compiled).wellFormed
    cases wellFormed.evaluate_blamesNoCurve known limit depth _ failed

/-- A negative zero as a base loses its sign, and an interpolation on a property finds its line. -/
theorem curves_survive_compilation_case :
    (∃ again, Curve.ofValue? (Curve.exponential (.finite (.zero true))).toValue = some again ∧
        again.equal (.exponential (.finite (.zero true))) = true ∧
        again.toValue = (Curve.exponential (.finite (.zero true))).toValue) ∧
      ∃ term, Compiler.compile {} (.array (.string "interpolate" :: Value.interpolateX)) =
          .ok term ∧
        Evaluator.evaluate { source := .ofTwo, limit := 512 } 0 term ≠
          .error (.noCurve "interpolate" 0 "array") := by
  obtain ⟨survives, complains⟩ := curves_survive_compilation
  constructor
  · exact survives (.array [.string "exponential", .number (.double (.zero true))]) _ rfl
  · have compiles : (Compiler.compile {}
        (.array (.string "interpolate" :: Value.interpolateX))).isOk = true := by
      decide +kernel
    obtain ⟨term, compiled⟩ := eq_ok_of_isOk compiles
    obtain ⟨_, evaluates⟩ := complains {}
      (.array (.string "interpolate" :: Value.interpolateX)) "interpolate" 0 "array"
    exact ⟨term, compiled, evaluates term compiled .ofTwo (Source.confined_scope _ _) 512 0⟩

/-!
## Values of interpolations

Strictly between the first and the last of its stops an interpolation blends two outputs, and
only numeric values can be blended.  The blend of two numbers that lie far apart leaves the range
of finite numbers on the way, and null stands in its place.  Beyond the stops an output is taken
as it is.
-/

namespace Ramp

/-- An interpolation that yields a value has an input that is a number. -/
theorem input_of_call {source : Source} {shape input : Outcome} {rest : List Outcome}
    {value : Value}
    (yields : Builtin.interpolate.call source (shape :: input :: rest) = .ok value) :
    ∃ held x, input = .ok held ∧ held.toDouble? = some x := by
  obtain ⟨_, _, _, same, found⟩ := Rule.answer?_twoAndSome (Builtin.rule_of_call yields)
  cases same
  rw [interpolate?_eq_readParts] at found
  cases read : readParts shape input rest with
  | error cause =>
      rw [read] at found
      cases found
  | ok parts =>
      obtain ⟨_, _, read⟩ := bind_eq_ok.mp read
      obtain ⟨x, number, _⟩ := bind_eq_ok.mp read
      obtain ⟨held, evaluates, comes⟩ := Operand.number_eq_ok.mp number
      exact ⟨held, x, evaluates, comes⟩

/--
What an interpolation comes to at a location, for the outcomes of terms: to a numeric output
beyond the stops, and to a blend between two of them.
-/
inductive Interpolated (outcome : Term → Outcome) (curve : Curve) (x : Double) (value : Value) :
    Location Term → Prop where
  | beyond {place : Nat} {knot : Knot Term} {output : Value}
      (taken : outcome knot.output = .ok output) (kept : output.Numeric false → value = output) :
      Interpolated outcome curve x value (.beyond place knot)
  | inside {segment : Segment Term} {a b : Value}
      (lower : outcome segment.lower.output = .ok a)
      (upper : outcome segment.upper.output = .ok b)
      (blended : Blended (curve.factor x segment.lower.stop segment.upper.stop) a b value) :
      Interpolated outcome curve x value (.inside segment)

/-- The answer at a location, where it is a value, is what the interpolation comes to there. -/
theorem interpolated_of_answer {outcome : Term → Outcome} {curve : Curve} {x : Double}
    {value : Value} {location : Location Term}
    (answers : (location.map outcome).answer curve x = .ok value) :
    Interpolated outcome curve x value location := by
  cases location with
  | beyond place knot => exact .beyond answers fun _ => rfl
  | inside segment =>
      obtain ⟨a, lower, answers⟩ := bind_eq_ok.mp answers
      obtain ⟨b, upper, blends⟩ := bind_eq_ok.mp answers
      exact .inside lower upper (blended_of_blend blends)

end Ramp

/--
Interpolations blend numbers.  If a written interpolation compiles and the term that it compiles
to yields a value, its input is a number.  Between two stops both outputs are numeric and blended
place by place, so the value is numeric but for nulls in the place of results that are not
finite.  At the first stop or before it, and at the last stop or behind it, an output that is
numeric is the value.
-/
theorem interpolations_blend_numbers {context : Context} (full : context.registry = {})
    {items : List Value} {term : Term}
    (compiled : (Value.array (.string Operator.interpolate.name :: items)).compile context =
      .ok term) {source : Source} {value : Value}
    (evaluates : (context.evaluatorFor source).evaluate 0 term = .ok value) :
    ∃ named curve operand knots held x location,
      Ramp.InterpolationParts context.deeper items named curve operand knots ∧
        (context.evaluatorFor source).evaluate 1 operand = .ok held ∧
        held.toDouble? = some x ∧ Ramp.Located x knots location ∧
        Ramp.Interpolated ((context.evaluatorFor source).evaluate 1) curve x value location ∧
        ((∀ place knot output, location = .beyond place knot →
          (context.evaluatorFor source).evaluate 1 knot.output = .ok output →
            output.Numeric false) → value.Numeric true) := by
  have shallow := Value.depth_lt_of_compile compiled
  obtain ⟨named, curve, operand, knots, parts, tried⟩ := Compiler.interpolation_parts compiled
  have called := evaluates
  rw [Context.evaluate_tried full shallow tried] at called
  obtain ⟨held, x, input, number⟩ := Ramp.input_of_call called
  obtain ⟨location, located, answers, _⟩ := parts.answers full shallow tried input number
  rw [evaluates] at answers
  have interpolated := Ramp.interpolated_of_answer answers.symm
  refine ⟨named, curve, operand, knots, held, x, location, parts, input, number, located,
    interpolated, fun numeric => ?_⟩
  cases interpolated with
  | beyond taken kept =>
      have output := numeric _ _ _ rfl taken
      rw [kept output]
      exact output.gaps
  | inside _ _ blended => exact blended.numeric.2.2

/-- An interpolation on a property that is two, with one stop below it and one above. -/
theorem interpolations_blend_numbers_case :
    ∃ (term : Term) (value : Value) (curve : Curve) (x : Double) (location : Ramp.Location Term),
      (Value.array (.string "interpolate" :: Value.interpolateX)).compile {} = .ok term ∧
        (Context.evaluatorFor {} .ofTwo).evaluate 0 term = .ok value ∧
        Ramp.Interpolated ((Context.evaluatorFor {} .ofTwo).evaluate 1) curve x value location := by
  have yields : ((Value.array (.string "interpolate" :: Value.interpolateX)).compile {} >>=
      (Context.evaluatorFor {} .ofTwo).evaluate 0).isOk = true := by
    decide +kernel
  obtain ⟨value, yields⟩ := eq_ok_of_isOk yields
  obtain ⟨term, compiled, evaluates⟩ := bind_eq_ok.mp yields
  obtain ⟨_, curve, _, _, _, x, location, _, _, _, _, interpolated, _⟩ :=
    @interpolations_blend_numbers {} rfl _ _ compiled _ _ evaluates
  exact ⟨term, value, curve, x, location, compiled, evaluates, interpolated⟩

def Value.farApart : List Value :=
  [.array [.string "linear"], .whole 5, .whole 0, .number (.double greatestPower.neg), .whole 10,
    .number (.double greatestPower)]

/-- The difference of the two outputs is not finite, and the interpolation comes to null. -/
theorem interpolation_of_far_apart :
    ∃ term, (Value.array (.string "interpolate" :: Value.farApart)).compile {} = .ok term ∧
      (Context.evaluatorFor {} (.scope {} [])).evaluate 0 term = .ok .null := by
  have void : ((Value.array (.string "interpolate" :: Value.farApart)).compile {} >>=
      (Context.evaluatorFor {} (.scope {} [])).evaluate 0).toOption.map Value.kind =
        some .null := by
    decide +kernel
  cases yields : (Value.array (.string "interpolate" :: Value.farApart)).compile {} >>=
      (Context.evaluatorFor {} (.scope {} [])).evaluate 0 with
  | error cause =>
      rw [yields] at void
      cases void
  | ok value =>
      rw [yields] at void
      cases value with
      | null => exact bind_eq_ok.mp yields
      | _ => cases void

end MapStyle
