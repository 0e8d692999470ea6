import MapStyle.Proofs.Builtin.Passage
import MapStyle.Proofs.Compiler.Interpolation
import MapStyle.Proofs.Compiler.Limit

/-!
# Interpolations pass through their stops

Where the input of a written interpolation is one of its stops, the output of that stop should be
the value.  At the first and the last stop it is, because the output is taken as it is.  At a stop
between them the output is blended with the next one, by nothing; this keeps its value unless the
difference of the two is infinite or the curve does not start there, for which null stands.
-/

namespace MapStyle

/-- A curve starts at an end of a segment by the values of the stops alone. -/
theorem Curve.Starts.of_alike {curve : Curve} {lower upper other another : Double}
    (starts : curve.Starts lower upper) (first : Double.Alike lower other)
    (second : Double.Alike upper another) : curve.Starts other another := by
  have width : ∀ base : Double, base.pow (upper - lower) = base.pow (another - other) :=
    fun base => base.pow_eq (second.sub first)
  cases starts with
  | linear => exact .linear
  | straight one => exact .straight one
  | @exponential base number rises =>
      rw [width base] at number rises
      exact .exponential number rises

namespace Ramp

/-- A stop and its output, written as numbers. -/
structure Point where
  stop : Number
  output : Number

def listed : List Point → List Value
  | [] => []
  | point :: rest => .number point.stop :: .number point.output :: listed rest

structure Point.Compiled (point : Point) (knot : Knot Term) : Prop where
  stop : Double.Alike point.stop.toDouble knot.stop
  output : knot.output = .literal (.number point.output)

/-- Written numbers are compiled one by one. -/
theorem Written.points {context : Context} {points : List Point} {knots : List (Knot Term)}
    (written : Written context (listed points) knots) :
    List.Forall₂ Point.Compiled points knots := by
  induction points generalizing knots with
  | nil =>
      cases written
      exact .nil
  | cons point rest ih =>
      cases written with
      | pair number same compiled others =>
          obtain rfl := Option.some.inj number
          exact .cons ⟨same, (Except.ok.inj compiled).symm⟩ (ih others)

/-- What is written at a place is compiled there. -/
theorem Point.Compiled.at_place {points : List Point} {knots : List (Knot Term)}
    (compiled : List.Forall₂ Point.Compiled points knots) {place : Nat} {point : Point}
    (present : points[place]? = some point) :
    ∃ knot, knots[place]? = some knot ∧ point.Compiled knot := by
  obtain ⟨within, rfl⟩ := List.getElem?_eq_some_iff.mp present
  have also : place < knots.length := by
    rw [← compiled.length_eq]
    exact within
  exact ⟨knots[place], List.getElem?_eq_getElem also, compiled.get within also⟩

/-- An input equal to a stop, as it is written, is equal to the one that is compiled. -/
theorem Point.Compiled.reached {point : Point} {knot : Knot Term} (compiled : point.Compiled knot)
    {x y : Double} (alike : Double.Alike x y) (equal : y.eq point.stop.toDouble = true) :
    Double.Alike x knot.stop := by
  have same := compiled.stop
  obtain ⟨stop, finite⟩ := point.stop.toDouble_eq_finite
  rw [finite] at equal same
  exact (alike.trans (Double.alike_iff_eq.mpr equal)).trans same

/-- Between two compiled numbers the answer is their blend. -/
theorem Point.Compiled.answer_inside {point next : Point} {lower upper : Knot Term}
    (first : point.Compiled lower) (second : next.Compiled upper) (evaluator : Evaluator)
    (curve : Curve) (x : Double) (place : Nat) :
    ((Location.inside ⟨place, lower, upper⟩).map (evaluator.evaluate 1)).answer curve x =
      .ok (.ofDouble (between point.output.toDouble next.output.toDouble
        (curve.factor x lower.stop upper.stop))) := by
  rw [← blendSegment_numbers curve x place]
  simp only [Location.map, Location.answer, Segment.map, Knot.map, first.output, second.output,
    Evaluator.evaluate]

/--
A curve leaves a point for the next one if it starts at the stop and the difference of the outputs
is finite.
-/
structure Point.Leaves (curve : Curve) (point next : Point) : Prop where
  starts : curve.Starts point.stop.toDouble next.stop.toDouble
  near : (next.output.toDouble - point.output.toDouble).finite?.isSome = true

/-- At a point that the curve leaves for the next one the blend is its output, or else null. -/
theorem Point.Compiled.blend_at_stop {point next : Point} {lower upper : Knot Term}
    (first : point.Compiled lower) (second : next.Compiled upper) {curve : Curve}
    (shaped : curve = .linear ∨ ∃ base, curve = .exponential base) {y z : FiniteDouble}
    (lowerStop : lower.stop = .finite y) (upperStop : upper.stop = .finite z)
    (below : lower.stop.lt upper.stop = true) {x : Double} (reached : Double.Alike x lower.stop) :
    (Point.Leaves curve point next →
      ∃ result, Value.ofDouble (between point.output.toDouble next.output.toDouble
          (curve.factor x lower.stop upper.stop)) = .number result ∧
        result.equal point.output = true) ∧
    (¬Point.Leaves curve point next →
      Value.ofDouble (between point.output.toDouble next.output.toDouble
        (curve.factor x lower.stop upper.stop)) = .null) := by
  have lowerAlike := first.stop
  have upperAlike := second.stop
  rw [lowerStop] at lowerAlike below reached ⊢
  rw [upperStop] at upperAlike below ⊢
  have atStart (starts : curve.Starts point.stop.toDouble next.stop.toDouble) :
      Double.Alike (curve.factor x (.finite y) (.finite z)) .zero :=
    (starts.of_alike lowerAlike upperAlike).factor reached
  constructor
  · intro leaves
    exact (ofDouble_between_start (atStart leaves.starts)).1 leaves.near
  · intro remains
    by_cases starts : curve.Starts point.stop.toDouble next.stop.toDouble
    · apply (ofDouble_between_start (atStart starts)).2
      rw [← Option.not_isSome_iff_eq_none]
      exact fun near => remains ⟨starts, near⟩
    · have stalls : ¬curve.Starts (.finite y) (.finite z) := fun starting =>
        starts (starting.of_alike lowerAlike.symm upperAlike.symm)
      have apart : z.value ≠ y.value := by
        rw [Double.lt_finite, decide_eq_true_iff] at below
        omega
      rcases shaped with rfl | ⟨base, rfl⟩
      · exact absurd .linear stalls
      · rw [Curve.factor_of_not_starts stalls apart reached, between_nan]
        rfl

/-! ## Where a stop stands -/

variable {α : Type}

/-- An input at a stop is at an end of the ramp, or at the lower end of a segment. -/
theorem Located.at_stop {x : Double} (finite : ∃ y, x = .finite y) {knots : List (Knot α)}
    (stable : Stable knots) (ascending : Ascending knots) {location : Location α}
    (located : Located x knots location) {place : Nat} {knot : Knot α}
    (here : knots[place]? = some knot) (reached : Double.Alike x knot.stop) :
    (location = .beyond place knot ∧ (place = 0 ∨ place + 1 = knots.length)) ∨
      ∃ next, place ≠ 0 ∧ knots[place + 1]? = some next ∧
        location = .inside ⟨place, knot, next⟩ := by
  have within : place < knots.length := (List.getElem?_eq_some_iff.mp here).1
  have stop := stable.finite (List.mem_of_getElem? here)
  have same : x.value = knot.stop.value := reached.value_eq
  cases located with
  | @first other head low =>
      cases place with
      | zero =>
          rw [List.head?_eq_getElem?] at head
          cases here.symm.trans head
          exact .inl ⟨rfl, .inl rfl⟩
      | succ place =>
          have headStop := stable.finite (List.mem_of_mem_head? head)
          rw [List.head?_eq_getElem?] at head
          have above := ascending.lt (Nat.succ_pos place) head here
          rw [Double.lt_iff headStop stop] at above
          rw [Double.le_iff finite headStop] at low
          omega
  | @last other ended high =>
      have lastStop := stable.finite (List.mem_of_getLast? ended)
      rw [List.getLast?_eq_getElem?] at ended
      by_cases final : place = knots.length - 1
      · subst final
        cases here.symm.trans ended
        exact .inl ⟨rfl, .inr (by omega)⟩
      · have below := ascending.lt (show place < knots.length - 1 by omega) here ended
        rw [Double.lt_iff stop lastStop] at below
        rw [Double.le_iff lastStop finite] at high
        omega
  | @inside segment above before encloses only =>
      have behind : place ≠ 0 := by
        rintro rfl
        have low := above knot (by rwa [List.head?_eq_getElem?])
        rw [Double.lt_iff stop finite] at low
        omega
      have followed : place + 1 < knots.length := by
        by_contra final
        have high := before knot (by
          rwa [List.getLast?_eq_getElem?, show knots.length - 1 = place by omega])
        rw [Double.lt_iff finite stop] at high
        omega
      have there := List.getElem?_eq_getElem followed
      have nextStop := stable.finite (List.mem_of_getElem? there)
      have beyond := ascending.lt (Nat.lt_succ_self place) here there
      have around : Encloses x knots ⟨place, knot, knots[place + 1]⟩ := by
        refine ⟨here, there, ?_, ?_⟩
        · rw [Double.le_iff stop finite]
          exact Int.le_of_eq same.symm
        · rw [Double.lt_iff finite nextStop, same]
          exact (Double.lt_iff stop nextStop).mp beyond
      obtain ⟨index, lower, upper⟩ := segment
      obtain rfl : place = index := only _ around
      cases here.symm.trans encloses.lower
      cases there.symm.trans encloses.upper
      exact .inr ⟨_, behind, there, rfl⟩

end Ramp

/-- An operand comes to the number that the argument comes to. -/
theorem Argument.evaluate_numberExpression {context : Context} (full : context.registry = {})
    (shallow : context.depth < context.options.maxDepth) {argument : Argument} {place : Place}
    {inner operand : Term} (compiled : argument.expression context.deeper = .ok inner)
    (number : argument.numberExpression place context.deeper = .ok operand) {source : Source}
    {held : Number}
    (evaluates : (context.evaluatorFor source).evaluate 2 inner = .ok (.number held)) :
    ∃ value x, (context.evaluatorFor source).evaluate 1 operand = .ok value ∧
      value.toDouble? = some x ∧ Double.Alike x held.toDouble := by
  obtain ⟨other, same, cases⟩ := numberExpression_eq_ok number
  cases compiled.symm.trans same
  rcases cases with ⟨_, rfl⟩ | ⟨_, rfl⟩
  · have agrees := Evaluator.evaluate_agrees_of_shallower (context.evaluatorFor source)
      (show 1 ≤ 2 by decide) operand
    exact ⟨.number held, _, agrees.ok evaluates, rfl, .refl _⟩
  · have within := Options.four_le_evaluationDepth (Nat.zero_lt_of_lt shallow)
    have registered : (context.evaluatorFor source).registry = {} := full
    obtain ⟨x, nearest⟩ := held.toDouble_eq_finite
    obtain ⟨y, written, alike⟩ := Value.toDouble?_ofDouble_finite x
    refine ⟨.ofDouble held.toDouble, y, ?_, ?_, ?_⟩
    · rw [Evaluator.evaluate_applied registered (Nat.lt_of_lt_of_le (by decide) within),
        List.map_cons, evaluates]
      rfl
    · rw [nearest, written]
    · rw [nearest]
      exact alike.symm

/--
Interpolations pass through their stops, but for what arithmetic does not reach.  If a written
interpolation between numbers compiles and its input evaluates to a number equal to one of the
stops, then at the first and at the last stop the value is the output.  At a stop between them the
value is a number equal to the output if the difference to the next output is finite and the curve
starts there, as a line does and an exponential curve whose divisor is a number other than zero;
if not, what is computed is not a number, and the value is null.
-/
theorem interpolation_at_stops {context : Context} (full : context.registry = {})
    {shape input : Value} {named curve : Curve} {points : List Ramp.Point} {term operand : Term}
    (reads : Curve.ofValue? shape = some named) (again : Curve.ofValue? named.toValue = some curve)
    (compiled : (Value.array (.string Operator.interpolate.name :: shape :: input ::
      Ramp.listed points)).compile context = .ok term)
    (compiledInput : input.argument.expression context.deeper = .ok operand)
    {source : Source} {held : Number}
    (evaluates : (context.evaluatorFor source).evaluate 2 operand = .ok (.number held))
    {place : Nat} {point : Ramp.Point} (present : points[place]? = some point)
    (reached : held.toDouble.eq point.stop.toDouble = true) :
    (place = 0 ∨ place + 1 = points.length →
      (context.evaluatorFor source).evaluate 0 term = .ok (.number point.output)) ∧
    ∀ next, place ≠ 0 → points[place + 1]? = some next →
      (curve = .linear ∨ ∃ base, curve = .exponential base) →
      (Ramp.Point.Leaves curve point next →
        ∃ result, (context.evaluatorFor source).evaluate 0 term = .ok (.number result) ∧
          result.equal point.output = true) ∧
      (¬Ramp.Point.Leaves curve point next →
        (context.evaluatorFor source).evaluate 0 term = .ok .null) := by
  have shallow := Value.depth_lt_of_compile compiled
  obtain ⟨other, used, read, knots, parts, tried⟩ := Compiler.interpolation_parts compiled
  obtain ⟨_, _, _, same, alsoReads, number, written⟩ := parts.written
  cases same
  cases reads.symm.trans alsoReads
  cases again.symm.trans parts.again
  have listed := written.points
  obtain ⟨value, x, comes, numeric, alike⟩ :=
    Argument.evaluate_numberExpression full shallow compiledInput number evaluates
  obtain ⟨location, located, answers, _⟩ := parts.answers full shallow tried comes numeric
  obtain ⟨knot, here, made⟩ := Ramp.Point.Compiled.at_place listed present
  have atKnot := made.reached alike reached
  have ends := located.at_stop (Value.toDouble?_finite numeric) parts.stable parts.ascending here
    atKnot
  rw [answers]
  constructor
  · intro atEnd
    rcases ends with ⟨rfl, _⟩ | ⟨_, _, followed, _⟩
    · show (context.evaluatorFor source).evaluate 1 knot.output = _
      rw [made.output, Evaluator.evaluate]
    · have within := (List.getElem?_eq_some_iff.mp followed).1
      rw [← listed.length_eq] at within
      omega
  · intro next behind followed shaped
    obtain ⟨nextKnot, there, nextMade⟩ := Ramp.Point.Compiled.at_place listed followed
    rcases ends with ⟨_, atEnd⟩ | ⟨_, _, also, rfl⟩
    · have within := (List.getElem?_eq_some_iff.mp there).1
      omega
    · cases there.symm.trans also
      obtain ⟨lower, lowerStop⟩ := parts.stable.finite (List.mem_of_getElem? here)
      obtain ⟨upper, upperStop⟩ := parts.stable.finite (List.mem_of_getElem? there)
      have below := parts.ascending.lt (Nat.lt_succ_self place) here there
      obtain ⟨passes, misses⟩ :=
        made.blend_at_stop nextMade shaped lowerStop upperStop below atKnot
      rw [made.answer_inside nextMade]
      constructor
      · intro leaves
        obtain ⟨result, same, equal⟩ := passes leaves
        exact ⟨result, congrArg Except.ok same, equal⟩
      · intro remains
        exact congrArg Except.ok (misses remains)

theorem Number.low_zero : -(2 ^ 63) ≤ (0 : Int) := by decide

theorem Number.high_zero : (0 : Int) < 2 ^ 64 := by decide

namespace Ramp.Point

def rising : List Point :=
  [⟨.whole 0 Number.low_zero Number.high_zero, .whole 10 (by decide) (by decide)⟩,
    ⟨.whole 2 (by decide) (by decide), .whole 20 (by decide) (by decide)⟩,
    ⟨.whole 4 (by decide) (by decide), .whole 30 (by decide) (by decide)⟩]

def farApart : List Point :=
  [⟨.whole 0 Number.low_zero Number.high_zero, .whole 0 Number.low_zero Number.high_zero⟩,
    ⟨.whole 5 (by decide) (by decide), .double greatestPower.neg⟩,
    ⟨.whole 10 (by decide) (by decide), .double greatestPower⟩]

end Ramp.Point

/-- A property that is two, at the second of three stops. -/
theorem interpolation_at_stops_case :
    ∃ term result, (Value.array (.string Operator.interpolate.name :: .array [.string "linear"] ::
        .getX :: Ramp.listed Ramp.Point.rising)).compile {} = .ok term ∧
      (Context.evaluatorFor {} .ofTwo).evaluate 0 term = .ok (.number result) ∧
      result.equal (.whole 20 (by decide) (by decide)) = true := by
  have compiles : ((Value.array (.string Operator.interpolate.name :: .array [.string "linear"] ::
      .getX :: Ramp.listed Ramp.Point.rising)).compile {}).isOk = true := by
    decide +kernel
  obtain ⟨term, compiled⟩ := eq_ok_of_isOk compiles
  obtain ⟨_, inside⟩ := @interpolation_at_stops {} rfl (.array [.string "linear"]) .getX .linear
    .linear Ramp.Point.rising term (.property "x") rfl rfl compiled rfl .ofTwo
    (.whole 2 (by decide) (by decide)) rfl 1 _ rfl (by decide +kernel)
  obtain ⟨passes, _⟩ := inside _ (by decide) rfl (.inl rfl)
  obtain ⟨result, evaluates, equal⟩ := passes ⟨.linear, by decide +kernel⟩
  exact ⟨term, result, compiled, evaluates, equal⟩

/-- At the second of three stops the output is a number, but the interpolation comes to none. -/
theorem interpolation_misses_stop :
    ∃ term, (Value.array (.string Operator.interpolate.name :: .array [.string "linear"] ::
        .number (.whole 5 (by decide) (by decide)) :: Ramp.listed Ramp.Point.farApart)).compile {} =
          .ok term ∧
      Ramp.Point.farApart[1]? =
        some ⟨.whole 5 (by decide) (by decide), .double greatestPower.neg⟩ ∧
      ∀ result, (Context.evaluatorFor {} (.scope {} [])).evaluate 0 term ≠ .ok (.number result) := by
  have void : ((Value.array (.string Operator.interpolate.name :: .array [.string "linear"] ::
      .number (.whole 5 (by decide) (by decide)) :: Ramp.listed Ramp.Point.farApart)).compile {} >>=
      (Context.evaluatorFor {} (.scope {} [])).evaluate 0).toOption.map Value.kind =
        some .null := by
    decide +kernel
  cases yields : (Value.array (.string Operator.interpolate.name :: .array [.string "linear"] ::
      .number (.whole 5 (by decide) (by decide)) :: Ramp.listed Ramp.Point.farApart)).compile {} >>=
      (Context.evaluatorFor {} (.scope {} [])).evaluate 0 with
  | error cause =>
      rw [yields] at void
      cases void
  | ok value =>
      obtain ⟨term, compiled, evaluates⟩ := bind_eq_ok.mp yields
      refine ⟨term, compiled, rfl, fun result number => ?_⟩
      cases evaluates.symm.trans number
      rw [yields] at void
      cases void

end MapStyle
