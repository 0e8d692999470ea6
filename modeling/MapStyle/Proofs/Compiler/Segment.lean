import Mathlib.Data.List.Induction
import MapStyle.Proofs.Builtin.Segment
import MapStyle.Proofs.Compiler.Alignment
import MapStyle.Proofs.Compiler.Folding
import MapStyle.Proofs.Zero

/-!
# Ramps as they are written

The stops of a ramp are written as numbers, and compilation admits them only if each is above
the one before it.  They are handed to the call as values, so that the call reads the stops that
were written, and takes its outputs by them.
-/

namespace MapStyle

/-- Stops and outputs as they are written, with the numbers and terms that they stand for. -/
inductive Ramp.Written (context : Context) : List Value → List (Knot Term) → Prop where
  | nil : Written context [] []
  | pair {stop output : Value} {bound : Double} {knot : Knot Term} {items : List Value}
      {knots : List (Knot Term)} (number : stop.toDouble? = some bound)
      (same : Double.Alike bound knot.stop)
      (compiled : output.argument.expression context = .ok knot.output)
      (others : Written context items knots) :
      Written context (stop :: output :: items) (knot :: knots)

namespace Compiler

variable {context : Context} {term : Term}

/-- A stop that is admitted is above the one before it. -/
theorem above_of_stops_cons {place : Place} {previous : Option Double} {stop output : Argument}
    {rest : Node} {terms : List Term} {bound : Double}
    (compiled : stops context place previous (stop :: output :: rest) = .ok terms)
    (written : stop.numberLiteral place = .ok bound) :
    ∀ below, previous = some below → bound.le below = false := by
  unfold stops at compiled
  obtain ⟨other, same, compiled⟩ := bind_eq_ok.mp compiled
  cases written.symm.trans same
  split at compiled
  · cases compiled
  · rename_i admitted
    rintro below rfl
    simpa using admitted

/-- A number that is written as a stop comes back from its value, but for the sign of zero. -/
theorem stable_stop {bound : Double} (finite : ∃ x, bound = .finite x) :
    ∃ stop, Double.Alike bound stop ∧ Value.ofDouble bound = .ofDouble stop ∧
      (Value.ofDouble stop).toDouble? = some stop := by
  obtain ⟨x, rfl⟩ := finite
  obtain ⟨stop, comes, alike⟩ := Value.toDouble?_ofDouble_finite x
  have same := Value.ofDouble_alike alike
  exact ⟨stop, alike, same, by rwa [← same]⟩

/-- Stops that are admitted ascend, and they are handed on as they are written. -/
theorem stops_written {place : Place} {previous : Option Double} {items : List Value}
    {terms : List Term} (paired : items.length % 2 = 0)
    (compiled : stops context place previous (Node.ofItems items) = .ok terms)
    (before : ∀ below, previous = some below → ∃ x, below = .finite x) :
    ∃ knots, Ramp.Written context items knots ∧ Ramp.Stable knots ∧ Ramp.Ascending knots ∧
      terms = Ramp.pairs .literal knots ∧
      ∀ below, previous = some below → ∀ knot ∈ knots, below.lt knot.stop = true := by
  induction items using List.twoStepInduction generalizing place previous terms with
  | nil =>
      obtain rfl := pure_eq_ok.mp compiled
      exact ⟨[], .nil, by simp [Ramp.Stable], .nil, rfl, by simp⟩
  | singleton left => cases paired
  | cons_cons stop output rest ih _ =>
      have listed : Node.ofItems (stop :: output :: rest) =
          stop.argument :: output.argument :: Node.ofItems rest := by
        simp only [Node.ofItems_eq_map_argument, List.map_cons]
      rw [listed] at compiled
      obtain ⟨bound, chosen, others, written, outputCompiled, tail, rfl⟩ := stops_cons compiled
      have number := Argument.numberLiteral_eq_ok written
      have finite := Value.toDouble?_finite number
      obtain ⟨knots, restWritten, stable, ascending, rfl, above⟩ :=
        ih (by simp only [List.length_cons] at paired; omega) tail (by rintro below ⟨⟩; exact finite)
      obtain ⟨held, alike, same, comes⟩ := stable_stop finite
      have heldFinite := Value.toDouble?_finite comes
      have next (knot : Ramp.Knot Term) (member : knot ∈ knots) : held.lt knot.stop = true := by
        rw [← alike.lt_eq (.refl knot.stop)]
        exact above bound rfl knot member
      have allStable : Ramp.Stable (⟨held, chosen⟩ :: knots) := by
        intro knot member
        cases member with
        | head => exact comes
        | tail _ member => exact stable knot member
      have allAscending : Ramp.Ascending (⟨held, chosen⟩ :: knots) :=
        List.pairwise_cons.mpr ⟨next, ascending⟩
      refine ⟨⟨held, chosen⟩ :: knots, .pair number alike outputCompiled restWritten, allStable,
        allAscending, by rw [same]; rfl, fun below same => ?_⟩
      have low := before below same
      have admitted := above_of_stops_cons compiled written below same
      have first : below.lt held = true := by
        rw [alike.le_eq (.refl below), ← Bool.not_eq_true, Double.le_iff heldFinite low] at admitted
        rw [Double.lt_iff low heldFinite]
        omega
      exact Ramp.lt_of_ascending low allStable allAscending first

end Compiler

namespace Ramp

structure StepParts (context : Context) (items : List Value) (operand first : Term)
    (knots : List (Knot Term)) : Prop where
  written : ∃ input output rest, items = input :: output :: rest ∧
    input.argument.numberExpression ⟨Operator.step.name, 1⟩ context = .ok operand ∧
    output.argument.expression context = .ok first ∧ Written context rest knots
  stable : Stable knots
  ascending : Ascending knots

/--
An interpolation as it is written, with its input and its stops; its curve is handed on as a value,
in which the call reads a curve again.
-/
structure InterpolationParts (context : Context) (items : List Value) (named curve : Curve)
    (operand : Term) (knots : List (Knot Term)) : Prop where
  written : ∃ shape input rest, items = shape :: input :: rest ∧
    Curve.ofValue? shape = some named ∧
    input.argument.numberExpression ⟨Operator.interpolate.name, 2⟩ context = .ok operand ∧
    Written context rest knots
  again : Curve.ofValue? named.toValue = some curve
  stable : Stable knots
  ascending : Ascending knots
  occupied : knots ≠ []

end Ramp

namespace Compiler

variable {context : Context} {items : List Value} {term : Term}

/-- Two items of an expression are the arguments behind its operator. -/
theorem arguments_of_items {operator : Operator} {first second : Argument}
    (found : (Node.ofItems (.string operator.name :: items)).argument ⟨operator.name, 1⟩ =
      .ok first)
    (next : (Node.ofItems (.string operator.name :: items)).argument ⟨operator.name, 2⟩ =
      .ok second) :
    ∃ one other rest, items = one :: other :: rest ∧ first = one.argument ∧
      second = other.argument := by
  obtain ⟨one, here, rfl⟩ := Node.item_of_argument found
  obtain ⟨other, there, rfl⟩ := Node.item_of_argument next
  rcases items with _ | ⟨_, _ | ⟨_, rest⟩⟩
  · cases here
  · cases there
  · cases here
    cases there
    exact ⟨one, other, rest, rfl, rfl, rfl⟩

/-- A written step that compiles is tried on its parts. -/
theorem step_parts
    (compiled : (Value.array (.string Operator.step.name :: items)).compile context = .ok term) :
    ∃ operand first knots, Ramp.StepParts context.deeper items operand first knots ∧
      context.deeper.tryFold
        (Builtin.step.applied (operand :: first :: Ramp.pairs .literal knots)) = .ok term := by
  obtain ⟨_, ruled⟩ := Value.compile_headed_eq_ok compiled
  obtain ⟨_, paired, _⟩ := bind_eq_ok.mp ruled
  have even := Node.even_of_expectPairs paired
  obtain ⟨operand, first, others, argument, output, found, next, number, chosen, tail, tried⟩ :=
    step_eq_ok ruled
  obtain ⟨one, other, rest, rfl, rfl, rfl⟩ := arguments_of_items found next
  obtain ⟨knots, written, stable, ascending, rfl, _⟩ :=
    stops_written (by simpa [Node.length_ofItems] using even) tail (by simp)
  exact ⟨operand, first, knots, ⟨⟨one, other, rest, rfl, number, chosen, written⟩, stable,
    ascending⟩, tried⟩

/-- A written interpolation that compiles is tried on its parts. -/
theorem interpolation_parts
    (compiled : (Value.array (.string Operator.interpolate.name :: items)).compile context =
      .ok term) :
    ∃ named curve operand knots,
      Ramp.InterpolationParts context.deeper items named curve operand knots ∧
      context.deeper.tryFold (Builtin.interpolate.applied
        (.literal named.toValue :: operand :: Ramp.pairs .literal knots)) = .ok term := by
  obtain ⟨accepted, ruled⟩ := Value.compile_headed_eq_ok compiled
  obtain ⟨_, paired, _⟩ := bind_eq_ok.mp ruled
  have even := Node.even_of_expectPairs paired
  obtain ⟨named, operand, others, shape, argument, found, reads, next, number, tail, tried⟩ :=
    interpolate_eq_ok ruled
  obtain ⟨one, other, rest, rfl, rfl, rfl⟩ := arguments_of_items found next
  obtain ⟨knots, written, stable, ascending, rfl, _⟩ :=
    stops_written (by simpa [Node.length_ofItems] using even) tail (by simp)
  obtain ⟨curve, again⟩ := Curve.readable_toValue reads
  refine ⟨named, curve, operand, knots, ⟨⟨one, other, rest, rfl, reads, number, written⟩, again,
    stable, ascending, ?_⟩, tried⟩
  rintro rfl
  have long : 4 ≤ (one :: other :: rest).length := by
    simpa [Operator.arity, Operator.entry, Arity.accepts] using accepted
  cases written
  simp at long

end Compiler

/-! ## Outputs that compiled ramps take -/

/-- A call that folding was tried on evaluates to the answer for its evaluated arguments. -/
theorem Context.evaluate_tried {context : Context} (full : context.registry = {})
    (shallow : context.depth < context.options.maxDepth) {builtin : Builtin}
    {arguments : List Term} {term : Term}
    (tried : context.deeper.tryFold (builtin.applied arguments) = .ok term) (source : Source) :
    (context.evaluatorFor source).evaluate 0 term =
      builtin.call source (arguments.map ((context.evaluatorFor source).evaluate 1)) := by
  have within := Options.four_le_evaluationDepth (Nat.zero_lt_of_lt shallow)
  have registered : (context.evaluatorFor source).registry = {} := full
  rw [← evaluatorFor_deeper, evaluate_tryFold tried, evaluatorFor_deeper,
    Evaluator.evaluate_applied registered (Nat.lt_of_lt_of_le (by decide) within)]
  rfl

namespace Ramp

/-- The outputs that a ramp asks for, by their positions, for the outcomes of its arguments. -/
def outputsAsked? (builtin : Builtin) (first : Nat) (outcomes : List Outcome) :
    Option (List Nat) :=
  (builtin.inquiry? outcomes.length).map fun inquiry =>
    Inquiry.outputs first (inquiry.asked outcomes)

theorem map_evaluate_pairs (evaluator : Evaluator) (depth : Nat) (knots : List (Knot Term)) :
    (pairs .literal knots).map (evaluator.evaluate depth) =
      pairs .ok (knots.map (Knot.map (evaluator.evaluate depth))) :=
  map_pairs _ (fun value => by rw [Evaluator.evaluate]) knots

/-- An operand that evaluates to a number is read as that number. -/
theorem number_of_evaluate {outcome : Outcome} {value : Value} {x : Double}
    (evaluates : outcome = .ok value) (number : value.toDouble? = some x) (function : String)
    (position : Nat) : Operand.number function position outcome = .ok x :=
  Operand.number_eq_ok.mpr ⟨value, evaluates, number⟩

variable {context : Context} {items : List Value} {term operand : Term} {source : Source}
  {value : Value} {x : Double}

/-- A step evaluates to the output that is selected, and asks for it alone. -/
theorem StepParts.answers {first : Term} {knots : List (Knot Term)}
    (parts : StepParts context.deeper items operand first knots) (full : context.registry = {})
    (shallow : context.depth < context.options.maxDepth)
    (tried : context.deeper.tryFold
      (Builtin.step.applied (operand :: first :: pairs .literal knots)) = .ok term)
    (evaluates : (context.evaluatorFor source).evaluate 1 operand = .ok value)
    (number : value.toDouble? = some x) :
    ∃ number output, Selects x first knots number output ∧
      (context.evaluatorFor source).evaluate 0 term =
        (context.evaluatorFor source).evaluate 1 output ∧
      outputsAsked? .step 1 ((operand :: first :: pairs .literal knots).map
        ((context.evaluatorFor source).evaluate 1)) = some [2 * number + 1] := by
  have given := congrArg (fun rest => (context.evaluatorFor source).evaluate 1 operand ::
    (context.evaluatorFor source).evaluate 1 first :: rest)
    (map_evaluate_pairs (context.evaluatorFor source) 1 knots)
  obtain ⟨count, _, selects, comes, asked⟩ := step_selects source
    (parts.stable.map ((context.evaluatorFor source).evaluate 1))
    (parts.ascending.map _) (number_of_evaluate evaluates number _ _) given
  obtain ⟨output, selected, rfl⟩ := selects.of_map
  exact ⟨count, output, selected, (Context.evaluate_tried full shallow tried source).trans comes,
    congrArg some asked⟩

/-- An interpolation evaluates to the answer where its input stands, and asks for no more. -/
theorem InterpolationParts.answers {named curve : Curve} {knots : List (Knot Term)}
    (parts : InterpolationParts context.deeper items named curve operand knots)
    (full : context.registry = {}) (shallow : context.depth < context.options.maxDepth)
    (tried : context.deeper.tryFold (Builtin.interpolate.applied
      (.literal named.toValue :: operand :: pairs .literal knots)) = .ok term)
    (evaluates : (context.evaluatorFor source).evaluate 1 operand = .ok value)
    (number : value.toDouble? = some x) :
    ∃ location, Located x knots location ∧
      (context.evaluatorFor source).evaluate 0 term =
        (location.map ((context.evaluatorFor source).evaluate 1)).answer curve x ∧
      outputsAsked? .interpolate 3
        ((.literal named.toValue :: operand :: pairs .literal knots).map
          ((context.evaluatorFor source).evaluate 1)) =
        some ((location.map ((context.evaluatorFor source).evaluate 1)).outputs position) := by
  have finite := Value.toDouble?_finite number
  have stable := parts.stable.map ((context.evaluatorFor source).evaluate 1)
  have occupied : knots.map (Knot.map ((context.evaluatorFor source).evaluate 1)) ≠ [] := by
    simpa using parts.occupied
  have names : curveOf ((context.evaluatorFor source).evaluate 1 (.literal named.toValue)) =
      .ok curve := by
    rw [Evaluator.evaluate, curveOf]
    simp [parts.again, bind, Except.bind, pure, Except.pure]
  have given := congrArg (fun rest =>
    (context.evaluatorFor source).evaluate 1 (.literal named.toValue) ::
      (context.evaluatorFor source).evaluate 1 operand :: rest)
    (map_evaluate_pairs (context.evaluatorFor source) 1 knots)
  have read := number_of_evaluate evaluates number Builtin.interpolate.name 1
  obtain ⟨_, found⟩ := locate?_isSome finite stable occupied
  rw [locate?_map] at found
  obtain ⟨location, here, rfl⟩ := Option.map_eq_some_iff.mp found
  rw [← locate?_map] at found
  refine ⟨location, located_of_locate? finite parts.stable parts.ascending here, ?_, ?_⟩
  · rw [Context.evaluate_tried full shallow tried]
    exact (congrArg (Builtin.interpolate.call source) given).trans
      (call_interpolate source stable occupied names read found)
  · exact congrArg some (outputs_interpolate stable names read given found)

end Ramp

/--
Ramps select the right segment.  Every written step or interpolation that compiles has ascending
stops.  Where its input evaluates to a number, a step evaluates to the output of the last stop
that is not above it, or to the first output if there is none; an interpolation evaluates to the
output of the first or last stop beyond them, and between them to the blend of the outputs at the
ends of the only segment around the input, by a factor from these two stops.  No other output is
asked for.  This holds whether the ramp was folded or not.
-/
theorem ramps_select_segment {context : Context} (full : context.registry = {})
    {items : List Value} {term : Term} :
    ((Value.array (.string Operator.step.name :: items)).compile context = .ok term →
      ∃ operand first knots, Ramp.StepParts context.deeper items operand first knots ∧
        context.deeper.tryFold
          (Builtin.step.applied (operand :: first :: Ramp.pairs .literal knots)) = .ok term ∧
        ∀ (source : Source) (value : Value) (x : Double),
          (context.evaluatorFor source).evaluate 1 operand = .ok value →
          value.toDouble? = some x →
          ∃ number output, Ramp.Selects x first knots number output ∧
            (context.evaluatorFor source).evaluate 0 term =
              (context.evaluatorFor source).evaluate 1 output ∧
            Ramp.outputsAsked? .step 1 ((operand :: first :: Ramp.pairs .literal knots).map
              ((context.evaluatorFor source).evaluate 1)) = some [2 * number + 1]) ∧
    ((Value.array (.string Operator.interpolate.name :: items)).compile context = .ok term →
      ∃ named curve operand knots,
        Ramp.InterpolationParts context.deeper items named curve operand knots ∧
        context.deeper.tryFold (Builtin.interpolate.applied
          (.literal named.toValue :: operand :: Ramp.pairs .literal knots)) = .ok term ∧
        ∀ (source : Source) (value : Value) (x : Double),
          (context.evaluatorFor source).evaluate 1 operand = .ok value →
          value.toDouble? = some x →
          ∃ location, Ramp.Located x knots location ∧
            (context.evaluatorFor source).evaluate 0 term =
              (location.map ((context.evaluatorFor source).evaluate 1)).answer curve x ∧
            Ramp.outputsAsked? .interpolate 3
              ((.literal named.toValue :: operand :: Ramp.pairs .literal knots).map
                ((context.evaluatorFor source).evaluate 1)) =
              some ((location.map ((context.evaluatorFor source).evaluate 1)).outputs
                Ramp.position)) := by
  constructor
  · intro compiled
    have shallow := Value.depth_lt_of_compile compiled
    obtain ⟨operand, first, knots, parts, tried⟩ := Compiler.step_parts compiled
    exact ⟨operand, first, knots, parts, tried, fun _ _ _ => parts.answers full shallow tried⟩
  · intro compiled
    have shallow := Value.depth_lt_of_compile compiled
    obtain ⟨named, curve, operand, knots, parts, tried⟩ := Compiler.interpolation_parts compiled
    exact ⟨named, curve, operand, knots, parts, tried, fun _ _ _ => parts.answers full shallow tried⟩

def Value.whole (number : Nat) : Value := (Number.ofInt? number).elim .null .number

def Source.ofTwo : Source := .scope { properties := [("x", .whole 2)] } []

def Value.getX : Value := .array [.string "get", .string "x"]

def Term.numberX : Term := Builtin.toNumber.applied [.property "x"]

theorem evaluate_numberX :
    (Context.evaluatorFor {} .ofTwo).evaluate 1 .numberX = .ok (.ofDouble (.ofInt 2)) := rfl

theorem toDouble?_two : (Value.ofDouble (.ofInt 2)).toDouble? = some (.ofInt 2) := by
  decide +kernel

def Value.stepX : List Value :=
  [.getX, .string "low", .whole 0, .string "high"]

def Value.interpolateX : List Value :=
  [.array [.string "linear"], .getX, .whole 0, .whole 10, .whole 4, .whole 30]

/-- Both ramps compile, and they select by a property that is two. -/
theorem ramps_select_segment_case :
    (∃ (term first : Term) (knots : List (Ramp.Knot Term)) (number : Nat) (output : Term),
      (Value.array (.string "step" :: Value.stepX)).compile {} = .ok term ∧
        Ramp.Selects (.ofInt 2) first knots number output ∧
        (Context.evaluatorFor {} .ofTwo).evaluate 0 term =
          (Context.evaluatorFor {} .ofTwo).evaluate 1 output) ∧
    ∃ (term : Term) (curve : Curve) (knots : List (Ramp.Knot Term))
        (location : Ramp.Location Term),
      (Value.array (.string "interpolate" :: Value.interpolateX)).compile {} = .ok term ∧
        Ramp.Located (.ofInt 2) knots location ∧
        (Context.evaluatorFor {} .ofTwo).evaluate 0 term =
          (location.map ((Context.evaluatorFor {} .ofTwo).evaluate 1)).answer curve (.ofInt 2) := by
  constructor
  · have compiles : ((Value.array (.string "step" :: Value.stepX)).compile {}).isOk = true := by
      decide +kernel
    obtain ⟨term, compiled⟩ := eq_ok_of_isOk compiles
    obtain ⟨operand, first, knots, parts, _, answers⟩ :=
      (@ramps_select_segment {} rfl Value.stepX term).1 compiled
    obtain ⟨_, _, _, same, read, _⟩ := parts.written
    cases same
    obtain rfl : Term.numberX = operand := Except.ok.inj read
    obtain ⟨number, output, selects, comes, _⟩ :=
      answers .ofTwo _ _ evaluate_numberX toDouble?_two
    exact ⟨term, first, knots, number, output, compiled, selects, comes⟩
  · have compiles : ((Value.array (.string "interpolate" :: Value.interpolateX)).compile {}).isOk =
        true := by
      decide +kernel
    obtain ⟨term, compiled⟩ := eq_ok_of_isOk compiles
    obtain ⟨_, curve, operand, knots, parts, _, answers⟩ :=
      (@ramps_select_segment {} rfl Value.interpolateX term).2 compiled
    obtain ⟨_, _, _, same, _, read, _⟩ := parts.written
    cases same
    obtain rfl : Term.numberX = operand := Except.ok.inj read
    obtain ⟨location, located, comes, _⟩ := answers .ofTwo _ _ evaluate_numberX toDouble?_two
    exact ⟨term, curve, knots, location, compiled, located, comes⟩

end MapStyle
