import MapStyle.Proofs.Agreement
import MapStyle.Proofs.Builtin.Answer

/-!
# Failures of built-in functions

A function fails as one of its arguments does, as the source does when it is asked, or with a
complaint about the data.  Two complaints stand apart, because calls of the right form never meet
them: a zoom level is refused in a reference system other than web mercator, and an interpolation
along what names no curve.
-/

namespace MapStyle

variable {allowed : Error → Prop}

structure Source.Confined (allowed : Error → Prop) (source : Source) : Prop where
  property : ∀ name, MapStyle.Confined allowed (source.property name)
  featureId : MapStyle.Confined allowed source.featureId
  geometryType : MapStyle.Confined allowed source.geometryType
  properties : MapStyle.Confined allowed source.properties
  environment : ∀ name, MapStyle.Confined allowed (source.environment name)

/-- Once there is a feature, every datum is known. -/
theorem Source.confined_scope (feature : Feature) (environment : Entries) :
    (Source.scope feature environment).Confined allowed :=
  ⟨fun _ => .ok _, .ok _, .ok _, .ok _, fun _ => .ok _⟩

/-- While nothing is known, each datum is left open. -/
theorem Source.confined_constants (leavesOpen : ∀ datum, allowed (.unresolved datum)) :
    Source.constants.Confined allowed :=
  ⟨fun _ => .error (leavesOpen _), .error (leavesOpen _), .error (leavesOpen _),
    .error (leavesOpen _), fun _ => .error (leavesOpen _)⟩

/-! ## Functions that make no complaint of their own -/

namespace Decision

theorem equalTo_confined {left right : Outcome} (leftConfined : Confined allowed left)
    (rightConfined : Confined allowed right) : Confined allowed (equalTo left right) := by
  apply leftConfined.bind
  intro a _
  exact rightConfined.bind fun _ _ => .ok _

theorem all_confined {arguments : List Outcome}
    (each : ∀ outcome ∈ arguments, Confined allowed outcome) : Confined allowed (all arguments) := by
  induction arguments with
  | nil => exact .ok _
  | cons argument rest ih =>
      apply (each argument List.mem_cons_self).bind
      intro value _
      split
      · exact ih fun outcome member => each outcome (List.mem_cons_of_mem _ member)
      · exact .ok _

theorem any_confined {arguments : List Outcome}
    (each : ∀ outcome ∈ arguments, Confined allowed outcome) : Confined allowed (any arguments) := by
  induction arguments with
  | nil => exact .ok _
  | cons argument rest ih =>
      apply (each argument List.mem_cons_self).bind
      intro value _
      split
      · exact .ok _
      · exact ih fun outcome member => each outcome (List.mem_cons_of_mem _ member)

theorem coalesce_confined {arguments : List Outcome}
    (each : ∀ outcome ∈ arguments, Confined allowed outcome) :
    Confined allowed (coalesce arguments) := by
  induction arguments with
  | nil => exact .ok _
  | cons argument rest ih =>
      apply (each argument List.mem_cons_self).bind
      intro value _
      split
      · exact ih fun outcome member => each outcome (List.mem_cons_of_mem _ member)
      · exact .ok _

end Decision

theorem Conversion.concatenation_confined {arguments : List Outcome}
    (each : ∀ outcome ∈ arguments, Confined allowed outcome) :
    Confined allowed (concatenation arguments) := by
  induction arguments with
  | nil => exact .ok _
  | cons argument rest ih =>
      apply (each argument List.mem_cons_self).bind
      intro value _
      exact (ih fun outcome member => each outcome (List.mem_cons_of_mem _ member)).bind
        fun _ _ => .ok _

namespace Ramp

theorem blendItems_confined {position : Nat} {t : Double} {items : List Value}
    (each : ∀ item ∈ items, ∀ other, Confined allowed (blend position t item other))
    (others : List Value) : Confined allowed (blendItems position t items others) := by
  induction items generalizing others with
  | nil => exact .ok _
  | cons item items ih =>
      cases others with
      | nil => exact .ok _
      | cons other others =>
          unfold blendItems
          apply (each item List.mem_cons_self other).bind
          intro first _
          have later := ih (fun item member => each item (List.mem_cons_of_mem _ member)) others
          exact later.bind fun _ _ => .ok _

/-- The ends of a segment are stops of the ramp. -/
theorem mem_of_segment? {α : Type} {input : Double} {index : Nat} {found : List (Knot α)}
    {segment : Segment α} (inside : segment? input index found = some segment) :
    segment.lower ∈ found ∧ segment.upper ∈ found := by
  induction index, found using segment?.induct input with
  | case1 index lower upper rest below =>
      rw [segment?, if_pos below] at inside
      obtain rfl := Option.some.inj inside
      simp
  | case2 index lower upper rest above ih =>
      rw [segment?, if_neg above] at inside
      obtain ⟨lowerMember, upperMember⟩ := ih inside
      exact ⟨List.mem_cons_of_mem _ lowerMember, List.mem_cons_of_mem _ upperMember⟩
  | case3 index found short =>
      rw [segment?] at inside
      · cases inside
      · exact short

end Ramp

/-! ## Operands -/

section

variable (data : ∀ cause, cause.blamesOperand = true → allowed cause)
include data

namespace Operand

theorem number_confined {function : String} {position : Nat} {outcome : Outcome}
    (confined : Confined allowed outcome) : Confined allowed (number function position outcome) := by
  apply confined.bind
  intro value _
  cases value.toDouble? with
  | some x => exact .ok x
  | none => exact .error (data _ rfl)

theorem text_confined {function : String} {position : Nat} {outcome : Outcome}
    (confined : Confined allowed outcome) : Confined allowed (text function position outcome) := by
  apply confined.bind
  intro value _
  cases value.toText? with
  | some content => exact .ok content
  | none => exact .error (data _ rfl)

theorem numbers_confined {function : String} {position : Nat} {outcomes : List Outcome}
    (each : ∀ outcome ∈ outcomes, Confined allowed outcome) :
    Confined allowed (numbers function position outcomes) := by
  induction outcomes generalizing position with
  | nil => exact .ok _
  | cons first rest ih =>
      apply (number_confined data (each first List.mem_cons_self)).bind
      intro x _
      apply (ih fun outcome member => each outcome (List.mem_cons_of_mem _ member)).bind
      intro others _
      exact .ok _

end Operand

/-! ## Arithmetic -/

namespace Arithmetic

theorem unary_confined (function : UnaryFunction) {argument : Outcome}
    (confined : Confined allowed argument) : Confined allowed (unary function argument) :=
  (Operand.number_confined data confined).bind fun _ _ => .ok _

theorem binary_confined (function : BinaryFunction) {left right : Outcome}
    (leftConfined : Confined allowed left) (rightConfined : Confined allowed right) :
    Confined allowed (binary function left right) := by
  apply (Operand.number_confined data leftConfined).bind
  intro x _
  exact (Operand.number_confined data rightConfined).bind fun _ _ => .ok _

theorem list_confined (function : ListFunction) {arguments : List Outcome}
    (each : ∀ outcome ∈ arguments, Confined allowed outcome) :
    Confined allowed (list function arguments) :=
  (Operand.numbers_confined data each).bind fun _ _ => .ok _

end Arithmetic

/-! ## Decisions -/

theorem Label.check_confined (function : String) (position : Nat) (label : Value) :
    Confined allowed (Label.check function position label) := by
  unfold Label.check
  split
  · exact .ok _
  · exact .ok _
  · split
    · exact .error (data _ rfl)
    · exact .ok _
  · exact .error (data _ rfl)

theorem Label.checkInput_confined (input : Value) :
    Confined allowed (Label.checkInput input) := by
  unfold Label.checkInput
  split
  · exact .ok _
  · exact .error (data _ rfl)

namespace Decision

theorem not_confined {argument : Outcome} (confined : Confined allowed argument) :
    Confined allowed (Decision.not argument) := by
  apply confined.bind
  intro value _
  cases value with
  | boolean flag => exact .ok _
  | _ => exact .error (data _ rfl)

theorem orderOf_confined (function : String) (left right : Value) :
    Confined allowed (orderOf function left right) := by
  unfold orderOf
  split
  · exact .ok _
  · exact .ok _
  · exact .error (data _ rfl)
  · exact .error (data _ rfl)
  · exact .error (data _ rfl)

theorem compare_confined (order : Comparison) {left right : Outcome}
    (leftConfined : Confined allowed left) (rightConfined : Confined allowed right) :
    Confined allowed (Decision.compare order left right) := by
  apply leftConfined.bind
  intro a _
  apply rightConfined.bind
  intro b _
  exact (orderOf_confined data _ a b).bind fun _ _ => .ok _

theorem case_confined {arguments : List Outcome}
    (each : ∀ outcome ∈ arguments, Confined allowed outcome) :
    Confined allowed (case arguments) := by
  induction arguments using case.induct with
  | case1 condition output rest ih =>
      apply (each condition (by simp)).bind
      intro value _
      split
      · exact each output (by simp)
      · exact ih fun outcome member =>
          each outcome (List.mem_cons_of_mem _ (List.mem_cons_of_mem _ member))
  | case2 default => exact each default (by simp)
  | case3 => exact .error (data _ rfl)

theorem selectFrom_confined (input : Value) (position : Nat) {arguments : List Outcome}
    (each : ∀ outcome ∈ arguments, Confined allowed outcome) :
    Confined allowed (selectFrom input position arguments) := by
  induction position, arguments using selectFrom.induct with
  | case1 position label output rest ih =>
      apply (each label (by simp)).bind
      intro held _
      have matched : Confined allowed
          (Label.matchesInput Builtin.select.name position held input) :=
        (Label.check_confined data _ _ _).bind fun _ _ => .ok _
      apply matched.bind
      intro found _
      split
      · exact each output (by simp)
      · exact ih fun outcome member =>
          each outcome (List.mem_cons_of_mem _ (List.mem_cons_of_mem _ member))
  | case2 position default => exact each default (by simp)
  | case3 position => exact .error (data _ rfl)

theorem select_confined {input : Outcome} {arguments : List Outcome}
    (inputConfined : Confined allowed input)
    (each : ∀ outcome ∈ arguments, Confined allowed outcome) :
    Confined allowed (select input arguments) := by
  apply inputConfined.bind
  intro value _
  apply (Label.checkInput_confined data value).bind
  intro _ _
  exact selectFrom_confined data value 1 each

end Decision

/-! ## Texts and conversions -/

namespace Conversion

theorem lengthOf_confined (function : String) (value : Value) :
    Confined allowed (lengthOf function value) := by
  cases value with
  | string content => exact .ok _
  | array items => exact .ok _
  | _ => exact .error (data _ rfl)

theorem listSize_confined {argument : Outcome} (confined : Confined allowed argument) :
    Confined allowed (listSize argument) := by
  apply confined.bind
  intro value _
  cases value with
  | array items => exact .ok _
  | _ => exact .error (data _ rfl)

theorem textLength_confined {argument : Outcome} (confined : Confined allowed argument) :
    Confined allowed (textLength argument) :=
  (Operand.text_confined data confined).bind fun _ _ => .ok _

theorem length_confined {argument : Outcome} (confined : Confined allowed argument) :
    Confined allowed (length argument) :=
  confined.bind fun value _ => lengthOf_confined data _ value

theorem firstOf_confined (function : String) {expected : String} (convert? : Value → Option Value)
    (seen : Option Kind) {arguments : List Outcome}
    (operand : (expected == "an interpolation type") = false)
    (each : ∀ outcome ∈ arguments, Confined allowed outcome) :
    Confined allowed (firstOf function expected convert? seen arguments) := by
  induction arguments generalizing seen with
  | nil => exact .error (data _ (Error.blamesOperand_of_expected operand))
  | cons argument rest ih =>
      apply (each argument List.mem_cons_self).bind
      intro value _
      cases convert? value with
      | some result => exact .ok _
      | none => exact ih _ fun outcome member => each outcome (List.mem_cons_of_mem _ member)

theorem toHex_confined {argument : Outcome} (confined : Confined allowed argument) :
    Confined allowed (toHex argument) :=
  (Operand.number_confined data confined).bind fun _ _ => .ok _

theorem lowercase_confined {argument : Outcome} (confined : Confined allowed argument) :
    Confined allowed (lowercase argument) :=
  (Operand.text_confined data confined).bind fun _ _ => .ok _

theorem uppercase_confined {argument : Outcome} (confined : Confined allowed argument) :
    Confined allowed (uppercase argument) :=
  (Operand.text_confined data confined).bind fun _ _ => .ok _

end Conversion

/-! ## Reading -/

namespace Reading

theorem hasProperty_confined {source : Source} (known : source.Confined allowed)
    {argument : Outcome} (confined : Confined allowed argument) :
    Confined allowed (hasProperty source argument) := by
  apply (Operand.text_confined data confined).bind
  intro name _
  exact (known.property name).bind fun _ _ => .ok _

theorem environment_confined {source : Source} (known : source.Confined allowed)
    {argument : Outcome} (confined : Confined allowed argument) :
    Confined allowed (environment source argument) :=
  (Operand.text_confined data confined).bind fun name _ => known.environment name

/-- In web mercator a zoom level is refused only for want of a scale. -/
theorem zoomLevel_confined {scale : Outcome} (confined : Confined allowed scale) :
    Confined allowed (zoomLevel scale (.ok (.string webMercator))) := by
  apply (Operand.number_confined data confined).bind
  intro denominator _
  exact .ok _

/-- Elsewhere it is refused for the reference system. -/
theorem zoomLevel_confined_of_notSupported (elsewhere : ∀ what, allowed (.notSupported what))
    {scale system : Outcome} (scaleConfined : Confined allowed scale)
    (systemConfined : Confined allowed system) : Confined allowed (zoomLevel scale system) := by
  apply (Operand.number_confined data scaleConfined).bind
  intro denominator _
  apply (Operand.text_confined data systemConfined).bind
  intro name _
  split
  · exact .ok _
  · exact .error (elsewhere _)

end Reading

/-! ## Ramps -/

namespace Ramp

theorem stepFrom_confined (input : Double) {current : Outcome} (position : Nat)
    {arguments : List Outcome} (currentConfined : Confined allowed current)
    (each : ∀ outcome ∈ arguments, Confined allowed outcome) :
    Confined allowed (stepFrom input current position arguments) := by
  induction current, position, arguments using stepFrom.induct with
  | case1 current position stop output rest ih =>
      apply (Operand.number_confined data (each stop (by simp))).bind
      intro bound _
      split
      · exact currentConfined
      · exact ih (each output (by simp)) fun outcome member =>
          each outcome (List.mem_cons_of_mem _ (List.mem_cons_of_mem _ member))
  | case2 current position arguments short =>
      rw [stepFrom]
      · exact currentConfined
      · exact short

theorem step_confined {input first : Outcome} {arguments : List Outcome}
    (inputConfined : Confined allowed input) (firstConfined : Confined allowed first)
    (each : ∀ outcome ∈ arguments, Confined allowed outcome) :
    Confined allowed (step input first arguments) :=
  (Operand.number_confined data inputConfined).bind fun x _ =>
    stepFrom_confined data x 2 firstConfined each

omit data in
/-- Two values that do not blend are values of the wrong classes. -/
theorem blend_confined {position : Nat}
    (mismatched : ∀ found : Kind, allowed
      (.invalidArgument "interpolate" position "a number or array of numbers" found.name))
    (t : Double) (a b : Value) : Confined allowed (blend position t a b) := by
  induction a generalizing b with
  | number held =>
      cases b with
      | number other =>
          unfold blend
          exact .ok _
      | _ => simpa [blend, mismatch] using Confined.error (mismatched _)
  | array items ih =>
      cases b with
      | array others =>
          unfold blend
          split
          · exact (blendItems_confined ih others).map _
          · exact .error (mismatched _)
      | _ => simpa [blend, mismatch] using Confined.error (mismatched _)
  | _ => simpa [blend, mismatch] using Confined.error (mismatched _)

theorem knots_confined (position : Nat) {arguments : List Outcome}
    (each : ∀ outcome ∈ arguments, Confined allowed outcome) :
    Confined allowed (knots position arguments) := by
  induction position, arguments using knots.induct with
  | case1 position stop output rest ih =>
      apply (Operand.number_confined data (each stop (by simp))).bind
      intro bound _
      have later := ih fun outcome member =>
        each outcome (List.mem_cons_of_mem _ (List.mem_cons_of_mem _ member))
      exact later.bind fun _ _ => .ok _
  | case2 position arguments short =>
      rw [knots]
      · exact .ok _
      · exact short

theorem outputAt?_confined {curve : Curve} {input : Double} {found : List (Knot Outcome)}
    (each : ∀ knot ∈ found, Confined allowed knot.output) {outcome : Outcome}
    (yields : outputAt? curve input found = some outcome) : Confined allowed outcome := by
  unfold outputAt? at yields
  split at yields
  · rename_i first last headed ended
    split at yields
    · obtain rfl := Option.some.inj yields
      exact each first (List.mem_of_mem_head? headed)
    · split at yields
      · obtain rfl := Option.some.inj yields
        exact each last (List.mem_of_getLast? ended)
      · obtain ⟨segment, inside, rfl⟩ := Option.map_eq_some_iff.mp yields
        obtain ⟨lower, upper⟩ := mem_of_segment? inside
        apply (each _ lower).bind
        intro a _
        apply (each _ upper).bind
        intro b _
        exact blend_confined (fun _ => data _ rfl) _ a b
  · cases yields

/-- The argument names a curve, or complaints about what names none are allowed. -/
def NamesCurve (allowed : Error → Prop) (argument : Outcome) : Prop :=
  (∃ shape curve, argument = .ok shape ∧ Curve.ofValue? shape = some curve) ∨
    ∀ cause : Error, cause.blamesCurve = true → allowed cause

omit data in
theorem curveOf_confined {argument : Outcome} (confined : Confined allowed argument)
    (named : NamesCurve allowed argument) : Confined allowed (curveOf argument) := by
  rcases named with ⟨shape, curve, rfl, reads⟩ | complaint
  · have found : curveOf (.ok shape) = .ok curve := bind_eq_ok.mpr ⟨shape, rfl, by rw [reads]; rfl⟩
    rw [found]
    exact .ok curve
  · apply confined.bind
    intro value _
    cases Curve.ofValue? value with
    | some curve => exact .ok _
    | none => exact .error (complaint _ rfl)

theorem readParts_confined {curve input : Outcome} {arguments : List Outcome}
    (curveConfined : Confined allowed curve) (named : NamesCurve allowed curve)
    (inputConfined : Confined allowed input)
    (each : ∀ outcome ∈ arguments, Confined allowed outcome) :
    Confined allowed (readParts curve input arguments) := by
  apply (curveOf_confined curveConfined named).bind
  intro shape _
  apply (Operand.number_confined data inputConfined).bind
  intro x _
  exact (knots_confined data 2 each).bind fun _ _ => .ok _

theorem interpolate?_confined {curve input : Outcome} {arguments : List Outcome}
    (curveConfined : Confined allowed curve) (named : NamesCurve allowed curve)
    (inputConfined : Confined allowed input)
    (each : ∀ outcome ∈ arguments, Confined allowed outcome) {outcome : Outcome}
    (yields : interpolate? curve input arguments = some outcome) : Confined allowed outcome := by
  have parts := readParts_confined data curveConfined named inputConfined each
  rw [interpolate?_eq_readParts] at yields
  split at yields
  · rename_i shape x stops read
    obtain ⟨_, _, read⟩ := bind_eq_ok.mp read
    obtain ⟨_, _, read⟩ := bind_eq_ok.mp read
    obtain ⟨found, read, same⟩ := bind_eq_ok.mp read
    cases same
    exact outputAt?_confined data
      (fun knot member => each knot.output (mem_of_knots read knot member)) yields
  · rename_i cause failed
    obtain rfl := Option.some.inj yields
    exact .error (parts cause failed)

end Ramp

/-! ## Calls -/

namespace Builtin

/--
A call in which a zoom level, if it is one, is asked for in a system that is supported, and an
interpolation, if it is one, follows a curve; or else the complaints about these are allowed.
-/
structure Supported (allowed : Error → Prop) (builtin : Builtin) (arguments : List Outcome) :
    Prop where
  system : builtin = .zoomLevel →
    (∃ scale, arguments = [scale, .ok (.string webMercator)]) ∨ ∀ what, allowed (.notSupported what)
  curve : builtin = .interpolate → ∀ argument, arguments.head? = some argument →
    Ramp.NamesCurve allowed argument

/-- Where the rule of a function applies, the call is confined if its arguments are. -/
theorem answer_confined {source : Source} (known : source.Confined allowed) {builtin : Builtin}
    {arguments : List Outcome} (each : ∀ outcome ∈ arguments, Confined allowed outcome)
    (supported : builtin.Supported allowed arguments) {outcome : Outcome}
    (applies : (builtin.rule source).answer? arguments = some outcome) :
    Confined allowed outcome := by
  cases builtin with
  | not =>
      obtain ⟨argument, rfl, rfl⟩ := Rule.answer?_one applies
      exact Decision.not_confined data (each argument (by simp))
  | compare order =>
      obtain ⟨left, right, rfl, rfl⟩ := Rule.answer?_two applies
      exact Decision.compare_confined data order (each left (by simp)) (each right (by simp))
  | equalTo =>
      obtain ⟨left, right, rfl, rfl⟩ := Rule.answer?_two applies
      exact Decision.equalTo_confined (each left (by simp)) (each right (by simp))
  | all =>
      obtain rfl := Option.some.inj applies
      exact Decision.all_confined each
  | any =>
      obtain rfl := Option.some.inj applies
      exact Decision.any_confined each
  | case =>
      obtain rfl := Option.some.inj applies
      exact Decision.case_confined data each
  | coalesce =>
      obtain rfl := Option.some.inj applies
      exact Decision.coalesce_confined each
  | select =>
      obtain ⟨input, rest, rfl, rfl⟩ := Rule.answer?_oneAndSome applies
      exact Decision.select_confined data (each input (by simp))
        fun outcome member => each outcome (List.mem_cons_of_mem _ member)
  | listSize =>
      obtain ⟨argument, rfl, rfl⟩ := Rule.answer?_one applies
      exact Conversion.listSize_confined data (each argument (by simp))
  | textLength =>
      obtain ⟨argument, rfl, rfl⟩ := Rule.answer?_one applies
      exact Conversion.textLength_confined data (each argument (by simp))
  | length =>
      obtain ⟨argument, rfl, rfl⟩ := Rule.answer?_one applies
      exact Conversion.length_confined data (each argument (by simp))
  | hasProperty =>
      obtain ⟨argument, rfl, rfl⟩ := Rule.answer?_one applies
      exact Reading.hasProperty_confined data known (each argument (by simp))
  | toNumber =>
      obtain rfl := Option.some.inj applies
      exact Conversion.firstOf_confined data _ _ _ rfl each
  | toArray =>
      obtain rfl := Option.some.inj applies
      exact Conversion.firstOf_confined data _ _ _ rfl each
  | toHex =>
      obtain ⟨argument, rfl, rfl⟩ := Rule.answer?_one applies
      exact Conversion.toHex_confined data (each argument (by simp))
  | unary function =>
      obtain ⟨argument, rfl, rfl⟩ := Rule.answer?_one applies
      exact Arithmetic.unary_confined data function (each argument (by simp))
  | binary function =>
      obtain ⟨left, right, rfl, rfl⟩ := Rule.answer?_two applies
      exact Arithmetic.binary_confined data function (each left (by simp)) (each right (by simp))
  | list function =>
      obtain rfl := Option.some.inj applies
      exact Arithmetic.list_confined data function each
  | concatenate =>
      obtain rfl := Option.some.inj applies
      exact (Conversion.concatenation_confined each).map _
  | lowercase =>
      obtain ⟨argument, rfl, rfl⟩ := Rule.answer?_one applies
      exact Conversion.lowercase_confined data (each argument (by simp))
  | uppercase =>
      obtain ⟨argument, rfl, rfl⟩ := Rule.answer?_one applies
      exact Conversion.uppercase_confined data (each argument (by simp))
  | geometryType =>
      obtain rfl := Rule.answer?_none applies
      exact known.geometryType
  | featureId =>
      obtain rfl := Rule.answer?_none applies
      exact known.featureId
  | properties =>
      obtain rfl := Rule.answer?_none applies
      exact known.properties
  | environment =>
      obtain ⟨argument, rfl, rfl⟩ := Rule.answer?_one applies
      exact Reading.environment_confined data known (each argument (by simp))
  | zoomLevel =>
      obtain ⟨scale, system, rfl, rfl⟩ := Rule.answer?_two applies
      rcases supported.system rfl with ⟨_, same⟩ | elsewhere
      · cases same
        exact Reading.zoomLevel_confined data (each scale (by simp))
      · exact Reading.zoomLevel_confined_of_notSupported data elsewhere (each scale (by simp))
          (each system (by simp))
  | interpolate =>
      obtain ⟨curve, input, rest, rfl, found⟩ := Rule.answer?_twoAndSome applies
      exact Ramp.interpolate?_confined data (each curve (by simp)) (supported.curve rfl curve rfl)
        (each input (by simp))
        (fun outcome member =>
          each outcome (List.mem_cons_of_mem _ (List.mem_cons_of_mem _ member))) found
  | step =>
      obtain ⟨input, first, rest, rfl, reached⟩ := Rule.answer?_twoAndSome applies
      obtain rfl := Option.some.inj reached
      exact Ramp.step_confined data (each input (by simp)) (each first (by simp))
        fun outcome member => each outcome (List.mem_cons_of_mem _ (List.mem_cons_of_mem _ member))

/-- A call is confined if its arguments are, unless their number may be refused. -/
theorem call_confined {source : Source} (known : source.Confined allowed) {builtin : Builtin}
    {arguments : List Outcome} (each : ∀ outcome ∈ arguments, Confined allowed outcome)
    (supported : builtin.Supported allowed arguments)
    (counted : builtin.arity.accepts arguments.length = true ∨
      ∀ name accepted count, allowed (.argumentCount name accepted count)) :
    Confined allowed (builtin.call source arguments) := by
  unfold call
  dsimp only
  split
  · rename_i accepted
    obtain ⟨outcome, applies⟩ := Option.isSome_iff_exists.mp (answer?_isSome source accepted)
    rw [call?_eq_rule, applies]
    exact answer_confined data known each supported applies
  · rename_i other
    rcases counted with accepted | refused
    · exact absurd accepted other
    · exact .error (refused _ _ _)

end Builtin

end

end MapStyle
