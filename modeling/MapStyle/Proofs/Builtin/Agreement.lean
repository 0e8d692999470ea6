import MapStyle.Proofs.Agreement
import MapStyle.Proofs.Zero
import MapStyle.Term.Evaluation

/-!
# Agreement of built-in functions

A function looks at the outcomes of its arguments one after the other and fails as the first of
them that fails.  So it keeps agreement: given argument lists that agree place by place, and
sources that agree on every datum, its two outcomes agree.  Arithmetic asks for less: its
operands need to agree only as numbers, and up to the sign of zero where the machine allows it.
-/

namespace MapStyle

variable {excused : Error → Prop}

/-- Two outcomes that agree as far as a function of numbers can tell. -/
def AgreesAsNumber (excused : Error → Prop) (one other : Outcome) : Prop :=
  ∀ function position, Relates excused Double.Interchangeable
    (Operand.number function position one) (Operand.number function position other)

structure Source.Agrees (excused : Error → Prop) (one other : Source) : Prop where
  property : ∀ name, MapStyle.Agrees excused (one.property name) (other.property name)
  featureId : MapStyle.Agrees excused one.featureId other.featureId
  geometryType : MapStyle.Agrees excused one.geometryType other.geometryType
  properties : MapStyle.Agrees excused one.properties other.properties
  environment : ∀ name, MapStyle.Agrees excused (one.environment name) (other.environment name)

/-- A source agrees with itself. -/
theorem Source.Agrees.refl (source : Source) : Source.Agrees excused source source :=
  ⟨fun _ => .refl _, .refl _, .refl _, .refl _, fun _ => .refl _⟩

/-! ## Operands -/

theorem Operand.number_agrees (function : String) (position : Nat) {one other : Outcome}
    (agrees : Agrees excused one other) :
    Agrees excused (number function position one) (number function position other) :=
  agrees.bind fun _ => .refl _

theorem Agrees.asNumber {one other : Outcome} (agrees : Agrees excused one other) :
    AgreesAsNumber excused one other :=
  fun function position =>
    (Operand.number_agrees function position agrees).relates fun _ => .inl rfl

namespace Operand

theorem text_agrees (function : String) (position : Nat) {one other : Outcome}
    (agrees : Agrees excused one other) :
    Agrees excused (text function position one) (text function position other) :=
  agrees.bind fun _ => .refl _

theorem numbers_agree (function : String) (position : Nat) {ones others : List Outcome}
    (agree : List.Forall₂ (AgreesAsNumber excused) ones others) :
    Relates excused (List.Forall₂ Double.Interchangeable) (numbers function position ones)
      (numbers function position others) := by
  induction agree generalizing position with
  | nil => exact .ok .nil
  | cons head _ ih =>
      apply (head function position).bind
      intro x y first
      apply (ih (position + 1)).bind
      intro rest otherRest both
      exact .ok (.cons first both)

end Operand

/-! ## Arithmetic -/

namespace Arithmetic

theorem unary_agrees (function : UnaryFunction) {one other : Outcome}
    (agrees : AgreesAsNumber excused one other) :
    Agrees excused (unary function one) (unary function other) :=
  (agrees _ _).bind fun _ _ same => .ok (function.ofDouble_run same)

theorem binary_agrees (function : BinaryFunction) {left right otherLeft otherRight : Outcome}
    (leftAgrees : AgreesAsNumber excused left otherLeft)
    (rightAgrees : AgreesAsNumber excused right otherRight) :
    Agrees excused (binary function left right) (binary function otherLeft otherRight) := by
  apply (leftAgrees _ _).bind
  intro x a first
  exact (rightAgrees _ _).bind fun _ _ second => .ok (function.ofDouble_run first second)

theorem list_agrees (function : ListFunction) {ones others : List Outcome}
    (agree : List.Forall₂ (AgreesAsNumber excused) ones others) :
    Agrees excused (list function ones) (list function others) :=
  (Operand.numbers_agree _ _ agree).bind fun _ _ same => .ok (function.ofDouble_run same)

end Arithmetic

/-! ## Decisions -/

namespace Decision

theorem not_agrees {one other : Outcome} (agrees : Agrees excused one other) :
    Agrees excused (Decision.not one) (Decision.not other) :=
  agrees.bind fun _ => .refl _

theorem compare_agrees (order : Comparison) {left right otherLeft otherRight : Outcome}
    (leftAgrees : Agrees excused left otherLeft) (rightAgrees : Agrees excused right otherRight) :
    Agrees excused (Decision.compare order left right)
      (Decision.compare order otherLeft otherRight) := by
  apply leftAgrees.bind
  intro a
  exact rightAgrees.bind fun _ => .refl _

theorem equalTo_agrees {left right otherLeft otherRight : Outcome}
    (leftAgrees : Agrees excused left otherLeft) (rightAgrees : Agrees excused right otherRight) :
    Agrees excused (equalTo left right) (equalTo otherLeft otherRight) := by
  apply leftAgrees.bind
  intro a
  exact rightAgrees.bind fun _ => .refl _

theorem all_agrees {ones others : List Outcome}
    (agree : List.Forall₂ (Agrees excused) ones others) :
    Agrees excused (all ones) (all others) := by
  induction agree with
  | nil => exact .refl _
  | cons head _ ih =>
      apply head.bind
      intro value
      cases value.isTrue with
      | true => exact ih
      | false => exact .refl _

theorem any_agrees {ones others : List Outcome}
    (agree : List.Forall₂ (Agrees excused) ones others) :
    Agrees excused (any ones) (any others) := by
  induction agree with
  | nil => exact .refl _
  | cons head _ ih =>
      apply head.bind
      intro value
      cases value.isTrue with
      | true => exact .refl _
      | false => exact ih

theorem coalesce_agrees {ones others : List Outcome}
    (agree : List.Forall₂ (Agrees excused) ones others) :
    Agrees excused (coalesce ones) (coalesce others) := by
  induction agree with
  | nil => exact .refl _
  | cons head _ ih =>
      apply head.bind
      intro value
      cases value.isNull with
      | true => exact ih
      | false => exact .refl _

theorem case_agrees {ones others : List Outcome}
    (agree : List.Forall₂ (Agrees excused) ones others) :
    Agrees excused (case ones) (case others) := by
  -- The list is taken apart two outcomes at a time, as the function does it.
  induction ones using case.induct generalizing others with
  | case1 condition output rest ih =>
      cases agree with
      | cons conditionAgrees agree =>
          cases agree with
          | cons outputAgrees agree =>
              apply conditionAgrees.bind
              intro value
              cases value.isTrue with
              | true => exact outputAgrees
              | false => exact ih agree
  | case2 default =>
      cases agree with
      | cons defaultAgrees agree =>
          cases agree
          exact defaultAgrees
  | case3 =>
      cases agree
      exact .refl _

theorem selectFrom_agrees (input : Value) (position : Nat) {ones others : List Outcome}
    (agree : List.Forall₂ (Agrees excused) ones others) :
    Agrees excused (selectFrom input position ones) (selectFrom input position others) := by
  induction position, ones using selectFrom.induct generalizing others with
  | case1 position label output rest ih =>
      cases agree with
      | cons labelAgrees agree =>
          cases agree with
          | cons outputAgrees agree =>
              apply labelAgrees.bind
              intro held
              apply (Agrees.refl
                (Label.matchesInput Builtin.select.name position held input)).bind
              intro found
              cases found with
              | true => exact outputAgrees
              | false => exact ih agree
  | case2 position default =>
      cases agree with
      | cons defaultAgrees agree =>
          cases agree
          exact defaultAgrees
  | case3 position =>
      cases agree
      exact .refl _

theorem select_agrees {input otherInput : Outcome} {ones others : List Outcome}
    (inputAgrees : Agrees excused input otherInput)
    (agree : List.Forall₂ (Agrees excused) ones others) :
    Agrees excused (select input ones) (select otherInput others) := by
  apply inputAgrees.bind
  intro value
  apply (Agrees.refl (Label.checkInput value)).bind
  intro _
  exact selectFrom_agrees value 1 agree

end Decision

/-! ## Texts and conversions -/

namespace Conversion

theorem listSize_agrees {one other : Outcome} (agrees : Agrees excused one other) :
    Agrees excused (listSize one) (listSize other) :=
  agrees.bind fun _ => .refl _

theorem textLength_agrees {one other : Outcome} (agrees : Agrees excused one other) :
    Agrees excused (textLength one) (textLength other) :=
  (Operand.text_agrees _ _ agrees).bind fun _ => .refl _

theorem length_agrees {one other : Outcome} (agrees : Agrees excused one other) :
    Agrees excused (length one) (length other) :=
  agrees.bind fun _ => .refl _

theorem firstOf_agrees (function expected : String) (convert? : Value → Option Value)
    (seen : Option Kind) {ones others : List Outcome}
    (agree : List.Forall₂ (Agrees excused) ones others) :
    Agrees excused (firstOf function expected convert? seen ones)
      (firstOf function expected convert? seen others) := by
  induction agree generalizing seen with
  | nil => exact .refl _
  | cons head _ ih =>
      apply head.bind
      intro value
      cases convert? value with
      | some result => exact .refl _
      | none => exact ih _

theorem toHex_agrees {one other : Outcome} (agrees : Agrees excused one other) :
    Agrees excused (toHex one) (toHex other) :=
  (Operand.number_agrees _ _ agrees).bind fun _ => .refl _

theorem concatenation_agrees {ones others : List Outcome}
    (agree : List.Forall₂ (Agrees excused) ones others) :
    Agrees excused (concatenation ones) (concatenation others) := by
  induction agree with
  | nil => exact .refl _
  | cons head _ ih =>
      apply head.bind
      intro value
      exact ih.bind fun _ => .refl _

theorem concatenate_agrees {ones others : List Outcome}
    (agree : List.Forall₂ (Agrees excused) ones others) :
    Agrees excused (concatenate ones) (concatenate others) := by
  rcases (concatenation_agrees agree).cases_eq with ⟨cause, failed, reason⟩ | same
  · unfold concatenate
    rw [failed]
    exact .excuse reason
  · unfold concatenate
    rw [same]
    exact .refl _

theorem lowercase_agrees {one other : Outcome} (agrees : Agrees excused one other) :
    Agrees excused (lowercase one) (lowercase other) :=
  (Operand.text_agrees _ _ agrees).bind fun _ => .refl _

theorem uppercase_agrees {one other : Outcome} (agrees : Agrees excused one other) :
    Agrees excused (uppercase one) (uppercase other) :=
  (Operand.text_agrees _ _ agrees).bind fun _ => .refl _

end Conversion

/-! ## Reading -/

namespace Reading

theorem hasProperty_agrees {source otherSource : Source}
    (sources : source.Agrees excused otherSource) {one other : Outcome}
    (agrees : Agrees excused one other) :
    Agrees excused (hasProperty source one) (hasProperty otherSource other) := by
  apply (Operand.text_agrees _ _ agrees).bind
  intro name
  exact (sources.property name).bind fun _ => .refl _

theorem environment_agrees {source otherSource : Source}
    (sources : source.Agrees excused otherSource) {one other : Outcome}
    (agrees : Agrees excused one other) :
    Agrees excused (environment source one) (environment otherSource other) :=
  (Operand.text_agrees _ _ agrees).bind sources.environment

theorem zoomLevel_agrees {scale system otherScale otherSystem : Outcome}
    (scaleAgrees : Agrees excused scale otherScale)
    (systemAgrees : Agrees excused system otherSystem) :
    Agrees excused (zoomLevel scale system) (zoomLevel otherScale otherSystem) := by
  apply (Operand.number_agrees _ _ scaleAgrees).bind
  intro denominator
  exact (Operand.text_agrees _ _ systemAgrees).bind fun _ => .refl _

end Reading

end MapStyle
