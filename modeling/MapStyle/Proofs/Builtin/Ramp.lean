import MapStyle.Proofs.Builtin.Agreement

/-!
# Agreement of ramps

A ramp reads its input and its stops as numbers and then one or two of its outputs.  Two ramps
with inputs of one value, the same stops and agreeing outputs choose the same segment, so their
outcomes agree.
-/

namespace MapStyle

namespace Ramp

variable {excused : Error → Prop}

/-- A step agrees with another one whose input agrees as a number and whose outputs agree. -/
theorem stepFrom_agrees {input otherInput : Double} (inputs : Double.Alike input otherInput)
    {current otherCurrent : Outcome} (position : Nat)
    {ones others : List Outcome} (currentAgrees : Agrees excused current otherCurrent)
    (agree : List.Forall₂ (Agrees excused) ones others) :
    Agrees excused (stepFrom input current position ones)
      (stepFrom otherInput otherCurrent position others) := by
  induction current, position, ones using stepFrom.induct generalizing otherCurrent others with
  | case1 current position stop output rest ih =>
      cases agree with
      | cons stopAgrees agree =>
          cases agree with
          | cons outputAgrees agree =>
              apply (Operand.number_agrees _ _ stopAgrees).bind
              intro bound
              rw [inputs.lt_eq (.refl bound)]
              cases otherInput.lt bound with
              | true => exact currentAgrees
              | false => exact ih outputAgrees agree
  | case2 current position ones short =>
      cases agree with
      | nil => exact currentAgrees
      | cons stopAgrees agree =>
          cases agree with
          | nil => exact currentAgrees
          | cons outputAgrees agree => exact (short _ _ _ rfl).elim

theorem step_agrees {input otherInput first otherFirst : Outcome} {ones others : List Outcome}
    (inputAgrees : AgreesAsNumber excused input otherInput)
    (firstAgrees : Agrees excused first otherFirst)
    (agree : List.Forall₂ (Agrees excused) ones others) :
    Agrees excused (step input first ones) (step otherInput otherFirst others) := by
  apply Relates.bind (inputAgrees _ _)
  intro x y inputs
  exact stepFrom_agrees inputs.alike 2 firstAgrees agree

structure KnotAgrees (excused : Error → Prop) (one other : Knot Outcome) : Prop where
  stop : one.stop = other.stop
  output : Agrees excused one.output other.output

structure SegmentAgrees (excused : Error → Prop) (one other : Segment Outcome) : Prop where
  index : one.index = other.index
  lower : KnotAgrees excused one.lower other.lower
  upper : KnotAgrees excused one.upper other.upper

theorem knots_relate (position : Nat) {ones others : List Outcome}
    (agree : List.Forall₂ (Agrees excused) ones others) :
    Relates excused (List.Forall₂ (KnotAgrees excused)) (knots position ones)
      (knots position others) := by
  induction position, ones using knots.induct generalizing others with
  | case1 position stop output rest ih =>
      cases agree with
      | cons stopAgrees agree =>
          cases agree with
          | cons outputAgrees agree =>
              apply Relates.bind (Operand.number_agrees _ _ stopAgrees)
              rintro bound _ rfl
              apply (ih agree).bind
              intro held otherHeld both
              exact .ok (.cons ⟨rfl, outputAgrees⟩ both)
  | case2 position ones short =>
      cases agree with
      | nil => exact .ok .nil
      | cons stopAgrees agree =>
          cases agree with
          | nil => exact .ok .nil
          | cons outputAgrees agree => exact (short _ _ _ rfl).elim

theorem segment?_relates {input otherInput : Double} (inputs : Double.Alike input otherInput)
    (index : Nat) {ones others : List (Knot Outcome)}
    (agree : List.Forall₂ (KnotAgrees excused) ones others) :
    Option.Rel (SegmentAgrees excused) (segment? input index ones)
      (segment? otherInput index others) := by
  induction agree generalizing index with
  | nil => exact .none
  | @cons lower otherLower ones others lowerAgrees agree ih =>
      cases agree with
      | nil => exact .none
      | @cons upper otherUpper ones others upperAgrees agree =>
          unfold segment?
          rw [← upperAgrees.stop, inputs.lt_eq (.refl upper.stop)]
          split
          · exact .some ⟨rfl, lowerAgrees, upperAgrees⟩
          · exact ih (index + 1)

theorem between_alike (a b : Double) {t otherT : Double} (alike : Double.Alike t otherT) :
    Double.Alike (between a b t) (between a b otherT) := by
  have moved : Double.Alike ((b - a) * t) ((b - a) * otherT) :=
    (Double.Alike.refl (b - a)).mul alike
  exact (Double.Alike.refl a).add moved

theorem blendItems_eq {position : Nat} {t otherT : Double} {items : List Value}
    (each : ∀ item ∈ items, ∀ other, blend position t item other = blend position otherT item other)
    (others : List Value) :
    blendItems position t items others = blendItems position otherT items others := by
  induction items generalizing others with
  | nil =>
      unfold blendItems
      rfl
  | cons item items ih =>
      cases others with
      | nil =>
          unfold blendItems
          rfl
      | cons other others =>
          unfold blendItems
          rw [each item List.mem_cons_self other,
            ih (fun item member => each item (List.mem_cons_of_mem _ member)) others]

/-- A blend goes by the value of the factor. -/
theorem blend_eq (position : Nat) {t otherT : Double} (alike : Double.Alike t otherT)
    (a b : Value) : blend position t a b = blend position otherT a b := by
  induction a generalizing b with
  | number held =>
      cases b with
      | number other =>
          unfold blend
          rw [Value.ofDouble_alike (between_alike _ _ alike)]
      | _ => simp [blend]
  | array items ih =>
      cases b with
      | array others =>
          unfold blend
          rw [blendItems_eq ih]
      | _ => simp [blend]
  | _ => simp [blend]

theorem blendSegment_agrees (curve : Curve) {input otherInput : Double}
    (inputs : Double.Alike input otherInput) {one other : Segment Outcome}
    (agrees : SegmentAgrees excused one other) :
    Agrees excused (blendSegment curve input one) (blendSegment curve otherInput other) := by
  unfold blendSegment
  rw [agrees.index, agrees.lower.stop, agrees.upper.stop]
  apply agrees.lower.output.bind
  intro a
  apply agrees.upper.output.bind
  intro b
  exact .of_eq (blend_eq _ (curve.factor_alike inputs _ _) a b)

/-- Related lists have related first items. -/
theorem head?_relates {related : Knot Outcome → Knot Outcome → Prop}
    {ones others : List (Knot Outcome)} (agree : List.Forall₂ related ones others) :
    Option.Rel related ones.head? others.head? := by
  cases agree with
  | nil => exact .none
  | cons head _ => exact .some head

/-- Related lists have related last items. -/
theorem getLast?_relates {related : Knot Outcome → Knot Outcome → Prop}
    {ones others : List (Knot Outcome)} (agree : List.Forall₂ related ones others) :
    Option.Rel related ones.getLast? others.getLast? := by
  rw [List.getLast?_eq_head?_reverse, List.getLast?_eq_head?_reverse]
  exact head?_relates (List.rel_reverse agree)

/-- Where one of two related lists of stops has no output, neither has the other one. -/
theorem outputAt?_relates (curve : Curve) {input otherInput : Double}
    (inputs : Double.Alike input otherInput) {ones others : List (Knot Outcome)}
    (agree : List.Forall₂ (KnotAgrees excused) ones others) :
    Option.Rel (Agrees excused) (outputAt? curve input ones)
      (outputAt? curve otherInput others) := by
  have heads := head?_relates agree
  have lasts := getLast?_relates agree
  have segments := segment?_relates inputs 0 agree
  unfold outputAt?
  generalize ones.head? = first, others.head? = otherFirst at heads
  generalize ones.getLast? = last, others.getLast? = otherLast at lasts
  generalize segment? input 0 ones = segment, segment? otherInput 0 others = otherSegment
    at segments
  cases heads with
  | none => exact .none
  | some firstAgrees =>
      cases lasts with
      | none => exact .none
      | some lastAgrees =>
          simp only
          rw [firstAgrees.stop, lastAgrees.stop, inputs.le_eq (.refl _),
            Double.Alike.le_eq (.refl _) inputs]
          split
          · exact .some firstAgrees.output
          · split
            · exact .some lastAgrees.output
            · cases segments with
              | none => exact .none
              | some both => exact .some (blendSegment_agrees curve inputs both)

/-- What an interpolation reads before it looks for the output: curve, input and stops. -/
def readParts (curve input : Outcome) (rest : List Outcome) :
    Except Error (Curve × Double × List (Knot Outcome)) := do
  let shape ← curveOf curve
  let x ← Operand.number Builtin.interpolate.name 1 input
  let stops ← knots 2 rest
  return (shape, x, stops)

theorem interpolate?_eq_readParts (curve input : Outcome) (rest : List Outcome) :
    interpolate? curve input rest =
      match readParts curve input rest with
      | .ok (shape, x, stops) => outputAt? shape x stops
      | .error cause => some (.error cause) :=
  rfl

structure PartsAgree (excused : Error → Prop)
    (one other : Curve × Double × List (Knot Outcome)) : Prop where
  curve : one.1 = other.1
  input : Double.Alike one.2.1 other.2.1
  stops : List.Forall₂ (KnotAgrees excused) one.2.2 other.2.2

theorem readParts_relate {curve otherCurve input otherInput : Outcome}
    {ones others : List Outcome} (curveAgrees : Agrees excused curve otherCurve)
    (inputAgrees : AgreesAsNumber excused input otherInput)
    (agree : List.Forall₂ (Agrees excused) ones others) :
    Relates excused (PartsAgree excused) (readParts curve input ones)
      (readParts otherCurve otherInput others) := by
  have shapes : Agrees excused (curveOf curve) (curveOf otherCurve) :=
    curveAgrees.bind fun _ => .refl _
  apply Relates.bind shapes
  rintro shape _ rfl
  apply Relates.bind (inputAgrees _ _)
  intro x y inputs
  apply (knots_relate 2 agree).bind
  intro stops otherStops both
  exact .ok ⟨rfl, inputs.alike, both⟩

/-- Two outcomes that may be missing agree once both are replaced by one refusal. -/
theorem getD_agrees {one other : Option Outcome} (agree : Option.Rel (Agrees excused) one other)
    (refusal : Outcome) : Agrees excused (one.getD refusal) (other.getD refusal) := by
  cases agree with
  | none => exact .refl _
  | some agrees => exact agrees

theorem interpolate?_agrees {curve otherCurve input otherInput : Outcome}
    {ones others : List Outcome} (curveAgrees : Agrees excused curve otherCurve)
    (inputAgrees : AgreesAsNumber excused input otherInput)
    (agree : List.Forall₂ (Agrees excused) ones others) (refusal : Outcome) :
    Agrees excused ((interpolate? curve input ones).getD refusal)
      ((interpolate? otherCurve otherInput others).getD refusal) := by
  have parts := readParts_relate curveAgrees inputAgrees agree
  rw [interpolate?_eq_readParts, interpolate?_eq_readParts]
  generalize readParts curve input ones = one, readParts otherCurve otherInput others = other
    at parts
  cases parts with
  | excuse reason => exact .excuse reason
  | error cause => exact .error cause
  | @ok value otherValue both =>
      obtain ⟨shape, x, stops⟩ := value
      obtain ⟨otherShape, otherX, otherStops⟩ := otherValue
      obtain ⟨sameShape, inputs, stopsAgree⟩ := both
      cases sameShape
      exact getD_agrees (outputAt?_relates shape inputs stopsAgree) refusal

end Ramp

end MapStyle
