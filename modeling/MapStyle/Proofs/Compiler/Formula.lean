import MapStyle.Proofs.Compiler.Argument

/-!
# Formulas and ramps keep refinement

Operators that put their arguments into one call, which is folded or tried.
-/

namespace MapStyle

/-!
## Formulas keep refinement

Arithmetic, colours and texts apply one function to all their arguments, and a call whose
arguments are all known is folded.  The sharp call is folded wherever the blunt one is, and the
two calls come to one value: operands agree as numbers, other arguments agree altogether.
-/

/-- Calls of arithmetic agree on operands that agree as numbers. -/
theorem Builtin.arithmetic_agrees {excused : Error → Prop} {source : Source} {builtin : Builtin}
    (numeric : builtin.isArithmetic = true) {ones others : List Outcome}
    (agree : List.Forall₂ (AgreesAsNumber excused) ones others) :
    Agrees excused (builtin.call source ones) (builtin.call source others) := by
  unfold call
  rw [agree.length_eq, call?_eq_rule, call?_eq_rule]
  split
  · cases builtin with
    | unary function =>
        rcases agree with _ | ⟨first, _ | ⟨_, _⟩⟩
        · exact .refl _
        · exact Arithmetic.unary_agrees function first
        · exact .refl _
    | binary function =>
        rcases agree with _ | ⟨first, _ | ⟨second, _ | ⟨_, _⟩⟩⟩
        · exact .refl _
        · exact .refl _
        · exact Arithmetic.binary_agrees function first second
        · exact .refl _
    | list function => exact Arithmetic.list_agrees function agree
    | _ => cases numeric
  · exact .refl _

namespace Compiler

variable {specialization : Specialization} {sharpContext bluntContext : Context}
  {sharps blunts : Node} {sharpTerm bluntTerm : Term}

/-- A call of arithmetic on blunt operands comes to what the call on sharp ones does. -/
theorem arithmetic_carries {source : Source} {builtin : Builtin} {sharps blunts : List Term}
    (numeric : builtin.isArithmetic = true)
    (refine : List.Forall₂ (Term.RefinesAsNumber source) sharps blunts) :
    Carries ((builtin.applied sharps).meaning {} source)
      ((builtin.applied blunts).meaning {} source) := by
  rw [Term.meaning_applied, Term.meaning_applied]
  exact Builtin.arithmetic_agrees numeric (Term.RefinesAsNumber.forall_carries refine)

theorem operands_refine (tracks : List.Forall₂ specialization.Tracks sharps blunts)
    (around : specialization.Around sharpContext bluntContext) {place : Place}
    {sharpTerms bluntTerms : List Term}
    (sharpCompiled : operands sharpContext place sharps = .ok sharpTerms)
    (bluntCompiled : operands bluntContext place blunts = .ok bluntTerms) :
    List.Forall₂ (Term.RefinesAsNumber specialization.source) sharpTerms bluntTerms := by
  induction tracks generalizing place sharpTerms bluntTerms with
  | nil =>
      obtain rfl := pure_eq_ok.mp sharpCompiled
      obtain rfl := pure_eq_ok.mp bluntCompiled
      exact .nil
  | cons head _ ih =>
      unfold operands at sharpCompiled bluntCompiled
      obtain ⟨sharp, sharpHead, sharpCompiled⟩ := bind_eq_ok.mp sharpCompiled
      obtain ⟨sharpRest, sharpTail, sharpCompiled⟩ := bind_eq_ok.mp sharpCompiled
      obtain rfl := pure_eq_ok.mp sharpCompiled
      obtain ⟨blunt, bluntHead, bluntCompiled⟩ := bind_eq_ok.mp bluntCompiled
      obtain ⟨bluntRest, bluntTail, bluntCompiled⟩ := bind_eq_ok.mp bluntCompiled
      obtain rfl := pure_eq_ok.mp bluntCompiled
      exact .cons (head.numberExpression around sharpHead bluntHead) (ih sharpTail bluntTail)

theorem arithmetic_refines {operator : Operator} {builtin : Builtin}
    (numeric : builtin.isArithmetic = true)
    (tracks : List.Forall₂ specialization.Tracks sharps.tail blunts.tail)
    (around : specialization.Around sharpContext bluntContext)
    (sharpCompiled : arithmetic operator builtin sharps sharpContext = .ok sharpTerm)
    (bluntCompiled : arithmetic operator builtin blunts bluntContext = .ok bluntTerm) :
    sharpTerm.Refines specialization.source bluntTerm := by
  obtain ⟨sharpTerms, sharpOperands, sharpFolds⟩ := bind_eq_ok.mp sharpCompiled
  obtain ⟨bluntTerms, bluntOperands, bluntFolds⟩ := bind_eq_ok.mp bluntCompiled
  have refine := operands_refine tracks around sharpOperands bluntOperands
  exact around.fold (arithmetic_carries numeric refine)
    (Term.RefinesAsNumber.greatestDepth_le refine)
    (Term.eq_of_forall_known (fun _ _ refines => refines.known) refine) sharpFolds bluntFolds

theorem difference_refines (sized : sharps.length = blunts.length)
    (tracks : List.Forall₂ specialization.Tracks sharps.tail blunts.tail)
    (around : specialization.Around sharpContext bluntContext)
    (sharpCompiled : difference sharps sharpContext = .ok sharpTerm)
    (bluntCompiled : difference blunts bluntContext = .ok bluntTerm) :
    sharpTerm.Refines specialization.source bluntTerm := by
  unfold difference at sharpCompiled bluntCompiled
  rw [sized] at sharpCompiled
  split at bluntCompiled
  · rename_i one
    rw [if_pos one] at sharpCompiled
    exact arithmetic_refines rfl tracks around sharpCompiled bluntCompiled
  · rename_i two
    rw [if_neg two] at sharpCompiled
    exact arithmetic_refines rfl tracks around sharpCompiled bluntCompiled

section Compiled

variable {written : Nat → Bool} (follows : specialization.Follows written 0 sharps blunts)
  (reached : ∀ position, written position = false)
  (around : specialization.Around sharpContext bluntContext)

include follows reached around

theorem channel_refines {position : Nat}
    (sharpCompiled : channel sharps sharpContext position = .ok sharpTerm)
    (bluntCompiled : channel blunts bluntContext position = .ok bluntTerm) :
    sharpTerm.Refines specialization.source bluntTerm := by
  obtain ⟨sharp, sharpFound, sharpCompiled⟩ := bind_eq_ok.mp sharpCompiled
  obtain ⟨sharpNumber, sharpOperand, sharpCompiled⟩ := bind_eq_ok.mp sharpCompiled
  obtain ⟨sharpRounded, sharpRounds, sharpDigits⟩ := bind_eq_ok.mp sharpCompiled
  obtain ⟨blunt, bluntFound, bluntCompiled⟩ := bind_eq_ok.mp bluntCompiled
  obtain ⟨bluntNumber, bluntOperand, bluntCompiled⟩ := bind_eq_ok.mp bluntCompiled
  obtain ⟨bluntRounded, bluntRounds, bluntDigits⟩ := bind_eq_ok.mp bluntCompiled
  have tracks := follows.tracks_of_argument (reached _) sharpFound bluntFound
  have operand := List.Forall₂.cons (tracks.numberExpression around sharpOperand bluntOperand) .nil
  have rounded := around.fold (arithmetic_carries rfl operand)
    (Term.RefinesAsNumber.greatestDepth_le operand)
    (Term.eq_of_forall_known (fun _ _ refines => refines.known) operand) sharpRounds bluntRounds
  exact around.fold_refines (.cons rounded .nil) sharpDigits bluntDigits

theorem rgb_refines (sharpCompiled : rgb sharps sharpContext = .ok sharpTerm)
    (bluntCompiled : rgb blunts bluntContext = .ok bluntTerm) :
    sharpTerm.Refines specialization.source bluntTerm := by
  obtain ⟨sharpRed, sharpFirst, sharpCompiled⟩ := bind_eq_ok.mp sharpCompiled
  obtain ⟨sharpGreen, sharpSecond, sharpCompiled⟩ := bind_eq_ok.mp sharpCompiled
  obtain ⟨sharpBlue, sharpThird, sharpFolds⟩ := bind_eq_ok.mp sharpCompiled
  obtain ⟨bluntRed, bluntFirst, bluntCompiled⟩ := bind_eq_ok.mp bluntCompiled
  obtain ⟨bluntGreen, bluntSecond, bluntCompiled⟩ := bind_eq_ok.mp bluntCompiled
  obtain ⟨bluntBlue, bluntThird, bluntFolds⟩ := bind_eq_ok.mp bluntCompiled
  have red := channel_refines follows reached around sharpFirst bluntFirst
  have green := channel_refines follows reached around sharpSecond bluntSecond
  have blue := channel_refines follows reached around sharpThird bluntThird
  exact around.fold_refines (.cons (.refl _) (.cons red (.cons green (.cons blue .nil))))
    sharpFolds bluntFolds

end Compiled

theorem expressions_refine (tracks : List.Forall₂ specialization.Tracks sharps blunts)
    (around : specialization.Around sharpContext bluntContext) {sharpTerms bluntTerms : List Term}
    (sharpCompiled : expressions sharpContext sharps = .ok sharpTerms)
    (bluntCompiled : expressions bluntContext blunts = .ok bluntTerms) :
    List.Forall₂ (Term.Refines specialization.source) sharpTerms bluntTerms := by
  induction tracks generalizing sharpTerms bluntTerms with
  | nil =>
      obtain rfl := pure_eq_ok.mp sharpCompiled
      obtain rfl := pure_eq_ok.mp bluntCompiled
      exact .nil
  | cons head _ ih =>
      unfold expressions at sharpCompiled bluntCompiled
      obtain ⟨sharp, sharpHead, sharpCompiled⟩ := bind_eq_ok.mp sharpCompiled
      obtain ⟨sharpRest, sharpTail, sharpCompiled⟩ := bind_eq_ok.mp sharpCompiled
      obtain rfl := pure_eq_ok.mp sharpCompiled
      obtain ⟨blunt, bluntHead, bluntCompiled⟩ := bind_eq_ok.mp bluntCompiled
      obtain ⟨bluntRest, bluntTail, bluntCompiled⟩ := bind_eq_ok.mp bluntCompiled
      obtain rfl := pure_eq_ok.mp bluntCompiled
      exact .cons (head.expression around sharpHead bluntHead) (ih sharpTail bluntTail)

theorem textual_refines {builtin : Builtin}
    (tracks : List.Forall₂ specialization.Tracks sharps.tail blunts.tail)
    (around : specialization.Around sharpContext bluntContext)
    (sharpCompiled : textual builtin sharps sharpContext = .ok sharpTerm)
    (bluntCompiled : textual builtin blunts bluntContext = .ok bluntTerm) :
    sharpTerm.Refines specialization.source bluntTerm := by
  obtain ⟨sharpTerms, sharpInner, sharpFolds⟩ := bind_eq_ok.mp sharpCompiled
  obtain ⟨bluntTerms, bluntInner, bluntFolds⟩ := bind_eq_ok.mp bluntCompiled
  exact around.fold_refines (expressions_refine tracks around sharpInner bluntInner)
    sharpFolds bluntFolds

end Compiler

/-!
## Ramps keep refinement

The stops of a ramp are the same in both compilations, and the input comes to one number.  A ramp
is folded once its input and the outputs around the input are known, so the blunt ramp is folded
only where the sharp one is: whatever the blunt term does not know yet, its folding cannot have
looked at.
-/

namespace Builtin

variable {excused : Error → Prop}

/-- Steps agree on inputs that agree as numbers. -/
theorem step_agrees (source : Source) {input otherInput first otherFirst : Outcome}
    {ones others : List Outcome} (inputAgrees : AgreesAsNumber excused input otherInput)
    (firstAgrees : Agrees excused first otherFirst)
    (agree : List.Forall₂ (Agrees excused) ones others) :
    Agrees excused (step.call source (input :: first :: ones))
      (step.call source (otherInput :: otherFirst :: others)) := by
  unfold call
  rw [List.length_cons, List.length_cons, List.length_cons, List.length_cons, agree.length_eq]
  split
  · exact Ramp.step_agrees inputAgrees firstAgrees agree
  · exact .refl _

/-- Interpolations agree on inputs that agree as numbers. -/
theorem interpolate_agrees (source : Source) (curve : Outcome) {input otherInput : Outcome}
    {ones others : List Outcome} (inputAgrees : AgreesAsNumber excused input otherInput)
    (agree : List.Forall₂ (Agrees excused) ones others) :
    Agrees excused (interpolate.call source (curve :: input :: ones))
      (interpolate.call source (curve :: otherInput :: others)) := by
  unfold call
  rw [List.length_cons, List.length_cons, List.length_cons, List.length_cons, agree.length_eq]
  split
  · exact Ramp.interpolate?_agrees (.refl curve) inputAgrees agree _
  · exact .refl _

end Builtin

namespace Compiler

variable {specialization : Specialization} {sharpContext bluntContext : Context}
  {sharps blunts : Node} {sharpTerm bluntTerm : Term}

/-- Where the blunt term is known, the sharp one is the same. -/
def Known (sharp blunt : Term) : Prop := ∀ value, blunt = .literal value → sharp = .literal value

/-- While nothing is known, a folded blunt call comes to a value only if the sharp one does. -/
theorem constant_of_known {options : Options} {written : Value → Prop}
    {builtin : Builtin} {sharps blunts : List Term}
    (emitted : ∀ blunt ∈ blunts, Emitted options written blunt)
    (folds : options.foldConstants = true)
    (known : List.Forall₂ Known sharps blunts) (value : Value)
    (means : (builtin.applied blunts).meaning {} .constants = .ok value) :
    (builtin.applied sharps).meaning {} .constants = .ok value := by
  have agree : List.Forall₂ (Agrees fun cause => cause.isUnresolved)
      (blunts.map (Term.meaning {} .constants)) (sharps.map (Term.meaning {} .constants)) := by
    clear means
    induction known with
    | nil => exact .nil
    | @cons sharp blunt sharps blunts head _ ih =>
        refine .cons ?_ (ih fun blunt member => emitted blunt (List.mem_cons_of_mem _ member))
        cases unknown : blunt.isLiteral with
        | true =>
            cases blunt with
            | literal held =>
                rw [head held rfl]
                exact .refl _
            | _ => cases unknown
        | false =>
            obtain ⟨datum, waits⟩ := (emitted blunt List.mem_cons_self).pending folds .self unknown
            rw [waits]
            exact .excuse rfl
  rw [Term.meaning_applied] at means ⊢
  exact (Builtin.call_agrees (.refl .constants) builtin agree).ok means

theorem numberLiteral_eq {sharp blunt : Argument} (raw : sharp.raw = blunt.raw)
    {sharpPlace bluntPlace : Place} {sharpBound bluntBound : Double}
    (sharpWritten : sharp.numberLiteral sharpPlace = .ok sharpBound)
    (bluntWritten : blunt.numberLiteral bluntPlace = .ok bluntBound) : sharpBound = bluntBound := by
  have sharpNumber := Argument.numberLiteral_eq_ok sharpWritten
  rw [raw, Argument.numberLiteral_eq_ok bluntWritten] at sharpNumber
  exact (Option.some.inj sharpNumber).symm

theorem stops_refine (alternates : specialization.Alternates sharps blunts)
    (around : specialization.Around sharpContext bluntContext) {sharpPlace bluntPlace : Place}
    {sharpPrevious bluntPrevious : Option Double} {sharpTerms bluntTerms : List Term}
    (sharpCompiled : stops sharpContext sharpPlace sharpPrevious sharps = .ok sharpTerms)
    (bluntCompiled : stops bluntContext bluntPlace bluntPrevious blunts = .ok bluntTerms) :
    List.Forall₂ (Term.Refines specialization.source) sharpTerms bluntTerms := by
  induction alternates generalizing sharpPlace bluntPlace sharpPrevious bluntPrevious sharpTerms
    bluntTerms with
  | nil =>
      unfold stops at sharpCompiled bluntCompiled
      obtain rfl := pure_eq_ok.mp sharpCompiled
      obtain rfl := pure_eq_ok.mp bluntCompiled
      exact .nil
  | last tracks =>
      unfold stops at sharpCompiled bluntCompiled
      obtain rfl := pure_eq_ok.mp sharpCompiled
      obtain rfl := pure_eq_ok.mp bluntCompiled
      exact .nil
  | pair raw tracks _ ih =>
      obtain ⟨sharpBound, sharp, sharpRest, sharpWritten, sharpHead, sharpTail, rfl⟩ :=
        stops_cons sharpCompiled
      obtain ⟨bluntBound, blunt, bluntRest, bluntWritten, bluntHead, bluntTail, rfl⟩ :=
        stops_cons bluntCompiled
      obtain rfl := numberLiteral_eq raw sharpWritten bluntWritten
      exact .cons (.refl _)
        (.cons (tracks.expression around sharpHead bluntHead) (ih sharpTail bluntTail))

theorem forall_known {source : Source} {sharps blunts : List Term}
    (refine : List.Forall₂ (Term.Refines source) sharps blunts) :
    List.Forall₂ Known sharps blunts :=
  refine.imp fun _ _ refines => refines.known

theorem step_refines {length : Nat}
    (follows : specialization.Follows (Operator.alternates 3 length) 0 sharps blunts)
    (sized : blunts.length = length) (emits : blunts.Emits specialization.blunt Value.SafeZeros)
    (around : specialization.Around sharpContext bluntContext)
    (sharpCompiled : step sharps sharpContext = .ok sharpTerm)
    (bluntCompiled : step blunts bluntContext = .ok bluntTerm) :
    sharpTerm.Refines specialization.source bluntTerm := by
  obtain ⟨sharpInput, sharpFirst, sharpRest, sharp, sharpOutput, sharpFound, sharpSecond,
    sharpOperand, sharpHead, sharpTail, sharpTried⟩ := step_eq_ok sharpCompiled
  obtain ⟨bluntInput, bluntFirst, bluntRest, blunt, bluntOutput, bluntFound, bluntSecond,
    bluntOperand, bluntHead, bluntTail, bluntTried⟩ := step_eq_ok bluntCompiled
  have input := (follows.tracks_of_argument rfl sharpFound bluntFound).numberExpression around
    sharpOperand bluntOperand
  have first := (follows.tracks_of_argument rfl sharpSecond bluntSecond).expression around
    sharpHead bluntHead
  have long : 2 < blunts.length :=
    (List.getElem?_eq_some_iff.mp (Node.getElem?_of_argument bluntSecond)).1
  have alternates := (follows.drop 3).alternates (by omega) (by omega)
    (by rw [List.length_drop]; omega)
  have rest := stops_refine alternates around sharpTail bluntTail
  have depths := Term.greatestDepth_le_of_forall₂
    (.cons input.depth (.cons first.depth (rest.imp fun _ _ refines => refines.depth)))
  refine around.tryFold ?_ depths ?_ sharpTried bluntTried
  · rw [Term.meaning_applied, Term.meaning_applied]
    exact Builtin.step_agrees _ input.carries first.carries (Term.Refines.forall_carries rest)
  · intro folds value means
    obtain ⟨inputEmitted, _⟩ := (emits.argument bluntFound).numberExpression around.bluntEmits
      bluntOperand
    have firstEmitted := (emits.argument bluntSecond).expression around.bluntEmits bluntHead
    obtain ⟨_, restEmitted, _⟩ := stops_emitted (emits.drop 3) around.bluntEmits bluntTail
    have emitted : ∀ term ∈ bluntInput :: bluntFirst :: bluntRest,
        Emitted specialization.blunt Value.SafeZeros term := by
      simpa using And.intro inputEmitted (And.intro firstEmitted restEmitted)
    exact constant_of_known emitted folds
      (.cons input.known (.cons first.known (forall_known rest))) value means

theorem interpolate_refines {length : Nat}
    (follows : specialization.Follows (Operator.interpolate.readsWritten length) 0 sharps blunts)
    (sized : blunts.length = length) (emits : blunts.Emits specialization.blunt Value.SafeZeros)
    (around : specialization.Around sharpContext bluntContext)
    (sharpCompiled : interpolate sharps sharpContext = .ok sharpTerm)
    (bluntCompiled : interpolate blunts bluntContext = .ok bluntTerm) :
    sharpTerm.Refines specialization.source bluntTerm := by
  obtain ⟨sharpCurve, sharpInput, sharpRest, sharpShape, sharp, sharpShaped, sharpReads, sharpFound,
    sharpOperand, sharpTail, sharpTried⟩ := interpolate_eq_ok sharpCompiled
  obtain ⟨bluntCurve, bluntInput, bluntRest, bluntShape, blunt, bluntShaped, bluntReads, bluntFound,
    bluntOperand, bluntTail, bluntTried⟩ := interpolate_eq_ok bluntCompiled
  have raw := follows.raw_at rfl (Node.getElem?_of_argument sharpShaped)
    (Node.getElem?_of_argument bluntShaped)
  have same : sharpCurve = bluntCurve := by
    rw [raw, bluntReads] at sharpReads
    exact (Option.some.inj sharpReads).symm
  subst same
  have input := (follows.tracks_of_argument rfl sharpFound bluntFound).numberExpression around
    sharpOperand bluntOperand
  have long : 2 < blunts.length :=
    (List.getElem?_eq_some_iff.mp (Node.getElem?_of_argument bluntFound)).1
  have stops := (follows.drop 3).congr fun position behind =>
    Operator.readsWritten_interpolate length (by omega)
  have alternates := stops.alternates (by omega) (by omega) (by rw [List.length_drop]; omega)
  have rest := stops_refine alternates around sharpTail bluntTail
  have depths := Term.greatestDepth_le_of_forall₂
    (.cons (Nat.le_refl (Term.literal sharpCurve.toValue).callDepth)
      (.cons input.depth (rest.imp fun _ _ refines => refines.depth)))
  refine around.tryFold ?_ depths ?_ sharpTried bluntTried
  · rw [Term.meaning_applied, Term.meaning_applied]
    exact Builtin.interpolate_agrees _ _ input.carries (Term.Refines.forall_carries rest)
  · intro folds value means
    have curveKnown : Known (.literal sharpCurve.toValue) (.literal sharpCurve.toValue) :=
      fun _ same => same
    obtain ⟨inputEmitted, _⟩ := (emits.argument bluntFound).numberExpression around.bluntEmits
      bluntOperand
    have curveEmitted :
        Emitted specialization.blunt Value.SafeZeros (.literal sharpCurve.toValue) :=
      .computed (curve_computed sharpCurve)
    obtain ⟨_, restEmitted, _⟩ := stops_emitted (emits.drop 3) around.bluntEmits bluntTail
    have emitted : ∀ term ∈ .literal sharpCurve.toValue :: bluntInput :: bluntRest,
        Emitted specialization.blunt Value.SafeZeros term := by
      simpa using And.intro curveEmitted (And.intro inputEmitted restEmitted)
    exact constant_of_known emitted folds
      (.cons curveKnown (.cons input.known (forall_known rest))) value means

end Compiler

end MapStyle
