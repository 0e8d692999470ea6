import MapStyle.Proofs.Compiler.Emission
import MapStyle.Proofs.Compiler.Emitted

/-!
# Failures of compilation

A compilation refuses a document for what is wrong with it.  The two signals that only serve the
compiler, that a datum is not known yet and that a function is not registered, never leave it: a
call is tried only when it is well formed, and a datum that is not known makes it wait.  Nor does
it complain of a curve as an interpolation would, for it has read the curve before.
-/

namespace MapStyle

/-- Each failure has a cause that a document can be to blame for. -/
abbrev External {α : Type} (outcome : Except Error α) : Prop :=
  Confined (fun cause => cause.isInternal = false) outcome

theorem Error.external_of_blamesOperand (cause : Error) (blames : cause.blamesOperand = true) :
    cause.isInternal = false := by
  cases cause with
  | invalidArgument => exact blamesCurve_of_blamesOperand blames
  | invalidInput => rfl
  | noMatchingCase => rfl
  | noMatchingLabel => rfl
  | _ => cases blames

theorem Error.external_of_isCalledTooDeep (cause : Error) (deep : cause.isCalledTooDeep = true) :
    cause.isInternal = false := by
  cases cause with
  | calledTooDeep => rfl
  | _ => cases deep

variable {options : Options} {written : Value → Prop}

namespace Context.Emits

variable {context : Context}

/-- A call of the right form that is tried fails for the data or the limit, or has to wait. -/
theorem constant?_external (around : context.Emits options written) {term : Term}
    (wellFormed : term.WellFormed) : External (context.constant? term) := by
  have means : Confined (fun cause => cause.isUnresolved = true ∨ cause.isInternal = false)
      (term.meaning {} .constants) :=
    wellFormed.meaning_confined
      (fun cause blames => .inr (Error.external_of_blamesOperand cause blames))
      (Source.confined_constants fun _ => .inl rfl)
  rw [← around.registry] at means
  intro cause failed
  cases outcome : context.evaluator.evaluate 0 term with
  | ok value =>
      rw [constant?_of_ok outcome] at failed
      cases failed
  | error other =>
      rw [constant?_of_error outcome] at failed
      split at failed
      · cases failed
      · rename_i known
        cases failed
        rcases Evaluator.evaluate_confined means 0 cause outcome with (unresolved | fails) | deep
        · exact absurd unresolved known
        · exact fails
        · exact Error.external_of_isCalledTooDeep cause deep

theorem tryFold_external (around : context.Emits options written)
    {builtin : Builtin} {arguments : List Term}
    (wellFormed : (builtin.applied arguments).WellFormed) :
    External (context.tryFold (builtin.applied arguments)) := by
  unfold Context.tryFold
  split
  · exact .ok _
  · apply (around.constant?_external wellFormed).bind
    intro found _
    cases found with
    | some value => exact .ok _
    | none => exact .ok _

theorem fold_external (around : context.Emits options written)
    {builtin : Builtin} {arguments : List Term}
    (wellFormed : (builtin.applied arguments).WellFormed) :
    External (context.fold (builtin.applied arguments)) := by
  unfold Context.fold Builtin.applied
  dsimp only
  split
  · exact around.tryFold_external wellFormed
  · exact .ok _

end Context.Emits

/-- An argument with an emitted term, whose own compilation fails for what is wrong with it. -/
structure Argument.Blames (options : Options) (written : Value → Prop) (argument : Argument) :
    Prop extends argument.Emits options written where
  external : ∀ context, context.Emits options written → External (argument.compile context)

namespace Argument.Blames

variable {context : Context} {argument : Argument}

theorem expression_external (blames : argument.Blames options written)
    (around : context.Emits options written) : External (argument.expression context) := by
  unfold Argument.expression
  split
  · exact blames.external context around
  · exact .ok _

theorem valueOrExpression_external (blames : argument.Blames options written)
    (around : context.Emits options written) : External (argument.valueOrExpression context) := by
  unfold Argument.valueOrExpression
  split
  · exact blames.external context around
  · exact .ok _

/-- An operand fails as the argument does, or because of the class of its values. -/
theorem numberExpression_external (blames : argument.Blames options written)
    (around : context.Emits options written) (place : Place) :
    External (argument.numberExpression place context) := by
  apply (blames.expression_external around).bind
  intro term _
  split
  · exact .ok _
  · exact .error rfl
  · exact .ok _

/-- A known argument fails as the argument does, or because of its value, or for want of one. -/
theorem constantBy_external {α : Type} (blames : argument.Blames options written)
    (around : context.Emits options written) (place : Place) {expected : String}
    (operand : (expected == "an interpolation type") = false) (read? : Value → Option α) :
    External (argument.constantBy place expected read? context) := by
  have blamed (found : String) :
      (Error.invalidArgument place.operator place.position expected found).isInternal = false :=
    Error.external_of_blamesOperand _ (Error.blamesOperand_of_expected operand)
  have constant : External (argument.constant place expected context) := by
    apply (blames.valueOrExpression_external around).bind
    intro term compiled
    have emitted := blames.toEmits.valueOrExpression around compiled
    apply (around.constant?_external emitted.wellFormed).bind
    intro found _
    cases found with
    | some value => exact .ok _
    | none => exact .error (blamed _)
  apply constant.bind
  intro value _
  split
  · exact .ok _
  · exact .error (blamed _)

end Argument.Blames

theorem Argument.numberLiteral_external (argument : Argument) (place : Place) :
    External (argument.numberLiteral place) := by
  unfold Argument.numberLiteral
  split
  · exact .ok _
  · exact .error rfl

def Node.Blames (options : Options) (written : Value → Prop) (node : Node) : Prop :=
  ∀ argument ∈ node, argument.Blames options written

namespace Node

variable {node : Node}

theorem argument_external (node : Node) (place : Place) : External (node.argument place) := by
  unfold Node.argument
  split
  · exact .ok _
  · exact .error rfl

theorem expectOperator_external (node : Node) (expected : String) :
    External (node.expectOperator expected) := by
  unfold Node.expectOperator
  split
  · exact .ok _
  · exact .error rfl

theorem expectPairs_external (node : Node) (operator : String) (fixed : Nat) :
    External (node.expectPairs operator fixed) := by
  unfold Node.expectPairs
  split
  · exact .ok _
  · exact .error rfl

namespace Blames

theorem emits (blames : node.Blames options written) : node.Emits options written :=
  fun argument member => (blames argument member).toEmits

theorem argument (blames : node.Blames options written) {place : Place} {argument : Argument}
    (found : node.argument place = .ok argument) : argument.Blames options written :=
  blames argument (List.mem_of_getElem? (Node.getElem?_of_argument found))

theorem sublist (blames : node.Blames options written) {part : Node}
    (inside : part.Sublist node) : part.Blames options written :=
  fun argument member => blames argument (inside.subset member)

theorem tail (blames : node.Blames options written) : Node.Blames options written node.tail :=
  blames.sublist (List.tail_sublist node)

theorem drop (blames : node.Blames options written) (count : Nat) :
    Node.Blames options written (node.drop count) :=
  blames.sublist (List.drop_sublist count node)

end Blames

end Node

namespace Compiler

variable {context : Context} {node : Node}

/-- A step on the argument at a place fails as that argument does, or for want of it. -/
theorem argument_bind_external {α : Type} (blames : node.Blames options written) (place : Place)
    {next : Argument → Except Error α}
    (step : ∀ argument, node.argument place = .ok argument → argument.Blames options written →
      External (next argument)) : External (node.argument place >>= next) :=
  (node.argument_external place).bind fun argument found =>
    step argument found (blames.argument found)

/-! ## Formulas -/

theorem operands_external (blames : node.Blames options written)
    (around : context.Emits options written) (place : Place) :
    External (operands context place node) := by
  induction node generalizing place with
  | nil => exact .ok _
  | cons argument rest ih =>
      unfold operands
      apply ((blames argument List.mem_cons_self).numberExpression_external around place).bind
      intro first _
      exact (ih blames.tail (place.next 1)).bind fun _ _ => .ok _

/-- The call of a function on compiled operands is of the right form. -/
theorem arithmetic_wellFormed {builtin : Builtin} (numeric : builtin.isArithmetic = true)
    (accepted : builtin.arity.accepts (node.length - 1) = true)
    (emits : node.Emits options written) (around : context.Emits options written) {place : Place}
    {terms : List Term} (compiled : operands context place node.tail = .ok terms) :
    (builtin.applied terms).WellFormed := by
  obtain ⟨length, each⟩ := operands_emitted emits.tail around compiled
  refine .applied ?_ ?_ fun term member => (each term member).1.wellFormed
  · rw [length, List.length_tail]
    exact accepted
  · cases builtin with
    | unary function => trivial
    | binary function => trivial
    | list function => trivial
    | _ => cases numeric

theorem arithmetic_external {operator : Operator} {builtin : Builtin}
    (numeric : builtin.isArithmetic = true)
    (accepted : builtin.arity.accepts (node.length - 1) = true)
    (blames : node.Blames options written) (around : context.Emits options written) :
    External (arithmetic operator builtin node context) := by
  apply (operands_external blames.tail around _).bind
  intro terms compiled
  exact around.fold_external
    (arithmetic_wellFormed numeric accepted blames.emits around compiled)

theorem difference_external (accepted : Operator.subtract.arity.accepts (node.length - 1) = true)
    (blames : node.Blames options written) (around : context.Emits options written) :
    External (difference node context) := by
  obtain ⟨builtin, numeric, counted, same⟩ := difference_eq_arithmetic accepted
  rw [same]
  exact arithmetic_external numeric counted blames around

/-- Rounding an operand and writing it in digits fails for the data or the limit. -/
theorem digits_external {argument : Argument}
    (emits : argument.Emits options written) (around : context.Emits options written)
    {place : Place} {number : Term}
    (operand : argument.numberExpression place context = .ok number) :
    External (do
      let rounded ← context.fold ((Builtin.unary .round).applied [number])
      context.fold (Builtin.toHex.applied [rounded])) := by
  obtain ⟨emitted, kind⟩ := emits.numberExpression around operand
  have formed : ((Builtin.unary .round).applied [number]).WellFormed :=
    .applied rfl trivial (by simpa using emitted.wellFormed)
  apply (around.fold_external formed).bind
  intro rounded rounds
  have whole := rounded_emitted around emitted kind rounds
  exact around.fold_external (.applied rfl trivial (by simpa using whole.wellFormed))

theorem channel_external (position : Nat) (blames : node.Blames options written)
    (around : context.Emits options written) : External (channel node context position) := by
  apply argument_bind_external blames
  intro argument _ argumentBlames
  apply (argumentBlames.numberExpression_external around _).bind
  intro number operand
  exact digits_external argumentBlames.toEmits around operand

/-- The text of a colour is made of three compiled channels. -/
theorem rgb_wellFormed (emits : node.Emits options written)
    (around : context.Emits options written) {red green blue : Term}
    (first : channel node context 1 = .ok red) (second : channel node context 2 = .ok green)
    (third : channel node context 3 = .ok blue) :
    (Builtin.concatenate.applied [.literal (.string "#"), red, green, blue]).WellFormed := by
  have channels := And.intro (channel_emitted emits around first).wellFormed
    (And.intro (channel_emitted emits around second).wellFormed
      (channel_emitted emits around third).wellFormed)
  refine .applied rfl trivial ?_
  simpa using And.intro (Term.WellFormed.literal (.string "#")) channels

theorem rgb_external (blames : node.Blames options written)
    (around : context.Emits options written) : External (rgb node context) := by
  apply (channel_external 1 blames around).bind
  intro red first
  apply (channel_external 2 blames around).bind
  intro green second
  apply (channel_external 3 blames around).bind
  intro blue third
  exact around.fold_external (rgb_wellFormed blames.emits around first second third)

theorem expressions_external (blames : node.Blames options written)
    (around : context.Emits options written) : External (expressions context node) := by
  induction node with
  | nil => exact .ok _
  | cons argument rest ih =>
      unfold expressions
      apply ((blames argument List.mem_cons_self).expression_external around).bind
      intro first _
      exact (ih blames.tail).bind fun _ _ => .ok _

/-- The call of a function of texts on compiled arguments is of the right form. -/
theorem textual_wellFormed {builtin : Builtin}
    (textual : builtin ∈ [.concatenate, .lowercase, .uppercase])
    (accepted : builtin.arity.accepts (node.length - 1) = true)
    (emits : node.Emits options written) (around : context.Emits options written)
    {terms : List Term} (compiled : expressions context node.tail = .ok terms) :
    (builtin.applied terms).WellFormed := by
  obtain ⟨length, each⟩ := expressions_emitted emits.tail around compiled
  refine .applied ?_ ?_ fun term member => (each term member).wellFormed
  · rw [length, List.length_tail]
    exact accepted
  · simp only [List.mem_cons, List.not_mem_nil, or_false] at textual
    rcases textual with rfl | rfl | rfl <;> trivial

theorem textual_external {builtin : Builtin}
    (textual : builtin ∈ [.concatenate, .lowercase, .uppercase])
    (accepted : builtin.arity.accepts (node.length - 1) = true)
    (blames : node.Blames options written) (around : context.Emits options written) :
    External (Compiler.textual builtin node context) := by
  apply (expressions_external blames.tail around).bind
  intro terms compiled
  exact around.fold_external
    (textual_wellFormed textual accepted blames.emits around compiled)

/-! ## Comparison and logic -/

/-- The opposite of a compiled argument is of the right form. -/
theorem negation_wellFormed {argument : Argument} (emits : argument.Emits options written)
    (around : context.Emits options written) {inner : Term}
    (operand : argument.expression context = .ok inner) :
    (Builtin.not.applied [inner]).WellFormed :=
  .applied rfl trivial (by simpa using (emits.expression around operand).wellFormed)

theorem negation_external {operator : Operator} (blames : node.Blames options written)
    (around : context.Emits options written) : External (negation operator node context) := by
  apply argument_bind_external blames
  intro argument _ argumentBlames
  apply (argumentBlames.expression_external around).bind
  intro inner operand
  exact around.fold_external (negation_wellFormed argumentBlames.toEmits around operand)

theorem bothArguments_external {operator : Operator} (blames : node.Blames options written)
    (around : context.Emits options written) :
    External (bothArguments operator node context) := by
  apply argument_bind_external blames
  intro first _ firstBlames
  apply (firstBlames.expression_external around).bind
  intro left _
  apply argument_bind_external blames
  intro second _ secondBlames
  exact (secondBlames.expression_external around).bind fun _ _ => .ok _

/-- The comparison of compiled arguments is of the right form. -/
theorem comparison_wellFormed {operator : Operator} (order : Comparison)
    (emits : node.Emits options written) (around : context.Emits options written)
    {left right : Term} (both : bothArguments operator node context = .ok (left, right)) :
    ((Builtin.compare order).applied [left, right]).WellFormed := by
  have each := bothArguments_emitted emits around both
  refine .applied ?_ trivial fun argument member => (each argument member).wellFormed
  cases order <;> rfl

theorem comparison_external {operator : Operator} (order : Comparison)
    (blames : node.Blames options written) (around : context.Emits options written) :
    External (comparison operator order node context) := by
  apply (bothArguments_external blames around).bind
  rintro ⟨left, right⟩ both
  exact around.fold_external (comparison_wellFormed order blames.emits around both)

theorem equality_external {operator : Operator} {negated : Bool}
    (blames : node.Blames options written) (around : context.Emits options written) :
    External (equality operator negated node context) := by
  apply (bothArguments_external blames around).bind
  rintro ⟨left, right⟩ _
  dsimp only
  split
  · split
    · exact .ok _
    · exact .ok _
  · exact .ok _

theorem conditions_external {decisive : Bool} (blames : node.Blames options written)
    (around : context.Emits options written) (place : Place) :
    External (conditions decisive context place node) := by
  induction node generalizing place with
  | nil => exact .ok _
  | cons argument rest ih =>
      unfold conditions
      apply ((blames argument List.mem_cons_self).expression_external around).bind
      intro term _
      have others : External (do
          let terms ← conditions decisive context (place.next 1) rest
          return term :: terms) :=
        (ih blames.tail (place.next 1)).bind fun _ _ => .ok _
      dsimp only
      split
      · split
        · exact .ok _
        · exact others
      · split
        · exact others
        · exact others
        · exact .error rfl

theorem logical_external {operator : Operator} {builtin : Builtin} {decisive : Bool}
    (blames : node.Blames options written) (around : context.Emits options written) :
    External (logical operator builtin decisive node context) := by
  apply (conditions_external blames.tail around _).bind
  intro terms _
  split
  · exact .ok _
  · exact .ok _

/-! ## Choices -/

theorem branches_external (blames : node.Blames options written)
    (around : context.Emits options written) (place : Place) :
    External (branches context place node) := by
  induction place, node using branches.induct with
  | case1 place condition output rest ih =>
      unfold branches
      have chosen := (blames output (by simp)).expression_external around
      have others := ih (blames.drop 2)
      apply ((blames condition (by simp)).expression_external around).bind
      intro term _
      split
      · exact chosen.bind fun _ _ => .ok _
      · exact others
      · exact .error rfl
      · apply chosen.bind
        intro _ _
        exact others.bind fun _ _ => .ok _
  | case2 place default =>
      exact ((blames default (by simp)).expression_external around).bind fun _ _ => .ok _
  | case3 place => exact .ok _

theorem case_external (blames : node.Blames options written)
    (around : context.Emits options written) : External (case node context) := by
  apply (branches_external blames.tail around _).bind
  intro terms _
  split
  · exact .error rfl
  · exact .ok _
  · exact .ok _

theorem candidates_external (blames : node.Blames options written)
    (around : context.Emits options written) : External (candidates context node) := by
  induction node with
  | nil => exact .ok _
  | cons argument rest ih =>
      unfold candidates
      apply ((blames argument List.mem_cons_self).expression_external around).bind
      intro term _
      split
      · exact ih blames.tail
      · exact .ok _
      · exact (ih blames.tail).bind fun _ _ => .ok _

theorem coalesce_external (blames : node.Blames options written)
    (around : context.Emits options written) : External (coalesce node context) := by
  apply (candidates_external blames.tail around).bind
  intro terms _
  split
  · exact .ok _
  · exact .ok _
  · exact .ok _

theorem selectKnown_external (input : Value) (blames : node.Blames options written)
    (around : context.Emits options written) (place : Place) :
    External (selectKnown input context place node) := by
  induction place, node using selectKnown.induct with
  | case1 place label output rest ih =>
      unfold selectKnown
      have matched : External (Label.matchesInput place.operator place.position label.raw input) :=
        (Label.check_confined Error.external_of_blamesOperand _ _ _).bind fun _ _ => .ok _
      apply matched.bind
      intro covers _
      split
      · exact (blames output (by simp)).expression_external around
      · exact ih (blames.drop 2)
  | case2 place default => exact (blames default (by simp)).expression_external around
  | case3 place => exact .error rfl

theorem labelled_external (blames : node.Blames options written)
    (around : context.Emits options written) (place : Place) :
    External (labelled context place node) := by
  induction place, node using labelled.induct with
  | case1 place label output rest ih =>
      unfold labelled
      apply (Label.check_confined Error.external_of_blamesOperand _ _ _).bind
      intro _ _
      apply ((blames output (by simp)).expression_external around).bind
      intro chosen _
      exact (ih (blames.drop 2)).bind fun _ _ => .ok _
  | case2 place default =>
      exact ((blames default (by simp)).expression_external around).bind fun _ _ => .ok _
  | case3 place => exact .ok _

theorem checkInputKind_external (kind : Option Kind) : External (checkInputKind kind) := by
  unfold checkInputKind
  split
  · exact .ok _
  · exact .ok _
  · exact .ok _
  · exact .error rfl

theorem select_external (blames : node.Blames options written)
    (around : context.Emits options written) : External (select node context) := by
  apply argument_bind_external blames
  intro argument _ argumentBlames
  apply (argumentBlames.expression_external around).bind
  intro input _
  split
  · apply (Label.checkInput_confined Error.external_of_blamesOperand _).bind
    intro _ _
    exact selectKnown_external _ (blames.drop 2) around _
  · apply (checkInputKind_external _).bind
    intro _ _
    exact (labelled_external (blames.drop 2) around _).bind fun _ _ => .ok _

/-! ## Ramps -/

theorem stops_external (blames : node.Blames options written)
    (around : context.Emits options written) (place : Place) (previous : Option Double) :
    External (stops context place previous node) := by
  induction place, previous, node using stops.induct with
  | case1 place previous stop output rest ih =>
      unfold stops
      apply (stop.numberLiteral_external place).bind
      intro bound _
      split
      · exact .error rfl
      · apply ((blames output (by simp)).expression_external around).bind
        intro chosen _
        exact (ih bound (blames.drop 2)).bind fun _ _ => .ok _
  | case2 node place previous short =>
      rw [stops]
      · exact .ok _
      · exact short

/-- The call of a step function on compiled arguments is of the right form. -/
theorem step_wellFormed (emits : node.Emits options written)
    (around : context.Emits options written) {argument output : Argument}
    (argumentEmits : argument.Emits options written) (outputEmits : output.Emits options written)
    {place stopsPlace : Place} {input first : Term} {others : List Term}
    (operand : argument.numberExpression place context = .ok input)
    (chosen : output.expression context = .ok first)
    (tail : stops context stopsPlace none (node.drop 3) = .ok others) :
    (Builtin.step.applied (input :: first :: others)).WellFormed := by
  have inputFormed := (argumentEmits.numberExpression around operand).1.wellFormed
  have outputFormed := (outputEmits.expression around chosen).wellFormed
  obtain ⟨stops, each, _⟩ := stops_emitted (emits.drop 3) around tail
  refine .applied ?_ ⟨_, _, _, rfl, stops⟩ ?_
  · exact Builtin.accepts_of_atLeast rfl (by simp)
  · simpa using And.intro inputFormed
      (And.intro outputFormed fun term member => (each term member).wellFormed)

theorem step_external (blames : node.Blames options written)
    (around : context.Emits options written) : External (step node context) := by
  apply (node.expectPairs_external _ _).bind
  intro _ _
  apply argument_bind_external blames
  intro argument _ argumentBlames
  apply (argumentBlames.numberExpression_external around _).bind
  intro input operand
  apply argument_bind_external blames
  intro output _ outputBlames
  apply (outputBlames.expression_external around).bind
  intro first chosen
  apply (stops_external (blames.drop 3) around _ none).bind
  intro others tail
  exact around.tryFold_external (step_wellFormed blames.emits around
    argumentBlames.toEmits outputBlames.toEmits operand chosen tail)

/-- The call of an interpolation on compiled arguments is of the right form. -/
theorem interpolate_wellFormed
    (accepted : Operator.interpolate.arity.accepts (node.length - 1) = true)
    (emits : node.Emits options written) (around : context.Emits options written)
    {shape : Value} {curve : Curve} (reads : Curve.ofValue? shape = some curve)
    {argument : Argument} (argumentEmits : argument.Emits options written)
    {place stopsPlace : Place} {input : Term} {others : List Term}
    (operand : argument.numberExpression place context = .ok input)
    (tail : stops context stopsPlace none (node.drop 3) = .ok others) :
    (Builtin.interpolate.applied (.literal curve.toValue :: input :: others)).WellFormed := by
  have inputFormed := (argumentEmits.numberExpression around operand).1.wellFormed
  obtain ⟨stops, each, occupied⟩ := stops_emitted (emits.drop 3) around tail
  have several := stops.two_le_length (occupied (two_le_of_interpolate accepted))
  obtain ⟨again, readable⟩ := Curve.readable_toValue reads
  refine .applied ?_ ⟨_, again, _, _, rfl, readable, stops⟩ ?_
  · exact Builtin.accepts_of_atLeast rfl (Nat.add_le_add_right several 2)
  · simpa using And.intro (Term.WellFormed.literal curve.toValue)
      (And.intro inputFormed fun term member => (each term member).wellFormed)

theorem interpolate_external
    (accepted : Operator.interpolate.arity.accepts (node.length - 1) = true)
    (blames : node.Blames options written) (around : context.Emits options written) :
    External (interpolate node context) := by
  apply (node.expectPairs_external _ _).bind
  intro _ _
  apply argument_bind_external blames
  intro shape _ _
  split
  · exact .error rfl
  · rename_i curve reads
    apply argument_bind_external blames
    intro argument _ argumentBlames
    apply (argumentBlames.numberExpression_external around _).bind
    intro input operand
    apply (stops_external (blames.drop 3) around _ none).bind
    intro others tail
    exact around.tryFold_external
      (interpolate_wellFormed accepted blames.emits around reads argumentBlames.toEmits operand
        tail)

/-! ## Variables -/

theorem variableName_external (argument : Argument) (place : Place) :
    External (variableName argument place) := by
  unfold variableName
  split
  · exact .ok _
  · exact .error rfl

theorem bindings_external (blames : node.Blames options written)
    (around : context.Emits options written) (place : Place) (scope : Scope) :
    External (bindings context place scope node) := by
  induction place, scope, node using bindings.induct with
  | case1 place scope name value rest ih =>
      unfold bindings
      apply (variableName_external name place).bind
      intro bound _
      apply ((blames value (by simp)).expression_external around).bind
      intro term _
      exact ih bound term (blames.drop 2)
  | case2 node place scope short =>
      rw [bindings]
      · exact .ok _
      · exact short

theorem letIn_external (blames : node.Blames options written)
    (around : context.Emits options written) : External (letIn node context) := by
  apply (node.expectPairs_external _ _).bind
  intro _ _
  have inside : Node.Blames options written (node.dropLast.drop 1) :=
    blames.sublist ((List.drop_sublist 1 _).trans (List.dropLast_sublist node))
  apply (bindings_external inside around _ []).bind
  intro scope bound
  have held := bindings_emitted inside.emits around (by simp) bound
  apply argument_bind_external blames
  intro body _ bodyBlames
  exact bodyBlames.expression_external (around.push held)

theorem var_external : External (var node context) := by
  apply (node.argument_external _).bind
  intro argument _
  apply (variableName_external argument _).bind
  intro name _
  split
  · exact .ok _
  · exact .error rfl

/-! ## Access to data -/

theorem itemAt_external (blames : node.Blames options written)
    (around : context.Emits options written) : External (itemAt node context) := by
  apply argument_bind_external blames
  intro first _ firstBlames
  apply (firstBlames.constantBy_external around _ (by rfl) _).bind
  intro index _
  apply argument_bind_external blames
  intro second _ secondBlames
  apply (secondBlames.constantBy_external around _ (by rfl) _).bind
  intro items _
  split
  · split
    · exact .ok _
    · exact .error rfl
  · exact .error rfl

theorem keyed_external {operator : Operator} {ofFeature : String → Term}
    {ofObject : String → Entries → Value} (blames : node.Blames options written)
    (around : context.Emits options written) :
    External (keyed operator ofFeature ofObject node context) := by
  apply argument_bind_external blames
  intro first _ firstBlames
  apply (firstBlames.constantBy_external around _ (by rfl) _).bind
  intro key _
  split
  · exact .ok _
  · apply argument_bind_external blames
    intro second _ secondBlames
    exact (secondBlames.constantBy_external around _ (by rfl) _).bind fun _ _ => .ok _

theorem length_external (blames : node.Blames options written)
    (around : context.Emits options written) : External (length node context) := by
  apply argument_bind_external blames
  intro argument _ argumentBlames
  apply (argumentBlames.valueOrExpression_external around).bind
  intro term _
  split
  · apply (Conversion.lengthOf_confined Error.external_of_blamesOperand _ _).bind
    intro _ _
    exact .ok _
  · split
    · exact .ok _
    · exact .ok _
    · exact .error rfl
    · exact .ok _

end Compiler

/-- The rule of an operator fails for what is wrong with an expression, if its arguments do. -/
theorem Operator.rule_external {operator : Operator} {node : Node} {context : Context}
    (accepted : operator.arity.accepts (node.length - 1) = true)
    (blames : node.Blames options written) (around : context.Emits options written) :
    External (operator.rule node context) := by
  cases operator with
  | rgb => exact Compiler.rgb_external blames around
  | not => exact Compiler.negation_external blames around
  | equal | notEqual => exact Compiler.equality_external blames around
  | less | lessOrEqual | greater | greaterOrEqual =>
      exact Compiler.comparison_external _ blames around
  | all | any => exact Compiler.logical_external blames around
  | case => exact Compiler.case_external blames around
  | coalesce => exact Compiler.coalesce_external blames around
  | select => exact Compiler.select_external blames around
  | «at» => exact Compiler.itemAt_external blames around
  | get | has => exact Compiler.keyed_external blames around
  | length => exact Compiler.length_external blames around
  | subtract => exact Compiler.difference_external accepted blames around
  | interpolate => exact Compiler.interpolate_external accepted blames around
  | step => exact Compiler.step_external blames around
  | concat | downcase | upcase =>
      exact Compiler.textual_external (by simp) accepted blames around
  | letIn => exact Compiler.letIn_external blames around
  | var => exact Compiler.var_external
  | geometryType | id | properties | heatmapDensity | e | pi | ln2 | zoom => exact .ok _
  | rgba | toRgba | array | boolean | collator | format | literal | number | object | string
  | toBoolean | toColor | toNumber | toText | typeOf => exact .error rfl
  | _ => exact Compiler.arithmetic_external rfl accepted blames around

/-- An expression fails for what is wrong with it, if its arguments do. -/
theorem Node.compile_external {node : Node} {context : Context}
    (blames : node.Blames options written) (around : context.Emits options written) :
    External (node.compile context) := by
  unfold Node.compile
  split
  · exact .error rfl
  · split
    · exact .error rfl
    · rename_i operator _
      unfold Arity.check
      split
      · rename_i accepted
        split
        · exact .error rfl
        · apply (node.expectOperator_external _).bind
          intro _ _
          exact Operator.rule_external accepted blames around.deeper
      · exact .error rfl

/-- Every compilation of a written value fails for what is wrong with the value. -/
theorem Value.compile_external (hereditary : Value.Hereditary written) {value : Value}
    (held : written value) {context : Context} (around : context.Emits options written) :
    External (value.compile context) := by
  induction value generalizing context with
  | array items ih =>
      unfold Value.compile
      refine Node.compile_external ?_ around
      rw [Node.ofItems_eq_map]
      intro argument member
      obtain ⟨item, present, rfl⟩ := List.mem_map.mp member
      have itemHeld := hereditary.items items held item present
      refine ⟨⟨itemHeld, ?_⟩, ?_⟩
      · intro context term around compiled
        exact Value.compile_emitted hereditary itemHeld around compiled
      · intro context around
        exact ih item present itemHeld around
  | _ =>
      unfold Value.compile
      exact .ok _

/-- Every document fails for what is wrong with it. -/
theorem Compiler.compile_external (options : Options) (document : Value) :
    External (Compiler.compile { options } document) := by
  have compiles : External (document.compile { options }) :=
    Value.compile_external Value.hereditary_true trivial .document
  cases document with
  | array items =>
      unfold Value.compile at compiles
      exact compiles
  | _ => exact .error rfl

/--
Compiled terms are well formed and their errors are confined.  No document makes the compiler fail
for a datum that is not known yet or for a function that is not registered.  The term of a
document that compiles is well formed, and for every feature and environment, at every depth and
under every limit, it evaluates to a value, or it fails for the data or for the limit.
-/
theorem compilation_confined (options : Options) (document : Value) :
    (∀ datum, Compiler.compile { options } document ≠ .error (.unresolved datum)) ∧
    (∀ name, Compiler.compile { options } document ≠ .error (.unknownFunction name)) ∧
    ∀ term, Compiler.compile { options } document = .ok term →
      term.WellFormed ∧
      ∀ (feature : Feature) (environment : Entries) (limit depth : Nat),
        (∃ value, Evaluator.evaluate { source := .scope feature environment, limit } depth term =
          .ok value) ∨
        ∃ cause, Evaluator.evaluate { source := .scope feature environment, limit } depth term =
          .error cause ∧ (cause.blamesData = true ∨ cause.isCalledTooDeep = true) := by
  have external := Compiler.compile_external options document
  refine ⟨?_, ?_, ?_⟩
  · intro datum failed
    cases external _ failed
  · intro name failed
    cases external _ failed
  · intro term compiled
    have wellFormed :=
      (Compiler.compile_emitted Value.hereditary_true trivial compiled).wellFormed
    refine ⟨wellFormed, ?_⟩
    intro feature environment limit depth
    let evaluator : Evaluator := { source := .scope feature environment, limit }
    have means := wellFormed.meaning_confined (fun _ => Error.blamesData_of_blamesOperand)
      (Source.confined_scope feature environment)
    have evaluates := evaluator.evaluate_confined means depth
    cases outcome : evaluator.evaluate depth term with
    | ok value => exact .inl ⟨value, rfl⟩
    | error cause => exact .inr ⟨cause, rfl, evaluates cause outcome⟩

/-- The opposite of a property is well formed; without the property it fails for the data. -/
theorem compilation_confined_case :
    (Builtin.not.applied [.property "x"]).WellFormed ∧
      ((∃ value, Evaluator.evaluate { source := .scope {} [], limit := 512 } 0
          (Builtin.not.applied [.property "x"]) = .ok value) ∨
        ∃ cause, Evaluator.evaluate { source := .scope {} [], limit := 512 } 0
          (Builtin.not.applied [.property "x"]) = .error cause ∧
            (cause.blamesData = true ∨ cause.isCalledTooDeep = true)) := by
  obtain ⟨_, _, compiles⟩ := compilation_confined {}
    (.array [.string "!", .array [.string "get", .string "x"]])
  obtain ⟨wellFormed, evaluates⟩ := compiles (Builtin.not.applied [.property "x"]) rfl
  exact ⟨wellFormed, evaluates {} [] 512 0⟩

end MapStyle
