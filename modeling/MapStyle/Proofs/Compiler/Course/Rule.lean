import MapStyle.Compiler.Course.Rule
import MapStyle.Proofs.Compiler.Course.Argument

/-!
# Rules by position come to what rules of lists come to

A rule that counts through the positions of an expression comes to what it comes to by recursion
on the list of its arguments, however many there are.  Each loop stands at the position from which
on the arguments are still to be dealt with, and each induction is on these arguments.
-/

namespace MapStyle

namespace Course

/-- A course that goes on unless something is known to be no boolean. -/
theorem Returns.judged {α : Type} {course : Course Context α} {context : Context}
    {result : Except Error α} (others : Returns course context result) (place : Place)
    (known : Option Kind) :
    Returns
      (match known with
        | none => course
        | some .boolean => course
        | some kind => place.complain "a boolean" kind.name) context
      (match known with
        | none => result
        | some .boolean => result
        | some kind => place.complain "a boolean" kind.name) := by
  cases known with
  | none => exact others
  | some kind =>
      cases kind with
      | boolean => exact others
      | _ => exact .lift _

/-- The function that measures a term is found from its class alone. -/
theorem Returns.measured (context : Context) (term : Term) (known : Option Kind) :
    Returns
      (match known with
        | some .string => Pure.pure (Builtin.textLength.applied [term])
        | some .array => Pure.pure (Builtin.listSize.applied [term])
        | some kind =>
            Place.complain ⟨Operator.length.name, 1⟩ "a string or array" kind.name
        | none => Pure.pure (Builtin.length.applied [term])) context
      (match known with
        | some .string => Pure.pure (Builtin.textLength.applied [term])
        | some .array => Pure.pure (Builtin.listSize.applied [term])
        | some kind =>
            Place.complain ⟨Operator.length.name, 1⟩ "a string or array" kind.name
        | none => Pure.pure (Builtin.length.applied [term])) := by
  cases known with
  | none => exact .pure _
  | some kind =>
      cases kind with
      | string | array => exact .pure _
      | _ => exact .lift _

open Inquiry (getElem?_of_drop)

variable {node : Node} {plain rest : MapStyle.Node} (same : node.Matches plain)
  (context : Context)

include same

/-! ## Formulas -/

theorem operands_returns (operator : Operator) {position : Nat}
    (behind : plain.drop position = rest) :
    Returns
      (collect 1 (fun position => node.numberExpressionAt ⟨operator.name, position⟩) position
        rest.length) context
      (Compiler.operands context ⟨operator.name, position⟩ rest) := by
  induction rest generalizing position with
  | nil => exact .pure []
  | cons argument rest ih =>
      obtain ⟨present, later⟩ := getElem?_of_drop behind
      exact ((same.numberExpressionAt _ context).found present).bind fun _ _ =>
        (ih later).bind fun _ _ => .pure _

theorem arithmetic_returns (operator : Operator) (builtin : Builtin) :
    Returns (arithmetic operator builtin node) context
      (Compiler.arithmetic operator builtin plain context) := by
  unfold arithmetic
  rw [same.length_eq, ← List.length_tail]
  exact (operands_returns same context operator List.drop_one).bind fun _ _ => fold_returns _ _

theorem channel_returns (position : Nat) :
    Returns (channel node position) context (Compiler.channel plain context position) :=
  (same.numberExpressionAt _ context).bindAt fun _ =>
    (fold_returns _ context).bind fun _ _ => fold_returns _ _

theorem rgb_returns : Returns (rgb node) context (Compiler.rgb plain context) :=
  (channel_returns same context 1).bind fun _ _ =>
    (channel_returns same context 2).bind fun _ _ =>
      (channel_returns same context 3).bind fun _ _ => fold_returns _ _

theorem expressions_returns (operator : Operator) {position : Nat}
    (behind : plain.drop position = rest) :
    Returns
      (collect 1 (fun position => node.expressionAt ⟨operator.name, position⟩) position
        rest.length) context
      (Compiler.expressions context rest) := by
  induction rest generalizing position with
  | nil => exact .pure []
  | cons argument rest ih =>
      obtain ⟨present, later⟩ := getElem?_of_drop behind
      exact ((same.expressionAt _ context).found present).bind fun _ _ =>
        (ih later).bind fun _ _ => .pure _

theorem textual_returns (operator : Operator) (builtin : Builtin) :
    Returns (textual operator builtin node) context
      (Compiler.textual builtin plain context) := by
  unfold textual
  rw [same.length_eq, ← List.length_tail]
  exact (expressions_returns same context operator List.drop_one).bind fun _ _ => fold_returns _ _

/-! ## Comparison and logic -/

theorem negation_returns (operator : Operator) :
    Returns (negation operator node) context (Compiler.negation operator plain context) :=
  (same.expressionAt _ context).bindAt fun _ => fold_returns _ _

theorem bothArguments_returns (operator : Operator) :
    Returns (bothArguments operator node) context
      (Compiler.bothArguments operator plain context) :=
  (same.expressionAt _ context).bindAt fun _ =>
    (same.expressionAt _ context).bindAt fun _ => .pure _

theorem comparison_returns (operator : Operator) (order : Comparison) :
    Returns (comparison operator order node) context
      (Compiler.comparison operator order plain context) :=
  (bothArguments_returns same context operator).bind fun _ _ => fold_returns _ _

theorem equality_returns (operator : Operator) (negated : Bool) :
    Returns (equality operator negated node) context
      (Compiler.equality operator negated plain context) := by
  refine (bothArguments_returns same context operator).bind fun both _ => ?_
  obtain ⟨left, right⟩ := both
  dsimp only
  cases left.value? with
  | none => exact .pure _
  | some a =>
      cases right.value? with
      | none => exact .pure _
      | some b =>
          refine (Returns.ask _).goOn ?_
          split
          · exact .pure _
          · exact .pure _

theorem conditions_returns (decisive : Bool) (operator : Operator) {position : Nat}
    (behind : plain.drop position = rest) :
    Returns (conditions decisive operator node position rest.length) context
      (Compiler.conditions decisive context ⟨operator.name, position⟩ rest) := by
  induction rest generalizing position with
  | nil => exact .pure []
  | cons argument rest ih =>
      obtain ⟨present, later⟩ := getElem?_of_drop behind
      refine ((same.expressionAt _ context).found present).bind fun term _ => ?_
      have others := (ih later).bind fun terms _ => Returns.pure (term :: terms)
      have judged := others.judged ⟨operator.name, position⟩ (context.kind? term)
      cases term with
      | literal value =>
          cases value with
          | boolean flag =>
              dsimp only
              split
              · exact .pure _
              · exact others
          | _ => exact (kind?_returns _ context).goOn judged
      | _ => exact (kind?_returns _ context).goOn judged

/-- The count of arguments is taken from an expression that is headed by its operator's name. -/
theorem logical_returns (operator : Operator) (builtin : Builtin) (decisive : Bool)
    (headed : 1 ≤ plain.length) :
    Returns (logical operator builtin decisive node) context
      (Compiler.logical operator builtin decisive plain context) := by
  unfold logical
  rw [same.length_eq]
  refine (Returns.minus headed).goOn ?_
  rw [← List.length_tail]
  refine (conditions_returns same context decisive operator List.drop_one).bind fun terms _ => ?_
  split
  · exact .pure _
  · exact .pure _

/-! ## Choices -/

theorem branches_returns {position : Nat} (behind : plain.drop position = rest) :
    Returns (branches node position) context
      (Compiler.branches context ⟨Operator.case.name, position⟩ rest) := by
  induction rest using List.twoStepInduction generalizing position with
  | nil =>
      have ended := same.not_lt_of_drop behind
      rw [branches, if_neg (by omega), if_neg ended]
      exact .pure []
  | singleton default =>
      obtain ⟨present, later⟩ := getElem?_of_drop behind
      have ended := same.not_lt_of_drop later
      rw [branches, if_neg ended, if_pos (same.lt_of_getElem? present)]
      exact ((same.expressionAt _ context).found present).bind fun _ _ => .pure _
  | cons_cons condition output rest ih _ =>
      obtain ⟨present, later⟩ := getElem?_of_drop behind
      obtain ⟨behindIt, last⟩ := getElem?_of_drop later
      have others := ih last
      have chosen := (same.expressionAt ⟨Operator.case.name, position + 1⟩ context).found behindIt
      have both (term : Term) := chosen.bind fun output _ => others.bind fun others _ =>
        Returns.pure (term :: output :: others)
      rw [branches, if_pos (same.lt_of_getElem? behindIt)]
      refine ((same.expressionAt _ context).found present).bind fun term _ => ?_
      cases term with
      | literal value =>
          cases value with
          | boolean flag =>
              cases flag with
              | true => exact chosen.bind fun _ _ => .pure _
              | false => exact others
          | _ => exact .lift _
      | _ => exact both _

theorem case_returns : Returns (case node) context (Compiler.case plain context) := by
  refine (branches_returns same context List.drop_one).bind fun terms _ => ?_
  match terms with
  | [] => exact .throw _
  | [term] => exact .pure _
  | _ :: _ :: _ => exact .pure _

theorem candidates_returns {position : Nat} (behind : plain.drop position = rest) :
    Returns (candidates node position rest.length) context
      (Compiler.candidates context rest) := by
  induction rest generalizing position with
  | nil => exact .pure []
  | cons argument rest ih =>
      obtain ⟨present, later⟩ := getElem?_of_drop behind
      have others := ih later
      refine ((same.expressionAt _ context).found present).bind fun term _ => ?_
      cases term with
      | literal value =>
          cases value with
          | null => exact others
          | _ => exact .pure _
      | _ => exact others.bind fun _ _ => .pure _

theorem coalesce_returns : Returns (coalesce node) context (Compiler.coalesce plain context) := by
  unfold coalesce
  rw [same.length_eq, ← List.length_tail]
  refine (candidates_returns same context List.drop_one).bind fun terms _ => ?_
  cases terms with
  | nil => exact .pure _
  | cons first rest => cases first <;> cases rest <;> exact .pure _

theorem selectKnown_returns (input : Value) {position : Nat}
    (behind : plain.drop position = rest) :
    Returns (selectKnown input node position) context
      (Compiler.selectKnown input context ⟨Operator.select.name, position⟩ rest) := by
  induction rest using List.twoStepInduction generalizing position with
  | nil =>
      have ended := same.not_lt_of_drop behind
      rw [selectKnown, if_neg (by omega), if_neg ended]
      exact .throw _
  | singleton default =>
      obtain ⟨present, later⟩ := getElem?_of_drop behind
      have ended := same.not_lt_of_drop later
      rw [selectKnown, if_neg ended, if_pos (same.lt_of_getElem? present)]
      exact (same.expressionAt _ context).found present
  | cons_cons label output rest ih _ =>
      obtain ⟨present, later⟩ := getElem?_of_drop behind
      obtain ⟨behindIt, last⟩ := getElem?_of_drop later
      rw [selectKnown, if_pos (same.lt_of_getElem? behindIt)]
      -- A label is compared as it is written: only the output behind it is compiled.
      refine same.argumentAt_found ⟨Operator.select.name, position⟩ context present
        fun written both => ?_
      rw [both.raw]
      refine (Returns.lift _).bind fun found _ => ?_
      cases found with
      | true =>
          exact (same.expressionAt ⟨Operator.select.name, position + 1⟩ context).found behindIt
      | false => exact ih last

theorem labelled_returns {position : Nat} (behind : plain.drop position = rest) :
    Returns (labelled node position) context
      (Compiler.labelled context ⟨Operator.select.name, position⟩ rest) := by
  induction rest using List.twoStepInduction generalizing position with
  | nil =>
      have ended := same.not_lt_of_drop behind
      rw [labelled, if_neg (by omega), if_neg ended]
      exact .pure []
  | singleton default =>
      obtain ⟨present, later⟩ := getElem?_of_drop behind
      have ended := same.not_lt_of_drop later
      rw [labelled, if_neg ended, if_pos (same.lt_of_getElem? present)]
      exact ((same.expressionAt _ context).found present).bind fun _ _ => .pure _
  | cons_cons label output rest ih _ =>
      obtain ⟨present, later⟩ := getElem?_of_drop behind
      obtain ⟨behindIt, last⟩ := getElem?_of_drop later
      have chosen :=
        (same.expressionAt ⟨Operator.select.name, position + 1⟩ context).found behindIt
      rw [labelled, if_pos (same.lt_of_getElem? behindIt)]
      refine same.argumentAt_found ⟨Operator.select.name, position⟩ context present
        fun written both => ?_
      rw [both.raw]
      exact (Returns.lift _).bind fun _ _ => chosen.bind fun _ _ =>
        (ih last).bind fun _ _ => .pure _

theorem select_returns : Returns (select node) context (Compiler.select plain context) := by
  refine (same.expressionAt _ context).bindAt fun input => ?_
  have outputs := labelled_returns same context (show plain.drop 2 = plain.drop 2 from rfl)
  have labels := (Returns.lift (Compiler.checkInputKind (context.kind? input))).bind fun _ _ =>
    outputs.bind fun others _ => Returns.pure (Builtin.select.applied (input :: others))
  cases input with
  | literal value =>
      exact (Returns.lift _).bind fun _ _ => selectKnown_returns same context value rfl
  | _ => exact (kind?_returns _ context).goOn labels

/-! ## Access to data -/

theorem itemOf_returns : Returns (itemOf node) context (Compiler.itemAt plain context) := by
  refine (same.constantByAt _ context _ _).bindAt fun index => ?_
  refine (same.constantByAt _ context _ _).bindAt fun items => ?_
  split
  · cases Compiler.itemAt? items index.toInt64 with
    | some value => exact .pure _
    | none => exact .throw _
  · exact .lift _

theorem keyed_returns (operator : Operator) (ofFeature : String → Term)
    (ofObject : String → Entries → Value) :
    Returns (keyed operator ofFeature ofObject node) context
      (Compiler.keyed operator ofFeature ofObject plain context) := by
  unfold keyed
  rw [same.length_eq]
  refine (same.constantByAt _ context _ _).bindAt fun key => ?_
  split
  · exact .pure _
  · exact (same.constantByAt _ context _ _).bindAt fun entries => .pure _

theorem length_returns : Returns (length node) context (Compiler.length plain context) := by
  refine (same.valueOrExpressionAt _ context).bindAt fun term => ?_
  have measured := Returns.measured context term (context.kind? term)
  cases term with
  | literal value => exact (Returns.lift _).bind fun _ _ => .pure _
  | _ => exact (kind?_returns _ context).goOn measured

/-! ## Ramps -/

/-- Behind the last stop there is an output, since stops and outputs come in pairs. -/
theorem stopsFrom_returns (operator : Operator) {position : Nat} (previous : Option Double)
    (behind : plain.drop position = rest) (paired : rest.length % 2 = 0) :
    Returns (stopsFrom operator node position previous) context
      (Compiler.stops context ⟨operator.name, position⟩ previous rest) := by
  induction rest using List.twoStepInduction generalizing position previous with
  | nil =>
      rw [stopsFrom, if_neg (same.not_lt_of_drop behind)]
      exact .pure []
  | singleton last => cases paired
  | cons_cons stop output rest ih _ =>
      obtain ⟨present, later⟩ := getElem?_of_drop behind
      obtain ⟨behindIt, last⟩ := getElem?_of_drop later
      rw [stopsFrom, if_pos (same.lt_of_getElem? present)]
      refine ((same.numberLiteralAt _ context).found present).bind fun bound _ => ?_
      split
      · exact .lift _
      · have left : rest.length % 2 = 0 := by
          simp only [List.length_cons] at paired
          omega
        exact ((same.expressionAt ⟨operator.name, position + 1⟩ context).found behindIt).bind
          fun _ _ => (ih (some bound) last left).bind fun _ _ => .pure _

/-- There is room for what stands behind the arguments that have been read. -/
theorem stops_returns (operator : Operator) {first : Nat} (within : first ≤ plain.length)
    (paired : (plain.length - first) % 2 = 0) :
    Returns (stops operator node first) context
      (Compiler.stops context ⟨operator.name, first⟩ none (plain.drop first)) := by
  unfold stops
  rw [same.length_eq]
  refine (Returns.minus within).goOn ?_
  exact stopsFrom_returns same context operator none rfl (by rw [List.length_drop]; exact paired)

/-- An expression of a name alone is no pair short, and has no room for stops. -/
theorem step_returns : Returns (step node) context (Compiler.step plain context) := by
  refine (same.expectPairs context _ 2).bind fun _ passes => ?_
  refine (same.numberExpressionAt _ context).bindAt fun input => ?_
  refine (same.expressionAt _ context).bindWithin fun within first => ?_
  exact (stops_returns same context .step within (MapStyle.Node.even_of_expectPairs passes)).bind
    fun _ _ => tryFold_returns _ _

theorem interpolate_returns :
    Returns (interpolate node) context (Compiler.interpolate plain context) := by
  refine (same.expectPairs context _ 2).bind fun _ passes => ?_
  refine same.argumentAt_bind _ context fun written shape both _ => ?_
  rw [both.raw]
  cases Curve.ofValue? shape.raw with
  | none => exact .lift _
  | some curve =>
      refine (same.numberExpressionAt _ context).bindWithin fun within input => ?_
      exact (stops_returns same context .interpolate within
        (MapStyle.Node.even_of_expectPairs passes)).bind fun _ _ => tryFold_returns _ _

/-! ## Variables -/

/-- The names and values before the body come in pairs, so a name has its value behind it. -/
theorem bindings_returns {position : Nat} (scope : Scope)
    (behind : plain.dropLast.drop position = rest) (paired : rest.length % 2 = 0) :
    Returns (bindings node (plain.length - 1) position scope) context
      (Compiler.bindings context ⟨Operator.letIn.name, position⟩ scope rest) := by
  induction rest using List.twoStepInduction generalizing position scope with
  | nil =>
      have ended : ¬position < plain.length - 1 := by
        rw [← List.length_dropLast, Nat.not_lt]
        exact List.drop_eq_nil_iff.mp behind
      rw [bindings, if_neg ended]
      exact .pure scope
  | singleton last => cases paired
  | cons_cons name value rest ih _ =>
      obtain ⟨present, later⟩ := getElem?_of_drop behind
      obtain ⟨behindIt, last⟩ := getElem?_of_drop later
      rw [List.getElem?_dropLast] at present behindIt
      obtain ⟨within, present⟩ := Option.ite_none_right_eq_some.mp present
      obtain ⟨_, behindIt⟩ := Option.ite_none_right_eq_some.mp behindIt
      have left : rest.length % 2 = 0 := by
        simp only [List.length_cons] at paired
        omega
      rw [bindings, if_pos within]
      exact ((same.variableNameAt _ context).found present).bind fun bound _ =>
        ((same.expressionAt ⟨Operator.letIn.name, position + 1⟩ context).found behindIt).bind
          fun term _ => ih ((bound, term) :: scope) last left

/-- The body stands at the last position, which is that of the name if there is nothing else. -/
theorem letIn_returns (headed : 1 ≤ plain.length) :
    Returns (letIn node) context (Compiler.letIn plain context) := by
  refine (same.expectPairs context _ 1).bind fun _ passes => ?_
  rw [same.length_eq]
  refine (Returns.minus headed).goOn ?_
  have paired : (plain.dropLast.drop 1).length % 2 = 0 := by
    rw [List.length_drop, List.length_dropLast]
    exact MapStyle.Node.even_of_expectPairs passes
  refine (bindings_returns same context [] rfl paired).bind fun scope _ => ?_
  exact (same.expressionAt _ (context.push scope)).inside rfl

theorem var_returns : Returns (var node) context (Compiler.var plain context) := by
  refine (same.variableNameAt _ context).bindAt fun name => ?_
  refine (Returns.ask _).goOn ?_
  cases context.lookup? name with
  | some term => exact .pure term
  | none => exact .throw _

end Course

end MapStyle
