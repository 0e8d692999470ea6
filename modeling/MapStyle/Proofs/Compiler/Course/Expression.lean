import MapStyle.Compiler.Session
import MapStyle.Proofs.Compiler.Course.Rule

/-!
# Neither evaluation nor compilation breaks off

An expression that is compiled by position comes to what it compiles to and leaves the context as
it was.  The rule of an operator does so for whatever items it is given, as long as it is reached
behind the check of its name, and an argument at whatever place it is asked for; no question of a
session is left without an answer.
-/

namespace MapStyle

namespace Course

variable {node : Node} {plain : MapStyle.Node}

/-- An expression that is headed by a name is not empty. -/
theorem one_le_of_name? {name : String} (named : plain.name? = some name) : 1 ≤ plain.length := by
  cases plain with
  | nil => cases named
  | cons head rest => exact Nat.le_add_left 1 _

theorem rule_returns (same : node.Matches plain) (headed : 1 ≤ plain.length)
    (operator : Operator) (context : Context) :
    Returns (rule operator node) context (operator.rule plain context) := by
  cases operator with
  | rgb => exact rgb_returns same context
  | not => exact negation_returns same context _
  | equal | notEqual => exact equality_returns same context _ _
  | less | lessOrEqual | greater | greaterOrEqual => exact comparison_returns same context _ _
  | all | any => exact logical_returns same context _ _ _ headed
  | case => exact case_returns same context
  | coalesce => exact coalesce_returns same context
  | select => exact select_returns same context
  | geometryType | id | properties | heatmapDensity | e | pi | ln2 | zoom => exact .pure _
  | «at» => exact itemOf_returns same context
  | get | has => exact keyed_returns same context _ _ _
  | length => exact length_returns same context
  | subtract =>
      unfold rule difference Operator.rule Compiler.difference
      rw [same.length_eq]
      exact arithmetic_returns same context _ _
  | interpolate => exact interpolate_returns same context
  | step => exact step_returns same context
  | concat | downcase | upcase => exact textual_returns same context _ _
  | letIn => exact letIn_returns same context headed
  | var => exact var_returns same context
  | rgba | toRgba | array | boolean | collator | format | literal | number | object | string
  | toBoolean | toColor | toNumber | toText | typeOf => exact .throw _
  | _ => exact arithmetic_returns same context _ _

/-- Behind no name there is no body. -/
example : (rule .letIn []).takeFrom {} = .error (.underflow 0 1) := rfl

/-- The name that is checked first is an item to be counted. -/
theorem family_returns (same : node.Matches plain) (operator : Operator) (context : Context) :
    Returns (family operator node) context (operator.compile plain context) := by
  refine (same.expectOperator context operator.name).bind fun _ passes => ?_
  have headed : 1 ≤ plain.length := by
    unfold MapStyle.Node.expectOperator at passes
    split at passes
    · rename_i named
      exact one_le_of_name? named
    · cases passes
  exact rule_returns same headed operator context

/-- An expression is compiled at its own depth again behind its arguments. -/
theorem Node.compile_returns (same : node.Matches plain) (context : Context) :
    Returns node.compile context (plain.compile context) := by
  unfold Node.compile MapStyle.Node.compile
  rw [same.name?_eq, same.length_eq]
  cases named : plain.name? with
  | none => exact .throw _
  | some name =>
      dsimp only
      cases Operator.ofName? name with
      | none => exact .throw _
      | some operator =>
          refine (Returns.minus (one_le_of_name? named)).goOn ?_
          refine (Returns.lift _).bind fun _ _ => (Returns.ask .ok).goOn ?_
          split
          · exact .throw _
          · exact (family_returns same operator context.deeper).inside context.outside_deeper

theorem Node.matches_ofItems {items : List Value}
    (each : ∀ item ∈ items, ∀ context, Returns item.course context (item.compile context)) :
    (Node.ofItems items).Matches (MapStyle.Node.ofItems items) := by
  rw [Node.ofItems_eq_map, MapStyle.Node.ofItems_eq_map, Node.Matches,
    List.forall₂_map_left_iff, List.forall₂_map_right_iff, List.forall₂_same]
  exact fun item member => ⟨rfl, each item member⟩

end Course

open Course (Returns)

/-- The course of a value comes to what the value compiles to, in the context as it was. -/
theorem Value.course_returns (value : Value) :
    ∀ context, Returns value.course context (value.compile context) := by
  induction value with
  | array items ih =>
      intro context
      rw [Value.course, Value.compile]
      exact Course.Node.compile_returns (Course.Node.matches_ofItems ih) context
  | _ => exact fun _ => .pure _

theorem Course.Node.ofItems_matches (items : List Value) :
    (Course.Node.ofItems items).Matches (MapStyle.Node.ofItems items) :=
  Course.Node.matches_ofItems fun item _ => item.course_returns

namespace Compiler

/-! ## Sessions -/

/-- However the argument at a place is read, the context is as it was behind it. -/
theorem Access.readAt_returns (access : Access) {node : Course.Node} {plain : MapStyle.Node}
    (same : node.Matches plain) (place : Place) (context : Context) :
    Returns (access.readAt node place) context
      (plain.argument place >>= fun argument => access.read argument place context) := by
  cases access with
  | written =>
      refine same.argumentAt_bind place context fun argument found both _ => ?_
      rw [both.raw]
      exact .pure _
  | constant => exact (same.constantAt place context _).bindAt fun _ => .pure _
  | text | items | entries | number =>
      exact (same.constantByAt place context _ _).bindAt fun _ => .pure _
  | numberLiteral => exact (same.numberLiteralAt place context).bindAt fun _ => .pure _
  | expression => exact (same.expressionAt place context).bindAt fun _ => .pure _
  | valueOrExpression => exact (same.valueOrExpressionAt place context).bindAt fun _ => .pure _
  | numberExpression => exact (same.numberExpressionAt place context).bindAt fun _ => .pure _

/-- A question is answered in the context as it was, and leaves it so. -/
theorem courseOf_returns (question : Question) (context : Context) :
    Returns (courseOf question) context (answer question context) := by
  cases question with
  | lookup name => exact (Returns.ask _).bind fun _ _ => .pure _
  | fold term => exact (Course.fold_returns term context).bind fun _ _ => .pure _
  | tryFold term => exact (Course.tryFold_returns term context).bind fun _ _ => .pure _
  | constant term => exact (Course.constant?_returns term context).bind fun _ _ => .pure _
  | kind term => exact (Course.kind?_returns term context).bind fun _ _ => .pure _
  | rule operator items =>
      exact (Course.family_returns (Course.Node.ofItems_matches items) operator context).bind
        fun _ _ => .pure _
  | operator expected items =>
      exact ((Course.Node.ofItems_matches items).expectOperator context expected).bind
        fun _ _ => .pure _
  | pairs operator items fixed =>
      exact ((Course.Node.ofItems_matches items).expectPairs context operator fixed).bind
        fun _ _ => .pure _
  | argument access place items =>
      exact access.readAt_returns (Course.Node.ofItems_matches items) place context

theorem Step.perform_eq_run (step : Step) (context : Context) :
    step.perform context = .ok (step.run context) := by
  cases step with
  | ask question =>
      rw [Step.perform, (courseOf_returns question context).takeFrom_eq]
      rfl
  | _ => rfl

/-- Whatever a session does, it does by position as with contexts that are handed down. -/
theorem performSteps_eq_runSteps (steps : List Step) (context : Context) :
    performSteps context steps = .ok (runSteps context steps) := by
  induction steps generalizing context with
  | nil => rfl
  | cons step rest ih =>
      rw [performSteps, Step.perform_eq_run]
      change (performSteps (step.run context).1 rest >>= fun others => _) = _
      rw [ih]
      rfl

end Compiler

/--
An expression, the rule of an operator and whatever else is asked leave the context as it was,
whether they succeed or fail; and what they come to is what they come to if each part of the
document is handed a context of its own.
-/
theorem compilation_restores_context (context : Context) :
    (∀ items, (Course.Node.ofItems items).compile.takeFrom context =
        .ok ((Node.ofItems items).compile context, context)) ∧
      (∀ operator items, (Course.family operator (Course.Node.ofItems items)).takeFrom context =
        .ok (operator.compile (Node.ofItems items) context, context)) ∧
      ∀ question, (Compiler.courseOf question).takeFrom context =
        .ok (Compiler.answer question context, context) := by
  refine ⟨fun items => ?_, fun operator items => ?_, fun question => ?_⟩
  · exact (Course.Node.compile_returns (Course.Node.ofItems_matches items) context).takeFrom_eq
  · exact (Course.family_returns (Course.Node.ofItems_matches items) operator context).takeFrom_eq
  · exact (Compiler.courseOf_returns question context).takeFrom_eq

/--
No evaluation and no compilation breaks off.  A term, however it is made, is evaluated at every
depth and under every limit without a position behind the end of its arguments, a count below zero
or a search that finds nothing.  The rule of every operator does as well for whatever items it is
handed, and so does every session, wherever it asks for an argument.
-/
theorem courses_never_break_off :
    (∀ (term : Term) (state : Evaluator.State),
        term.run.takeFrom state =
          .ok (state.evaluator.evaluate state.depth term, state)) ∧
      (∀ (operator : Operator) (items : List Value) (context : Context),
        (Course.family operator (Course.Node.ofItems items)).takeFrom context =
          .ok (operator.compile (Node.ofItems items) context, context)) ∧
      ∀ (steps : List Compiler.Step) (context : Context),
        Compiler.performSteps context steps = .ok (Compiler.runSteps context steps) := by
  refine ⟨fun term state => (term.run_returns state).takeFrom_eq,
    fun operator items context => ?_, Compiler.performSteps_eq_runSteps⟩
  exact (Course.family_returns (Course.Node.ofItems_matches items) operator context).takeFrom_eq

end MapStyle
