import MapStyle.Compiler.Course.Expression

/-!
# Compilation sessions

A session asks one context one question after the other, and changes its bindings, options and
depth in between.  A course answers a question by position, in the context that the steps before it
have left behind; the answer itself is what the context comes to if it is handed down.
-/

namespace MapStyle

namespace Compiler

/-- The ways in which an operator reads an argument. -/
inductive Access where
  | written
  | constant
  | text
  | items
  | entries
  | number
  | numberLiteral
  | expression
  | valueOrExpression
  | numberExpression
  deriving DecidableEq, Repr

/-- The questions that a session puts to its context. -/
inductive Question where
  | lookup (name : String)
  | fold (term : Term)
  | tryFold (term : Term)
  | constant (term : Term)
  | kind (term : Term)
  /-- An expression by the rule of an operator, without a check of its argument count. -/
  | rule (operator : Operator) (items : List Value)
  | operator (expected : String) (items : List Value)
  | pairs (operator : String) (items : List Value) (fixed : Nat)
  | argument (access : Access) (place : Place) (items : List Value)

inductive Step where
  | push (scope : Scope)
  | pop
  | setMaxDepth (limit : Nat)
  | setFold (flag : Bool)
  | setDepth (depth : Nat)
  | ask (question : Question)

inductive Answer where
  | done
  | accepted
  | term (found : Option Term)
  | value (found : Option Value)
  | number (found : Double)
  | kind (found : Option Kind)

def Access.read (access : Access) (argument : Argument) (place : Place) (context : Context) :
    Except Error Answer :=
  match access with
  | .written => return .value (some argument.raw)
  | .constant => return .value (some (← argument.constant place "a constant" context))
  | .text => return .value (some (.string (← argument.constantText place context)))
  | .items => return .value (some (.array (← argument.constantItems place context)))
  | .entries => return .value (some (.object (← argument.constantEntries place context)))
  | .number => return .number (← argument.constantNumber place context)
  | .numberLiteral => return .number (← argument.numberLiteral place)
  | .expression => return .term (some (← argument.expression context))
  | .valueOrExpression => return .term (some (← argument.valueOrExpression context))
  | .numberExpression => return .term (some (← argument.numberExpression place context))

def answer (question : Question) (context : Context) : Except Error Answer :=
  match question with
  | .lookup name => return .term (context.lookup? name)
  | .fold term => return .term (some (← context.fold term))
  | .tryFold term => return .term (some (← context.tryFold term))
  | .constant term => return .value (← context.constant? term)
  | .kind term => return .kind (context.kind? term)
  | .rule operator items => return .term (some (← operator.compile (Node.ofItems items) context))
  | .operator expected items => do
      (Node.ofItems items).expectOperator expected
      return .accepted
  | .pairs operator items fixed => do
      (Node.ofItems items).expectPairs operator fixed
      return .accepted
  | .argument access place items => do
      let argument ← (Node.ofItems items).argument place
      access.read argument place context

/-- The context after a step, and the answer. -/
def Step.run (context : Context) : Step → Context × Except Error Answer
  | .push scope => (context.push scope, .ok .done)
  | .pop => (context.pop, .ok .done)
  | .setMaxDepth limit =>
      ({ context with options := { context.options with maxDepth := limit } }, .ok .done)
  | .setFold flag =>
      ({ context with options := { context.options with foldConstants := flag } }, .ok .done)
  | .setDepth depth => ({ context with depth }, .ok .done)
  | .ask question => (context, answer question context)

def runSteps (context : Context) : List Step → List (Context × Except Error Answer)
  | [] => []
  | step :: rest =>
      let result := step.run context
      result :: runSteps result.1 rest

/-! ## Sessions by position -/

def Access.readAt (access : Access) (node : Course.Node) (place : Place) :
    Course Context Answer :=
  match access with
  | .written => return .value (some (← node.argumentAt place).raw)
  | .constant => return .value (some (← node.constantAt place "a constant"))
  | .text => return .value (some (.string (← node.textAt place)))
  | .items => return .value (some (.array (← node.itemsAt place)))
  | .entries => return .value (some (.object (← node.entriesAt place)))
  | .number => return .number (← node.numberAt place)
  | .numberLiteral => return .number (← node.numberLiteralAt place)
  | .expression => return .term (some (← node.expressionAt place))
  | .valueOrExpression => return .term (some (← node.valueOrExpressionAt place))
  | .numberExpression => return .term (some (← node.numberExpressionAt place))

def courseOf : Question → Course Context Answer
  | .lookup name => return .term (← Course.ask fun context => .ok (context.lookup? name))
  | .fold term => return .term (some (← Course.fold term))
  | .tryFold term => return .term (some (← Course.tryFold term))
  | .constant term => return .value (← Course.constant? term)
  | .kind term => return .kind (← Course.kind? term)
  | .rule operator items => return .term (some (← Course.family operator (.ofItems items)))
  | .operator expected items => do
      (Course.Node.ofItems items).expectOperator expected
      return .accepted
  | .pairs operator items fixed => do
      (Course.Node.ofItems items).expectPairs operator fixed
      return .accepted
  | .argument access place items => access.readAt (.ofItems items) place

/-- The context after a step, and the answer of a course to its question. -/
def Step.perform (context : Context) : Step → Except Fault (Context × Except Error Answer)
  | .ask question => do
      let (result, after) ← (courseOf question).takeFrom context
      return (after, result)
  | step => return step.run context

def performSteps (context : Context) :
    List Step → Except Fault (List (Context × Except Error Answer))
  | [] => return []
  | step :: rest => do
      let result ← step.perform context
      let others ← performSteps result.1 rest
      return result :: others

end Compiler

end MapStyle
