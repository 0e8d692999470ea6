import MapStyle.Compiler.Context
import MapStyle.Term.Course

/-!
# Arguments by position

A compilation as a course reads the arguments of an expression by their positions, changes one
context on its way, and evaluates the terms that it folds by courses of their own.
-/

namespace MapStyle

/-- The place outside the innermost expression, of which there has to be one. -/
def Context.outside (context : Context) : Except Fault Context :=
  if 1 ≤ context.depth then .ok { context with depth := context.depth - 1 }
  else .error (.underflow context.depth 1)

/-- A level that has been counted can be taken back. -/
@[simp] theorem Context.outside_deeper (context : Context) :
    context.deeper.outside = .ok context := by
  have counted : 1 ≤ context.deeper.depth := Nat.le_add_left 1 context.depth
  rw [outside, if_pos counted]
  rfl

namespace Course

variable {α : Type}

def nested (course : Course Context α) : Course Context α :=
  inside Context.deeper Context.outside course

def bound (scope : Scope) (course : Course Context α) : Course Context α :=
  inside (fun context => context.push scope) (fun context => .ok context.pop) course

/-! ## Terms that depend on no feature -/

/-- The value of a term that depends on no feature, which is evaluated in a state of its own. -/
def constant? : Term → Course Context (Option Value)
  | .literal value => return some value
  | term => do
      let context ← ask .ok
      match ← apart term.run { evaluator := context.evaluator } with
      | .ok value => return some value
      | .error cause => if cause.isUnresolved then return none else throw cause

def tryFold (term : Term) : Course Context Term := do
  let context ← ask .ok
  if term.isLiteral || !context.options.foldConstants then return term
  else
    match ← constant? term with
    | some value => return .literal value
    | none => return term

def fold (term : Term) : Course Context Term :=
  match term with
  | .call _ arguments => if arguments.all Term.isLiteral then tryFold term else return term
  | _ => return term

def kind? (term : Term) : Course Context (Option Kind) :=
  ask fun context => .ok (context.kind? term)

/-! ## Arguments -/

/-- An argument of an expression, and the course that compiles it. -/
structure Argument where
  raw : Value
  compile : Course Context Term

abbrev Node := List Argument

namespace Node

/-- The argument at a place; that there is none is a cause of failure. -/
def argumentAt (node : Node) (place : Place) : Course Context Argument :=
  match node[place.position]? with
  | some found => return found
  | none => throw (.missingArgument place.operator place.position)

def expressionAt (node : Node) (place : Place) : Course Context Term := do
  let argument ← node.argumentAt place
  if argument.raw.headName?.isSome then argument.compile
  else return .literal argument.raw

/-- Is an array at a position an expression?  Its position has to lie before the end. -/
def isExpressionAt (node : Node) (position : Nat) : Course Context Bool := do
  let argument ← itemAt node position
  return argument.raw.isExpression

def valueOrExpressionAt (node : Node) (place : Place) : Course Context Term := do
  let argument ← node.argumentAt place
  if argument.raw.toItems?.isSome then
    -- An array is looked at a second time, by its position alone.
    if ← node.isExpressionAt place.position then argument.compile
    else return .literal argument.raw
  else return .literal argument.raw

def constantAt (node : Node) (place : Place) (expected : String) : Course Context Value := do
  let term ← node.valueOrExpressionAt place
  match ← constant? term with
  | some value => return value
  | none => place.complain expected "a feature-dependent expression"

def constantByAt (node : Node) (place : Place) (expected : String) (read? : Value → Option α) :
    Course Context α := do
  let value ← node.constantAt place expected
  match read? value with
  | some result => return result
  | none => place.complain expected value.kind.name

def textAt (node : Node) (place : Place) : Course Context String :=
  node.constantByAt place "a constant string" Value.toText?

def numberAt (node : Node) (place : Place) : Course Context Double :=
  node.constantByAt place "a constant number" Value.toDouble?

def itemsAt (node : Node) (place : Place) : Course Context (List Value) :=
  node.constantByAt place "a constant array" Value.toItems?

def entriesAt (node : Node) (place : Place) : Course Context Entries :=
  node.constantByAt place "a constant object" Value.toEntries?

def numberLiteralAt (node : Node) (place : Place) : Course Context Double := do
  let argument ← node.argumentAt place
  match argument.raw.toDouble? with
  | some x => return x
  | none => place.complain "a number literal" argument.raw.kind.name

def numberExpressionAt (node : Node) (place : Place) : Course Context Term := do
  let term ← node.expressionAt place
  match ← kind? term with
  | some .number => return term
  | some kind => place.complain "a number" kind.name
  | none => return Builtin.toNumber.applied [term]

def variableNameAt (node : Node) (place : Place) : Course Context String := do
  let argument ← node.argumentAt place
  match argument.raw.toText? with
  | some name => return name
  | none => place.complain "a variable name" argument.raw.kind.name

def name? (node : Node) : Option String := node.head?.bind fun head => head.raw.toText?

def expectOperator (node : Node) (expected : String) : Course Context Unit :=
  if node.name? = some expected then return ()
  else throw (.otherOperator expected node.name?)

/--
Refuse an expression whose arguments behind the fixed ones do not come in pairs.  Of a count that
is smaller than the fixed ones nothing is left, but the complaint counts all arguments.
-/
def expectPairs (node : Node) (operator : String) (fixed : Nat) : Course Context Unit := do
  if (node.length - (1 + fixed)) % 2 = 0 then return ()
  else
    let count ← minus node.length 1
    throw (.unpaired operator fixed count)

end Node

end Course

end MapStyle
