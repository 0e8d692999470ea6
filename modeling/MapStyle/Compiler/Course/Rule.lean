import MapStyle.Compiler.Course.Argument
import MapStyle.Compiler.Rule

/-!
# Rules by position

The rule of an operator counts through the positions of the expression as far as its length lets
it.  None of the rules checks how many arguments there are.
-/

namespace MapStyle

namespace Course

/-! ## Formulas -/

def arithmetic (operator : Operator) (builtin : Builtin) (node : Node) : Course Context Term := do
  let terms ← collect 1 (fun position => node.numberExpressionAt ⟨operator.name, position⟩) 1
    (node.length - 1)
  fold (builtin.applied terms)

def difference (node : Node) : Course Context Term :=
  arithmetic .subtract (if node.length = 2 then .unary .neg else .binary .sub) node

def channel (node : Node) (position : Nat) : Course Context Term := do
  let number ← node.numberExpressionAt ⟨Operator.rgb.name, position⟩
  let rounded ← fold ((Builtin.unary .round).applied [number])
  fold (Builtin.toHex.applied [rounded])

def rgb (node : Node) : Course Context Term := do
  let red ← channel node 1
  let green ← channel node 2
  let blue ← channel node 3
  fold (Builtin.concatenate.applied [.literal (.string "#"), red, green, blue])

def textual (operator : Operator) (builtin : Builtin) (node : Node) : Course Context Term := do
  let terms ← collect 1 (fun position => node.expressionAt ⟨operator.name, position⟩) 1
    (node.length - 1)
  fold (builtin.applied terms)

/-! ## Comparison and logic -/

def negation (operator : Operator) (node : Node) : Course Context Term := do
  let argument ← node.expressionAt ⟨operator.name, 1⟩
  fold (Builtin.not.applied [argument])

def bothArguments (operator : Operator) (node : Node) : Course Context (Term × Term) := do
  let left ← node.expressionAt ⟨operator.name, 1⟩
  let right ← node.expressionAt ⟨operator.name, 2⟩
  return (left, right)

def equality (operator : Operator) (negated : Bool) (node : Node) : Course Context Term := do
  let (left, right) ← bothArguments operator node
  let deferred :=
    let equal := Builtin.equalTo.applied [left, right]
    if negated then Builtin.not.applied [equal] else equal
  match left.value?, right.value? with
  | some a, some b =>
      if ← ask fun context => .ok context.options.foldConstants then
        return .literal (.boolean (Value.equal a b != negated))
      else return deferred
  | _, _ => return deferred

def comparison (operator : Operator) (order : Comparison) (node : Node) : Course Context Term := do
  let (left, right) ← bothArguments operator node
  fold ((Builtin.compare order).applied [left, right])

/--
The arguments of a conjunction or disjunction at so many positions, up to the first that is known
to decide it.
-/
def conditions (decisive : Bool) (operator : Operator) (node : Node) :
    Nat → Nat → Course Context (List Term)
  | _, 0 => return []
  | position, count + 1 => do
      let place : Place := ⟨operator.name, position⟩
      let term ← node.expressionAt place
      let others : Course Context (List Term) := do
        let terms ← conditions decisive operator node (position + 1) count
        return term :: terms
      match term with
      | .literal (.boolean flag) => if flag = decisive then return [term] else others
      | _ =>
          match ← kind? term with
          | none => others
          | some .boolean => others
          | some kind => place.complain "a boolean" kind.name

def logical (operator : Operator) (builtin : Builtin) (decisive : Bool) (node : Node) :
    Course Context Term := do
  let count ← minus node.length 1
  let terms ← conditions decisive operator node 1 count
  if terms.all Term.isLiteral then
    return .literal
      (.boolean (if terms.any (Compiler.isFlag decisive) then decisive else !decisive))
  else return builtin.applied terms

/-! ## Choices -/

/-- The branches of a `case` that may be taken, from a position on. -/
def branches (node : Node) (position : Nat) : Course Context (List Term) := do
  let place : Place := ⟨Operator.case.name, position⟩
  if position + 1 < node.length then
    let term ← node.expressionAt place
    match term with
    | .literal (.boolean true) => return [← node.expressionAt (place.next 1)]
    | .literal (.boolean false) => branches node (position + 2)
    | .literal value => place.complain "a boolean" value.kind.name
    | _ =>
        let chosen ← node.expressionAt (place.next 1)
        let others ← branches node (position + 2)
        return term :: chosen :: others
  else if position < node.length then return [← node.expressionAt place]
  else return []
termination_by node.length - position

def case (node : Node) : Course Context Term := do
  match ← branches node 1 with
  | [] => throw .noMatchingCase
  | [term] => return term
  | terms => return Builtin.case.applied terms

def candidates (node : Node) : Nat → Nat → Course Context (List Term)
  | _, 0 => return []
  | position, count + 1 => do
      let term ← node.expressionAt ⟨Operator.coalesce.name, position⟩
      match term with
      | .literal .null => candidates node (position + 1) count
      | .literal _ => return [term]
      | _ =>
          let others ← candidates node (position + 1) count
          return term :: others

def coalesce (node : Node) : Course Context Term := do
  match ← candidates node 1 (node.length - 1) with
  | [] => return .literal .null
  | [.literal value] => return .literal value
  | terms => return Builtin.coalesce.applied terms

def selectKnown (input : Value) (node : Node) (position : Nat) : Course Context Term := do
  let place : Place := ⟨Operator.select.name, position⟩
  if position + 1 < node.length then
    let label ← node.argumentAt place
    if ← Label.matchesInput place.operator place.position label.raw input then
      node.expressionAt (place.next 1)
    else selectKnown input node (position + 2)
  else if position < node.length then node.expressionAt place
  else throw .noMatchingLabel
termination_by node.length - position

def labelled (node : Node) (position : Nat) : Course Context (List Term) := do
  let place : Place := ⟨Operator.select.name, position⟩
  if position + 1 < node.length then
    let label ← node.argumentAt place
    Label.check place.operator place.position label.raw
    let chosen ← node.expressionAt (place.next 1)
    let others ← labelled node (position + 2)
    return .literal label.raw :: chosen :: others
  else if position < node.length then return [← node.expressionAt place]
  else return []
termination_by node.length - position

def select (node : Node) : Course Context Term := do
  let input ← node.expressionAt ⟨Operator.select.name, 1⟩
  match input with
  | .literal value =>
      Label.checkInput value
      selectKnown value node 2
  | _ =>
      Compiler.checkInputKind (← kind? input)
      let others ← labelled node 2
      return Builtin.select.applied (input :: others)

/-! ## Access to data -/

def itemOf (node : Node) : Course Context Term := do
  let name := Operator.at.name
  let index ← node.numberAt ⟨name, 1⟩
  let items ← node.itemsAt ⟨name, 2⟩
  if index.isIntegral then
    match Compiler.itemAt? items index.toInt64 with
    | some value => return .literal value
    | none => throw (.indexOutOfBounds index.toInt64 items.length)
  else Place.complain ⟨name, 1⟩ "an integer index" Kind.number.name

def keyed (operator : Operator) (ofFeature : String → Term) (ofObject : String → Entries → Value)
    (node : Node) : Course Context Term := do
  let key ← node.textAt ⟨operator.name, 1⟩
  if node.length = 2 then return ofFeature key
  else
    let entries ← node.entriesAt ⟨operator.name, 2⟩
    return .literal (ofObject key entries)

def get : Node → Course Context Term :=
  keyed .get .property fun key entries => (entries.find? key).getD .null

def has : Node → Course Context Term :=
  keyed .has (fun key => Builtin.hasProperty.applied [.literal (.string key)])
    fun key entries => .boolean (entries.find? key).isSome

def length (node : Node) : Course Context Term := do
  let place : Place := ⟨Operator.length.name, 1⟩
  let term ← node.valueOrExpressionAt place
  match term with
  | .literal value => return .literal (← Conversion.lengthOf place.operator value)
  | _ =>
      match ← kind? term with
      | some .string => return Builtin.textLength.applied [term]
      | some .array => return Builtin.listSize.applied [term]
      | some kind => place.complain "a string or array" kind.name
      | none => return Builtin.length.applied [term]

/-! ## Ramps -/

def stopsFrom (operator : Operator) (node : Node) (position : Nat) (previous : Option Double) :
    Course Context (List Term) := do
  let place : Place := ⟨operator.name, position⟩
  if position < node.length then
    let bound ← node.numberLiteralAt place
    if previous.any fun below => bound.le below then
      place.complain "a stop greater than the previous one" Kind.number.name
    else
      let term ← node.expressionAt (place.next 1)
      let others ← stopsFrom operator node (position + 2) (some bound)
      return .literal (.ofDouble bound) :: term :: others
  else return []
termination_by node.length - position

/-- Stops with their compiled outputs, for which room is made first. -/
def stops (operator : Operator) (node : Node) (first : Nat) : Course Context (List Term) := do
  let _ ← minus node.length first
  stopsFrom operator node first none

def step (node : Node) : Course Context Term := do
  let name := Operator.step.name
  node.expectPairs name 2
  let input ← node.numberExpressionAt ⟨name, 1⟩
  let first ← node.expressionAt ⟨name, 2⟩
  let others ← stops .step node 3
  tryFold (Builtin.step.applied (input :: first :: others))

def interpolate (node : Node) : Course Context Term := do
  let name := Operator.interpolate.name
  node.expectPairs name 2
  let shape ← node.argumentAt ⟨name, 1⟩
  match Curve.ofValue? shape.raw with
  | none => Place.complain ⟨name, 1⟩ Compiler.curveForms shape.raw.kind.name
  | some curve =>
      let input ← node.numberExpressionAt ⟨name, 2⟩
      let others ← stops .interpolate node 3
      tryFold (Builtin.interpolate.applied (.literal curve.toValue :: input :: others))

/-! ## Variables -/

def bindings (node : Node) (body position : Nat) (scope : Scope) : Course Context Scope := do
  let place : Place := ⟨Operator.letIn.name, position⟩
  if position < body then
    let name ← node.variableNameAt place
    let term ← node.expressionAt (place.next 1)
    bindings node body (position + 2) ((name, term) :: scope)
  else return scope
termination_by body - position

/-- A body, which stands at the end, inside the bindings before it. -/
def letIn (node : Node) : Course Context Term := do
  let name := Operator.letIn.name
  node.expectPairs name 1
  let body ← minus node.length 1
  let scope ← bindings node body 1 []
  bound scope (node.expressionAt ⟨name, body⟩)

def var (node : Node) : Course Context Term := do
  let name ← node.variableNameAt ⟨Operator.var.name, 1⟩
  match ← ask fun context => .ok (context.lookup? name) with
  | some term => return term
  | none => throw (.unboundVariable name)

end Course

end MapStyle
