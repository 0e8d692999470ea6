import MapStyle.Builtin.Operation
import MapStyle.Compiler.Context

/-!
# Rules of operators

How each family of operators compiles its expressions.
-/

namespace MapStyle

/-!
## Formulas

Operators that apply one function to all their arguments: arithmetic, colours and texts.  A call
whose arguments are all known is replaced by its value.
-/

def Double.euler : Double := Decimal.toDouble false ⟨2718281828459045, -15⟩

def Double.pi : Double := Decimal.toDouble false ⟨3141592653589793, -15⟩

def Double.lnTwo : Double := Decimal.toDouble false ⟨6931471805599453, -16⟩

namespace Compiler

def operands (context : Context) : Place → Node → Except Error (List Term)
  | _, [] => return []
  | place, argument :: rest => do
      let term ← argument.numberExpression place context
      let others ← operands context (place.next 1) rest
      return term :: others

def arithmetic (operator : Operator) (builtin : Builtin) (node : Node) (context : Context) :
    Except Error Term := do
  let terms ← operands context ⟨operator.name, 1⟩ node.tail
  context.fold (builtin.applied terms)

/-- The opposite of one argument, or the difference of two. -/
def difference (node : Node) : Context → Except Error Term :=
  arithmetic .subtract (if node.length = 2 then .unary .neg else .binary .sub) node

def channel (node : Node) (context : Context) (position : Nat) : Except Error Term := do
  let place : Place := ⟨Operator.rgb.name, position⟩
  let number ← (← node.argument place).numberExpression place context
  let rounded ← context.fold ((Builtin.unary .round).applied [number])
  context.fold (Builtin.toHex.applied [rounded])

/-- A colour as text: a hash and the digits of three channels, which are not held to a range. -/
def rgb (node : Node) (context : Context) : Except Error Term := do
  let red ← channel node context 1
  let green ← channel node context 2
  let blue ← channel node context 3
  context.fold (Builtin.concatenate.applied [.literal (.string "#"), red, green, blue])

def expressions (context : Context) : Node → Except Error (List Term)
  | [] => return []
  | argument :: rest => do
      let term ← argument.expression context
      let others ← expressions context rest
      return term :: others

def textual (builtin : Builtin) (node : Node) (context : Context) : Except Error Term := do
  let terms ← expressions context node.tail
  context.fold (builtin.applied terms)

/-!
## Comparison and logic

Equality of two known values is decided at once.  In a conjunction or disjunction every argument
has to be a boolean as far as that can be told; a decisive argument ends the list, and what
follows it is never compiled.
-/

def negation (operator : Operator) (node : Node) (context : Context) : Except Error Term := do
  let argument ← (← node.argument ⟨operator.name, 1⟩).expression context
  context.fold (Builtin.not.applied [argument])

def bothArguments (operator : Operator) (node : Node) (context : Context) :
    Except Error (Term × Term) := do
  let left ← (← node.argument ⟨operator.name, 1⟩).expression context
  let right ← (← node.argument ⟨operator.name, 2⟩).expression context
  return (left, right)

def equality (operator : Operator) (negated : Bool) (node : Node) (context : Context) :
    Except Error Term := do
  let (left, right) ← bothArguments operator node context
  let deferred :=
    let equal := Builtin.equalTo.applied [left, right]
    if negated then Builtin.not.applied [equal] else equal
  match left.value?, right.value? with
  | some a, some b =>
      if context.options.foldConstants then
        return .literal (.boolean (Value.equal a b != negated))
      else return deferred
  | _, _ => return deferred

def comparison (operator : Operator) (order : Comparison) (node : Node) (context : Context) :
    Except Error Term := do
  let (left, right) ← bothArguments operator node context
  context.fold ((Builtin.compare order).applied [left, right])

/-- The arguments of a conjunction or disjunction, up to the first that is known to decide it. -/
def conditions (decisive : Bool) (context : Context) : Place → Node → Except Error (List Term)
  | _, [] => return []
  | place, argument :: rest => do
      let term ← argument.expression context
      let others : Except Error (List Term) := do
        let terms ← conditions decisive context (place.next 1) rest
        return term :: terms
      match term with
      | .literal (.boolean flag) => if flag = decisive then return [term] else others
      | _ =>
          match context.kind? term with
          | none => others
          | some .boolean => others
          | some kind => place.complain "a boolean" kind.name

def isFlag (flag : Bool) : Term → Bool
  | .literal (.boolean other) => other == flag
  | _ => false

/-- A conjunction, which false decides, or a disjunction, which true decides. -/
def logical (operator : Operator) (builtin : Builtin) (decisive : Bool) (node : Node)
    (context : Context) : Except Error Term := do
  let terms ← conditions decisive context ⟨operator.name, 1⟩ node.tail
  if terms.all Term.isLiteral then
    return .literal (.boolean (if terms.any (isFlag decisive) then decisive else !decisive))
  else return builtin.applied terms

/-!
## Choices

A choice drops the branches that are known not to be taken and ends at the first that is known
to be taken; what follows is never compiled.  If a single branch is left, it takes the place of
the whole choice.
-/

/--
The branches of a `case` that may be taken: conditions with their outputs, and at the end the
default or the output that is taken for certain.
-/
def branches (context : Context) : Place → Node → Except Error (List Term)
  | place, condition :: output :: rest => do
      let term ← condition.expression context
      match term with
      | .literal (.boolean true) => return [← output.expression context]
      | .literal (.boolean false) => branches context (place.next 2) rest
      | .literal value => place.complain "a boolean" value.kind.name
      | _ =>
          let chosen ← output.expression context
          let others ← branches context (place.next 2) rest
          return term :: chosen :: others
  | _, [default] => return [← default.expression context]
  | _, [] => return []

def case (node : Node) (context : Context) : Except Error Term := do
  match ← branches context ⟨Operator.case.name, 1⟩ node.tail with
  | [] => throw .noMatchingCase
  | [term] => return term
  | terms => return Builtin.case.applied terms

/-- The arguments that may be the first not null, up to one that certainly is not. -/
def candidates (context : Context) : Node → Except Error (List Term)
  | [] => return []
  | argument :: rest => do
      let term ← argument.expression context
      match term with
      | .literal .null => candidates context rest
      | .literal _ => return [term]
      | _ =>
          let others ← candidates context rest
          return term :: others

def coalesce (node : Node) (context : Context) : Except Error Term := do
  match ← candidates context node.tail with
  | [] => return .literal .null
  | [.literal value] => return .literal value
  | terms => return Builtin.coalesce.applied terms

/-- The output behind the first label that stands for a known input. -/
def selectKnown (input : Value) (context : Context) : Place → Node → Except Error Term
  | place, label :: output :: rest => do
      if ← Label.matchesInput place.operator place.position label.raw input then
        output.expression context
      else selectKnown input context (place.next 2) rest
  | _, [default] => default.expression context
  | _, [] => throw .noMatchingLabel

/-- Labels as they are written, each with its compiled output, and the default at the end. -/
def labelled (context : Context) : Place → Node → Except Error (List Term)
  | place, label :: output :: rest => do
      Label.check place.operator place.position label.raw
      let chosen ← output.expression context
      let others ← labelled context (place.next 2) rest
      return .literal label.raw :: chosen :: others
  | _, [default] => return [← default.expression context]
  | _, [] => return []

def checkInputKind : Option Kind → Except Error Unit
  | none => return ()
  | some .number => return ()
  | some .string => return ()
  | some kind => throw (.invalidInput kind)

def select (node : Node) (context : Context) : Except Error Term := do
  let name := Operator.select.name
  let input ← (← node.argument ⟨name, 1⟩).expression context
  match input with
  | .literal value =>
      Label.checkInput value
      selectKnown value context ⟨name, 2⟩ (node.drop 2)
  | _ =>
      checkInputKind (context.kind? input)
      let others ← labelled context ⟨name, 2⟩ (node.drop 2)
      return Builtin.select.applied (input :: others)

/-!
## Access to data

Items of known arrays and entries of known objects are taken at once; properties of the feature
and variables of the environment are left to evaluation.
-/

/-- The item of a list at an index, which may be negative or too large. -/
def itemAt? (items : List Value) (index : Int) : Option Value :=
  if index < 0 then none else items[index.toNat]?

def itemAt (node : Node) (context : Context) : Except Error Term := do
  let name := Operator.at.name
  let index ← (← node.argument ⟨name, 1⟩).constantNumber ⟨name, 1⟩ context
  let items ← (← node.argument ⟨name, 2⟩).constantItems ⟨name, 2⟩ context
  if index.isIntegral then
    match itemAt? items index.toInt64 with
    | some value => return .literal value
    | none => throw (.indexOutOfBounds index.toInt64 items.length)
  else Place.complain ⟨name, 1⟩ "an integer index" Kind.number.name

/--
A key of the feature or of a known object.  With one argument the key is looked up in the
feature, with a second one in that object.
-/
def keyed (operator : Operator) (ofFeature : String → Term) (ofObject : String → Entries → Value)
    (node : Node) (context : Context) : Except Error Term := do
  let name := operator.name
  let key ← (← node.argument ⟨name, 1⟩).constantText ⟨name, 1⟩ context
  if node.length = 2 then return ofFeature key
  else
    let entries ← (← node.argument ⟨name, 2⟩).constantEntries ⟨name, 2⟩ context
    return .literal (ofObject key entries)

def get : Node → Context → Except Error Term :=
  keyed .get .property fun key entries => (entries.find? key).getD .null

def has : Node → Context → Except Error Term :=
  keyed .has (fun key => Builtin.hasProperty.applied [.literal (.string key)])
    fun key entries => .boolean (entries.find? key).isSome

/-- The length of a string or array, by the function that fits the class of the argument. -/
def length (node : Node) (context : Context) : Except Error Term := do
  let place : Place := ⟨Operator.length.name, 1⟩
  let term ← (← node.argument place).valueOrExpression context
  match term with
  | .literal value => return .literal (← Conversion.lengthOf place.operator value)
  | _ =>
      match context.kind? term with
      | some .string => return Builtin.textLength.applied [term]
      | some .array => return Builtin.listSize.applied [term]
      | some kind => place.complain "a string or array" kind.name
      | none => return Builtin.length.applied [term]

def renderVariable (name : String) : Term := Builtin.environment.applied [.literal (.string name)]

def zoom : Term :=
  Builtin.zoomLevel.applied [renderVariable scaleDenominator, .literal (.string webMercator)]

/-!
## Ramps

Stops are written as numbers, each above the one before it.  A ramp is replaced by its value
when its input is known and the outputs around the input are, whatever the other outputs are.
-/

def stops (context : Context) : Place → Option Double → Node → Except Error (List Term)
  | place, previous, stop :: output :: rest => do
      let bound ← stop.numberLiteral place
      if previous.any fun below => bound.le below then
        place.complain "a stop greater than the previous one" Kind.number.name
      else
        let term ← output.expression context
        let others ← stops context (place.next 2) (some bound) rest
        return .literal (.ofDouble bound) :: term :: others
  | _, _, _ => return []

def step (node : Node) (context : Context) : Except Error Term := do
  let name := Operator.step.name
  node.expectPairs name 2
  let input ← (← node.argument ⟨name, 1⟩).numberExpression ⟨name, 1⟩ context
  let first ← (← node.argument ⟨name, 2⟩).expression context
  let others ← stops context ⟨name, 3⟩ none (node.drop 3)
  context.tryFold (Builtin.step.applied (input :: first :: others))

/-- The ways to write a curve, for messages. -/
def curveForms : String :=
  "[\"linear\"], [\"exponential\", base] or [\"cubic-bezier\", x1, y1, x2, y2]"

def interpolate (node : Node) (context : Context) : Except Error Term := do
  let name := Operator.interpolate.name
  node.expectPairs name 2
  let shape ← node.argument ⟨name, 1⟩
  match Curve.ofValue? shape.raw with
  | none => Place.complain ⟨name, 1⟩ curveForms shape.raw.kind.name
  | some curve =>
      let input ← (← node.argument ⟨name, 2⟩).numberExpression ⟨name, 2⟩ context
      let others ← stops context ⟨name, 3⟩ none (node.drop 3)
      context.tryFold (Builtin.interpolate.applied (.literal curve.toValue :: input :: others))

/-!
## Variables

A binding compiles its values once, in the context around it, so that they do not see one
another, and puts the compiled terms in the place of the variables in its body.
-/

def variableName (argument : Argument) (place : Place) : Except Error String :=
  match argument.raw.toText? with
  | some name => return name
  | none => place.complain "a variable name" argument.raw.kind.name

/-- Names with their compiled values, put in front of the bindings before them. -/
def bindings (context : Context) : Place → Scope → Node → Except Error Scope
  | place, scope, name :: value :: rest => do
      let bound ← variableName name place
      let term ← value.expression context
      bindings context (place.next 2) ((bound, term) :: scope) rest
  | _, scope, _ => return scope

def letIn (node : Node) (context : Context) : Except Error Term := do
  let name := Operator.letIn.name
  node.expectPairs name 1
  let scope ← bindings context ⟨name, 1⟩ [] (node.dropLast.drop 1)
  let body ← node.argument ⟨name, node.length - 1⟩
  body.expression (context.push scope)

def var (node : Node) (context : Context) : Except Error Term := do
  let place : Place := ⟨Operator.var.name, 1⟩
  let name ← variableName (← node.argument place) place
  match context.lookup? name with
  | some term => return term
  | none => throw (.unboundVariable name)

end Compiler

end MapStyle
