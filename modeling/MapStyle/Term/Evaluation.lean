import MapStyle.Builtin.Operation
import MapStyle.Builtin.Ramp
import MapStyle.Builtin.Reading
import MapStyle.Builtin.Text
import MapStyle.Value.Text

/-!
# Terms and their evaluation

Compiled expressions, the calls in them, and the outcome of a term.
-/

namespace MapStyle

/-!
## Calls of built-in functions

A call of a function on the outcomes of its arguments.  There is no answer for an argument list
of a shape that the function has no rule for; no list of an accepted length has such a shape.
-/

namespace Builtin

def call? (source : Source) : Builtin → List Outcome → Option Outcome
  | .not, [a] => some (Decision.not a)
  | .compare comparison, [a, b] => some (Decision.compare comparison a b)
  | .equalTo, [a, b] => some (Decision.equalTo a b)
  | .all, arguments => some (Decision.all arguments)
  | .any, arguments => some (Decision.any arguments)
  | .case, arguments => some (Decision.case arguments)
  | .coalesce, arguments => some (Decision.coalesce arguments)
  | .select, input :: rest => some (Decision.select input rest)
  | .listSize, [a] => some (Conversion.listSize a)
  | .textLength, [a] => some (Conversion.textLength a)
  | .length, [a] => some (Conversion.length a)
  | .hasProperty, [a] => some (Reading.hasProperty source a)
  | .toNumber, arguments => some (Conversion.toNumber arguments)
  | .toArray, arguments => some (Conversion.toArray arguments)
  | .toHex, [a] => some (Conversion.toHex a)
  | .unary function, [a] => some (Arithmetic.unary function a)
  | .binary function, [a, b] => some (Arithmetic.binary function a b)
  | .list function, arguments => some (Arithmetic.list function arguments)
  | .concatenate, arguments => some (Conversion.concatenate arguments)
  | .lowercase, [a] => some (Conversion.lowercase a)
  | .uppercase, [a] => some (Conversion.uppercase a)
  | .geometryType, [] => some source.geometryType
  | .featureId, [] => some source.featureId
  | .properties, [] => some source.properties
  | .environment, [a] => some (Reading.environment source a)
  | .zoomLevel, [scale, system] => some (Reading.zoomLevel scale system)
  | .interpolate, curve :: input :: rest => Ramp.interpolate? curve input rest
  | .step, input :: first :: rest => some (Ramp.step input first rest)
  | _, _ => none

/-- The outcome of a call; a list of the wrong length is refused. -/
def call (source : Source) (builtin : Builtin) (arguments : List Outcome) : Outcome :=
  let refusal := Error.argumentCount builtin.name builtin.arity arguments.length
  if builtin.arity.accepts arguments.length then
    (builtin.call? source arguments).getD (.error refusal)
  else .error refusal

end Builtin

/-!
## Terms

A term is a compiled expression: a known value, a property of the feature, or a call of a named
function.  Names are plain text, because a term may be made by hand and name a function that no
registry holds.
-/

inductive Term where
  | literal (value : Value)
  | property (name : String)
  | call (function : String) (arguments : List Term)

namespace Term

def isLiteral : Term → Bool
  | .literal _ => true
  | _ => false

def value? : Term → Option Value
  | .literal value => some value
  | _ => none

@[simp] theorem value?_isSome (term : Term) : term.value?.isSome = term.isLiteral := by
  cases term <;> rfl

/-- How another representation is built, node by node. -/
structure Builder (α : Type) where
  literal : Value → α
  property : String → α
  call : String → List α → α

mutual

def build {α : Type} (builder : Builder α) : Term → α
  | .literal value => builder.literal value
  | .property name => builder.property name
  | .call function arguments => builder.call function (buildAll builder arguments)

def buildAll {α : Type} (builder : Builder α) : List Term → List α
  | [] => []
  | term :: rest => build builder term :: buildAll builder rest

end

/-- Building a list of terms builds each of them. -/
theorem buildAll_eq_map {α : Type} (builder : Builder α) (terms : List Term) :
    buildAll builder terms = terms.map (build builder) := by
  induction terms with
  | nil => rfl
  | cons term rest ih => simp [buildAll, ih]

/-- Terms as text: values as they are written, properties in brackets, calls in parentheses. -/
def textBuilder : Builder String where
  literal := Value.text
  property name := "[" ++ name ++ "]"
  call function arguments := function ++ "(" ++ ", ".intercalate arguments ++ ")"

def text (term : Term) : String := term.build textBuilder

end Term

/-!
## Evaluation

The outcome of a term for a source.  A call is refused when it is nested in as many others as
the limit allows, when its function is not registered, or when it has the wrong number of
arguments; otherwise the function answers for the outcomes of the arguments, one level deeper.
A function that settles its answer early never looks at the outcomes that remain.
-/

/-- What stays the same throughout an evaluation. -/
structure Evaluator where
  source : Source
  registry : Registry := {}
  limit : Nat

namespace Evaluator

mutual

/-- The outcome of a term inside so many calls. -/
def evaluate (evaluator : Evaluator) (depth : Nat) : Term → Outcome
  | .literal value => .ok value
  | .property name => (evaluator.source.property name).map (·.getD .null)
  | .call function arguments =>
      if evaluator.limit ≤ depth then .error (.calledTooDeep function evaluator.limit)
      else
        match evaluator.registry.find? function with
        | none => .error (.unknownFunction function)
        | some builtin =>
            builtin.call evaluator.source (evaluateAll evaluator (depth + 1) arguments)

def evaluateAll (evaluator : Evaluator) (depth : Nat) : List Term → List Outcome
  | [] => []
  | term :: rest => evaluate evaluator depth term :: evaluateAll evaluator depth rest

end

/-- Evaluating a list of terms evaluates each of them. -/
theorem evaluateAll_eq_map (evaluator : Evaluator) (depth : Nat) (terms : List Term) :
    evaluator.evaluateAll depth terms = terms.map (evaluator.evaluate depth) := by
  induction terms with
  | nil => simp [evaluateAll]
  | cons term rest ih => simp [evaluateAll, ih]

end Evaluator

/-- The class of every value of a term, as far as it can be told without evaluating it. -/
def Term.kind? (registry : Registry) : Term → Option Kind
  | .literal value => some value.kind
  | .property _ => none
  | .call function _ => (registry.find? function).bind Builtin.returns

end MapStyle
