import MapStyle.Operator.Basic
import MapStyle.Term.Evaluation

/-!
# Compilation contexts

What a compilation knows at a place of the document: the functions it may call, its options, how
many expressions enclose the place, and the variables bound there.  A context is handed down and
never changed, so what happens inside one argument cannot be seen in another.

A term that depends on no feature can be replaced by its value.  Its value is the one that it
has when nothing is known about the feature.
-/

namespace MapStyle

structure Options where
  /-- How many expressions may be nested in one another. -/
  maxDepth : Nat := 128
  /-- Are computed constants replaced by their values? -/
  foldConstants : Bool := true
  deriving DecidableEq, Repr

namespace Options

/-- Calls that one level of nesting may cost. -/
def callsPerLevel : Nat := 4

/-- The greatest limit on calls that can be set. -/
def greatestLimit : Nat := 2 ^ 64 - 1

def evaluationDepth (options : Options) : Nat :=
  Min.min (options.maxDepth * callsPerLevel) greatestLimit

end Options

/-- The variables of one binding; of two with one name the first counts. -/
abbrev Scope := List (String × Term)

/-- What a compilation knows at a place. -/
structure Context where
  registry : Registry := {}
  options : Options := {}
  /-- How many expressions enclose the place. -/
  depth : Nat := 0
  /-- The bindings around the place, the innermost first. -/
  scopes : List Scope := []

namespace Context

def deeper (context : Context) : Context := { context with depth := context.depth + 1 }

def push (context : Context) (scope : Scope) : Context :=
  { context with scopes := scope :: context.scopes }

def pop (context : Context) : Context := { context with scopes := context.scopes.tail }

def lookup? (context : Context) (name : String) : Option Term :=
  context.scopes.findSome? fun scope => scope.lookup name

/-- The innermost binding of a name hides all others. -/
theorem lookup?_push_of_mem (context : Context) {scope : Scope} {name : String} {term : Term}
    (bound : scope.lookup name = some term) : (context.push scope).lookup? name = some term := by
  simp [lookup?, push, bound]

/-- A binding hides no name but its own. -/
theorem lookup?_push_of_not_mem (context : Context) {scope : Scope} {name : String}
    (free : scope.lookup name = none) :
    (context.push scope).lookup? name = context.lookup? name := by
  simp [lookup?, push, free]

/-- The class of every value of a term, as far as it can be told here. -/
def kind? (context : Context) (term : Term) : Option Kind := term.kind? context.registry

def evaluator (context : Context) : Evaluator :=
  { source := .constants
    registry := context.registry
    limit := context.options.evaluationDepth }

/--
The value of a term that depends on no feature.  That a term does depend on one is no failure;
every other cause of failure is.
-/
def constant? (context : Context) : Term → Except Error (Option Value)
  | .literal value => return some value
  | term =>
      match context.evaluator.evaluate 0 term with
      | .ok value => return some value
      | .error cause => if cause.isUnresolved then return none else throw cause

/-- The term, replaced by its value if constants are folded and it depends on no feature. -/
def tryFold (context : Context) (term : Term) : Except Error Term :=
  if term.isLiteral || !context.options.foldConstants then return term
  else do
    match ← context.constant? term with
    | some value => return .literal value
    | none => return term

def fold (context : Context) (term : Term) : Except Error Term :=
  match term with
  | .call _ arguments => if arguments.all Term.isLiteral then context.tryFold term else return term
  | _ => return term

end Context

def Builtin.applied (builtin : Builtin) (arguments : List Term) : Term :=
  .call builtin.name arguments

/-!
## Arguments

An expression is an array whose first item is the name of its operator, so the argument number
`i` stands at position `i`.  An argument is kept both as it is written and as the way it
compiles in a context; whether it is compiled at all is for its operator to decide, which is why
an argument that no operator asks for may be malformed.
-/

structure Argument where
  /-- The argument as it is written. -/
  raw : Value
  /-- The argument compiled as an expression. -/
  compile : Context → Except Error Term

/-- An expression with the name of its operator at position zero. -/
abbrev Node := List Argument

def Value.headName? : Value → Option String
  | .array (.string name :: _) => some name
  | _ => none

/-- Is the value an array headed by the name of an operator? -/
def Value.isExpression (value : Value) : Bool :=
  (value.headName?.bind Operator.ofName?).isSome

namespace Argument

/-- The argument compiled: an array headed by any name is an expression, all else a value. -/
def expression (argument : Argument) (context : Context) : Except Error Term :=
  if argument.raw.headName?.isSome then argument.compile context
  else return .literal argument.raw

/-- The argument compiled: only an array headed by an operator's name is an expression. -/
def valueOrExpression (argument : Argument) (context : Context) : Except Error Term :=
  if argument.raw.isExpression then argument.compile context
  else return .literal argument.raw

end Argument

/-- A place in an expression, for messages: the operator and the position of the argument. -/
structure Place where
  operator : String
  position : Nat

namespace Place

def complain {α : Type} (place : Place) (expected found : String) : Except Error α :=
  throw (.invalidArgument place.operator place.position expected found)

def next (place : Place) (count : Nat) : Place :=
  { place with position := place.position + count }

end Place

namespace Argument

/-- The value of an argument that may not depend on a feature. -/
def constant (argument : Argument) (place : Place) (expected : String) (context : Context) :
    Except Error Value := do
  let term ← argument.valueOrExpression context
  match ← context.constant? term with
  | some value => return value
  | none => place.complain expected "a feature-dependent expression"

/-- The value of an argument, which must be constant and of the shape that `read?` accepts. -/
def constantBy {α : Type} (argument : Argument) (place : Place) (expected : String)
    (read? : Value → Option α) (context : Context) : Except Error α := do
  let value ← argument.constant place expected context
  match read? value with
  | some result => return result
  | none => place.complain expected value.kind.name

def constantText (argument : Argument) (place : Place) (context : Context) :
    Except Error String :=
  argument.constantBy place "a constant string" Value.toText? context

def constantNumber (argument : Argument) (place : Place) (context : Context) :
    Except Error Double :=
  argument.constantBy place "a constant number" Value.toDouble? context

def constantItems (argument : Argument) (place : Place) (context : Context) :
    Except Error (List Value) :=
  argument.constantBy place "a constant array" Value.toItems? context

def constantEntries (argument : Argument) (place : Place) (context : Context) :
    Except Error Entries :=
  argument.constantBy place "a constant object" Value.toEntries? context

def numberLiteral (argument : Argument) (place : Place) : Except Error Double :=
  match argument.raw.toDouble? with
  | some x => return x
  | none => place.complain "a number literal" argument.raw.kind.name

/--
The argument compiled as an operand of arithmetic.  If the class of its values cannot be told, a
conversion to a number is put around it.
-/
def numberExpression (argument : Argument) (place : Place) (context : Context) :
    Except Error Term := do
  let term ← argument.expression context
  match context.kind? term with
  | some .number => return term
  | some kind => place.complain "a number" kind.name
  | none => return Builtin.toNumber.applied [term]

end Argument

namespace Node

def argument (node : Node) (place : Place) : Except Error Argument :=
  match node[place.position]? with
  | some found => return found
  | none => throw (.missingArgument place.operator place.position)

def name? (node : Node) : Option String := node.head?.bind fun head => head.raw.toText?

def expectOperator (node : Node) (expected : String) : Except Error Unit :=
  if node.name? = some expected then return ()
  else throw (.otherOperator expected node.name?)

/-- Refuse an expression whose arguments behind the fixed ones do not come in pairs. -/
def expectPairs (node : Node) (operator : String) (fixed : Nat) : Except Error Unit :=
  if (node.length - (1 + fixed)) % 2 = 0 then return ()
  else throw (.unpaired operator fixed (node.length - 1))

end Node

end MapStyle
