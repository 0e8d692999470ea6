import MapStyle.Value.Basic

/-!
# Argument counts and errors

What is asked of the number of arguments, and every cause of failure.
-/

namespace MapStyle

/-!
## Argument counts

How many arguments an operator or a function takes.
-/

inductive Arity where
  | any
  | exactly (count : Nat)
  | atLeast (count : Nat)
  | between (least greatest : Nat)
  deriving DecidableEq, Repr

namespace Arity

def accepts : Arity → Nat → Bool
  | .any, _ => true
  | .exactly count, found => found == count
  | .atLeast count, found => count ≤ found
  | .between least greatest, found => least ≤ found && found ≤ greatest

def describe : Arity → String
  | .any => "any number of"
  | .exactly count => "exactly " ++ toString count
  | .atLeast count => "at least " ++ toString count
  | .between least greatest => toString least ++ " to " ++ toString greatest

end Arity

/-!
## Errors

Each cause for which an expression is refused, or for which it has no value on some feature,
and the message that names it.
-/

/-- What an expression can ask of the feature and of the render pass. -/
inductive Datum where
  | property (name : String)
  | featureId
  | geometryType
  | properties
  | environment (name : String)
  deriving DecidableEq, Repr

def Datum.describe : Datum → String
  | .property name => "property \"" ++ name ++ "\""
  | .featureId => "feature id"
  | .geometryType => "geometry type"
  | .properties => "feature properties"
  | .environment name => "environment \"" ++ name ++ "\""

inductive Error where
  /-- A document that is no expression array; its text is given. -/
  | notAnArray (found : String)
  /-- An expression array that does not start with a name. -/
  | missingName
  /-- An argument position behind the end of the expression. -/
  | missingArgument (operator : String) (position : Nat)
  | unknownOperator (name : String)
  /-- An argument count that the operator or function does not accept. -/
  | argumentCount (operator : String) (accepted : Arity) (found : Nat)
  /-- Arguments that do not come in pairs behind the fixed ones. -/
  | unpaired (operator : String) (fixed : Nat) (found : Nat)
  /-- An expression with another name, or with none, where one name is required. -/
  | otherOperator (expected : String) (actual : Option String)
  | invalidArgument (operator : String) (position : Nat) (expected found : String)
  /-- An input of `match` that is neither a number nor a string. -/
  | invalidInput (found : Kind)
  | noMatchingCase
  | noMatchingLabel
  | notSupported (what : String)
  | unboundVariable (name : String)
  /-- An index for which an array of this length has no item. -/
  | indexOutOfBounds (index : Int) (length : Nat)
  | unknownFunction (name : String)
  /-- An expression nested in as many others as are allowed. -/
  | nestedTooDeep (operator : String) (limit : Nat)
  /-- A call inside as many others as are allowed. -/
  | calledTooDeep (function : String) (limit : Nat)
  /-- A datum that is not known before a feature is. -/
  | unresolved (datum : Datum)
  deriving DecidableEq, Repr

namespace Error

def isUnresolved : Error → Bool
  | .unresolved _ => true
  | _ => false

def countMessage (operator expected : String) (found : Nat) : String :=
  "\"" ++ operator ++ "\" expression expects " ++ expected ++ " argument(s), found " ++
    toString found ++ "."

def message : Error → String
  | .notAnArray found => "Malformed expression: expected an expression array, found " ++ found
  | .missingName =>
      "Malformed expression: requires a string naming the expression at position 0"
  | .missingArgument operator position =>
      "Malformed expression: \"" ++ operator ++ "\" is missing argument #" ++ toString position
  | .unknownOperator name => "Expression \"" ++ name ++ "\" invalid."
  | .argumentCount operator accepted found => countMessage operator accepted.describe found
  | .unpaired operator fixed found =>
      countMessage operator (toString fixed ++ " plus an even number of") found
  | .otherOperator expected actual =>
      "Unexpected operation. Expected \"" ++ expected ++ "\" but parsed \"" ++
        actual.getD "nothing" ++ "\"."
  | .invalidArgument operator position expected found =>
      "\"" ++ operator ++ "\" argument #" ++ toString position ++ " must be " ++ expected ++
        ", found " ++ found ++ "."
  | .invalidInput found =>
      "\"match\" requires a number or string input, found " ++ found.name ++ "."
  | .noMatchingCase => "\"case\" had no conditions that evaluated true and no default."
  | .noMatchingLabel => "\"match\" had no matching labels and no default."
  | .notSupported what => "\"" ++ what ++ "\" expressions are not supported."
  | .unboundVariable name => "Variable \"" ++ name ++ "\" is not bound."
  | .indexOutOfBounds index length =>
      "\"at\" index " ++ toString index ++ " is out of bounds for array of length " ++
        toString length ++ "."
  | .unknownFunction name => "Unknown function: " ++ name
  | .nestedTooDeep operator limit =>
      "Resolution failed: \"" ++ operator ++ "\" is nested deeper than the maximum depth of " ++
        toString limit
  | .calledTooDeep function limit =>
      "Resolution failed: evaluation of \"" ++ function ++ "\" exceeds the maximum depth of " ++
        toString limit
  | .unresolved datum => "UNRESOLVED: " ++ datum.describe

end Error

def Arity.check (accepted : Arity) (operator : String) (found : Nat) : Except Error Unit :=
  if accepted.accepts found then .ok () else .error (.argumentCount operator accepted found)

/-- What an evaluation comes to: a value or the cause of failure. -/
abbrev Outcome := Except Error Value

end MapStyle
