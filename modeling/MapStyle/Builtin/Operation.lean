import MapStyle.Builtin.Basic
import MapStyle.Double.Arithmetic
import MapStyle.Error

/-!
# Arithmetic and decisions

The functions of numbers, and those that compare, negate and choose.
-/

namespace MapStyle

/-!
## Arithmetic

Functions whose arguments are all numbers.  Sums and products are taken from the left, and a
result that is not finite becomes null.
-/

namespace UnaryFunction

def run : UnaryFunction → Double → Double
  | .neg => Double.neg
  | .abs => Double.abs
  | .acos => Double.acos
  | .asin => Double.asin
  | .atan => Double.atan
  | .ceil => Double.ceil
  | .cos => Double.cos
  | .floor => Double.floor
  | .ln => Double.ln
  | .log10 => Double.log10
  | .log2 => Double.log2
  | .round => Double.round
  | .sin => Double.sin
  | .sqrt => Double.sqrt
  | .tan => Double.tan

end UnaryFunction

namespace BinaryFunction

def run : BinaryFunction → Double → Double → Double
  | .sub => Double.sub
  | .div => Double.div
  | .mod => Double.rem
  | .pow => Double.pow

end BinaryFunction

namespace ListFunction

/-- The function on numbers; the greatest and the least of none are infinite. -/
def run : ListFunction → List Double → Double
  | .add, numbers => numbers.foldl Double.add .zero
  | .mul, numbers => numbers.foldl Double.mul .one
  | .max, numbers => numbers.foldl Double.max (.infinite true)
  | .min, numbers => numbers.foldl Double.min (.infinite false)

end ListFunction

namespace Arithmetic

def unary (function : UnaryFunction) (argument : Outcome) : Outcome := do
  let x ← Operand.number (Builtin.unary function).name 0 argument
  return .ofDouble (function.run x)

def binary (function : BinaryFunction) (left right : Outcome) : Outcome := do
  let x ← Operand.number (Builtin.binary function).name 0 left
  let y ← Operand.number (Builtin.binary function).name 1 right
  return .ofDouble (function.run x y)

def list (function : ListFunction) (arguments : List Outcome) : Outcome := do
  let numbers ← Operand.numbers (Builtin.list function).name 0 arguments
  return .ofDouble (function.run numbers)

end Arithmetic

/-!
## Labels of a match

A match compares an input, which is a number or a string, with labels in their order.  A label
is a number, a string, or an array of them, and stands for each of its items.
-/

namespace Label

/-- Can a value be a label by itself? -/
def isScalar : Value → Bool
  | .number _ => true
  | .string _ => true
  | _ => false

def check (function : String) (position : Nat) : Value → Except Error Unit
  | .number _ => .ok ()
  | .string _ => .ok ()
  | .array items =>
      match items.find? fun item => !isScalar item with
      | some item =>
          .error (.invalidArgument function position "an array of numbers or strings"
            item.kind.name)
      | none => .ok ()
  | label =>
      .error (.invalidArgument function position "a number, string or array label"
        label.kind.name)

def covers (label input : Value) : Bool :=
  match label with
  | .array items => Value.contains items input
  | scalar => Value.equal scalar input

/-- Does a label, once it has been checked, stand for the input? -/
def matchesInput (function : String) (position : Nat) (label input : Value) :
    Except Error Bool := do
  check function position label
  return covers label input

def checkInput (input : Value) : Except Error Unit :=
  if isScalar input then .ok () else .error (.invalidInput input.kind)

end Label

/-!
## Decisions

Negation, comparison, and the functions that look at their arguments one after the other: once
the answer is settled, the outcomes of the remaining arguments do not matter.
-/

namespace Decision

def not (argument : Outcome) : Outcome := do
  match ← argument with
  | .boolean flag => return .boolean !flag
  | value => throw (.invalidArgument Builtin.not.name 0 "a boolean" value.kind.name)

/-- Does an order answer a comparison?  Numbers without an order answer none. -/
def answers : Comparison → Option Ordering → Bool
  | .less, order => order == some .lt
  | .lessOrEqual, order => order == some .lt || order == some .eq
  | .greater, order => order == some .gt
  | .greaterOrEqual, order => order == some .gt || order == some .eq

def orderOf (function : String) : Value → Value → Except Error (Option Ordering)
  | .number a, .number b => .ok (a.toDouble.compare? b.toDouble)
  | .string a, .string b => .ok (some (Ord.compare a b))
  | .number _, other => .error (.invalidArgument function 1 "a number" other.kind.name)
  | .string _, other => .error (.invalidArgument function 1 "a string" other.kind.name)
  | other, _ => .error (.invalidArgument function 0 "a number or string" other.kind.name)

def compare (comparison : Comparison) (left right : Outcome) : Outcome := do
  let a ← left
  let b ← right
  let order ← orderOf (Builtin.compare comparison).name a b
  return .boolean (answers comparison order)

def equalTo (left right : Outcome) : Outcome := do
  let a ← left
  let b ← right
  return .boolean (Value.equal a b)

/-- Are all arguments true?  The first that is not settles it. -/
def all : List Outcome → Outcome
  | [] => return .boolean true
  | argument :: rest => do
      let value ← argument
      if value.isTrue then all rest else return .boolean false

/-- Is some argument true?  The first that is settles it. -/
def any : List Outcome → Outcome
  | [] => return .boolean false
  | argument :: rest => do
      let value ← argument
      if value.isTrue then return .boolean true else any rest

def case : List Outcome → Outcome
  | condition :: output :: rest => do
      let value ← condition
      if value.isTrue then output else case rest
  | [default] => default
  | [] => throw .noMatchingCase

def coalesce : List Outcome → Outcome
  | [] => return .null
  | argument :: rest => do
      let value ← argument
      if value.isNull then coalesce rest else return value

/-- The output behind the first label that stands for the input, or else the default at the end. -/
def selectFrom (input : Value) : Nat → List Outcome → Outcome
  | position, label :: output :: rest => do
      let label ← label
      if ← Label.matchesInput Builtin.select.name position label input then output
      else selectFrom input (position + 2) rest
  | _, [default] => default
  | _, [] => throw .noMatchingLabel

def select (input : Outcome) (rest : List Outcome) : Outcome := do
  let value ← input
  Label.checkInput value
  selectFrom value 1 rest

end Decision

end MapStyle
