import MapStyle.Error
import MapStyle.Value.Basic

/-!
# Built-in functions

The functions that a term may call, with their names, argument counts and, where it is always
the same, the class of the value they return.
-/

namespace MapStyle

inductive Comparison where
  | less
  | lessOrEqual
  | greater
  | greaterOrEqual
  deriving DecidableEq, Repr

inductive UnaryFunction where
  | neg
  | abs
  | acos
  | asin
  | atan
  | ceil
  | cos
  | floor
  | ln
  | log10
  | log2
  | round
  | sin
  | sqrt
  | tan
  deriving DecidableEq, Repr

inductive BinaryFunction where
  | sub
  | div
  | mod
  | pow
  deriving DecidableEq, Repr

inductive ListFunction where
  | add
  | mul
  | max
  | min
  deriving DecidableEq, Repr

inductive Builtin where
  | not
  | compare (order : Comparison)
  | equalTo
  | all
  | any
  | case
  | coalesce
  | select
  | listSize
  | textLength
  | length
  | hasProperty
  | toNumber
  | toArray
  | toHex
  | unary (function : UnaryFunction)
  | binary (function : BinaryFunction)
  | list (function : ListFunction)
  | concatenate
  | lowercase
  | uppercase
  | geometryType
  | featureId
  | properties
  | environment
  | zoomLevel
  | interpolate
  | step
  deriving DecidableEq, Repr

/-- What is known of a function without calling it. -/
structure Signature where
  name : String
  arity : Arity
  returns : Option Kind

namespace Builtin

def signature : Builtin → Signature
  | .not => ⟨"not", .exactly 1, some .boolean⟩
  | .compare .less => ⟨"lessThan", .exactly 2, some .boolean⟩
  | .compare .lessOrEqual => ⟨"lessEqualThan", .exactly 2, some .boolean⟩
  | .compare .greater => ⟨"greaterThan", .exactly 2, some .boolean⟩
  | .compare .greaterOrEqual => ⟨"greaterEqualThan", .exactly 2, some .boolean⟩
  | .equalTo => ⟨"mbEqualTo", .exactly 2, some .boolean⟩
  | .all => ⟨"mbAll", .atLeast 1, some .boolean⟩
  | .any => ⟨"mbAny", .atLeast 1, some .boolean⟩
  | .case => ⟨"mbCase", .atLeast 1, none⟩
  | .coalesce => ⟨"mbCoalesce", .atLeast 1, none⟩
  | .select => ⟨"mbMatch", .atLeast 2, none⟩
  | .listSize => ⟨"listSize", .exactly 1, some .number⟩
  | .textLength => ⟨"strLength", .exactly 1, some .number⟩
  | .length => ⟨"mbLength", .exactly 1, some .number⟩
  | .hasProperty => ⟨"PropertyExists", .exactly 1, some .boolean⟩
  | .toNumber => ⟨"mbToNumber", .atLeast 1, some .number⟩
  | .toArray => ⟨"mbArray", .atLeast 1, some .array⟩
  | .toHex => ⟨"tohex", .exactly 1, some .string⟩
  | .unary .neg => ⟨"neg", .exactly 1, some .number⟩
  | .unary .abs => ⟨"abs", .exactly 1, some .number⟩
  | .unary .acos => ⟨"acos", .exactly 1, none⟩
  | .unary .asin => ⟨"asin", .exactly 1, none⟩
  | .unary .atan => ⟨"atan", .exactly 1, some .number⟩
  | .unary .ceil => ⟨"ceil", .exactly 1, some .number⟩
  | .unary .cos => ⟨"cos", .exactly 1, some .number⟩
  | .unary .floor => ⟨"floor", .exactly 1, some .number⟩
  | .unary .ln => ⟨"ln", .exactly 1, none⟩
  | .unary .log10 => ⟨"log10", .exactly 1, none⟩
  | .unary .log2 => ⟨"log2", .exactly 1, none⟩
  | .unary .round => ⟨"round", .exactly 1, some .number⟩
  | .unary .sin => ⟨"sin", .exactly 1, some .number⟩
  | .unary .sqrt => ⟨"sqrt", .exactly 1, none⟩
  | .unary .tan => ⟨"tan", .exactly 1, some .number⟩
  | .binary .sub => ⟨"sub", .exactly 2, some .number⟩
  | .binary .div => ⟨"div", .exactly 2, none⟩
  | .binary .mod => ⟨"mod", .exactly 2, none⟩
  | .binary .pow => ⟨"pow", .exactly 2, none⟩
  | .list .add => ⟨"add", .atLeast 2, some .number⟩
  | .list .mul => ⟨"mul", .atLeast 2, some .number⟩
  | .list .max => ⟨"max", .atLeast 1, some .number⟩
  | .list .min => ⟨"min", .atLeast 1, some .number⟩
  | .concatenate => ⟨"Concatenate", .atLeast 1, some .string⟩
  | .lowercase => ⟨"strToLowerCase", .exactly 1, some .string⟩
  | .uppercase => ⟨"strToUpperCase", .exactly 1, some .string⟩
  | .geometryType => ⟨"geometryType", .exactly 0, none⟩
  | .featureId => ⟨"id", .exactly 0, none⟩
  | .properties => ⟨"properties", .exactly 0, some .object⟩
  | .environment => ⟨"env", .exactly 1, none⟩
  | .zoomLevel => ⟨"zoomLevel", .exactly 2, some .number⟩
  | .interpolate => ⟨"interpolate", .atLeast 4, none⟩
  | .step => ⟨"step", .atLeast 2, none⟩

def name (builtin : Builtin) : String := builtin.signature.name

def arity (builtin : Builtin) : Arity := builtin.signature.arity

/-- The class of every value of the function, where it is always the same. -/
def returns (builtin : Builtin) : Option Kind := builtin.signature.returns

def standard : List Builtin :=
  [.not, .compare .less, .compare .lessOrEqual, .compare .greater, .compare .greaterOrEqual,
   .equalTo, .all, .any, .case, .coalesce, .select, .listSize, .textLength, .length, .hasProperty,
   .toNumber, .toArray, .toHex, .list .add, .list .mul, .binary .sub, .binary .div, .binary .mod,
   .binary .pow, .list .max, .list .min, .unary .neg, .unary .abs, .unary .acos, .unary .asin,
   .unary .atan, .unary .ceil, .unary .cos, .unary .floor, .unary .ln, .unary .log10,
   .unary .log2, .unary .round, .unary .sin, .unary .sqrt, .unary .tan, .concatenate, .lowercase,
   .uppercase, .geometryType, .featureId, .properties, .environment, .zoomLevel, .interpolate,
   .step]

/-- The list of built-in functions leaves none out. -/
theorem mem_standard (builtin : Builtin) : builtin ∈ standard := by
  cases builtin with
  | compare order => cases order <;> decide
  | unary function => cases function <;> decide
  | binary function => cases function <;> decide
  | list function => cases function <;> decide
  | _ => decide

end Builtin

/-- The functions that terms can call: the built-in ones, or those that were left in place. -/
structure Registry where
  functions : List Builtin := Builtin.standard

namespace Registry

def find? (registry : Registry) (name : String) : Option Builtin :=
  registry.functions.find? fun builtin => builtin.name == name

def without (registry : Registry) (names : List String) : Registry :=
  ⟨registry.functions.filter fun builtin => !names.contains builtin.name⟩

def sorted (registry : Registry) : List Builtin :=
  registry.functions.mergeSort fun first second => first.name ≤ second.name

/-- A function that is found has the name it was looked up by. -/
theorem name_of_find? {registry : Registry} {name : String} {builtin : Builtin}
    (found : registry.find? name = some builtin) : builtin.name = name := by
  simpa using List.find?_some found

/-- The standard registry finds every built-in function by its name. -/
theorem find?_standard (builtin : Builtin) :
    Registry.find? {} builtin.name = some builtin := by
  cases builtin with
  | compare order => cases order <;> decide
  | unary function => cases function <;> decide
  | binary function => cases function <;> decide
  | list function => cases function <;> decide
  | _ => decide

/-- A registry finds a function by its name or not at all. -/
theorem eq_of_find?_name {registry : Registry} {builtin other : Builtin}
    (found : registry.find? builtin.name = some other) : other = builtin := by
  have same := find?_standard other
  rw [name_of_find? found, find?_standard] at same
  exact (Option.some.inj same).symm

end Registry

/-!
## Operands

A function is given the outcomes of its arguments.  It fails as an argument does when it needs
that argument's value, and it complains when the value is of the wrong class; positions are
counted from zero.
-/

namespace Operand

def number (function : String) (position : Nat) (outcome : Outcome) : Except Error Double := do
  let value ← outcome
  match value.toDouble? with
  | some x => return x
  | none => throw (.invalidArgument function position "a number" value.kind.name)

def text (function : String) (position : Nat) (outcome : Outcome) : Except Error String := do
  let value ← outcome
  match value.toText? with
  | some content => return content
  | none => throw (.invalidArgument function position "a string" value.kind.name)

def numbers (function : String) : Nat → List Outcome → Except Error (List Double)
  | _, [] => return []
  | position, outcome :: rest => do
      let x ← number function position outcome
      let others ← numbers function (position + 1) rest
      return x :: others

end Operand

end MapStyle
