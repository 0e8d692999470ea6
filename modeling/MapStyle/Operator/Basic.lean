import MapStyle.Error

/-!
# Operators

The operators of style expressions, each with its name, its family and the number of arguments
it takes.
-/

namespace MapStyle

inductive Family where
  | color
  | decision
  | featureData
  | heatmap
  | lookup
  | math
  | ramps
  | string
  | types
  | variableBinding
  | zoom
  deriving DecidableEq, Repr

inductive Operator where
  | rgb
  | rgba
  | toRgba
  | not
  | notEqual
  | less
  | lessOrEqual
  | equal
  | greater
  | greaterOrEqual
  | all
  | any
  | case
  | coalesce
  | select
  | geometryType
  | id
  | properties
  | heatmapDensity
  | at
  | get
  | has
  | length
  | subtract
  | multiply
  | divide
  | remainder
  | power
  | add
  | abs
  | acos
  | asin
  | atan
  | ceil
  | cos
  | e
  | floor
  | ln
  | ln2
  | log10
  | log2
  | max
  | min
  | pi
  | round
  | sin
  | sqrt
  | tan
  | interpolate
  | step
  | concat
  | downcase
  | upcase
  | array
  | boolean
  | collator
  | format
  | literal
  | number
  | object
  | string
  | toBoolean
  | toColor
  | toNumber
  | toText
  | typeOf
  | letIn
  | var
  | zoom
  deriving DecidableEq, Repr

/-- What the grammar fixes for an operator. -/
structure OperatorEntry where
  name : String
  family : Family
  arity : Arity

namespace Operator

/-- The grammar of each operator. -/
def entry : Operator → OperatorEntry
  | .rgb => ⟨"rgb", .color, .exactly 3⟩
  | .rgba => ⟨"rgba", .color, .any⟩
  | .toRgba => ⟨"to-rgba", .color, .any⟩
  | .not => ⟨"!", .decision, .exactly 1⟩
  | .notEqual => ⟨"!=", .decision, .exactly 2⟩
  | .less => ⟨"<", .decision, .exactly 2⟩
  | .lessOrEqual => ⟨"<=", .decision, .exactly 2⟩
  | .equal => ⟨"==", .decision, .exactly 2⟩
  | .greater => ⟨">", .decision, .exactly 2⟩
  | .greaterOrEqual => ⟨">=", .decision, .exactly 2⟩
  | .all => ⟨"all", .decision, .atLeast 1⟩
  | .any => ⟨"any", .decision, .atLeast 1⟩
  | .case => ⟨"case", .decision, .atLeast 2⟩
  | .coalesce => ⟨"coalesce", .decision, .atLeast 1⟩
  | .select => ⟨"match", .decision, .atLeast 3⟩
  | .geometryType => ⟨"geometry-type", .featureData, .exactly 0⟩
  | .id => ⟨"id", .featureData, .exactly 0⟩
  | .properties => ⟨"properties", .featureData, .exactly 0⟩
  | .heatmapDensity => ⟨"heatmap-density", .heatmap, .exactly 0⟩
  | .at => ⟨"at", .lookup, .exactly 2⟩
  | .get => ⟨"get", .lookup, .between 1 2⟩
  | .has => ⟨"has", .lookup, .between 1 2⟩
  | .length => ⟨"length", .lookup, .exactly 1⟩
  | .subtract => ⟨"-", .math, .between 1 2⟩
  | .multiply => ⟨"*", .math, .atLeast 2⟩
  | .divide => ⟨"/", .math, .exactly 2⟩
  | .remainder => ⟨"%", .math, .exactly 2⟩
  | .power => ⟨"^", .math, .exactly 2⟩
  | .add => ⟨"+", .math, .atLeast 2⟩
  | .abs => ⟨"abs", .math, .exactly 1⟩
  | .acos => ⟨"acos", .math, .exactly 1⟩
  | .asin => ⟨"asin", .math, .exactly 1⟩
  | .atan => ⟨"atan", .math, .exactly 1⟩
  | .ceil => ⟨"ceil", .math, .exactly 1⟩
  | .cos => ⟨"cos", .math, .exactly 1⟩
  | .e => ⟨"e", .math, .exactly 0⟩
  | .floor => ⟨"floor", .math, .exactly 1⟩
  | .ln => ⟨"ln", .math, .exactly 1⟩
  | .ln2 => ⟨"ln2", .math, .exactly 0⟩
  | .log10 => ⟨"log10", .math, .exactly 1⟩
  | .log2 => ⟨"log2", .math, .exactly 1⟩
  | .max => ⟨"max", .math, .atLeast 1⟩
  | .min => ⟨"min", .math, .atLeast 1⟩
  | .pi => ⟨"pi", .math, .exactly 0⟩
  | .round => ⟨"round", .math, .exactly 1⟩
  | .sin => ⟨"sin", .math, .exactly 1⟩
  | .sqrt => ⟨"sqrt", .math, .exactly 1⟩
  | .tan => ⟨"tan", .math, .exactly 1⟩
  | .interpolate => ⟨"interpolate", .ramps, .atLeast 4⟩
  | .step => ⟨"step", .ramps, .atLeast 4⟩
  | .concat => ⟨"concat", .string, .atLeast 1⟩
  | .downcase => ⟨"downcase", .string, .exactly 1⟩
  | .upcase => ⟨"upcase", .string, .exactly 1⟩
  | .array => ⟨"array", .types, .any⟩
  | .boolean => ⟨"boolean", .types, .any⟩
  | .collator => ⟨"collator", .types, .any⟩
  | .format => ⟨"format", .types, .any⟩
  | .literal => ⟨"literal", .types, .any⟩
  | .number => ⟨"number", .types, .any⟩
  | .object => ⟨"object", .types, .any⟩
  | .string => ⟨"string", .types, .any⟩
  | .toBoolean => ⟨"to-boolean", .types, .any⟩
  | .toColor => ⟨"to-color", .types, .any⟩
  | .toNumber => ⟨"to-number", .types, .any⟩
  | .toText => ⟨"to-string", .types, .any⟩
  | .typeOf => ⟨"typeof", .types, .any⟩
  | .letIn => ⟨"let", .variableBinding, .atLeast 3⟩
  | .var => ⟨"var", .variableBinding, .exactly 1⟩
  | .zoom => ⟨"zoom", .zoom, .exactly 0⟩

def name (operator : Operator) : String := operator.entry.name

def family (operator : Operator) : Family := operator.entry.family

def arity (operator : Operator) : Arity := operator.entry.arity

def every : List Operator :=
  [.rgb, .rgba, .toRgba, .not, .notEqual, .less, .lessOrEqual, .equal, .greater, .greaterOrEqual,
   .all, .any, .case, .coalesce, .select, .geometryType, .id, .properties, .heatmapDensity, .at,
   .get, .has, .length, .subtract, .multiply, .divide, .remainder, .power, .add, .abs, .acos,
   .asin, .atan, .ceil, .cos, .e, .floor, .ln, .ln2, .log10, .log2, .max, .min, .pi, .round, .sin,
   .sqrt, .tan, .interpolate, .step, .concat, .downcase, .upcase, .array, .boolean, .collator,
   .format, .literal, .number, .object, .string, .toBoolean, .toColor, .toNumber, .toText,
   .typeOf, .letIn, .var, .zoom]

def ofName? (name : String) : Option Operator :=
  every.find? fun operator => operator.name == name

/-- An operator is found by its name, so no two have the same one. -/
theorem ofName?_name (operator : Operator) : ofName? operator.name = some operator := by
  cases operator <;> decide

/-- An operator that is found has the name it was looked up by. -/
theorem name_of_ofName? {name : String} {operator : Operator}
    (found : ofName? name = some operator) : operator.name = name := by
  simpa using List.find?_some found

end Operator

end MapStyle
