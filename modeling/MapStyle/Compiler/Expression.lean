import MapStyle.Compiler.Rule

/-!
# Compilation of expressions

An expression is compiled by the rule of its operator, once its name, the number of its arguments
and its depth have been found to be in order.  Its arguments are compiled one level deeper, by
the same definition.
-/

namespace MapStyle

namespace Operator

def rule (operator : Operator) (node : Node) (context : Context) : Except Error Term :=
  match operator with
  | .rgb => Compiler.rgb node context
  | .not => Compiler.negation .not node context
  | .equal => Compiler.equality .equal false node context
  | .notEqual => Compiler.equality .notEqual true node context
  | .less => Compiler.comparison .less .less node context
  | .lessOrEqual => Compiler.comparison .lessOrEqual .lessOrEqual node context
  | .greater => Compiler.comparison .greater .greater node context
  | .greaterOrEqual => Compiler.comparison .greaterOrEqual .greaterOrEqual node context
  | .all => Compiler.logical .all .all false node context
  | .any => Compiler.logical .any .any true node context
  | .case => Compiler.case node context
  | .coalesce => Compiler.coalesce node context
  | .select => Compiler.select node context
  | .geometryType => return Builtin.geometryType.applied []
  | .id => return Builtin.featureId.applied []
  | .properties => return Builtin.properties.applied []
  | .heatmapDensity => return Compiler.renderVariable MapStyle.heatmapDensity
  | .at => Compiler.itemAt node context
  | .get => Compiler.get node context
  | .has => Compiler.has node context
  | .length => Compiler.length node context
  | .subtract => Compiler.difference node context
  | .multiply => Compiler.arithmetic .multiply (.list .mul) node context
  | .divide => Compiler.arithmetic .divide (.binary .div) node context
  | .remainder => Compiler.arithmetic .remainder (.binary .mod) node context
  | .power => Compiler.arithmetic .power (.binary .pow) node context
  | .add => Compiler.arithmetic .add (.list .add) node context
  | .max => Compiler.arithmetic .max (.list .max) node context
  | .min => Compiler.arithmetic .min (.list .min) node context
  | .abs => Compiler.arithmetic .abs (.unary .abs) node context
  | .acos => Compiler.arithmetic .acos (.unary .acos) node context
  | .asin => Compiler.arithmetic .asin (.unary .asin) node context
  | .atan => Compiler.arithmetic .atan (.unary .atan) node context
  | .ceil => Compiler.arithmetic .ceil (.unary .ceil) node context
  | .cos => Compiler.arithmetic .cos (.unary .cos) node context
  | .floor => Compiler.arithmetic .floor (.unary .floor) node context
  | .ln => Compiler.arithmetic .ln (.unary .ln) node context
  | .log10 => Compiler.arithmetic .log10 (.unary .log10) node context
  | .log2 => Compiler.arithmetic .log2 (.unary .log2) node context
  | .round => Compiler.arithmetic .round (.unary .round) node context
  | .sin => Compiler.arithmetic .sin (.unary .sin) node context
  | .sqrt => Compiler.arithmetic .sqrt (.unary .sqrt) node context
  | .tan => Compiler.arithmetic .tan (.unary .tan) node context
  | .e => return .literal (.ofDouble .euler)
  | .pi => return .literal (.ofDouble .pi)
  | .ln2 => return .literal (.ofDouble .lnTwo)
  | .interpolate => Compiler.interpolate node context
  | .step => Compiler.step node context
  | .concat => Compiler.textual .concatenate node context
  | .downcase => Compiler.textual .lowercase node context
  | .upcase => Compiler.textual .uppercase node context
  | .letIn => Compiler.letIn node context
  | .var => Compiler.var node context
  | .zoom => return Compiler.zoom
  | .rgba | .toRgba | .array | .boolean | .collator | .format | .literal | .number | .object
  | .string | .toBoolean | .toColor | .toNumber | .toText | .typeOf =>
      throw (.notSupported operator.name)

/-- The rule of an operator, for an expression that must have its name. -/
def compile (operator : Operator) (node : Node) (context : Context) : Except Error Term := do
  node.expectOperator operator.name
  operator.rule node context

end Operator

namespace Node

/-- An expression compiled by the rule of the operator that it names. -/
def compile (node : Node) (context : Context) : Except Error Term :=
  match node.name? with
  | none => throw .missingName
  | some name =>
      match Operator.ofName? name with
      | none => throw (.unknownOperator name)
      | some operator => do
          operator.arity.check name (node.length - 1)
          if context.options.maxDepth ≤ context.depth then
            throw (.nestedTooDeep name context.options.maxDepth)
          else operator.compile node context.deeper

end Node

mutual

/-- A value compiled as an expression; a value that is no array is itself. -/
def Value.compile : Value → Context → Except Error Term
  | .array items, context => (Node.ofItems items).compile context
  | value, _ => return .literal value

def Node.ofItems : List Value → Node
  | [] => []
  | item :: rest => ⟨item, item.compile⟩ :: Node.ofItems rest

end

/-- An item of an array is an argument that compiles as that item does. -/
theorem Node.ofItems_eq_map (items : List Value) :
    Node.ofItems items = items.map fun item => ⟨item, item.compile⟩ := by
  induction items with
  | nil => simp [Node.ofItems]
  | cons item rest ih => simp [Node.ofItems, ih]

/-- What compiles documents and evaluates the terms that come of them. -/
structure Compiler where
  options : Options := {}
  registry : Registry := {}

namespace Compiler

def compile (compiler : Compiler) (document : Value) : Except Error Term :=
  match document with
  | .array items =>
      (Node.ofItems items).compile
        { registry := compiler.registry, options := compiler.options }
  | other => throw (.notAnArray other.text)

def evaluate (compiler : Compiler) (source : Source) (term : Term) : Outcome :=
  Evaluator.evaluate
    { source, registry := compiler.registry, limit := compiler.options.evaluationDepth } 0 term

end Compiler

end MapStyle
