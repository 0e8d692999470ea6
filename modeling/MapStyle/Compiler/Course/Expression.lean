import MapStyle.Compiler.Course.Rule
import MapStyle.Compiler.Expression

/-!
# Expressions by position

An expression is compiled by the rule of its operator, inside one more level that is counted while
its arguments are compiled.  The rule itself may be given any expression that its operator heads.
-/

namespace MapStyle

namespace Course

def rule (operator : Operator) (node : Node) : Course Context Term :=
  match operator with
  | .rgb => rgb node
  | .not => negation .not node
  | .equal => equality .equal false node
  | .notEqual => equality .notEqual true node
  | .less => comparison .less .less node
  | .lessOrEqual => comparison .lessOrEqual .lessOrEqual node
  | .greater => comparison .greater .greater node
  | .greaterOrEqual => comparison .greaterOrEqual .greaterOrEqual node
  | .all => logical .all .all false node
  | .any => logical .any .any true node
  | .case => case node
  | .coalesce => coalesce node
  | .select => select node
  | .geometryType => return Builtin.geometryType.applied []
  | .id => return Builtin.featureId.applied []
  | .properties => return Builtin.properties.applied []
  | .heatmapDensity => return Compiler.renderVariable MapStyle.heatmapDensity
  | .at => itemOf node
  | .get => get node
  | .has => has node
  | .length => length node
  | .subtract => difference node
  | .multiply => arithmetic .multiply (.list .mul) node
  | .divide => arithmetic .divide (.binary .div) node
  | .remainder => arithmetic .remainder (.binary .mod) node
  | .power => arithmetic .power (.binary .pow) node
  | .add => arithmetic .add (.list .add) node
  | .max => arithmetic .max (.list .max) node
  | .min => arithmetic .min (.list .min) node
  | .abs => arithmetic .abs (.unary .abs) node
  | .acos => arithmetic .acos (.unary .acos) node
  | .asin => arithmetic .asin (.unary .asin) node
  | .atan => arithmetic .atan (.unary .atan) node
  | .ceil => arithmetic .ceil (.unary .ceil) node
  | .cos => arithmetic .cos (.unary .cos) node
  | .floor => arithmetic .floor (.unary .floor) node
  | .ln => arithmetic .ln (.unary .ln) node
  | .log10 => arithmetic .log10 (.unary .log10) node
  | .log2 => arithmetic .log2 (.unary .log2) node
  | .round => arithmetic .round (.unary .round) node
  | .sin => arithmetic .sin (.unary .sin) node
  | .sqrt => arithmetic .sqrt (.unary .sqrt) node
  | .tan => arithmetic .tan (.unary .tan) node
  | .e => return .literal (.ofDouble .euler)
  | .pi => return .literal (.ofDouble .pi)
  | .ln2 => return .literal (.ofDouble .lnTwo)
  | .interpolate => interpolate node
  | .step => step node
  | .concat => textual .concat .concatenate node
  | .downcase => textual .downcase .lowercase node
  | .upcase => textual .upcase .uppercase node
  | .letIn => letIn node
  | .var => var node
  | .zoom => return Compiler.zoom
  | .rgba | .toRgba | .array | .boolean | .collator | .format | .literal | .number | .object
  | .string | .toBoolean | .toColor | .toNumber | .toText | .typeOf =>
      throw (.notSupported operator.name)

def family (operator : Operator) (node : Node) : Course Context Term := do
  node.expectOperator operator.name
  rule operator node

def Node.compile (node : Node) : Course Context Term :=
  match node.name? with
  | none => throw .missingName
  | some name =>
      match Operator.ofName? name with
      | none => throw (.unknownOperator name)
      | some operator => do
          let count ← minus node.length 1
          operator.arity.check name count
          let context ← ask .ok
          if context.options.maxDepth ≤ context.depth then
            throw (.nestedTooDeep name context.options.maxDepth)
          else nested (family operator node)

end Course

mutual

/-- The course that compiles a value as an expression; a value that is no array is itself. -/
def Value.course : Value → Course Context Term
  | .array items => (Course.Node.ofItems items).compile
  | value => return .literal value

def Course.Node.ofItems : List Value → Course.Node
  | [] => []
  | item :: rest => ⟨item, item.course⟩ :: Course.Node.ofItems rest

end

/-- An item of an array is an argument that compiles as the course of that item does. -/
theorem Course.Node.ofItems_eq_map (items : List Value) :
    Course.Node.ofItems items = items.map fun item => ⟨item, item.course⟩ := by
  induction items with
  | nil => simp [Course.Node.ofItems]
  | cons item rest ih => simp [Course.Node.ofItems, ih]

end MapStyle
