import MapStyle.Compiler.Session
import MapStyle.Term.Course
import MapStyle.Value.Text
import MapStyle.Proofs.Builtin.Agreement
import MapStyle.Proofs.Builtin.Ramp
import MapStyle.Proofs.Builtin.Call
import MapStyle.Proofs.Term.Meaning
import MapStyle.Proofs.Compiler.Folding
import MapStyle.Proofs.Builtin.Result
import MapStyle.Proofs.Compiler.Emitted
import MapStyle.Proofs.Compiler.Emission
import MapStyle.Proofs.Compiler.Failure
import MapStyle.Proofs.Compiler.Completeness
import MapStyle.Proofs.Number
import MapStyle.Proofs.Value
import MapStyle.Proofs.Entries
import MapStyle.Proofs.Range
import MapStyle.Proofs.Term.Class
import MapStyle.Proofs.Term.Depth
import MapStyle.Proofs.Zero
import MapStyle.Proofs.Agreement
import MapStyle.Proofs.Builtin.Answer
import MapStyle.Proofs.Builtin.Failure
import MapStyle.Proofs.Compiler.Filling
import MapStyle.Proofs.Compiler.Alignment
import MapStyle.Proofs.Compiler.Refinement
import MapStyle.Proofs.Compiler.Argument
import MapStyle.Proofs.Compiler.Formula
import MapStyle.Proofs.Compiler.Logic
import MapStyle.Proofs.Compiler.Choice
import MapStyle.Proofs.Compiler.Access
import MapStyle.Proofs.Compiler.Expression
import MapStyle.Proofs.Compiler.Inlining
import MapStyle.Proofs.Compiler.Depth
import MapStyle.Proofs.Compiler.Nesting
import MapStyle.Proofs.Compiler.Pruning
import MapStyle.Proofs.Compiler.Reading
import MapStyle.Proofs.Compiler.Limit
import MapStyle.Proofs.Compiler.Strictness
import MapStyle.Proofs.Compiler.Ignored
import MapStyle.Proofs.Compiler.Lexical
import MapStyle.Proofs.Builtin.Laziness
import MapStyle.Proofs.Equality
import MapStyle.Proofs.Compiler.Comparison
import MapStyle.Proofs.Builtin.Segment
import MapStyle.Proofs.Builtin.Blend
import MapStyle.Proofs.Compiler.Segment
import MapStyle.Proofs.Compiler.Interpolation
import MapStyle.Proofs.Compiler.Passage
import MapStyle.Proofs.Compiler.Course.Expression
import MapStyle.Proofs.Container
import MapStyle.Proofs.Compiler.Colour
import MapStyle.Proofs.Spelling
import MapStyle.Proofs.Compiler.Concatenation
