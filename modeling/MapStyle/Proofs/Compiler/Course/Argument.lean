import MapStyle.Compiler.Course.Argument
import MapStyle.Compiler.Rule
import MapStyle.Proofs.Compiler.Inversion
import MapStyle.Proofs.Term.Course

/-!
# Arguments by position come to what arguments handed a context come to

An argument that is compiled by a course matches one that is handed its context if the course
comes to the same from every context and restores it.  Each way to read the argument at a place
then comes to the same, too, and breaks off nowhere, however few arguments there are.
-/

namespace MapStyle

namespace Course

variable {α β : Type} {context : Context}

/--
What is read from an argument at a place can be gone on with as a part of the reading; that there
is an argument is known then.
-/
theorem Returns.bindWithin {course : Course Context α} {next : α → Course Context β}
    {plain : MapStyle.Node} {place : Place} {reading : MapStyle.Argument → Except Error α}
    {later : α → Except Error β}
    (first : Returns course context (plain.argument place >>= reading))
    (step : place.position < plain.length → ∀ value, Returns (next value) context (later value)) :
    Returns (course >>= next) context
      (plain.argument place >>= fun argument => reading argument >>= later) := by
  rw [← bind_assoc]
  refine first.bind fun value read => ?_
  obtain ⟨argument, found, _⟩ := bind_eq_ok.mp read
  have present := MapStyle.Node.getElem?_of_argument found
  exact step (List.getElem?_eq_some_iff.mp present).1 value

theorem Returns.bindAt {course : Course Context α} {next : α → Course Context β}
    {plain : MapStyle.Node} {place : Place} {reading : MapStyle.Argument → Except Error α}
    {later : α → Except Error β}
    (first : Returns course context (plain.argument place >>= reading))
    (step : ∀ value, Returns (next value) context (later value)) :
    Returns (course >>= next) context
      (plain.argument place >>= fun argument => reading argument >>= later) :=
  first.bindWithin fun _ => step

/-- What is read from the argument at a place is read from the argument that is there. -/
theorem Returns.found {course : Course Context α} {plain : MapStyle.Node} {place : Place}
    {argument : MapStyle.Argument} {reading : MapStyle.Argument → Except Error α}
    (returns : Returns course context (plain.argument place >>= reading))
    (present : plain[place.position]? = some argument) :
    Returns course context (reading argument) := by
  unfold MapStyle.Node.argument at returns
  rw [present] at returns
  exact returns

/-! ## Terms that depend on no feature -/

theorem constant?_returns (term : Term) (context : Context) :
    Returns (constant? term) context (context.constant? term) := by
  cases term with
  | literal value => exact .pure _
  | _ =>
      refine (Returns.ask .ok).goOn
        ((Term.run_returns _ { evaluator := context.evaluator }).apart.goOn ?_)
      unfold Context.constant?
      dsimp only
      split
      · rename_i value known
        rw [known]
        exact .pure _
      · rename_i cause failed
        rw [failed]
        dsimp only
        cases cause.isUnresolved with
        | true => exact .pure _
        | false => exact .throw _

theorem tryFold_returns (term : Term) (context : Context) :
    Returns (tryFold term) context (context.tryFold term) := by
  refine (Returns.ask .ok).goOn ?_
  unfold Context.tryFold
  split
  · exact .pure term
  · refine (constant?_returns term context).bind fun found _ => ?_
    cases found with
    | some value => exact .pure _
    | none => exact .pure _

theorem fold_returns (term : Term) (context : Context) :
    Returns (fold term) context (context.fold term) := by
  cases term with
  | literal value => exact .pure _
  | property name => exact .pure _
  | call function arguments =>
      unfold fold Context.fold
      dsimp only
      split
      · exact tryFold_returns _ context
      · exact .pure _

theorem kind?_returns (term : Term) (context : Context) :
    Returns (kind? term) context (.ok (context.kind? term)) :=
  .ask _

/-! ## Arguments -/

/-- An argument that is compiled to the same from every context, which it restores. -/
structure Argument.Matches (argument : Argument) (plain : MapStyle.Argument) : Prop where
  raw : argument.raw = plain.raw
  compile : ∀ context, Returns argument.compile context (plain.compile context)

namespace Node

def Matches (node : Node) (plain : MapStyle.Node) : Prop :=
  List.Forall₂ Argument.Matches node plain

variable {node : Node} {plain : MapStyle.Node}

theorem isExpressionAt_returns {position : Nat} {argument : Argument}
    (present : node[position]? = some argument) (context : Context) :
    Returns (node.isExpressionAt position) context (.ok argument.raw.isExpression) :=
  (Returns.itemAt present).goOn (.pure _)

namespace Matches

theorem length_eq (same : node.Matches plain) : node.length = plain.length :=
  List.Forall₂.length_eq same

theorem getElem? (same : node.Matches plain) (position : Nat) :
    Option.Rel Argument.Matches node[position]? plain[position]? := by
  induction same generalizing position with
  | nil => exact .none
  | cons first _ ih =>
      cases position with
      | zero => exact .some first
      | succ position => exact ih position

/-- No position is left where no argument is. -/
theorem not_lt_of_drop (same : node.Matches plain) {position : Nat}
    (behind : plain.drop position = []) : ¬position < node.length := by
  rw [same.length_eq, Nat.not_lt]
  exact List.drop_eq_nil_iff.mp behind

theorem lt_of_getElem? (same : node.Matches plain) {position : Nat} {argument : MapStyle.Argument}
    (present : plain[position]? = some argument) : position < node.length := by
  rw [same.length_eq]
  exact (List.getElem?_eq_some_iff.mp present).1

theorem name?_eq (same : node.Matches plain) : node.name? = plain.name? := by
  cases same with
  | nil => rfl
  | cons first _ => exact congrArg Value.toText? first.raw

variable (same : node.Matches plain) (place : Place) (context : Context)

include same

/-- A course that goes on with the argument at a place, if there is one. -/
theorem argumentAt_bind {next : Argument → Course Context α}
    {later : MapStyle.Argument → Except Error α}
    (step : ∀ argument found, argument.Matches found → node[place.position]? = some argument →
      Returns (next argument) context (later found)) :
    Returns (node.argumentAt place >>= next) context (plain.argument place >>= later) := by
  have related := same.getElem? place.position
  unfold argumentAt MapStyle.Node.argument
  generalize plain[place.position]? = there at related ⊢
  generalize present : node[place.position]? = here at related ⊢
  cases related with
  | none => exact .throw _
  | some both => exact step _ _ both present

/-- A course that goes on with the argument that is at a place. -/
theorem argumentAt_found {next : Argument → Course Context α} {found : MapStyle.Argument}
    {result : Except Error α} (present : plain[place.position]? = some found)
    (step : ∀ argument, argument.Matches found → Returns (next argument) context result) :
    Returns (node.argumentAt place >>= next) context result := by
  have related := same.getElem? place.position
  rw [present] at related
  unfold argumentAt
  generalize node[place.position]? = here at related ⊢
  cases related with
  | some both => exact step _ both

theorem expressionAt :
    Returns (node.expressionAt place) context
      (plain.argument place >>= fun argument => argument.expression context) := by
  refine same.argumentAt_bind place context fun argument found both _ => ?_
  unfold MapStyle.Argument.expression
  rw [both.raw]
  split
  · exact both.compile context
  · exact .pure _

/-- The second look at an array finds the argument that was found before. -/
theorem valueOrExpressionAt :
    Returns (node.valueOrExpressionAt place) context
      (plain.argument place >>= fun argument => argument.valueOrExpression context) := by
  refine same.argumentAt_bind place context fun argument found both present => ?_
  unfold MapStyle.Argument.valueOrExpression
  rw [both.raw]
  split
  · refine (isExpressionAt_returns present context).goOn ?_
    rw [both.raw]
    split
    · exact both.compile context
    · exact .pure _
  · rename_i scalar
    have known : found.raw.isExpression = false := by
      cases held : found.raw with
      | array items => exact absurd (by rw [held]; rfl) scalar
      | _ => rfl
    rw [known]
    exact .pure _

theorem constantAt (expected : String) :
    Returns (node.constantAt place expected) context
      (plain.argument place >>= fun argument => argument.constant place expected context) := by
  refine (same.valueOrExpressionAt place context).bindAt fun term => ?_
  refine (constant?_returns term context).bind fun found _ => ?_
  cases found with
  | some value => exact .pure value
  | none => exact .lift _

theorem constantByAt (expected : String) (read? : Value → Option α) :
    Returns (node.constantByAt place expected read?) context
      (plain.argument place >>= fun argument =>
        argument.constantBy place expected read? context) := by
  refine (same.constantAt place context expected).bindAt fun value => ?_
  cases read? value with
  | some found => exact .pure found
  | none => exact .lift _

theorem numberLiteralAt :
    Returns (node.numberLiteralAt place) context
      (plain.argument place >>= fun argument => argument.numberLiteral place) := by
  refine same.argumentAt_bind place context fun argument found both _ => ?_
  unfold MapStyle.Argument.numberLiteral
  rw [both.raw]
  cases found.raw.toDouble? with
  | some x => exact .pure x
  | none => exact .lift _

theorem numberExpressionAt :
    Returns (node.numberExpressionAt place) context
      (plain.argument place >>= fun argument => argument.numberExpression place context) := by
  refine (same.expressionAt place context).bindAt fun term => ?_
  refine (kind?_returns term context).goOn ?_
  cases context.kind? term with
  | none => exact .pure _
  | some kind =>
      cases kind with
      | number => exact .pure _
      | _ => exact .lift _

theorem variableNameAt :
    Returns (node.variableNameAt place) context
      (plain.argument place >>= fun argument => Compiler.variableName argument place) := by
  refine same.argumentAt_bind place context fun argument found both _ => ?_
  unfold Compiler.variableName
  rw [both.raw]
  cases found.raw.toText? with
  | some name => exact .pure name
  | none => exact .lift _

omit place in
theorem expectOperator (expected : String) :
    Returns (node.expectOperator expected) context (plain.expectOperator expected) := by
  unfold Node.expectOperator MapStyle.Node.expectOperator
  rw [same.name?_eq]
  split
  · exact .pure ()
  · exact .throw _

omit place in
/-- Arguments that are left over when pairs are taken are there to be counted. -/
theorem expectPairs (operator : String) (fixed : Nat) :
    Returns (node.expectPairs operator fixed) context (plain.expectPairs operator fixed) := by
  unfold Node.expectPairs MapStyle.Node.expectPairs
  rw [same.length_eq]
  split
  · exact .pure ()
  · rename_i unpaired
    have present : 1 ≤ plain.length := by omega
    exact (Returns.minus present).goOn (.throw _)

end Matches

end Node

end Course

end MapStyle
