import MapStyle.Proofs.Compiler.Emission
import MapStyle.Proofs.Compiler.Expression
import MapStyle.Proofs.Range

/-!
# Offences against folding

With folding, the compiler looks at values that would otherwise wait for a feature, so it can
refuse a document that compiles without.  What it can take offence at is one of three things: a
constant whose computation fails, a constant or a call whose class the operator around it refuses,
and a ramp with more calls inside one another than an evaluation may nest.
-/

namespace MapStyle

/-- The term fails for this cause whatever the data are: it is not for want of a datum. -/
def Term.Fails (term : Term) (cause : Error) : Prop :=
  term.meaning {} .constants = .error cause ∧ cause.isUnresolved = false

def Place.expectKind (place : Place) (expected : String) (wanted : Kind) (term : Term) :
    Except Error Unit :=
  match term.kind? {} with
  | none => return ()
  | some kind => if kind = wanted then return () else place.complain expected kind.name

/-- What is allowed to complain of a term covers the complaint of its class. -/
theorem Place.allowed_of_expectKind {allowed : Error → Prop} {place : Place} {expected : String}
    {wanted kind : Kind} {term : Term}
    (confined : Confined allowed (place.expectKind expected wanted term))
    (declared : term.kind? {} = some kind) (other : kind ≠ wanted) :
    allowed (.invalidArgument place.operator place.position expected kind.name) := by
  apply confined
  unfold expectKind
  rw [declared]
  exact if_neg other

namespace Operator

def wantsNumber (operator : Operator) (position : Nat) : Bool :=
  match operator with
  | .rgb | .subtract | .multiply | .divide | .remainder | .power | .add | .max | .min | .abs
  | .acos | .asin | .atan | .ceil | .cos | .floor | .ln | .log10 | .log2 | .round | .sin | .sqrt
  | .tan => true
  | .step => position == 1
  | .interpolate => position == 2
  | _ => false

/--
What an operator refuses in the argument at a position once it is compiled: a value or a call of
a class that cannot be meant there.
-/
def inspect (operator : Operator) (length position : Nat) (term : Term) : Except Error Unit :=
  let place : Place := ⟨operator.name, position⟩
  if operator.wantsNumber position then place.expectKind "a number" .number term
  else
    match operator with
    | .all | .any => place.expectKind "a boolean" .boolean term
    | .case =>
        -- Only the class of a value is looked at here, not that of a call.
        if position % 2 = 1 ∧ position + 1 < length ∧ term.isLiteral then
          place.expectKind "a boolean" .boolean term
        else return ()
    | .select =>
        if position = 1 then
          match term with
          | .literal value => Label.checkInput value
          | _ => Compiler.checkInputKind (term.kind? {})
        else return ()
    | .length =>
        if position = 1 then
          match term with
          | .literal value => discard (Conversion.lengthOf place.operator value)
          | _ =>
              match term.kind? {} with
              | some .string | some .array | none => return ()
              | some kind => place.complain "a string or array" kind.name
        else return ()
    | _ => return ()

/-- Is the argument at a position compiled, and with no more variables than the expression? -/
def compiles (operator : Operator) (length position : Nat) : Bool :=
  !operator.readsWritten length position && !(operator == .letIn && position + 1 == length)

def isRamp (operator : Operator) : Bool := operator == .step || operator == .interpolate

end Operator

/--
Something in a document at which folding takes offence, for this cause, at a place that the first
context describes with folding and the second one without.
-/
inductive Value.Offends (cause : Error) : Value → Context → Context → Prop where
  /-- An argument, folded, is of a class that its operator refuses; a value is its own value. -/
  | misplaced {items : List Value} {operator : Operator} {position : Nat} {item : Value}
      {folded plain : Term} {sharp blunt : Context}
      (headed : (Value.array items).operator? = some operator)
      (present : items[position]? = some item)
      (foldedCompiled : item.compile sharp.deeper = .ok folded)
      (plainCompiled : item.compile blunt.deeper = .ok plain)
      (constant : ∀ value, folded = .literal value → plain.meaning {} .constants = .ok value)
      (refused : operator.inspect items.length position folded = .error cause) :
      Offends cause (.array items) sharp blunt
  /-- An expression fails whatever the data are. -/
  | fails {items : List Value} {plain : Term} {sharp blunt : Context}
      (compiled : (Value.array items).compile blunt = .ok plain) (fails : plain.Fails cause) :
      Offends cause (.array items) sharp blunt
  /-- A ramp has more calls inside one another than may be nested. -/
  | deep {items : List Value} {operator : Operator} {plain : Term} {sharp blunt : Context}
      (headed : (Value.array items).operator? = some operator) (ramp : operator.isRamp = true)
      (compiled : (Value.array items).compile blunt = .ok plain)
      (beyond : blunt.options.evaluationDepth < plain.callDepth)
      (tooDeep : cause.isCalledTooDeep = true) : Offends cause (.array items) sharp blunt
  /-- There is offence in an argument that is compiled. -/
  | inside {items : List Value} {operator : Operator} {position : Nat} {item : Value}
      {sharp blunt : Context} (headed : (Value.array items).operator? = some operator)
      (present : items[position]? = some item)
      (reached : operator.compiles items.length position = true)
      (offence : Offends cause item sharp.deeper blunt.deeper) :
      Offends cause (.array items) sharp blunt
  /-- There is offence in the body of a binding. -/
  | body {items : List Value} {item : Value} {sharpScope bluntScope : Scope}
      {sharp blunt : Context} (headed : (Value.array items).operator? = some .letIn)
      (sharpBound : Compiler.bindings sharp.deeper ⟨Operator.letIn.name, 1⟩ []
        (Node.ofItems (items.dropLast.drop 1)) = .ok sharpScope)
      (bluntBound : Compiler.bindings blunt.deeper ⟨Operator.letIn.name, 1⟩ []
        (Node.ofItems (items.dropLast.drop 1)) = .ok bluntScope)
      (last : items.getLast? = some item)
      (offence : Offends cause item (sharp.deeper.push sharpScope)
        (blunt.deeper.push bluntScope)) : Offends cause (.array items) sharp blunt

/-- Only expressions give offence. -/
theorem Value.Offends.headed {cause : Error} {value : Value} {sharp blunt : Context}
    (offence : value.Offends cause sharp blunt) : ∃ items, value = .array items := by
  cases offence <;> exact ⟨_, rfl⟩

/-!
## What folding may refuse

With folding a term is a value or has to wait, and without folding it comes to the same outcome as
long as no datum is known.  So whatever is wrong with a constant is wrong with the expression that
has not been folded.  What is said here of arguments and of expressions leaves open which causes
of failure are allowed.
-/

/-- A document with its constants folded, which is the sharp compilation, and without. -/
def Specialization.folding (maxDepth : Nat) : Specialization where
  source := .constants
  known := none
  maxDepth := maxDepth
  folds := false
  fits := by
    rintro entries ⟨⟩
  clean := by
    rintro entries ⟨⟩

variable {maxDepth : Nat}

/-- Contexts with and without folding at one place, where the same names are bound. -/
structure Context.Folds (maxDepth : Nat) (sharp blunt : Context) : Prop
    extends (Specialization.folding maxDepth).Around sharp blunt where
  depth : sharp.depth = blunt.depth
  bound : ∀ name, sharp.lookup? name = none → blunt.lookup? name = none

namespace Context.Folds

variable {sharp blunt : Context}

theorem document (maxDepth : Nat) :
    Context.Folds maxDepth { options := (Specialization.folding maxDepth).sharp }
      { options := (Specialization.folding maxDepth).blunt } :=
  ⟨(Specialization.folding maxDepth).around_document, rfl, fun _ _ => rfl⟩

theorem limit (around : sharp.Folds maxDepth blunt) :
    sharp.options.maxDepth = blunt.options.maxDepth := by
  rw [around.sharpEmits.sameOptions, around.bluntEmits.sameOptions]
  rfl

theorem deeper (around : sharp.Folds maxDepth blunt) :
    sharp.deeper.Folds maxDepth blunt.deeper :=
  ⟨around.toAround.deeper, congrArg (· + 1) around.depth, around.bound⟩

theorem push (around : sharp.Folds maxDepth blunt) {sharpScope bluntScope : Scope}
    (sharpBound : ∀ entry ∈ sharpScope,
      Emitted (Specialization.folding maxDepth).sharp Value.SafeZeros entry.2)
    (bluntBound : ∀ entry ∈ bluntScope,
      Emitted (Specialization.folding maxDepth).blunt Value.SafeZeros entry.2)
    (refine : Specialization.ScopesRefine .constants sharpScope bluntScope) :
    (sharp.push sharpScope).Folds maxDepth (blunt.push bluntScope) := by
  refine ⟨around.toAround.push sharpBound bluntBound refine, around.depth, ?_⟩
  intro name free
  rcases refine.lookup name with ⟨sharpFree, bluntFree⟩ | ⟨term, _, held, _, _⟩
  · rw [sharp.lookup?_push_of_not_mem sharpFree] at free
    rw [blunt.lookup?_push_of_not_mem bluntFree]
    exact around.bound name free
  · rw [sharp.lookup?_push_of_mem held] at free
    cases free

/-! ### Calls that are folded -/

end Context.Folds

/-- A folded term comes to what the term comes to that is not folded, whatever that is. -/
theorem Term.Refines.meaning_eq {sharp blunt : Term} (refines : sharp.Refines .constants blunt)
    (emitted : Emitted (Specialization.folding maxDepth).sharp Value.SafeZeros sharp) :
    sharp.meaning {} .constants = blunt.meaning {} .constants := by
  cases unknown : sharp.isLiteral with
  | true =>
      cases sharp with
      | literal value => exact (refines.carries.ok (Term.meaning_literal _ _ _)).symm
      | _ => cases unknown
  | false =>
      obtain ⟨datum, waits⟩ := emitted.pending rfl .self unknown
      exact waits.trans (refines.carries.waits waits rfl).symm

/-- A folded operand is a number that the operand comes to as well, or it has to wait. -/
theorem Term.RefinesAsNumber.agrees {sharp blunt : Term}
    (refines : sharp.RefinesAsNumber .constants blunt)
    (emitted : Emitted (Specialization.folding maxDepth).sharp Value.SafeZeros sharp)
    (number : sharp.kind? {} = some .number) :
    AgreesAsNumber (fun cause => cause.isUnresolved = true) (sharp.meaning {} .constants)
      (blunt.meaning {} .constants) := by
  intro function position
  cases unknown : sharp.isLiteral with
  | false =>
      obtain ⟨datum, waits⟩ := emitted.pending rfl .self unknown
      rw [waits]
      exact .excuse rfl
  | true =>
      cases sharp with
      | literal value =>
          cases value with
          | number held =>
              have reads : Operand.number function position (.ok (.number held)) =
                  .ok held.toDouble := rfl
              have carries := refines.carries function position
              rw [Term.meaning_literal, reads] at carries ⊢
              obtain ⟨read, same, both⟩ := carries.ok_of_ok rfl
              rw [same]
              exact .ok both
          | _ => cases number
      | _ => cases unknown

namespace Context.Folds

variable {sharp blunt : Context} {builtin : Builtin} {sharps blunts : List Term} {cause : Error}

end Context.Folds

/-! ### Arguments -/

/-- An argument whose compilations with and without folding refine each other. -/
structure Argument.Folds (maxDepth : Nat) (argument : Argument) : Prop where
  tracks : (Specialization.folding maxDepth).Tracks argument argument
  bluntEmits : argument.Emits (Specialization.folding maxDepth).blunt Value.SafeZeros

/-- Where the argument compiles without folding, folding fails for allowed causes only. -/
def Argument.Refuses (allowed : Error → Prop) (sharp blunt : Context) (argument : Argument) :
    Prop :=
  ∀ term, argument.compile blunt = .ok term → Confined allowed (argument.compile sharp)

def Argument.Inspected (allowed : Error → Prop) (operator : Operator) (length position : Nat)
    (sharp blunt : Context) (argument : Argument) : Prop :=
  ∀ folded plain cause, argument.compile sharp = .ok folded →
    argument.compile blunt = .ok plain →
    (∀ value, folded = .literal value → plain.meaning {} .constants = .ok value) →
    operator.inspect length position folded = .error cause → allowed cause

variable {allowed : Error → Prop} {operator : Operator} {length position : Nat}

namespace Argument.Refuses

variable {sharp blunt : Context} {argument : Argument} {plain : Term}

theorem expression (refuses : argument.Refuses allowed sharp blunt)
    (compiled : argument.expression blunt = .ok plain) :
    Confined allowed (argument.expression sharp) := by
  unfold Argument.expression at compiled ⊢
  split
  · rename_i headed
    rw [if_pos headed] at compiled
    exact refuses plain compiled
  · exact .ok _

theorem valueOrExpression (refuses : argument.Refuses allowed sharp blunt)
    (compiled : argument.valueOrExpression blunt = .ok plain) :
    Confined allowed (argument.valueOrExpression sharp) := by
  unfold Argument.valueOrExpression at compiled ⊢
  split
  · rename_i headed
    rw [if_pos headed] at compiled
    exact refuses plain compiled
  · exact .ok _

end Argument.Refuses

namespace Argument.Inspected

variable {sharp blunt : Context} {argument : Argument} {folded plain : Term}

theorem of_refines (inspected : argument.Inspected allowed operator length position sharp blunt)
    (sharpCompiled : argument.compile sharp = .ok folded)
    (compiled : argument.compile blunt = .ok plain) (refines : folded.Refines .constants plain) :
    Confined allowed (operator.inspect length position folded) := by
  refine fun cause refused => inspected folded plain cause sharpCompiled compiled ?_ refused
  rintro value rfl
  exact refines.carries.ok (Term.meaning_literal _ _ _)

/-- An argument is a value in both compilations, or it is inspected where it is folded. -/
theorem expression (inspected : argument.Inspected allowed operator length position sharp blunt)
    (folds : argument.Folds maxDepth) (around : sharp.Folds maxDepth blunt)
    (sharpCompiled : argument.expression sharp = .ok folded)
    (compiled : argument.expression blunt = .ok plain) :
    (∃ value, folded = .literal value ∧ plain = .literal value) ∨
      Confined allowed (operator.inspect length position folded) := by
  have refines := folds.tracks.expression around.toAround sharpCompiled compiled
  unfold Argument.expression at sharpCompiled compiled
  split at compiled
  · rename_i headed
    rw [if_pos headed] at sharpCompiled
    exact .inr (inspected.of_refines sharpCompiled compiled refines)
  · rename_i headless
    rw [if_neg headless] at sharpCompiled
    exact .inl ⟨_, (pure_eq_ok.mp sharpCompiled).symm, (pure_eq_ok.mp compiled).symm⟩

theorem valueOrExpression
    (inspected : argument.Inspected allowed operator length position sharp blunt)
    (folds : argument.Folds maxDepth) (around : sharp.Folds maxDepth blunt)
    (sharpCompiled : argument.valueOrExpression sharp = .ok folded)
    (compiled : argument.valueOrExpression blunt = .ok plain) :
    (∃ value, folded = .literal value ∧ plain = .literal value) ∨
      Confined allowed (operator.inspect length position folded) := by
  have refines := folds.tracks.valueOrExpression around.toAround sharpCompiled compiled
  unfold Argument.valueOrExpression at sharpCompiled compiled
  split at compiled
  · rename_i headed
    rw [if_pos headed] at sharpCompiled
    exact .inr (inspected.of_refines sharpCompiled compiled refines)
  · rename_i headless
    rw [if_neg headless] at sharpCompiled
    exact .inl ⟨_, (pure_eq_ok.mp sharpCompiled).symm, (pure_eq_ok.mp compiled).symm⟩

/-- An operand is refused for its class, which shows in the folded argument. -/
theorem numberExpression
    (inspected : argument.Inspected allowed operator length position sharp blunt)
    (refuses : argument.Refuses allowed sharp blunt) (folds : argument.Folds maxDepth)
    (around : sharp.Folds maxDepth blunt) (wants : operator.wantsNumber position = true)
    (compiled : argument.numberExpression ⟨operator.name, position⟩ blunt = .ok plain) :
    Confined allowed (argument.numberExpression ⟨operator.name, position⟩ sharp) := by
  obtain ⟨inner, head, operand⟩ := Argument.numberExpression_eq_ok compiled
  apply (refuses.expression head).bind
  intro folded sharpHead
  rw [around.sharpEmits.kind?]
  rw [around.bluntEmits.kind?] at operand
  have expects : operator.inspect length position folded =
      Place.expectKind ⟨operator.name, position⟩ "a number" .number folded := by
    unfold Operator.inspect
    exact if_pos wants
  rcases inspected.expression folds around sharpHead head with ⟨value, rfl, rfl⟩ | inspects
  · rcases operand with ⟨number, _⟩ | ⟨unknown, _⟩
    · rw [number]
      exact .ok _
    · rw [unknown]
      exact .ok _
  · rw [expects] at inspects
    cases declared : folded.kind? {} with
    | none => exact .ok _
    | some kind =>
        cases kind with
        | number => exact .ok _
        | _ => exact .error (Place.allowed_of_expectKind inspects declared nofun)

end Argument.Inspected

/--
A known argument is the same with folding and without: one that has to wait with folding has to
wait without.
-/
theorem Argument.Folds.constantBy {α : Type} {sharp blunt : Context} {argument : Argument}
    (folds : argument.Folds maxDepth) (refuses : argument.Refuses allowed sharp blunt)
    (around : sharp.Folds maxDepth blunt) {place : Place} {expected : String}
    {read? : Value → Option α} {found : α}
    (known : argument.constantBy place expected read? blunt = .ok found) :
    Confined allowed (argument.constantBy place expected read? sharp) := by
  obtain ⟨plain, value, head, decided, reads⟩ := Argument.constantBy_eq_ok known
  have means := around.blunt_constant (Context.constant?_eq_some decided)
  unfold Argument.constantBy Argument.constant
  rw [bind_assoc]
  apply (refuses.valueOrExpression head).bind
  intro folded sharpHead
  have refines := folds.tracks.valueOrExpression around.toAround sharpHead head
  have emitted := folds.tracks.sharpEmits.valueOrExpression around.sharpEmits sharpHead
  have same := refines.meaning_eq emitted
  cases unknown : folded.isLiteral with
  | false =>
      obtain ⟨datum, waits⟩ := emitted.pending rfl .self unknown
      rw [same] at waits
      cases waits.symm.trans means
  | true =>
      cases folded with
      | literal other =>
          rw [Term.meaning_literal] at same
          cases same.trans means
          have found : sharp.constant? (.literal value) = .ok (some value) := rfl
          simp only [found, bind, Except.bind, pure, Except.pure, reads]
          exact .ok _
      | _ => cases unknown

/-! ### Calls of known values -/

namespace Context

end Context

/-! ### Expressions -/

def Node.Folds (maxDepth : Nat) (node : Node) : Prop :=
  ∀ argument ∈ node, argument.Folds maxDepth

namespace Node.Folds

variable {node : Node}

theorem argument (folds : node.Folds maxDepth) {place : Place} {argument : Argument}
    (found : node.argument place = .ok argument) : argument.Folds maxDepth :=
  folds argument (List.mem_of_getElem? (Node.getElem?_of_argument found))

theorem sublist (folds : node.Folds maxDepth) {part : Node} (inside : part.Sublist node) :
    part.Folds maxDepth :=
  fun argument member => folds argument (inside.subset member)

theorem tail (folds : node.Folds maxDepth) : Node.Folds maxDepth node.tail :=
  folds.sublist (List.tail_sublist node)

theorem drop (folds : node.Folds maxDepth) (count : Nat) : Node.Folds maxDepth (node.drop count) :=
  folds.sublist (List.drop_sublist count node)

theorem sharpEmits (folds : node.Folds maxDepth) :
    node.Emits (Specialization.folding maxDepth).sharp Value.SafeZeros :=
  fun argument member => (folds argument member).tracks.sharpEmits

theorem bluntEmits (folds : node.Folds maxDepth) :
    node.Emits (Specialization.folding maxDepth).blunt Value.SafeZeros :=
  fun argument member => (folds argument member).bluntEmits

theorem tracks (folds : node.Folds maxDepth) :
    ∀ argument ∈ node, (Specialization.folding maxDepth).Tracks argument argument :=
  fun argument member => (folds argument member).tracks

end Node.Folds

def Node.Inspected (allowed : Error → Prop) (operator : Operator) (length position : Nat)
    (sharp blunt : Context) (node : Node) : Prop :=
  ∀ (offset : Nat) (argument : Argument), node[offset]? = some argument →
    argument.Inspected allowed operator length (position + offset) sharp blunt

namespace Node.Inspected

variable {sharp blunt : Context} {argument : Argument} {node : Node}

theorem head
    (inspected : Node.Inspected allowed operator length position sharp blunt (argument :: node)) :
    argument.Inspected allowed operator length position sharp blunt :=
  inspected 0 argument rfl

theorem tail
    (inspected : Node.Inspected allowed operator length position sharp blunt (argument :: node)) :
    node.Inspected allowed operator length (position + 1) sharp blunt := by
  intro offset other present
  rw [Nat.add_assoc, Nat.add_comm 1]
  exact inspected (offset + 1) other present

end Node.Inspected

/-- Where labels and outputs, or names and values, alternate: the latter refuse what is allowed. -/
def Node.OutputsRefuse (allowed : Error → Prop) (sharp blunt : Context) (node : Node) : Prop :=
  ∀ (offset : Nat) (argument : Argument), node[offset]? = some argument →
    offset % 2 = 1 ∨ offset + 1 = node.length → argument.Refuses allowed sharp blunt

namespace Node.OutputsRefuse

variable {sharp blunt : Context} {label output : Argument} {node : Node}

theorem head (refuse : Node.OutputsRefuse allowed sharp blunt (label :: output :: node)) :
    output.Refuses allowed sharp blunt :=
  refuse 1 output rfl (.inl rfl)

theorem default (refuse : Node.OutputsRefuse allowed sharp blunt [output]) :
    output.Refuses allowed sharp blunt :=
  refuse 0 output rfl (.inr rfl)

theorem tail (refuse : Node.OutputsRefuse allowed sharp blunt (label :: output :: node)) :
    node.OutputsRefuse allowed sharp blunt := by
  intro offset argument present behind
  refine refuse (offset + 2) argument present (behind.imp ?_ ?_)
  · intro odd
    omega
  · intro last
    simp only [List.length_cons]
    omega

end Node.OutputsRefuse

/--
Where an expression compiles without folding, each failure that folding brings about is allowed:
the failures of arguments, what the operator refuses in them, and those of the expression itself.
-/
structure Node.Refuses (allowed : Error → Prop) (operator : Operator) (sharp blunt : Context)
    (node : Node) : Prop where
  compiles : ∀ (position : Nat) (argument : Argument), node[position]? = some argument →
    operator.compiles node.length position = true → argument.Refuses allowed sharp blunt
  inspected : node.Inspected allowed operator node.length 0 sharp blunt
  fails : ∀ plain cause, operator.rule node blunt = .ok plain → plain.Fails cause → allowed cause
  deep : operator.isRamp = true → ∀ plain cause, operator.rule node blunt = .ok plain →
    blunt.options.evaluationDepth < plain.callDepth → cause.isCalledTooDeep = true → allowed cause
  body : operator = .letIn → ∀ sharpScope bluntScope body,
    Compiler.bindings sharp ⟨operator.name, 1⟩ [] (node.dropLast.drop 1) = .ok sharpScope →
    Compiler.bindings blunt ⟨operator.name, 1⟩ [] (node.dropLast.drop 1) = .ok bluntScope →
    node.getLast? = some body →
    body.Refuses allowed (sharp.push sharpScope) (blunt.push bluntScope)

namespace Node.Refuses

variable {sharp blunt : Context} {node : Node}

theorem argument (refuses : node.Refuses allowed operator sharp blunt) {place : Place}
    {argument : Argument} (found : node.argument place = .ok argument)
    (reached : operator.compiles node.length place.position = true) :
    argument.Refuses allowed sharp blunt :=
  refuses.compiles _ _ (Node.getElem?_of_argument found) reached

theorem inspects (refuses : node.Refuses allowed operator sharp blunt) {place : Place}
    {argument : Argument} (found : node.argument place = .ok argument) :
    argument.Inspected allowed operator node.length place.position sharp blunt := by
  have inspected := refuses.inspected _ _ (Node.getElem?_of_argument found)
  rwa [Nat.zero_add] at inspected

/-- An operator that reads nothing as it is written compiles all its arguments. -/
theorem arguments (refuses : node.Refuses allowed operator sharp blunt)
    (reached : ∀ position, operator.compiles node.length position = true) :
    ∀ argument ∈ node.tail, argument.Refuses allowed sharp blunt := by
  intro argument member
  obtain ⟨position, within, rfl⟩ := List.getElem_of_mem ((List.tail_sublist node).subset member)
  exact refuses.compiles position _ (List.getElem?_eq_getElem within) (reached position)

/-- Behind the fixed arguments an operator compiles every other argument, and the last one. -/
theorem outputs (refuses : node.Refuses allowed operator sharp blunt) (fixed : Nat)
    (reached : ∀ offset, offset % 2 = 1 ∨ fixed + offset + 1 = node.length →
      operator.compiles node.length (fixed + offset) = true) :
    Node.OutputsRefuse allowed sharp blunt (node.drop fixed) := by
  intro offset argument present behind
  have within := (List.getElem?_eq_some_iff.mp present).1
  rw [List.getElem?_drop] at present
  refine refuses.compiles _ argument present (reached offset (behind.imp_right ?_))
  rw [List.length_drop] at within ⊢
  omega

end Node.Refuses

end MapStyle
