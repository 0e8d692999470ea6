import MapStyle.Compiler.Expression
import MapStyle.Proofs.Agreement

/-!
# What compilation can do

For each rule that takes its arguments one after the other, what one step of it comes to when it
succeeds.  Later proofs go through these cases and open no rule again.
-/

namespace MapStyle

/-- An argument that is found at a place is one of the expression. -/
theorem Node.getElem?_of_argument {node : Node} {place : Place} {argument : Argument}
    (found : node.argument place = .ok argument) : node[place.position]? = some argument := by
  unfold Node.argument at found
  split at found
  · rename_i present
    obtain rfl := pure_eq_ok.mp found
    exact present
  · cases found

/-- Arguments that come in pairs are of an even number. -/
theorem Node.even_of_expectPairs {node : Node} {operator : String} {fixed : Nat} {checked : Unit}
    (passes : node.expectPairs operator fixed = .ok checked) :
    (node.length - (1 + fixed)) % 2 = 0 := by
  unfold expectPairs at passes
  split at passes
  · assumption
  · cases passes

namespace Argument

/-- A number that is read from a literal is the number that is written there. -/
theorem numberLiteral_eq_ok {argument : Argument} {place : Place} {bound : Double}
    (written : argument.numberLiteral place = .ok bound) : argument.raw.toDouble? = some bound := by
  unfold numberLiteral at written
  split at written
  · rename_i number
    obtain rfl := pure_eq_ok.mp written
    exact number
  · cases written

/-- An operand is of the class of numbers, or a conversion is put around it. -/
theorem numberExpression_eq_ok {argument : Argument} {place : Place} {context : Context}
    {term : Term} (compiled : argument.numberExpression place context = .ok term) :
    ∃ inner, argument.expression context = .ok inner ∧
      (context.kind? inner = some .number ∧ term = inner ∨
        context.kind? inner = none ∧ term = Builtin.toNumber.applied [inner]) := by
  obtain ⟨inner, compiled, operand⟩ := bind_eq_ok.mp compiled
  refine ⟨inner, compiled, ?_⟩
  split at operand
  · rename_i number
    exact .inl ⟨number, (pure_eq_ok.mp operand).symm⟩
  · cases operand
  · rename_i unknown
    exact .inr ⟨unknown, (pure_eq_ok.mp operand).symm⟩

/-- A known argument is one whose term has a value while nothing is known. -/
theorem constantBy_eq_ok {α : Type} {argument : Argument} {place : Place} {expected : String}
    {read? : Value → Option α} {context : Context} {found : α}
    (compiled : argument.constantBy place expected read? context = .ok found) :
    ∃ term value, argument.valueOrExpression context = .ok term ∧
      context.constant? term = .ok (some value) ∧ read? value = some found := by
  obtain ⟨value, constant, read⟩ := bind_eq_ok.mp compiled
  obtain ⟨term, inner, constant⟩ := bind_eq_ok.mp constant
  obtain ⟨decided, known, present⟩ := bind_eq_ok.mp constant
  split at present
  · rename_i held
    obtain rfl := pure_eq_ok.mp present
    split at read
    · rename_i result reads
      obtain rfl := pure_eq_ok.mp read
      exact ⟨term, held, inner, known, reads⟩
    · cases read
  · cases present

end Argument

namespace Compiler

variable {context : Context} {node : Node} {term : Term}

/-- An equality is decided, or its call or the opposite of the call is left in place. -/
theorem equality_cases {operator : Operator} {negated : Bool}
    (compiled : equality operator negated node context = .ok term) :
    ∃ left right, bothArguments operator node context = .ok (left, right) ∧
      ((∃ a b, left = .literal a ∧ right = .literal b ∧ context.options.foldConstants = true ∧
          term = .literal (.boolean (Value.equal a b != negated))) ∨
        (context.options.foldConstants = true →
          ∃ argument ∈ [left, right], argument.isLiteral = false) ∧
        term = if negated then Builtin.not.applied [Builtin.equalTo.applied [left, right]]
          else Builtin.equalTo.applied [left, right]) := by
  obtain ⟨⟨left, right⟩, both, decided⟩ := bind_eq_ok.mp compiled
  refine ⟨left, right, both, ?_⟩
  dsimp only at decided
  split at decided
  · rename_i a b first second
    cases left with
    | literal a =>
        cases right with
        | literal b =>
            cases first
            cases second
            split at decided
            · rename_i folds
              obtain rfl := pure_eq_ok.mp decided
              exact .inl ⟨a, b, rfl, rfl, folds, rfl⟩
            · rename_i unfolded
              obtain rfl := pure_eq_ok.mp decided
              exact .inr ⟨fun folds => absurd folds unfolded, rfl⟩
        | _ => cases second
    | _ => cases first
  · rename_i undecided
    obtain rfl := pure_eq_ok.mp decided
    refine .inr ⟨fun _ => ?_, rfl⟩
    cases left with
    | literal a =>
        cases right with
        | literal b => exact absurd rfl (undecided a b rfl)
        | _ => exact ⟨_, List.mem_cons_of_mem _ List.mem_cons_self, rfl⟩
    | _ => exact ⟨_, List.mem_cons_self, rfl⟩

/-- A condition decides the list, or it passes, or it is not known; then the list goes on. -/
theorem conditions_cons {decisive : Bool} {place : Place} {argument : Argument} {rest : Node}
    {terms : List Term}
    (compiled : conditions decisive context place (argument :: rest) = .ok terms) :
    ∃ term, argument.expression context = .ok term ∧
      (term = .literal (.boolean decisive) ∧ terms = [term] ∨
        ∃ others, conditions decisive context (place.next 1) rest = .ok others ∧
          terms = term :: others ∧
          (term = .literal (.boolean !decisive) ∨ term.isLiteral = false)) := by
  unfold conditions at compiled
  obtain ⟨term, head, compiled⟩ := bind_eq_ok.mp compiled
  refine ⟨term, head, ?_⟩
  dsimp only at compiled
  split at compiled
  · rename_i flag
    split at compiled
    · rename_i same
      obtain rfl := pure_eq_ok.mp compiled
      exact .inl ⟨by rw [same], rfl⟩
    · rename_i other
      obtain ⟨others, tail, compiled⟩ := bind_eq_ok.mp compiled
      obtain rfl := pure_eq_ok.mp compiled
      refine .inr ⟨others, tail, rfl, .inl ?_⟩
      rw [Bool.eq_not.mpr other]
  · rename_i unlike
    split at compiled
    · rename_i unknown
      obtain ⟨others, tail, compiled⟩ := bind_eq_ok.mp compiled
      obtain rfl := pure_eq_ok.mp compiled
      refine .inr ⟨others, tail, rfl, .inr ?_⟩
      cases term with
      | literal value => cases unknown
      | _ => rfl
    · rename_i boolean
      obtain ⟨others, tail, compiled⟩ := bind_eq_ok.mp compiled
      obtain rfl := pure_eq_ok.mp compiled
      refine .inr ⟨others, tail, rfl, .inr ?_⟩
      cases term with
      | literal value =>
          cases value with
          | boolean flag => exact absurd rfl (unlike flag)
          | _ => cases boolean
      | _ => rfl
    · cases compiled

/-- A conjunction or disjunction is decided if all its conditions are known, else a call. -/
theorem logical_eq_ok {operator : Operator} {builtin : Builtin} {decisive : Bool}
    (compiled : logical operator builtin decisive node context = .ok term) :
    ∃ terms, conditions decisive context ⟨operator.name, 1⟩ node.tail = .ok terms ∧
      ((∀ condition ∈ terms, condition.isLiteral = true) ∧
          term = .literal
            (.boolean (if terms.any (isFlag decisive) then decisive else !decisive)) ∨
        (∃ condition ∈ terms, condition.isLiteral = false) ∧ term = builtin.applied terms) := by
  obtain ⟨terms, inner, decided⟩ := bind_eq_ok.mp compiled
  refine ⟨terms, inner, ?_⟩
  split at decided
  · rename_i all
    exact .inl ⟨by simpa using all, (pure_eq_ok.mp decided).symm⟩
  · rename_i some
    exact .inr ⟨by simpa using some, (pure_eq_ok.mp decided).symm⟩

/-- The branches of a choice by what is known of the first condition. -/
theorem branches_cons {place : Place} {condition output : Argument} {rest : Node}
    {terms : List Term}
    (compiled : branches context place (condition :: output :: rest) = .ok terms) :
    ∃ term, condition.expression context = .ok term ∧
      ((∃ chosen, term = .literal (.boolean true) ∧ output.expression context = .ok chosen ∧
          terms = [chosen]) ∨
        term = .literal (.boolean false) ∧ branches context (place.next 2) rest = .ok terms ∨
        ∃ chosen others, term.isLiteral = false ∧ output.expression context = .ok chosen ∧
          branches context (place.next 2) rest = .ok others ∧
          terms = term :: chosen :: others) := by
  unfold branches at compiled
  obtain ⟨term, head, compiled⟩ := bind_eq_ok.mp compiled
  refine ⟨term, head, ?_⟩
  split at compiled
  · obtain ⟨chosen, output, compiled⟩ := bind_eq_ok.mp compiled
    exact .inl ⟨chosen, rfl, output, (pure_eq_ok.mp compiled).symm⟩
  · exact .inr (.inl ⟨rfl, compiled⟩)
  · cases compiled
  · rename_i unlike
    obtain ⟨chosen, output, compiled⟩ := bind_eq_ok.mp compiled
    obtain ⟨others, tail, compiled⟩ := bind_eq_ok.mp compiled
    refine .inr (.inr ⟨chosen, others, ?_, output, tail, (pure_eq_ok.mp compiled).symm⟩)
    cases term with
    | literal value => exact absurd rfl (unlike value)
    | _ => rfl

theorem branches_default {place : Place} {default : Argument} {terms : List Term}
    (compiled : branches context place [default] = .ok terms) :
    ∃ term, default.expression context = .ok term ∧ terms = [term] := by
  unfold branches at compiled
  obtain ⟨term, head, compiled⟩ := bind_eq_ok.mp compiled
  exact ⟨term, head, (pure_eq_ok.mp compiled).symm⟩

/-- A choice by conditions is its only branch, or a call on its branches. -/
theorem case_eq_ok (compiled : case node context = .ok term) :
    ∃ terms, branches context ⟨Operator.case.name, 1⟩ node.tail = .ok terms ∧
      (terms = [term] ∨
        ∃ first second rest, terms = first :: second :: rest ∧
          term = Builtin.case.applied terms) := by
  obtain ⟨terms, inner, compiled⟩ := bind_eq_ok.mp compiled
  refine ⟨terms, inner, ?_⟩
  split at compiled
  · cases compiled
  · obtain rfl := pure_eq_ok.mp compiled
    exact .inl rfl
  · rename_i none one
    obtain rfl := pure_eq_ok.mp compiled
    rcases terms with _ | ⟨first, _ | ⟨second, rest⟩⟩
    · exact absurd rfl none
    · exact absurd rfl (one first)
    · exact .inr ⟨first, second, rest, rfl, rfl⟩

/-- The candidates of a coalescence by what is known of the first argument. -/
theorem candidates_cons {argument : Argument} {rest : Node} {terms : List Term}
    (compiled : candidates context (argument :: rest) = .ok terms) :
    ∃ term, argument.expression context = .ok term ∧
      (term = .literal .null ∧ candidates context rest = .ok terms ∨
        (∃ value, term = .literal value ∧ value.isNull = false ∧ terms = [term]) ∨
        ∃ others, term.isLiteral = false ∧ candidates context rest = .ok others ∧
          terms = term :: others) := by
  unfold candidates at compiled
  obtain ⟨term, head, compiled⟩ := bind_eq_ok.mp compiled
  refine ⟨term, head, ?_⟩
  split at compiled
  · exact .inl ⟨rfl, compiled⟩
  · rename_i value present
    obtain rfl := pure_eq_ok.mp compiled
    refine .inr (.inl ⟨value, rfl, ?_, rfl⟩)
    cases value with
    | null => exact absurd rfl present
    | _ => rfl
  · rename_i unlike
    obtain ⟨others, tail, compiled⟩ := bind_eq_ok.mp compiled
    refine .inr (.inr ⟨others, ?_, tail, (pure_eq_ok.mp compiled).symm⟩)
    cases term with
    | literal value => exact absurd rfl (unlike value)
    | _ => rfl

/-- A coalescence is null, its only candidate if that is known, or a call on its candidates. -/
theorem coalesce_eq_ok (compiled : coalesce node context = .ok term) :
    ∃ terms, candidates context node.tail = .ok terms ∧
      (terms = [] ∧ term = .literal .null ∨
        (∃ value, terms = [.literal value] ∧ term = .literal value) ∨
        terms ≠ [] ∧ (∀ value, terms ≠ [.literal value]) ∧
          term = Builtin.coalesce.applied terms) := by
  obtain ⟨terms, inner, compiled⟩ := bind_eq_ok.mp compiled
  refine ⟨terms, inner, ?_⟩
  split at compiled
  · exact .inl ⟨rfl, (pure_eq_ok.mp compiled).symm⟩
  · rename_i value
    exact .inr (.inl ⟨value, rfl, (pure_eq_ok.mp compiled).symm⟩)
  · rename_i none one
    exact .inr (.inr ⟨none, one, (pure_eq_ok.mp compiled).symm⟩)

/-- A choice by labels is made at once for a known input, else a call is left. -/
theorem select_eq_ok (compiled : select node context = .ok term) :
    ∃ argument input, node.argument ⟨Operator.select.name, 1⟩ = .ok argument ∧
      argument.expression context = .ok input ∧
      ((∃ value, input = .literal value ∧ Label.checkInput value = .ok () ∧
          selectKnown value context ⟨Operator.select.name, 2⟩ (node.drop 2) = .ok term) ∨
        ∃ others, input.isLiteral = false ∧
          labelled context ⟨Operator.select.name, 2⟩ (node.drop 2) = .ok others ∧
          term = Builtin.select.applied (input :: others)) := by
  obtain ⟨argument, found, compiled⟩ := bind_eq_ok.mp compiled
  obtain ⟨input, head, compiled⟩ := bind_eq_ok.mp compiled
  refine ⟨argument, input, found, head, ?_⟩
  split at compiled
  · rename_i value
    obtain ⟨_, checked, compiled⟩ := bind_eq_ok.mp compiled
    exact .inl ⟨value, rfl, checked, compiled⟩
  · rename_i unlike
    obtain ⟨_, _, compiled⟩ := bind_eq_ok.mp compiled
    obtain ⟨others, tail, compiled⟩ := bind_eq_ok.mp compiled
    refine .inr ⟨others, ?_, tail, (pure_eq_ok.mp compiled).symm⟩
    cases input with
    | literal value => exact absurd rfl (unlike value)
    | _ => rfl

/-- The output behind a label is taken if the label stands for the input, else the next one. -/
theorem selectKnown_cons {input : Value} {place : Place} {label output : Argument} {rest : Node}
    (compiled : selectKnown input context place (label :: output :: rest) = .ok term) :
    Label.check place.operator place.position label.raw = .ok () ∧
      (Label.covers label.raw input = true ∧ output.expression context = .ok term ∨
        Label.covers label.raw input = false ∧
          selectKnown input context (place.next 2) rest = .ok term) := by
  unfold selectKnown at compiled
  obtain ⟨found, matched, compiled⟩ := bind_eq_ok.mp compiled
  obtain ⟨_, checked, covered⟩ := bind_eq_ok.mp matched
  obtain rfl := pure_eq_ok.mp covered
  refine ⟨checked, ?_⟩
  split at compiled
  · rename_i covers
    exact .inl ⟨covers, compiled⟩
  · rename_i passes
    exact .inr ⟨by simpa using passes, compiled⟩

theorem labelled_cons {place : Place} {label output : Argument} {rest : Node}
    {terms : List Term}
    (compiled : labelled context place (label :: output :: rest) = .ok terms) :
    Label.check place.operator place.position label.raw = .ok () ∧
      ∃ chosen others, output.expression context = .ok chosen ∧
        labelled context (place.next 2) rest = .ok others ∧
        terms = .literal label.raw :: chosen :: others := by
  unfold labelled at compiled
  obtain ⟨_, checked, compiled⟩ := bind_eq_ok.mp compiled
  obtain ⟨chosen, output, compiled⟩ := bind_eq_ok.mp compiled
  obtain ⟨others, tail, compiled⟩ := bind_eq_ok.mp compiled
  exact ⟨checked, chosen, others, output, tail, (pure_eq_ok.mp compiled).symm⟩

theorem labelled_default {place : Place} {default : Argument} {terms : List Term}
    (compiled : labelled context place [default] = .ok terms) :
    ∃ term, default.expression context = .ok term ∧ terms = [term] := by
  unfold labelled at compiled
  obtain ⟨term, head, compiled⟩ := bind_eq_ok.mp compiled
  exact ⟨term, head, (pure_eq_ok.mp compiled).symm⟩

/-- A stop is written as a number, and its output is compiled. -/
theorem stops_cons {place : Place} {previous : Option Double} {stop output : Argument}
    {rest : Node} {terms : List Term}
    (compiled : stops context place previous (stop :: output :: rest) = .ok terms) :
    ∃ bound chosen others, stop.numberLiteral place = .ok bound ∧
      output.expression context = .ok chosen ∧
      stops context (place.next 2) (some bound) rest = .ok others ∧
      terms = .literal (.ofDouble bound) :: chosen :: others := by
  unfold stops at compiled
  obtain ⟨bound, written, compiled⟩ := bind_eq_ok.mp compiled
  split at compiled
  · cases compiled
  · obtain ⟨chosen, output, compiled⟩ := bind_eq_ok.mp compiled
    obtain ⟨others, tail, compiled⟩ := bind_eq_ok.mp compiled
    exact ⟨bound, chosen, others, written, output, tail, (pure_eq_ok.mp compiled).symm⟩

/-- A step is tried on its input, its first output and its stops. -/
theorem step_eq_ok (compiled : step node context = .ok term) :
    ∃ input first others argument output,
      node.argument ⟨Operator.step.name, 1⟩ = .ok argument ∧
      node.argument ⟨Operator.step.name, 2⟩ = .ok output ∧
      argument.numberExpression ⟨Operator.step.name, 1⟩ context = .ok input ∧
      output.expression context = .ok first ∧
      stops context ⟨Operator.step.name, 3⟩ none (node.drop 3) = .ok others ∧
      context.tryFold (Builtin.step.applied (input :: first :: others)) = .ok term := by
  obtain ⟨_, _, compiled⟩ := bind_eq_ok.mp compiled
  obtain ⟨argument, found, compiled⟩ := bind_eq_ok.mp compiled
  obtain ⟨input, operand, compiled⟩ := bind_eq_ok.mp compiled
  obtain ⟨output, second, compiled⟩ := bind_eq_ok.mp compiled
  obtain ⟨first, chosen, compiled⟩ := bind_eq_ok.mp compiled
  obtain ⟨others, tail, tried⟩ := bind_eq_ok.mp compiled
  exact ⟨input, first, others, argument, output, found, second, operand, chosen, tail, tried⟩

/-- An interpolation is tried on its curve, its input and its stops. -/
theorem interpolate_eq_ok (compiled : interpolate node context = .ok term) :
    ∃ curve input others shape argument,
      node.argument ⟨Operator.interpolate.name, 1⟩ = .ok shape ∧
      Curve.ofValue? shape.raw = some curve ∧
      node.argument ⟨Operator.interpolate.name, 2⟩ = .ok argument ∧
      argument.numberExpression ⟨Operator.interpolate.name, 2⟩ context = .ok input ∧
      stops context ⟨Operator.interpolate.name, 3⟩ none (node.drop 3) = .ok others ∧
      context.tryFold
        (Builtin.interpolate.applied (.literal curve.toValue :: input :: others)) = .ok term := by
  obtain ⟨_, _, compiled⟩ := bind_eq_ok.mp compiled
  obtain ⟨shape, found, compiled⟩ := bind_eq_ok.mp compiled
  split at compiled
  · cases compiled
  · rename_i curve reads
    obtain ⟨argument, second, compiled⟩ := bind_eq_ok.mp compiled
    obtain ⟨input, operand, compiled⟩ := bind_eq_ok.mp compiled
    obtain ⟨others, tail, tried⟩ := bind_eq_ok.mp compiled
    exact ⟨curve, input, others, shape, argument, found, reads, second, operand, tail, tried⟩

theorem bindings_cons {place : Place} {scope result : Scope} {name value : Argument}
    {rest : Node}
    (compiled : bindings context place scope (name :: value :: rest) = .ok result) :
    ∃ bound term, variableName name place = .ok bound ∧ value.expression context = .ok term ∧
      bindings context (place.next 2) ((bound, term) :: scope) rest = .ok result := by
  unfold bindings at compiled
  obtain ⟨bound, written, compiled⟩ := bind_eq_ok.mp compiled
  obtain ⟨term, head, compiled⟩ := bind_eq_ok.mp compiled
  exact ⟨bound, term, written, head, compiled⟩

/-- A body is compiled inside the bindings that are written before it. -/
theorem letIn_eq_ok (compiled : letIn node context = .ok term) :
    (node.length - 2) % 2 = 0 ∧ ∃ scope body,
      bindings context ⟨Operator.letIn.name, 1⟩ [] (node.dropLast.drop 1) = .ok scope ∧
      node.argument ⟨Operator.letIn.name, node.length - 1⟩ = .ok body ∧
      body.expression (context.push scope) = .ok term := by
  obtain ⟨_, paired, compiled⟩ := bind_eq_ok.mp compiled
  obtain ⟨scope, bound, compiled⟩ := bind_eq_ok.mp compiled
  obtain ⟨body, found, compiled⟩ := bind_eq_ok.mp compiled
  exact ⟨Node.even_of_expectPairs paired, scope, body, bound, found, compiled⟩

theorem var_eq_ok (compiled : var node context = .ok term) :
    ∃ argument name, node.argument ⟨Operator.var.name, 1⟩ = .ok argument ∧
      variableName argument ⟨Operator.var.name, 1⟩ = .ok name ∧
      context.lookup? name = some term := by
  obtain ⟨argument, found, compiled⟩ := bind_eq_ok.mp compiled
  obtain ⟨name, written, compiled⟩ := bind_eq_ok.mp compiled
  refine ⟨argument, name, found, written, ?_⟩
  split at compiled
  · rename_i bound
    obtain rfl := pure_eq_ok.mp compiled
    exact bound
  · cases compiled

/-- An item is taken from a known array at a known index. -/
theorem itemAt_eq_ok (compiled : itemAt node context = .ok term) :
    ∃ first second index items value,
      node.argument ⟨Operator.at.name, 1⟩ = .ok first ∧
      first.constantNumber ⟨Operator.at.name, 1⟩ context = .ok index ∧
      node.argument ⟨Operator.at.name, 2⟩ = .ok second ∧
      second.constantItems ⟨Operator.at.name, 2⟩ context = .ok items ∧
      itemAt? items index.toInt64 = some value ∧ term = .literal value := by
  obtain ⟨first, found, compiled⟩ := bind_eq_ok.mp compiled
  obtain ⟨index, known, compiled⟩ := bind_eq_ok.mp compiled
  obtain ⟨second, foundSecond, compiled⟩ := bind_eq_ok.mp compiled
  obtain ⟨items, knownItems, compiled⟩ := bind_eq_ok.mp compiled
  split at compiled
  · split at compiled
    · rename_i value present
      exact ⟨first, second, index, items, value, found, known, foundSecond, knownItems, present,
        (pure_eq_ok.mp compiled).symm⟩
    · cases compiled
  · cases compiled

/-- A known key is looked up in the feature, or in a known object. -/
theorem keyed_eq_ok {operator : Operator} {ofFeature : String → Term}
    {ofObject : String → Entries → Value}
    (compiled : keyed operator ofFeature ofObject node context = .ok term) :
    ∃ first key, node.argument ⟨operator.name, 1⟩ = .ok first ∧
      first.constantText ⟨operator.name, 1⟩ context = .ok key ∧
      (node.length = 2 ∧ term = ofFeature key ∨
        ∃ second entries, node.length ≠ 2 ∧ node.argument ⟨operator.name, 2⟩ = .ok second ∧
          second.constantEntries ⟨operator.name, 2⟩ context = .ok entries ∧
          term = .literal (ofObject key entries)) := by
  obtain ⟨first, found, compiled⟩ := bind_eq_ok.mp compiled
  obtain ⟨key, known, compiled⟩ := bind_eq_ok.mp compiled
  refine ⟨first, key, found, known, ?_⟩
  split at compiled
  · rename_i single
    exact .inl ⟨single, (pure_eq_ok.mp compiled).symm⟩
  · rename_i double
    obtain ⟨second, foundSecond, compiled⟩ := bind_eq_ok.mp compiled
    obtain ⟨entries, knownEntries, compiled⟩ := bind_eq_ok.mp compiled
    exact .inr ⟨second, entries, double, foundSecond, knownEntries,
      (pure_eq_ok.mp compiled).symm⟩

/-- A length is that of a known value, or a call by the class of the argument. -/
theorem length_eq_ok (compiled : length node context = .ok term) :
    ∃ argument inner, node.argument ⟨Operator.length.name, 1⟩ = .ok argument ∧
      argument.valueOrExpression context = .ok inner ∧
      ((∃ value counted, inner = .literal value ∧
          Conversion.lengthOf Operator.length.name value = .ok counted ∧
          term = .literal counted) ∨
        inner.isLiteral = false ∧
          (context.kind? inner = some .string ∧ term = Builtin.textLength.applied [inner] ∨
            context.kind? inner = some .array ∧ term = Builtin.listSize.applied [inner] ∨
            context.kind? inner = none ∧ term = Builtin.length.applied [inner])) := by
  obtain ⟨argument, found, compiled⟩ := bind_eq_ok.mp compiled
  obtain ⟨inner, head, compiled⟩ := bind_eq_ok.mp compiled
  refine ⟨argument, inner, found, head, ?_⟩
  split at compiled
  · rename_i value
    obtain ⟨counted, counts, compiled⟩ := bind_eq_ok.mp compiled
    exact .inl ⟨value, counted, rfl, counts, (pure_eq_ok.mp compiled).symm⟩
  · rename_i unlike
    refine .inr ⟨?_, ?_⟩
    · cases inner with
      | literal value => exact absurd rfl (unlike value)
      | _ => rfl
    · split at compiled
      · rename_i string
        exact .inl ⟨string, (pure_eq_ok.mp compiled).symm⟩
      · rename_i array
        exact .inr (.inl ⟨array, (pure_eq_ok.mp compiled).symm⟩)
      · cases compiled
      · rename_i unknown
        exact .inr (.inr ⟨unknown, (pure_eq_ok.mp compiled).symm⟩)

end Compiler

/-- A number of arguments that passes the check is accepted. -/
theorem Arity.accepts_of_check {arity : Arity} {name : String} {count : Nat} {checked : Unit}
    (passes : arity.check name count = .ok checked) : arity.accepts count = true := by
  unfold check at passes
  split at passes
  · assumption
  · cases passes

/-- An expression that is in order compiles by the rule of its operator, one level deeper. -/
theorem Node.compile_eq_rule {node : Node} {context : Context} {operator : Operator}
    (named : node.name? = some operator.name)
    (accepted : operator.arity.accepts (node.length - 1) = true)
    (shallow : context.depth < context.options.maxDepth) :
    node.compile context = operator.rule node context.deeper := by
  unfold Node.compile Operator.compile Node.expectOperator Arity.check
  rw [named]
  dsimp only
  rw [Operator.ofName?_name]
  dsimp only
  rw [if_pos accepted, if_neg (Nat.not_le.mpr shallow), if_pos rfl]
  rfl

/-- An expression that compiles is compiled by the rule of an operator, one level deeper. -/
theorem Node.compile_eq_ok {node : Node} {context : Context} {term : Term}
    (compiled : node.compile context = .ok term) :
    ∃ operator : Operator, operator.arity.accepts (node.length - 1) = true ∧
      node.name? = some operator.name ∧ operator.rule node context.deeper = .ok term := by
  unfold Node.compile at compiled
  split at compiled
  · cases compiled
  · rename_i name named
    split at compiled
    · cases compiled
    · rename_i operator found
      obtain ⟨_, checked, compiled⟩ := bind_eq_ok.mp compiled
      split at compiled
      · cases compiled
      · obtain ⟨_, _, ruled⟩ := bind_eq_ok.mp compiled
        refine ⟨operator, Arity.accepts_of_check checked, ?_, ruled⟩
        rw [named, Operator.name_of_ofName? found]

/-- A document compiles as the value that it is. -/
theorem Compiler.compile_eq_ok {compiler : Compiler} {document : Value} {term : Term}
    (compiled : compiler.compile document = .ok term) :
    document.compile { registry := compiler.registry, options := compiler.options } = .ok term := by
  cases document with
  | array items =>
      unfold Value.compile
      exact compiled
  | _ => cases compiled

end MapStyle
