import MapStyle.Proofs.Compiler.Emitted
import MapStyle.Proofs.Compiler.Inversion
import MapStyle.Proofs.Zero

/-!
# Compilation emits the terms of the grammar

By induction on the document: if the arguments of an expression compile to emitted terms, then so
does the expression, by the rule of its operator.  What a context contributes are the variables,
which stand for terms that were emitted before.
-/

namespace MapStyle

variable {options : Options} {written : Value → Prop}

/-- A context with all functions, these options, and variables that stand for emitted terms. -/
structure Context.Emits (options : Options) (written : Value → Prop) (context : Context) :
    Prop where
  registry : context.registry = {}
  sameOptions : context.options = options
  bindings : ∀ name term, context.lookup? name = some term → Emitted options written term

structure Argument.Emits (options : Options) (written : Value → Prop) (argument : Argument) :
    Prop where
  raw : written argument.raw
  compile : ∀ context term, context.Emits options written →
    argument.compile context = .ok term → Emitted options written term

namespace Context.Emits

variable {context : Context}

/-- Around a whole document no variable is bound. -/
theorem document : Context.Emits options written { options } := by
  refine ⟨rfl, rfl, ?_⟩
  intro name term bound
  cases bound

theorem deeper (emits : context.Emits options written) :
    context.deeper.Emits options written :=
  ⟨emits.registry, emits.sameOptions, emits.bindings⟩

theorem push (emits : context.Emits options written) {scope : Scope}
    (bound : ∀ entry ∈ scope, Emitted options written entry.2) :
    (context.push scope).Emits options written := by
  refine ⟨emits.registry, emits.sameOptions, ?_⟩
  intro name term found
  cases held : scope.lookup name with
  | some other =>
      rw [context.lookup?_push_of_mem held] at found
      cases found
      obtain ⟨before, after, rfl, _⟩ := List.lookup_eq_some_iff.mp held
      exact bound (name, term) (by simp)
  | none =>
      rw [context.lookup?_push_of_not_mem held] at found
      exact emits.bindings name term found

theorem evaluator (emits : context.Emits options written) :
    context.evaluator = options.evaluator := by
  unfold Context.evaluator Options.evaluator
  rw [emits.registry, emits.sameOptions]

theorem kind? (emits : context.Emits options written) (term : Term) :
    context.kind? term = term.kind? {} := by
  unfold Context.kind?
  rw [emits.registry]

/-- A constant evaluation yields the meaning of the term. -/
theorem meaning_of_evaluate (emits : context.Emits options written) {term : Term} {value : Value}
    (yields : context.evaluator.evaluate 0 term = .ok value) :
    term.meaning {} .constants = .ok value := by
  rw [emits.evaluator] at yields
  exact Evaluator.meaning_of_evaluate yields

theorem constant?_origin (emits : context.Emits options written) {term : Term}
    (emitted : Emitted options written term) {value : Value}
    (decided : context.constant? term = .ok (some value)) : value.Origin written :=
  emitted.origin_of_meaning (emits.meaning_of_evaluate (constant?_eq_some decided))

/-- A call that a fold replaces is replaced by a value of the document or a computed one. -/
theorem folded (emits : context.Emits options written) {builtin : Builtin}
    {arguments : List Term} (each : ∀ argument ∈ arguments, Emitted options written argument)
    {value : Value}
    (yields : context.evaluator.evaluate 0 (builtin.applied arguments) = .ok value) :
    Emitted options written (.literal value) := by
  apply Emitted.literal
  apply Emitted.origin_of_applied _ (emits.meaning_of_evaluate yields)
  intro argument member value means
  exact (each argument member).origin_of_meaning means

theorem fold (emits : context.Emits options written) {builtin : Builtin} {arguments : List Term}
    {result : Term} (each : ∀ argument ∈ arguments, Emitted options written argument)
    (deferred : Undecided options builtin arguments → Deferred options builtin arguments)
    (folded : context.fold (builtin.applied arguments) = .ok result) :
    Emitted options written result := by
  rcases fold_applied_eq_ok folded with ⟨value, rfl, yields, _⟩ | ⟨rfl, undecided⟩
  · exact emits.folded each yields
  · rw [emits.sameOptions, emits.evaluator] at undecided
    exact .call each (deferred undecided)

theorem tryFold (emits : context.Emits options written) {builtin : Builtin}
    {arguments : List Term} {result : Term}
    (each : ∀ argument ∈ arguments, Emitted options written argument)
    (deferred : (options.foldConstants = true →
        LeavesOpen (options.evaluator.evaluate 0 (builtin.applied arguments))) →
      Deferred options builtin arguments)
    (tried : context.tryFold (builtin.applied arguments) = .ok result) :
    Emitted options written result := by
  rcases tryFold_eq_ok tried with ⟨value, rfl, yields, _⟩ | ⟨rfl, waits⟩
  · exact emits.folded each yields
  · rw [emits.sameOptions, emits.evaluator] at waits
    exact .call each (deferred waits)

end Context.Emits

namespace Argument.Emits

variable {context : Context} {argument : Argument}

theorem expression (emits : argument.Emits options written)
    (around : context.Emits options written) {term : Term}
    (compiled : argument.expression context = .ok term) : Emitted options written term := by
  unfold Argument.expression at compiled
  split at compiled
  · exact emits.compile context term around compiled
  · obtain rfl := pure_eq_ok.mp compiled
    exact .literal (.inl emits.raw)

theorem valueOrExpression (emits : argument.Emits options written)
    (around : context.Emits options written) {term : Term}
    (compiled : argument.valueOrExpression context = .ok term) :
    Emitted options written term := by
  unfold Argument.valueOrExpression at compiled
  split at compiled
  · exact emits.compile context term around compiled
  · obtain rfl := pure_eq_ok.mp compiled
    exact .literal (.inl emits.raw)

/-- An operand of arithmetic is of the class of numbers. -/
theorem numberExpression (emits : argument.Emits options written)
    (around : context.Emits options written) {place : Place} {term : Term}
    (compiled : argument.numberExpression place context = .ok term) :
    Emitted options written term ∧ term.kind? {} = some .number := by
  obtain ⟨inner, compiled, operand⟩ := Argument.numberExpression_eq_ok compiled
  have emitted := emits.expression around compiled
  rw [around.kind?] at operand
  rcases operand with ⟨number, rfl⟩ | ⟨unknown, rfl⟩
  · exact ⟨emitted, number⟩
  · refine ⟨.call ?_ (.conversion unknown), Term.kind?_applied _ _⟩
    intro argument member
    obtain rfl := List.mem_singleton.mp member
    exact emitted

theorem constantBy {α : Type} (emits : argument.Emits options written)
    (around : context.Emits options written) {place : Place} {expected : String}
    {read? : Value → Option α} {found : α}
    (compiled : argument.constantBy place expected read? context = .ok found) :
    ∃ value, read? value = some found ∧ value.Origin written := by
  obtain ⟨term, value, inner, known, reads⟩ := Argument.constantBy_eq_ok compiled
  exact ⟨value, reads, around.constant?_origin (emits.valueOrExpression around inner) known⟩

end Argument.Emits

def Node.Emits (options : Options) (written : Value → Prop) (node : Node) : Prop :=
  ∀ argument ∈ node, argument.Emits options written

namespace Node.Emits

variable {node : Node}

theorem argument (emits : node.Emits options written) {place : Place} {argument : Argument}
    (found : node.argument place = .ok argument) : argument.Emits options written :=
  emits argument (List.mem_of_getElem? (Node.getElem?_of_argument found))

theorem sublist (emits : node.Emits options written) {part : Node} (inside : part.Sublist node) :
    part.Emits options written :=
  fun argument member => emits argument (inside.subset member)

theorem tail (emits : node.Emits options written) : Node.Emits options written node.tail :=
  emits.sublist (List.tail_sublist node)

theorem drop (emits : node.Emits options written) (count : Nat) :
    Node.Emits options written (node.drop count) :=
  emits.sublist (List.drop_sublist count node)

end Node.Emits

namespace Compiler

variable {context : Context} {node : Node} {term : Term}

/-! ## Formulas -/

/-- The operands of arithmetic are emitted, one for each argument, and of the class of numbers. -/
theorem operands_emitted (emits : node.Emits options written)
    (around : context.Emits options written) {place : Place} {terms : List Term}
    (compiled : operands context place node = .ok terms) :
    terms.length = node.length ∧
      ∀ term ∈ terms, Emitted options written term ∧ term.kind? {} = some .number := by
  induction node generalizing place terms with
  | nil =>
      obtain rfl := pure_eq_ok.mp compiled
      simp
  | cons argument rest ih =>
      unfold operands at compiled
      obtain ⟨first, head, compiled⟩ := bind_eq_ok.mp compiled
      obtain ⟨others, tail, compiled⟩ := bind_eq_ok.mp compiled
      obtain rfl := pure_eq_ok.mp compiled
      obtain ⟨length, each⟩ := ih emits.tail tail
      refine ⟨by simp [length], ?_⟩
      intro term member
      cases member with
      | head => exact (emits argument List.mem_cons_self).numberExpression around head
      | tail _ member => exact each term member

theorem arithmetic_emitted {operator : Operator} {builtin : Builtin}
    (numeric : builtin.isArithmetic = true)
    (accepted : builtin.arity.accepts (node.length - 1) = true)
    (emits : node.Emits options written) (around : context.Emits options written)
    (compiled : arithmetic operator builtin node context = .ok term) :
    Emitted options written term := by
  obtain ⟨terms, operands, folded⟩ := bind_eq_ok.mp compiled
  obtain ⟨length, each⟩ := operands_emitted emits.tail around operands
  refine around.fold (fun term member => (each term member).1) ?_ folded
  intro undecided
  refine .arithmetic numeric ?_ (fun term member => (each term member).2) undecided
  rw [length, List.length_tail]
  exact accepted

/-- A difference is arithmetic on one number or on two. -/
theorem difference_eq_arithmetic
    (accepted : Operator.subtract.arity.accepts (node.length - 1) = true) :
    ∃ builtin : Builtin, builtin.isArithmetic = true ∧
      builtin.arity.accepts (node.length - 1) = true ∧
      difference node = arithmetic .subtract builtin node := by
  have bounds : 1 ≤ node.length - 1 ∧ node.length - 1 ≤ 2 := by
    simpa [Operator.arity, Operator.entry, Arity.accepts] using accepted
  unfold difference
  split
  · rename_i one
    refine ⟨.unary .neg, rfl, ?_, rfl⟩
    simp [Builtin.arity, Builtin.signature, Arity.accepts, one]
  · refine ⟨.binary .sub, rfl, ?_, rfl⟩
    have two : node.length - 1 = 2 := by omega
    simp [Builtin.arity, Builtin.signature, Arity.accepts, two]

theorem difference_emitted (accepted : Operator.subtract.arity.accepts (node.length - 1) = true)
    (emits : node.Emits options written) (around : context.Emits options written)
    (compiled : difference node context = .ok term) : Emitted options written term := by
  obtain ⟨builtin, numeric, counted, same⟩ := difference_eq_arithmetic accepted
  rw [same] at compiled
  exact arithmetic_emitted numeric counted emits around compiled

theorem rounded_emitted (around : context.Emits options written) {number rounded : Term}
    (emitted : Emitted options written number) (kind : number.kind? {} = some .number)
    (rounds : context.fold ((Builtin.unary .round).applied [number]) = .ok rounded) :
    Emitted options written rounded :=
  around.fold (by simpa using emitted) (.arithmetic rfl rfl (by simpa using kind)) rounds

theorem channel_emitted {position : Nat} (emits : node.Emits options written)
    (around : context.Emits options written)
    (compiled : channel node context position = .ok term) : Emitted options written term := by
  obtain ⟨argument, found, compiled⟩ := bind_eq_ok.mp compiled
  obtain ⟨number, operand, compiled⟩ := bind_eq_ok.mp compiled
  obtain ⟨rounded, rounds, digits⟩ := bind_eq_ok.mp compiled
  obtain ⟨emitted, kind⟩ := (emits.argument found).numberExpression around operand
  have whole := rounded_emitted around emitted kind rounds
  exact around.fold (by simpa using whole) (.single (by simp)) digits

theorem rgb_emitted (emits : node.Emits options written) (around : context.Emits options written)
    (compiled : rgb node context = .ok term) : Emitted options written term := by
  obtain ⟨red, first, compiled⟩ := bind_eq_ok.mp compiled
  obtain ⟨green, second, compiled⟩ := bind_eq_ok.mp compiled
  obtain ⟨blue, third, folded⟩ := bind_eq_ok.mp compiled
  refine around.fold ?_ (.concatenation (by simp)) folded
  have hash : Emitted options written (.literal (.string "#")) := .computed (.string _)
  have channels := And.intro (channel_emitted emits around first)
    (And.intro (channel_emitted emits around second) (channel_emitted emits around third))
  simpa using And.intro hash channels

theorem expressions_emitted (emits : node.Emits options written)
    (around : context.Emits options written) {terms : List Term}
    (compiled : expressions context node = .ok terms) :
    terms.length = node.length ∧ ∀ term ∈ terms, Emitted options written term := by
  induction node generalizing terms with
  | nil =>
      obtain rfl := pure_eq_ok.mp compiled
      simp
  | cons argument rest ih =>
      unfold expressions at compiled
      obtain ⟨first, head, compiled⟩ := bind_eq_ok.mp compiled
      obtain ⟨others, tail, compiled⟩ := bind_eq_ok.mp compiled
      obtain rfl := pure_eq_ok.mp compiled
      obtain ⟨length, each⟩ := ih emits.tail tail
      refine ⟨by simp [length], ?_⟩
      intro term member
      cases member with
      | head => exact (emits argument List.mem_cons_self).expression around head
      | tail _ member => exact each term member

theorem textual_emitted {builtin : Builtin} (emits : node.Emits options written)
    (around : context.Emits options written)
    (deferred : ∀ terms, terms.length = node.length - 1 → Undecided options builtin terms →
      Deferred options builtin terms)
    (compiled : textual builtin node context = .ok term) : Emitted options written term := by
  obtain ⟨terms, inner, folded⟩ := bind_eq_ok.mp compiled
  obtain ⟨length, each⟩ := expressions_emitted emits.tail around inner
  exact around.fold each (deferred terms (by rw [length, List.length_tail])) folded

theorem textual_single_emitted {builtin : Builtin} (single : builtin ∈ [.lowercase, .uppercase])
    (accepted : (Arity.exactly 1).accepts (node.length - 1) = true)
    (emits : node.Emits options written) (around : context.Emits options written)
    (compiled : textual builtin node context = .ok term) : Emitted options written term := by
  apply textual_emitted emits around _ compiled
  intro terms length undecided
  have one : node.length - 1 = 1 := by simpa [Arity.accepts] using accepted
  obtain ⟨argument, rfl⟩ := List.length_eq_one_iff.mp (length.trans one)
  refine .single ?_ undecided
  simp only [List.mem_cons, List.not_mem_nil, or_false] at single ⊢
  exact .inr (single.imp_right .inl)

theorem textual_concatenate_emitted
    (accepted : (Arity.atLeast 1).accepts (node.length - 1) = true)
    (emits : node.Emits options written) (around : context.Emits options written)
    (compiled : textual .concatenate node context = .ok term) : Emitted options written term := by
  apply textual_emitted emits around _ compiled
  intro terms length undecided
  have occupied : 1 ≤ node.length - 1 := by simpa [Arity.accepts] using accepted
  refine .concatenation ?_ undecided
  rintro rfl
  simp only [List.length_nil] at length
  omega

/-! ## Comparison and logic -/

theorem negation_emitted {operator : Operator} (emits : node.Emits options written)
    (around : context.Emits options written)
    (compiled : negation operator node context = .ok term) : Emitted options written term := by
  obtain ⟨argument, found, compiled⟩ := bind_eq_ok.mp compiled
  obtain ⟨inner, operand, folded⟩ := bind_eq_ok.mp compiled
  have emitted := (emits.argument found).expression around operand
  exact around.fold (by simpa using emitted) (.single (by simp)) folded

theorem bothArguments_emitted {operator : Operator} (emits : node.Emits options written)
    (around : context.Emits options written) {left right : Term}
    (compiled : bothArguments operator node context = .ok (left, right)) :
    ∀ argument ∈ [left, right], Emitted options written argument := by
  obtain ⟨first, found, compiled⟩ := bind_eq_ok.mp compiled
  obtain ⟨one, compiledFirst, compiled⟩ := bind_eq_ok.mp compiled
  obtain ⟨second, foundSecond, compiled⟩ := bind_eq_ok.mp compiled
  obtain ⟨other, compiledSecond, same⟩ := bind_eq_ok.mp compiled
  cases same
  have leftEmitted := (emits.argument found).expression around compiledFirst
  have rightEmitted := (emits.argument foundSecond).expression around compiledSecond
  simpa using And.intro leftEmitted rightEmitted

theorem comparison_emitted {operator : Operator} {order : Comparison}
    (emits : node.Emits options written) (around : context.Emits options written)
    (compiled : comparison operator order node context = .ok term) :
    Emitted options written term := by
  obtain ⟨⟨left, right⟩, both, folded⟩ := bind_eq_ok.mp compiled
  exact around.fold (bothArguments_emitted emits around both) (.comparison order) folded

theorem equality_emitted {operator : Operator} {negated : Bool}
    (emits : node.Emits options written) (around : context.Emits options written)
    (compiled : equality operator negated node context = .ok term) :
    Emitted options written term := by
  obtain ⟨left, right, both, decided | ⟨undecided, rfl⟩⟩ := equality_cases compiled
  · obtain ⟨a, b, _, _, _, rfl⟩ := decided
    exact .computed (.boolean _)
  · rw [around.sameOptions] at undecided
    have each := bothArguments_emitted emits around both
    have equal : Emitted options written (Builtin.equalTo.applied [left, right]) :=
      .call each (.equality fun folds => .inl (undecided folds))
    split
    · refine .call (by simpa using equal) (.single (by simp) ?_)
      intro _
      exact .inl ⟨_, List.mem_cons_self, rfl⟩
    · exact equal

/-- Conditions are all known, or the first that is not follows conditions that have passed. -/
theorem conditions_emitted {decisive : Bool} (emits : node.Emits options written)
    (around : context.Emits options written) {place : Place} {terms : List Term}
    (compiled : conditions decisive context place node = .ok terms) :
    (∀ term ∈ terms, Emitted options written term) ∧
      ((∀ term ∈ terms, term.isLiteral = true) ∨
        ∃ before term after, terms = before ++ term :: after ∧
          (∀ condition ∈ before, condition = .literal (.boolean !decisive)) ∧
          term.isLiteral = false) := by
  induction node generalizing place terms with
  | nil =>
      obtain rfl := pure_eq_ok.mp compiled
      simp
  | cons argument rest ih =>
      obtain ⟨term, head, ⟨rfl, rfl⟩ | ⟨others, tail, rfl, known⟩⟩ := conditions_cons compiled
      · have emitted := (emits argument List.mem_cons_self).expression around head
        exact ⟨by simpa using emitted, .inl (by simp [Term.isLiteral])⟩
      · have emitted := (emits argument List.mem_cons_self).expression around head
        obtain ⟨each, shape⟩ := ih emits.tail tail
        refine ⟨by simpa using And.intro emitted each, ?_⟩
        rcases known with rfl | unknown
        · rcases shape with all | ⟨before, first, after, rfl, passed, unknown⟩
          · exact .inl (by simpa [Term.isLiteral] using all)
          · refine .inr ⟨_ :: before, first, after, rfl, ?_, unknown⟩
            simpa using passed
        · exact .inr ⟨[], term, others, rfl, by simp, unknown⟩

theorem logical_emitted {operator : Operator} (decisive : Bool)
    (emits : node.Emits options written) (around : context.Emits options written)
    (compiled : logical operator (if decisive then .any else .all) decisive node context =
      .ok term) : Emitted options written term := by
  obtain ⟨terms, inner, ⟨_, rfl⟩ | ⟨⟨condition, member, unknown⟩, rfl⟩⟩ := logical_eq_ok compiled
  · exact .computed (.boolean _)
  · obtain ⟨each, all | ⟨before, first, after, rfl, passed, unknown⟩⟩ :=
      conditions_emitted emits.tail around inner
    · rw [all condition member] at unknown
      cases unknown
    · exact .call each (.logical decisive passed unknown)

/-! ## Choices -/

/-- Branches start with a condition that is not known, unless a single output is left. -/
theorem branches_emitted (emits : node.Emits options written)
    (around : context.Emits options written) {place : Place} {terms : List Term}
    (compiled : branches context place node = .ok terms) :
    (∀ term ∈ terms, Emitted options written term) ∧
      ∀ first second rest, terms = first :: second :: rest → first.isLiteral = false := by
  induction place, node using branches.induct generalizing terms with
  | case1 place condition output rest ih =>
      obtain ⟨term, head, ⟨chosen, rfl, taken, rfl⟩ | ⟨rfl, tail⟩ |
        ⟨chosen, others, unknown, taken, tail, rfl⟩⟩ := branches_cons compiled
      · have emitted := (emits output (by simp)).expression around taken
        exact ⟨by simpa using emitted, by simp⟩
      · exact ih (emits.drop 2) tail
      · have conditionEmitted := (emits condition (by simp)).expression around head
        have outputEmitted := (emits output (by simp)).expression around taken
        obtain ⟨each, _⟩ := ih (emits.drop 2) tail
        constructor
        · simpa using And.intro conditionEmitted (And.intro outputEmitted each)
        · intro first second rest same
          cases same
          exact unknown
  | case2 place default =>
      obtain ⟨term, head, rfl⟩ := branches_default compiled
      have emitted := (emits default (by simp)).expression around head
      exact ⟨by simpa using emitted, by simp⟩
  | case3 place =>
      unfold branches at compiled
      obtain rfl := pure_eq_ok.mp compiled
      simp

theorem case_emitted (emits : node.Emits options written) (around : context.Emits options written)
    (compiled : case node context = .ok term) : Emitted options written term := by
  obtain ⟨terms, inner, one | ⟨first, second, rest, rfl, rfl⟩⟩ := case_eq_ok compiled
  · exact (branches_emitted emits.tail around inner).1 term (by simp [one])
  · obtain ⟨each, unknown⟩ := branches_emitted emits.tail around inner
    exact .call each (.case (unknown first second rest rfl))

/-- Candidates start with one that is not known, unless a single known one is left. -/
theorem candidates_emitted (emits : node.Emits options written)
    (around : context.Emits options written) {terms : List Term}
    (compiled : candidates context node = .ok terms) :
    (∀ term ∈ terms, Emitted options written term) ∧
      ∀ first rest, terms = first :: rest → first.isLiteral = false ∨
        ∃ value, terms = [.literal value] := by
  induction node generalizing terms with
  | nil =>
      obtain rfl := pure_eq_ok.mp compiled
      simp
  | cons argument rest ih =>
      obtain ⟨term, head, ⟨rfl, tail⟩ | ⟨value, rfl, _, rfl⟩ | ⟨others, unknown, tail, rfl⟩⟩ :=
        candidates_cons compiled
      · exact ih emits.tail tail
      · have emitted := (emits argument List.mem_cons_self).expression around head
        exact ⟨by simpa using emitted, fun _ _ _ => .inr ⟨value, rfl⟩⟩
      · have emitted := (emits argument List.mem_cons_self).expression around head
        obtain ⟨each, _⟩ := ih emits.tail tail
        refine ⟨by simpa using And.intro emitted each, ?_⟩
        intro first rest same
        cases same
        exact .inl unknown

theorem coalesce_emitted (emits : node.Emits options written)
    (around : context.Emits options written)
    (compiled : coalesce node context = .ok term) : Emitted options written term := by
  obtain ⟨terms, inner, ⟨rfl, rfl⟩ | ⟨value, rfl, rfl⟩ | ⟨occupied, several, rfl⟩⟩ :=
    coalesce_eq_ok compiled
  · exact .computed .null
  · exact (candidates_emitted emits.tail around inner).1 _ (by simp)
  · obtain ⟨each, shape⟩ := candidates_emitted emits.tail around inner
    cases terms with
    | nil => exact absurd rfl occupied
    | cons first rest =>
        rcases shape first rest rfl with unknown | ⟨value, one⟩
        · exact .call each (.coalesce unknown)
        · exact absurd one (several value)

theorem selectKnown_emitted {input : Value} (emits : node.Emits options written)
    (around : context.Emits options written) {place : Place}
    (compiled : selectKnown input context place node = .ok term) :
    Emitted options written term := by
  induction place, node using selectKnown.induct with
  | case1 place label output rest ih =>
      obtain ⟨_, ⟨_, taken⟩ | ⟨_, tail⟩⟩ := selectKnown_cons compiled
      · exact (emits output (by simp)).expression around taken
      · exact ih (emits.drop 2) tail
  | case2 place default => exact (emits default (by simp)).expression around compiled
  | case3 place => cases compiled

theorem labelled_emitted (emits : node.Emits options written)
    (around : context.Emits options written) {place : Place} {terms : List Term}
    (compiled : labelled context place node = .ok terms) :
    (∀ term ∈ terms, Emitted options written term) ∧ (node ≠ [] → terms ≠ []) := by
  induction place, node using labelled.induct generalizing terms with
  | case1 place label output rest ih =>
      obtain ⟨_, chosen, others, taken, tail, rfl⟩ := labelled_cons compiled
      have labelEmitted : Emitted options written (.literal label.raw) :=
        .literal (.inl (emits label (by simp)).raw)
      have outputEmitted := (emits output (by simp)).expression around taken
      obtain ⟨each, _⟩ := ih (emits.drop 2) tail
      exact ⟨by simpa using And.intro labelEmitted (And.intro outputEmitted each), by simp⟩
  | case2 place default =>
      obtain ⟨term, head, rfl⟩ := labelled_default compiled
      have emitted := (emits default (by simp)).expression around head
      exact ⟨by simpa using emitted, by simp⟩
  | case3 place =>
      unfold labelled at compiled
      obtain rfl := pure_eq_ok.mp compiled
      simp

theorem select_emitted (accepted : Operator.select.arity.accepts (node.length - 1) = true)
    (emits : node.Emits options written) (around : context.Emits options written)
    (compiled : select node context = .ok term) : Emitted options written term := by
  obtain ⟨argument, input, found, head, ⟨value, _, _, chosen⟩ | ⟨others, unknown, tail, rfl⟩⟩ :=
    select_eq_ok compiled
  · exact selectKnown_emitted (emits.drop 2) around chosen
  · have inputEmitted := (emits.argument found).expression around head
    obtain ⟨each, occupied⟩ := labelled_emitted (emits.drop 2) around tail
    have long : 3 ≤ node.length - 1 := by
      simpa [Operator.arity, Operator.entry, Arity.accepts] using accepted
    refine .call (by simpa using And.intro inputEmitted each) (.select unknown (occupied ?_))
    rw [← List.length_pos_iff, List.length_drop]
    omega

/-! ## Ramps -/

/-- A stop that is written as a number is a number. -/
theorem numberLiteral_number {argument : Argument} {place : Place} {bound : Double}
    (literal : argument.numberLiteral place = .ok bound) :
    ∃ held, Value.ofDouble bound = .number held := by
  obtain ⟨x, rfl⟩ := Value.toDouble?_finite (Argument.numberLiteral_eq_ok literal)
  exact Value.ofDouble_finite x

theorem stops_emitted (emits : node.Emits options written)
    (around : context.Emits options written) {place : Place} {previous : Option Double}
    {terms : List Term} (compiled : stops context place previous node = .ok terms) :
    Stops terms ∧ (∀ term ∈ terms, Emitted options written term) ∧
      (2 ≤ node.length → terms ≠ []) := by
  induction place, previous, node using stops.induct generalizing terms with
  | case1 place previous stop output rest ih =>
      obtain ⟨bound, chosen, others, literal, taken, tail, rfl⟩ := stops_cons compiled
      have boundEmitted : Emitted options written (.literal (.ofDouble bound)) :=
        .computed (.number bound)
      have outputEmitted := (emits output (by simp)).expression around taken
      obtain ⟨stops, each, _⟩ := ih bound (emits.drop 2) tail
      obtain ⟨held, number⟩ := numberLiteral_number literal
      rw [number] at boundEmitted ⊢
      exact ⟨.stop held chosen stops,
        by simpa using And.intro boundEmitted (And.intro outputEmitted each), by simp⟩
  | case2 node place previous short =>
      rw [Compiler.stops] at compiled
      · obtain rfl := pure_eq_ok.mp compiled
        refine ⟨.nil, by simp, ?_⟩
        intro long
        rcases node with _ | ⟨stop, _ | ⟨output, rest⟩⟩
        · simp at long
        · simp at long
        · exact (short stop output rest rfl).elim
      · exact short

theorem step_emitted (emits : node.Emits options written) (around : context.Emits options written)
    (compiled : step node context = .ok term) : Emitted options written term := by
  obtain ⟨input, first, others, argument, output, found, second, operand, chosen, tail, tried⟩ :=
    step_eq_ok compiled
  obtain ⟨inputEmitted, _⟩ := (emits.argument found).numberExpression around operand
  have outputEmitted := (emits.argument second).expression around chosen
  obtain ⟨stops, each, _⟩ := stops_emitted (emits.drop 3) around tail
  refine around.tryFold ?_ (.step stops) tried
  simpa using And.intro inputEmitted (And.intro outputEmitted each)

theorem curve_computed (curve : Curve) : curve.toValue.Computed := by
  cases curve with
  | linear => exact .array (by simpa using Value.Computed.string _)
  | exponential base =>
      exact .array (by simpa using And.intro (Value.Computed.string _) (Value.Computed.number _))
  | cubicBezier x1 y1 x2 y2 =>
      apply Value.Computed.array
      intro item member
      simp only [List.mem_cons, List.not_mem_nil, or_false] at member
      rcases member with rfl | rfl | rfl | rfl | rfl
      · exact .string _
      · exact .number _
      · exact .number _
      · exact .number _
      · exact .number _

/-- An interpolation has room for a stop with its output. -/
theorem two_le_of_interpolate
    (accepted : Operator.interpolate.arity.accepts (node.length - 1) = true) :
    2 ≤ (node.drop 3).length := by
  have long : 4 ≤ node.length - 1 := by
    simpa [Operator.arity, Operator.entry, Arity.accepts] using accepted
  rw [List.length_drop]
  omega

theorem interpolate_emitted
    (accepted : Operator.interpolate.arity.accepts (node.length - 1) = true)
    (emits : node.Emits options written) (around : context.Emits options written)
    (compiled : interpolate node context = .ok term) : Emitted options written term := by
  obtain ⟨curve, input, others, shape, argument, _, reads, found, operand, tail, tried⟩ :=
    interpolate_eq_ok compiled
  obtain ⟨inputEmitted, _⟩ := (emits.argument found).numberExpression around operand
  obtain ⟨stops, each, occupied⟩ := stops_emitted (emits.drop 3) around tail
  have curveEmitted : Emitted options written (.literal curve.toValue) :=
    .computed (curve_computed curve)
  refine around.tryFold ?_ (.interpolate curve (Curve.readable_toValue reads) stops
    (occupied (two_le_of_interpolate accepted))) tried
  simpa using And.intro curveEmitted (And.intro inputEmitted each)

/-! ## Variables -/

theorem bindings_emitted (emits : node.Emits options written)
    (around : context.Emits options written) {place : Place} {scope result : Scope}
    (held : ∀ entry ∈ scope, Emitted options written entry.2)
    (compiled : bindings context place scope node = .ok result) :
    ∀ entry ∈ result, Emitted options written entry.2 := by
  induction place, scope, node using bindings.induct with
  | case1 place scope name value rest ih =>
      obtain ⟨bound, term, _, head, tail⟩ := bindings_cons compiled
      have emitted := (emits value (by simp)).expression around head
      exact ih bound term (emits.drop 2) (by simpa using And.intro emitted held) tail
  | case2 node place scope short =>
      rw [bindings] at compiled
      · obtain rfl := pure_eq_ok.mp compiled
        exact held
      · exact short

theorem letIn_emitted (emits : node.Emits options written)
    (around : context.Emits options written)
    (compiled : letIn node context = .ok term) : Emitted options written term := by
  obtain ⟨_, scope, body, bound, found, inner⟩ := letIn_eq_ok compiled
  have inside : Node.Emits options written (node.dropLast.drop 1) :=
    emits.sublist ((List.drop_sublist 1 _).trans (List.dropLast_sublist node))
  have held := bindings_emitted inside around (by simp) bound
  exact (emits.argument found).expression (around.push held) inner

theorem var_emitted (around : context.Emits options written)
    (compiled : var node context = .ok term) : Emitted options written term := by
  obtain ⟨argument, name, _, _, bound⟩ := var_eq_ok compiled
  exact around.bindings name term bound

/-! ## Access to data -/

theorem itemAt_emitted (hereditary : Value.Hereditary written) (emits : node.Emits options written)
    (around : context.Emits options written)
    (compiled : itemAt node context = .ok term) : Emitted options written term := by
  obtain ⟨first, second, index, items, value, _, _, found, known, present, rfl⟩ :=
    itemAt_eq_ok compiled
  obtain ⟨held, reads, origin⟩ := (emits.argument found).constantBy around known
  cases held with
  | array inner =>
      cases reads
      unfold itemAt? at present
      split at present
      · cases present
      · exact .literal (origin.item hereditary (List.mem_of_getElem? present))
  | _ => cases reads

theorem keyed_emitted {operator : Operator} {ofFeature : String → Term}
    {ofObject : String → Entries → Value} (emits : node.Emits options written)
    (around : context.Emits options written)
    (feature : ∀ key, Emitted options written (ofFeature key))
    (object : ∀ key entries, (Value.object entries).Origin written →
      (ofObject key entries).Origin written)
    (compiled : keyed operator ofFeature ofObject node context = .ok term) :
    Emitted options written term := by
  obtain ⟨first, key, _, _, ⟨_, rfl⟩ | ⟨second, entries, _, found, known, rfl⟩⟩ :=
    keyed_eq_ok compiled
  · exact feature key
  · obtain ⟨held, reads, origin⟩ := (emits.argument found).constantBy around known
    cases held with
    | object inner =>
        obtain rfl := Option.some.inj reads
        exact .literal (object key _ origin)
    | _ => cases reads

theorem get_emitted (hereditary : Value.Hereditary written) (emits : node.Emits options written)
    (around : context.Emits options written)
    (compiled : get node context = .ok term) : Emitted options written term := by
  refine keyed_emitted emits around .property ?_ compiled
  intro key entries origin
  cases found : Entries.find? key entries with
  | none => exact .inr .null
  | some value =>
      obtain ⟨before, after, rfl, _⟩ := List.lookup_eq_some_iff.mp found
      exact origin.entry hereditary (show (key, value) ∈ before ++ (key, value) :: after by simp)

theorem has_emitted (emits : node.Emits options written) (around : context.Emits options written)
    (compiled : has node context = .ok term) : Emitted options written term := by
  refine keyed_emitted emits around ?_ ?_ compiled
  · intro key
    refine .call ?_ (.named (by simp) key)
    simpa using Emitted.computed (.string key)
  · intro key entries _
    exact .inr (.boolean _)

theorem lengthOf_computed {function : String} {value counted : Value}
    (counts : Conversion.lengthOf function value = .ok counted) : counted.Computed :=
  Builtin.computed_of_returned (Conversion.lengthOf_returns counts) (by decide)

theorem length_emitted (emits : node.Emits options written)
    (around : context.Emits options written)
    (compiled : length node context = .ok term) : Emitted options written term := by
  obtain ⟨argument, inner, found, head, ⟨value, counted, _, counts, rfl⟩ | ⟨unknown, cases⟩⟩ :=
    length_eq_ok compiled
  · exact .computed (lengthOf_computed counts)
  · have emitted := (emits.argument found).valueOrExpression around head
    have each : ∀ argument ∈ [inner], Emitted options written argument := by simpa using emitted
    rcases cases with ⟨_, rfl⟩ | ⟨_, rfl⟩ | ⟨_, rfl⟩
    · exact .call each (.measure (by simp) unknown)
    · exact .call each (.measure (by simp) unknown)
    · exact .call each (.measure (by simp) unknown)

theorem renderVariable_emitted (name : String) :
    Emitted options written (renderVariable name) := by
  refine .call ?_ (.named (by simp) name)
  simpa using Emitted.computed (.string name)

theorem zoom_emitted : Emitted options written zoom := by
  refine .call ?_ .zoom
  have system : Emitted options written (.literal (.string webMercator)) :=
    .computed (.string webMercator)
  simpa using And.intro (renderVariable_emitted scaleDenominator) system

end Compiler

/-- The rule of an operator emits a term if the arguments do and their number is accepted. -/
theorem Operator.rule_emitted (hereditary : Value.Hereditary written) {operator : Operator}
    {node : Node} {context : Context} {term : Term}
    (accepted : operator.arity.accepts (node.length - 1) = true)
    (emits : node.Emits options written) (around : context.Emits options written)
    (compiled : operator.rule node context = .ok term) : Emitted options written term := by
  cases operator with
  | rgb => exact Compiler.rgb_emitted emits around compiled
  | not => exact Compiler.negation_emitted emits around compiled
  | equal => exact Compiler.equality_emitted emits around compiled
  | notEqual => exact Compiler.equality_emitted emits around compiled
  | less => exact Compiler.comparison_emitted emits around compiled
  | lessOrEqual => exact Compiler.comparison_emitted emits around compiled
  | greater => exact Compiler.comparison_emitted emits around compiled
  | greaterOrEqual => exact Compiler.comparison_emitted emits around compiled
  | all => exact Compiler.logical_emitted false emits around compiled
  | any => exact Compiler.logical_emitted true emits around compiled
  | case => exact Compiler.case_emitted emits around compiled
  | coalesce => exact Compiler.coalesce_emitted emits around compiled
  | select => exact Compiler.select_emitted accepted emits around compiled
  | geometryType =>
      obtain rfl := pure_eq_ok.mp compiled
      exact .call (by simp) (.reading (by simp))
  | id =>
      obtain rfl := pure_eq_ok.mp compiled
      exact .call (by simp) (.reading (by simp))
  | properties =>
      obtain rfl := pure_eq_ok.mp compiled
      exact .call (by simp) (.reading (by simp))
  | heatmapDensity =>
      obtain rfl := pure_eq_ok.mp compiled
      exact Compiler.renderVariable_emitted _
  | «at» => exact Compiler.itemAt_emitted hereditary emits around compiled
  | get => exact Compiler.get_emitted hereditary emits around compiled
  | has => exact Compiler.has_emitted emits around compiled
  | length => exact Compiler.length_emitted emits around compiled
  | subtract => exact Compiler.difference_emitted accepted emits around compiled
  | interpolate => exact Compiler.interpolate_emitted accepted emits around compiled
  | step => exact Compiler.step_emitted emits around compiled
  | concat => exact Compiler.textual_concatenate_emitted accepted emits around compiled
  | downcase => exact Compiler.textual_single_emitted (by simp) accepted emits around compiled
  | upcase => exact Compiler.textual_single_emitted (by simp) accepted emits around compiled
  | letIn => exact Compiler.letIn_emitted emits around compiled
  | var => exact Compiler.var_emitted around compiled
  | e =>
      obtain rfl := pure_eq_ok.mp compiled
      exact .computed (.number _)
  | pi =>
      obtain rfl := pure_eq_ok.mp compiled
      exact .computed (.number _)
  | ln2 =>
      obtain rfl := pure_eq_ok.mp compiled
      exact .computed (.number _)
  | zoom =>
      obtain rfl := pure_eq_ok.mp compiled
      exact Compiler.zoom_emitted
  | rgba | toRgba | array | boolean | collator | format | literal | number | object | string
  | toBoolean | toColor | toNumber | toText | typeOf => cases compiled
  | _ =>
      refine Compiler.arithmetic_emitted ?_ ?_ emits around compiled
      · rfl
      · exact accepted

/-- An expression compiles to an emitted term if its arguments do. -/
theorem Node.compile_emitted (hereditary : Value.Hereditary written) {node : Node}
    {context : Context} {term : Term} (emits : node.Emits options written)
    (around : context.Emits options written) (compiled : node.compile context = .ok term) :
    Emitted options written term := by
  obtain ⟨operator, accepted, _, ruled⟩ := Node.compile_eq_ok compiled
  exact Operator.rule_emitted hereditary accepted emits around.deeper ruled

/-- Every compilation of a written value emits terms of the grammar. -/
theorem Value.compile_emitted (hereditary : Value.Hereditary written) {value : Value}
    (held : written value) {context : Context} {term : Term}
    (around : context.Emits options written) (compiled : value.compile context = .ok term) :
    Emitted options written term := by
  induction value generalizing context term with
  | array items ih =>
      unfold Value.compile at compiled
      refine Node.compile_emitted hereditary ?_ around compiled
      rw [Node.ofItems_eq_map]
      intro argument member
      obtain ⟨item, present, rfl⟩ := List.mem_map.mp member
      have itemHeld := hereditary.items items held item present
      exact ⟨itemHeld, fun context term around compiled => ih item present itemHeld around compiled⟩
  | _ =>
      unfold Value.compile at compiled
      obtain rfl := pure_eq_ok.mp compiled
      exact .literal (.inl held)

/-- Every term of a compiled document is of the grammar. -/
theorem Compiler.compile_emitted (hereditary : Value.Hereditary written) {document : Value}
    (held : written document) {term : Term}
    (compiled : Compiler.compile { options } document = .ok term) :
    Emitted options written term :=
  Value.compile_emitted hereditary held .document (Compiler.compile_eq_ok compiled)

end MapStyle
