import MapStyle.Proofs.Compiler.Choice
import MapStyle.Proofs.Compiler.Inlining
import MapStyle.Proofs.Compiler.Logic

/-!
# Pruning

Conjunctions, disjunctions and choices leave out the arguments that are known not to matter.  The
call of their function on all arguments, each compiled on its own, comes to the same outcome: what
is left out before an argument that matters is passed over by the function as well, and what is
left out behind it is never looked at.
-/

namespace MapStyle

namespace Operator

/-- The function that an operator whose arguments are pruned stands for. -/
def pruned? : Operator → Option Builtin
  | .all => some .all
  | .any => some .any
  | .case => some .case
  | .coalesce => some .coalesce
  | .select => some .select
  | _ => none

def compileItem (operator : Operator) (context : Context) (length position : Nat) (item : Value) :
    Except Error Term :=
  if operator.readsWritten length position then return .literal item
  else item.argument.expression context

/-- The items of an expression of some length from a position on, each compiled on its own. -/
def compileItems (operator : Operator) (context : Context) (length : Nat) :
    Nat → List Value → Except Error (List Term)
  | _, [] => return []
  | position, item :: rest => do
      let term ← operator.compileItem context length position item
      let others ← compileItems operator context length (position + 1) rest
      return term :: others

theorem compileItems_cons {operator : Operator} {context : Context} {length position : Nat}
    {item : Value} {rest : List Value} {terms : List Term}
    (compiled : operator.compileItems context length position (item :: rest) = .ok terms) :
    ∃ term others, terms = term :: others ∧
      operator.compileItems context length (position + 1) rest = .ok others ∧
      (operator.readsWritten length position = true ∧ term = .literal item ∨
        operator.readsWritten length position = false ∧
          item.argument.expression context = .ok term) := by
  obtain ⟨term, head, compiled⟩ := bind_eq_ok.mp compiled
  obtain ⟨others, tail, same⟩ := bind_eq_ok.mp compiled
  refine ⟨term, others, (pure_eq_ok.mp same).symm, tail, ?_⟩
  unfold compileItem at head
  split at head
  · rename_i written
    exact .inl ⟨written, (pure_eq_ok.mp head).symm⟩
  · rename_i reached
    exact .inr ⟨by simpa using reached, head⟩

theorem length_compileItems {operator : Operator} {context : Context} {length position : Nat}
    {items : List Value} {terms : List Term}
    (compiled : operator.compileItems context length position items = .ok terms) :
    terms.length = items.length := by
  induction items generalizing position terms with
  | nil =>
      obtain rfl := pure_eq_ok.mp compiled
      rfl
  | cons item rest ih =>
      obtain ⟨term, others, rfl, tail, _⟩ := compileItems_cons compiled
      rw [List.length_cons, List.length_cons, ih tail]

end Operator

def Argument.ComesTo (context : Context) (argument : Argument) (term : Term) : Prop :=
  ∀ found, argument.expression context = .ok found → found = term

/-- A value compiles inside an expression to no other term than on its own. -/
theorem Value.comesTo_deeper {value : Value} {context : Context} {term : Term}
    (compiled : value.argument.expression context = .ok term) :
    value.argument.ComesTo context.deeper term := by
  intro found inner
  have deep (operator : String) (limit : Nat) :
      (Error.nestedTooDeep operator limit).isNestedTooDeep = true := rfl
  have alike : context.deeper.Alike context := ⟨rfl, rfl⟩
  have concur : Argument.Concur (.both fun cause => cause.isNestedTooDeep = true) context.deeper
      context value.argument value.argument :=
    Value.concur_of_lookup (alike.comparable (.either deep deep)) fun _ _ => rfl
  exact concur.expression.eq_of_ok inner compiled

/-- Labels as they are written, each with the term of its output, and the default at the end. -/
inductive Node.Labelled (context : Context) : Node → List Term → Prop where
  | nil : Labelled context [] []
  | default {argument : Argument} {term : Term} (comes : argument.ComesTo context term) :
      Labelled context [argument] [term]
  | pair {label output : Argument} {rest : Node} {term : Term} {terms : List Term}
      (comes : output.ComesTo context term) (others : Labelled context rest terms) :
      Labelled context (label :: output :: rest) (.literal label.raw :: term :: terms)

namespace Operator

variable {operator : Operator} {context : Context} {length position : Nat} {items : List Value}
  {terms : List Term}

/-- Where nothing is only read as it is written, each argument comes to its own term. -/
theorem comesTo_of_compileItems
    (reached : ∀ position, operator.readsWritten length position = false)
    (compiled : operator.compileItems context length position items = .ok terms) :
    List.Forall₂ (Argument.ComesTo context.deeper) (Node.ofItems items) terms := by
  rw [Node.ofItems_eq_map_argument, List.forall₂_map_left_iff]
  induction items generalizing position terms with
  | nil =>
      obtain rfl := pure_eq_ok.mp compiled
      exact .nil
  | cons item rest ih =>
      obtain ⟨term, others, rfl, tail, ⟨written, _⟩ | ⟨_, head⟩⟩ := compileItems_cons compiled
      · rw [reached] at written
        cases written
      · exact .cons (Value.comesTo_deeper head) (ih tail)

/-- Behind the input of a choice by labels, labels and outputs take turns. -/
theorem labelled_of_compileItems (behind : 2 ≤ position) (even : (position - 2) % 2 = 0)
    (fits : position + items.length = length)
    (compiled : select.compileItems context length position items = .ok terms) :
    Node.Labelled context.deeper (Node.ofItems items) terms := by
  rw [Node.ofItems_eq_map_argument]
  induction items using List.twoStepInduction generalizing position terms with
  | nil =>
      obtain rfl := pure_eq_ok.mp compiled
      exact .nil
  | singleton item =>
      have label := alternates_add behind even length 0
      rw [List.length_singleton] at fits
      rw [Nat.add_zero, decide_eq_false (by omega)] at label
      obtain ⟨term, others, rfl, tail, ⟨written, _⟩ | ⟨_, head⟩⟩ := compileItems_cons compiled
      · cases label.symm.trans written
      · obtain rfl := pure_eq_ok.mp tail
        exact .default (Value.comesTo_deeper head)
  | cons_cons item output rest ih _ =>
      have label := alternates_add behind even length 0
      have second := alternates_add behind even length 1
      simp only [List.length_cons] at fits
      rw [Nat.add_zero, decide_eq_true (by omega)] at label
      rw [decide_eq_false (by omega)] at second
      obtain ⟨term, others, rfl, tail, ⟨_, rfl⟩ | ⟨reached, _⟩⟩ := compileItems_cons compiled
      · obtain ⟨term, others, rfl, tail, ⟨written, _⟩ | ⟨_, head⟩⟩ := compileItems_cons tail
        · cases second.symm.trans written
        · have later := ih (by omega) (by omega) (by omega) tail
          exact .pair (Value.comesTo_deeper head) later
      · cases label.symm.trans reached

end Operator

namespace Compiler

variable {registry : Registry} {source : Source} {context : Context} {node : Node} {term : Term}
  {terms all : List Term}

/-! ## Conjunctions and disjunctions -/

/-- The conditions up to the first that decides the list settle it as all of them do. -/
theorem settle_conditions {decisive : Bool} {place : Place}
    (each : List.Forall₂ (Argument.ComesTo context) node all)
    (compiled : conditions decisive context place node = .ok terms) :
    Decision.settle decisive (terms.map (Term.meaning registry source)) =
      Decision.settle decisive (all.map (Term.meaning registry source)) := by
  induction each generalizing place terms with
  | nil =>
      obtain rfl := pure_eq_ok.mp compiled
      rfl
  | cons comes _ ih =>
      obtain ⟨term, head, ⟨rfl, rfl⟩ | ⟨others, tail, rfl, _⟩⟩ := conditions_cons compiled
      · obtain rfl := comes _ head
        have decided : (Value.boolean decisive).isTrue = decisive := rfl
        simp [Decision.settle, bind, Except.bind, decided]
      · obtain rfl := comes _ head
        rw [List.map_cons, List.map_cons]
        unfold Decision.settle
        rw [ih tail]

/-- A conjunction or disjunction comes to what its function does on all conditions. -/
theorem logical_means_all {operator : Operator} (decisive : Bool)
    (registered : registry.find? (if decisive then Builtin.any else .all).name =
      some (if decisive then Builtin.any else .all))
    (each : List.Forall₂ (Argument.ComesTo context) node.tail all) (occupied : 1 ≤ all.length)
    (compiled : logical operator (if decisive then .any else .all) decisive node context =
      .ok term) :
    term.meaning registry source =
      ((if decisive then Builtin.any else .all).applied all).meaning registry source := by
  obtain ⟨terms, inner, shape⟩ := logical_eq_ok compiled
  rw [logicalCall_means registered (List.length_pos_iff.mp occupied),
    ← settle_conditions each inner]
  rcases shape with ⟨known, rfl⟩ | ⟨⟨condition, member, _⟩, rfl⟩
  · rw [settle_of_conditions inner known, Term.meaning_literal]
  · rw [logicalCall_means registered (List.ne_nil_of_mem member)]

/-! ## Choices by conditions -/

/-- The branches that may be taken come to what all of them do. -/
theorem case_branches {place : Place} (each : List.Forall₂ (Argument.ComesTo context) node all)
    (compiled : branches context place node = .ok terms) :
    Decision.case (terms.map (Term.meaning registry source)) =
      Decision.case (all.map (Term.meaning registry source)) := by
  induction place, node using branches.induct generalizing terms all with
  | case1 place condition output rest ih =>
      rcases each with _ | ⟨comes, _ | ⟨second, each⟩⟩
      obtain ⟨term, head, taken | passed | kept⟩ := branches_cons compiled
      · obtain ⟨chosen, rfl, taken, rfl⟩ := taken
        obtain rfl := comes _ head
        obtain rfl := second _ taken
        simp only [List.map_cons, Term.meaning_literal]
        rfl
      · obtain ⟨rfl, tail⟩ := passed
        obtain rfl := comes _ head
        rw [ih each tail]
        simp only [List.map_cons, Term.meaning_literal]
        rfl
      · obtain ⟨chosen, others, _, taken, tail, rfl⟩ := kept
        obtain rfl := comes _ head
        obtain rfl := second _ taken
        simp only [List.map_cons]
        unfold Decision.case
        rw [ih each tail]
  | case2 place default =>
      rcases each with _ | ⟨comes, _ | _⟩
      obtain ⟨term, head, rfl⟩ := branches_default compiled
      obtain rfl := comes _ head
      rfl
  | case3 place =>
      cases each
      unfold branches at compiled
      obtain rfl := pure_eq_ok.mp compiled
      rfl

theorem case_means_all (registered : registry.find? Builtin.case.name = some .case)
    (each : List.Forall₂ (Argument.ComesTo context) node.tail all) (occupied : 1 ≤ all.length)
    (compiled : case node context = .ok term) :
    term.meaning registry source = (Builtin.case.applied all).meaning registry source := by
  obtain ⟨terms, inner, means, _⟩ := case_means registered compiled source
  rw [means, case_branches each inner]
  symm
  exact Term.meaning_of_registered_rule registered (Builtin.accepts_of_atLeast rfl occupied) rfl

/-! ## The first value that is not null -/

/-- The candidates come to what all arguments do. -/
theorem coalesce_candidates (each : List.Forall₂ (Argument.ComesTo context) node all)
    (compiled : candidates context node = .ok terms) :
    Decision.coalesce (terms.map (Term.meaning registry source)) =
      Decision.coalesce (all.map (Term.meaning registry source)) := by
  induction each generalizing terms with
  | nil =>
      obtain rfl := pure_eq_ok.mp compiled
      rfl
  | cons comes _ ih =>
      obtain ⟨term, head, null | present | kept⟩ := candidates_cons compiled
      · obtain ⟨rfl, tail⟩ := null
        obtain rfl := comes _ head
        rw [ih tail, List.map_cons, Term.meaning_literal]
        rfl
      · obtain ⟨value, rfl, present, rfl⟩ := present
        obtain rfl := comes _ head
        simp [Decision.coalesce, bind, Except.bind, present]
      · obtain ⟨others, _, tail, rfl⟩ := kept
        obtain rfl := comes _ head
        rw [List.map_cons, List.map_cons]
        unfold Decision.coalesce
        rw [ih tail]

theorem coalesce_means_all (registered : registry.find? Builtin.coalesce.name = some .coalesce)
    (each : List.Forall₂ (Argument.ComesTo context) node.tail all) (occupied : 1 ≤ all.length)
    (compiled : coalesce node context = .ok term) :
    term.meaning registry source = (Builtin.coalesce.applied all).meaning registry source := by
  obtain ⟨terms, inner, means, _⟩ := coalesce_means registered compiled source
  rw [means, coalesce_candidates each inner]
  symm
  exact Term.meaning_of_registered_rule registered (Builtin.accepts_of_atLeast rfl occupied) rfl

/-! ## Choices by labels -/

/-- The output that is chosen for a known input is the one that the function chooses. -/
theorem selectFrom_of_labelled {input : Value} {place : Place} (position : Nat)
    (each : node.Labelled context all)
    (chosen : selectKnown input context place node = .ok term) :
    Decision.selectFrom input position (all.map (Term.meaning registry source)) =
      term.meaning registry source := by
  induction each generalizing place position with
  | nil => cases chosen
  | default comes =>
      obtain rfl := comes _ chosen
      rfl
  | @pair label output rest other terms comes _ ih =>
      obtain ⟨checked, taken⟩ := selectKnown_cons chosen
      have matched : Label.matchesInput Builtin.select.name position label.raw input =
          .ok (Label.covers label.raw input) :=
        bind_eq_ok.mpr ⟨(), Label.check_of_check checked, rfl⟩
      simp only [List.map_cons, Term.meaning_literal]
      unfold Decision.selectFrom
      rcases taken with ⟨covers, chosen⟩ | ⟨passes, chosen⟩
      · obtain rfl := comes _ chosen
        simp [bind, Except.bind, matched, covers]
      · rw [← ih (position + 2) chosen]
        simp [bind, Except.bind, matched, passes]

/-- Where the input is not known, no output is left out. -/
theorem labelled_eq_all {place : Place} (each : node.Labelled context all)
    (compiled : labelled context place node = .ok terms) : terms = all := by
  induction each generalizing place terms with
  | nil =>
      unfold labelled at compiled
      exact (pure_eq_ok.mp compiled).symm
  | default comes =>
      obtain ⟨term, head, rfl⟩ := labelled_default compiled
      rw [comes _ head]
  | pair comes _ ih =>
      obtain ⟨_, chosen, others, head, tail, rfl⟩ := labelled_cons compiled
      rw [comes _ head, ih tail]

theorem select_means_all (registered : registry.find? Builtin.select.name = some .select)
    (compiled : select node context = .ok term) {input : Term} {first : Argument}
    (found : node[1]? = some first) (comes : first.ComesTo context input)
    (each : Node.Labelled context (node.drop 2) all) (occupied : 1 ≤ all.length) :
    term.meaning registry source =
      (Builtin.select.applied (input :: all)).meaning registry source := by
  obtain ⟨argument, inputTerm, present, head, shape⟩ := select_eq_ok compiled
  obtain rfl : first = argument :=
    Option.some.inj (found.symm.trans (Node.getElem?_of_argument present))
  obtain rfl := comes _ head
  rcases shape with ⟨value, rfl, checked, chosen⟩ | ⟨others, _, tail, rfl⟩
  · rw [← selectFrom_of_labelled 1 each chosen]
    symm
    have accepted : Builtin.select.arity.accepts (Term.literal value :: all).length = true :=
      Builtin.accepts_of_atLeast rfl (Nat.succ_le_succ occupied)
    apply Term.meaning_of_registered_rule registered accepted
    simp [Builtin.rule, Rule.answer?, Decision.select, bind, Except.bind, checked]
  · rw [labelled_eq_all each tail]

end Compiler

/-- An expression whose arguments are pruned means what its function does on all of them. -/
theorem Value.meaning_of_pruned {operator : Operator} {builtin : Builtin}
    (prunes : operator.pruned? = some builtin) {items : List Value} {context : Context}
    {term : Term} {arguments : List Term}
    (compiled : (Value.array (.string operator.name :: items)).compile context = .ok term)
    (each : operator.compileItems context (items.length + 1) 1 items = .ok arguments)
    {registry : Registry} (registered : registry.find? builtin.name = some builtin)
    (source : Source) :
    term.meaning registry source = (builtin.applied arguments).meaning registry source := by
  obtain ⟨other, headed, accepted, ruled⟩ := compile_array_eq_ok compiled
  obtain rfl : operator = other := by
    have named : (Value.array (.string operator.name :: items)).operator? = some operator :=
      Operator.ofName?_name operator
    exact Option.some.inj (named.symm.trans headed)
  have counted := Operator.length_compileItems each
  rw [Node.length_ofItems, List.length_cons, Nat.add_sub_cancel, ← counted] at accepted
  rw [Node.ofItems] at ruled
  have comes (reached : ∀ position, operator.readsWritten (items.length + 1) position = false) :=
    Operator.comesTo_of_compileItems reached each
  cases operator with
  | all =>
      cases prunes
      have occupied : 1 ≤ arguments.length := of_decide_eq_true accepted
      exact Compiler.logical_means_all false registered (comes fun _ => rfl) occupied ruled
  | any =>
      cases prunes
      have occupied : 1 ≤ arguments.length := of_decide_eq_true accepted
      exact Compiler.logical_means_all true registered (comes fun _ => rfl) occupied ruled
  | case =>
      cases prunes
      have enough : 2 ≤ arguments.length := of_decide_eq_true accepted
      exact Compiler.case_means_all registered (comes fun _ => rfl) (by omega) ruled
  | coalesce =>
      cases prunes
      have occupied : 1 ≤ arguments.length := of_decide_eq_true accepted
      exact Compiler.coalesce_means_all registered (comes fun _ => rfl) occupied ruled
  | select =>
      cases prunes
      have enough : 3 ≤ arguments.length := of_decide_eq_true accepted
      cases items with
      | nil =>
          rw [counted] at enough
          cases enough
      | cons item rest =>
          obtain ⟨input, others, rfl, tail, ⟨written, _⟩ | ⟨_, head⟩⟩ :=
            Operator.compileItems_cons each
          · cases written
          · have labelled := Operator.labelled_of_compileItems (by omega) (by omega)
              (by rw [List.length_cons]; omega) tail
            rw [Node.ofItems] at ruled
            rw [List.length_cons] at enough
            exact Compiler.select_means_all registered ruled rfl (Value.comesTo_deeper head)
              labelled (by omega)
  | _ => cases prunes

/--
Pruning keeps outcomes.  If a conjunction, disjunction or choice compiles, with or without folding
and in whatever context, and each of its arguments compiles on its own there, then its term comes
for every source to the value or failure that its function comes to on all arguments, unless the
limit stops one of the two.
-/
theorem pruning_keeps_outcome {operator : Operator} {builtin : Builtin}
    (prunes : operator.pruned? = some builtin) {items : List Value} {context : Context}
    {term : Term} {arguments : List Term}
    (compiled : (Value.array (.string operator.name :: items)).compile context = .ok term)
    (each : operator.compileItems context (items.length + 1) 1 items = .ok arguments)
    {evaluator : Evaluator} (registered : evaluator.registry.find? builtin.name = some builtin)
    {depth : Nat}
    (shallow : ∀ function limit,
      evaluator.evaluate depth term ≠ .error (.calledTooDeep function limit))
    (allShallow : ∀ function limit,
      evaluator.evaluate depth (builtin.applied arguments) ≠
        .error (.calledTooDeep function limit)) :
    evaluator.evaluate depth term = evaluator.evaluate depth (builtin.applied arguments) := by
  have means := Value.meaning_of_pruned prunes compiled each registered evaluator.source
  rcases evaluator.evaluate_of_meaning depth means with pruned | ⟨function, limit, deep⟩
  · rcases evaluator.evaluate_of_meaning depth means.symm with full | ⟨function, limit, deep⟩
    · rw [pruned, full, means]
    · exact absurd deep (allShallow function limit)
  · exact absurd deep (shallow function limit)

/-- A null before the name of a feature is left out, and so is all behind the text after it. -/
theorem pruning_keeps_outcome_case :
    Evaluator.evaluate { source := .scope {} [], limit := 8 } 0
        (Builtin.coalesce.applied [.property "name", .literal (.string "none")]) =
      Evaluator.evaluate { source := .scope {} [], limit := 8 } 0
        (Builtin.coalesce.applied
          [.literal .null, .property "name", .literal (.string "none"), .property "other"]) := by
  apply @pruning_keeps_outcome .coalesce .coalesce rfl
    [.null, .array [.string "get", .string "name"], .string "none",
      .array [.string "get", .string "other"]] {}
  · rfl
  · rfl
  · exact Registry.find?_standard .coalesce
  · intro function limit impossible
    cases impossible
  · intro function limit impossible
    cases impossible

end MapStyle
