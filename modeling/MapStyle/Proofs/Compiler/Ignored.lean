import Mathlib.Data.List.Induction
import MapStyle.Proofs.Compiler.Alignment

/-!
# Arguments that are never compiled

A conjunction, disjunction or choice ends at the argument that settles it, and passes over the
output of a branch that is known not to be taken.  Whatever stands at such a place may be replaced
by anything else, well formed or not: the expression comes to the same term or the same failure.
-/

namespace MapStyle

namespace Compiler

variable {context : Context} {before tail other : Node} {place : Place}

/-! ## Lists that end early

Each loop reads its list from the front, so what is in front of two ends that come to the same
does not tell them apart.
-/

/-- Conditions in front of ends that come to the same. -/
theorem conditions_append {decisive : Bool}
    (same : ∀ place, conditions decisive context place tail =
      conditions decisive context place other) :
    conditions decisive context place (before ++ tail) =
      conditions decisive context place (before ++ other) := by
  induction before generalizing place with
  | nil => exact same place
  | cons head rest ih =>
      rw [List.cons_append, List.cons_append]
      unfold conditions
      rw [ih]

/-- Candidates in front of ends that come to the same. -/
theorem candidates_append (same : candidates context tail = candidates context other) :
    candidates context (before ++ tail) = candidates context (before ++ other) := by
  induction before with
  | nil => exact same
  | cons head rest ih =>
      rw [List.cons_append, List.cons_append]
      unfold candidates
      rw [ih]

/-- Whole branches in front of ends that come to the same. -/
theorem branches_append (paired : before.length % 2 = 0)
    (same : ∀ place, branches context place tail = branches context place other) :
    branches context place (before ++ tail) = branches context place (before ++ other) := by
  induction before using List.twoStepInduction generalizing place with
  | nil => exact same place
  | singleton head => cases paired
  | cons_cons condition output rest ih _ =>
      have pairedRest : rest.length % 2 = 0 := by
        simp only [List.length_cons] at paired
        omega
      simp only [List.cons_append]
      unfold branches
      rw [ih pairedRest]

/-- Whole labelled outputs in front of ends that come to the same. -/
theorem selectKnown_append {input : Value} (paired : before.length % 2 = 0)
    (same : ∀ place, selectKnown input context place tail =
      selectKnown input context place other) :
    selectKnown input context place (before ++ tail) =
      selectKnown input context place (before ++ other) := by
  induction before using List.twoStepInduction generalizing place with
  | nil => exact same place
  | singleton head => cases paired
  | cons_cons label output rest ih _ =>
      have pairedRest : rest.length % 2 = 0 := by
        simp only [List.length_cons] at paired
        omega
      simp only [List.cons_append]
      unfold selectKnown
      rw [ih pairedRest]

/-! ## Where they end -/

/-- Nothing is compiled behind a condition that is known to decide the list. -/
theorem conditions_of_decisive {decisive : Bool} {argument : Argument}
    (decides : argument.expression context = .ok (.literal (.boolean decisive))) :
    conditions decisive context place (argument :: tail) =
      .ok [.literal (.boolean decisive)] := by
  simp [conditions, decides, bind, Except.bind, pure, Except.pure]

/-- Nothing is compiled behind a candidate that is known not to be null. -/
theorem candidates_of_present {argument : Argument} {value : Value}
    (known : argument.expression context = .ok (.literal value)) (present : value ≠ .null) :
    candidates context (argument :: tail) = .ok [.literal value] := by
  cases value with
  | null => exact absurd rfl present
  | _ => simp [candidates, known, bind, Except.bind, pure, Except.pure]

/-- Nothing is compiled behind the output of a condition that is known to hold. -/
theorem branches_of_true {condition output : Argument}
    (holds : condition.expression context = .ok (.literal (.boolean true))) :
    branches context place (condition :: output :: tail) =
      (output.expression context).map fun term => [term] := by
  simp only [branches, holds, bind, Except.bind]
  cases output.expression context <;> rfl

/-- The output of a condition that is known not to hold is not compiled. -/
theorem branches_of_false {condition output : Argument}
    (fails : condition.expression context = .ok (.literal (.boolean false))) :
    branches context place (condition :: output :: tail) =
      branches context (place.next 2) tail := by
  simp [branches, fails, bind, Except.bind]

/-- Nothing is compiled behind the output of a label that stands for the known input. -/
theorem selectKnown_of_covering {input : Value} {label output : Argument}
    (covers : Label.covers label.raw input = true) :
    selectKnown input context place (label :: output :: tail) =
      (Label.check place.operator place.position label.raw >>= fun _ =>
        output.expression context) := by
  rw [selectKnown, Label.matchesInput, covers]
  cases Label.check place.operator place.position label.raw <;> rfl

/-- The output of a label that does not stand for the known input is not compiled. -/
theorem selectKnown_of_passing {input : Value} {label output : Argument}
    (passes : Label.covers label.raw input = false) :
    selectKnown input context place (label :: output :: tail) =
      (Label.check place.operator place.position label.raw >>= fun _ =>
        selectKnown input context (place.next 2) tail) := by
  rw [selectKnown, Label.matchesInput, passes]
  cases Label.check place.operator place.position label.raw <;> rfl

end Compiler

/-! ## Expressions that ignore arguments -/

namespace Operator

/--
Two lists of arguments that differ only where an operator compiles nothing: behind the argument
that settles it, or at the output of a branch that is known not to be taken.
-/
inductive Ignores (context : Context) : Operator → List Value → List Value → Prop where
  /-- Anything may stand behind a conjunct that is known to fail. -/
  | conjunct {before : List Value} {item : Value} (after other : List Value)
      (decides : item.argument.expression context = .ok (.literal (.boolean false))) :
      Ignores context .all (before ++ item :: after) (before ++ item :: other)
  /-- Anything may stand behind a disjunct that is known to hold. -/
  | disjunct {before : List Value} {item : Value} (after other : List Value)
      (decides : item.argument.expression context = .ok (.literal (.boolean true))) :
      Ignores context .any (before ++ item :: after) (before ++ item :: other)
  /-- Anything may stand behind the output of a condition that is known to hold. -/
  | branch {before : List Value} {condition output : Value} (after other : List Value)
      (paired : before.length % 2 = 0)
      (holds : condition.argument.expression context = .ok (.literal (.boolean true))) :
      Ignores context .case (before ++ condition :: output :: after)
        (before ++ condition :: output :: other)
  /-- Anything may be the output of a condition that is known not to hold. -/
  | output {before after : List Value} {condition : Value} (output other : Value)
      (paired : before.length % 2 = 0)
      (fails : condition.argument.expression context = .ok (.literal (.boolean false))) :
      Ignores context .case (before ++ condition :: output :: after)
        (before ++ condition :: other :: after)
  /-- Anything may stand behind a candidate that is known not to be null. -/
  | candidate {before : List Value} {item value : Value} (after other : List Value)
      (known : item.argument.expression context = .ok (.literal value))
      (present : value ≠ .null) :
      Ignores context .coalesce (before ++ item :: after) (before ++ item :: other)
  /-- Anything may stand behind the output of a label that stands for the known input. -/
  | label {input value : Value} {before : List Value} {label output : Value}
      (after other : List Value) (paired : before.length % 2 = 0)
      (known : input.argument.expression context = .ok (.literal value))
      (covers : Label.covers label value = true) :
      Ignores context .select (input :: (before ++ label :: output :: after))
        (input :: (before ++ label :: output :: other))
  /-- Anything may be the output of a label that does not stand for the known input. -/
  | labelled {input value : Value} {before after : List Value} {label : Value}
      (output other : Value) (paired : before.length % 2 = 0)
      (known : input.argument.expression context = .ok (.literal value))
      (passes : Label.covers label value = false) :
      Ignores context .select (input :: (before ++ label :: output :: after))
        (input :: (before ++ label :: other :: after))

namespace Ignores

variable {context : Context} {operator : Operator} {items others : List Value}

/-- What an operator ignores does not decide whether it has enough arguments. -/
theorem accepted (ignores : Ignores context operator items others) :
    operator.arity.accepts items.length = true ∧
      operator.arity.accepts others.length = true := by
  cases ignores <;> simp [arity, entry, Arity.accepts] <;> omega

/-- The arguments of a choice by labels, in front of outputs that come to the same. -/
theorem select_congr {head input : Argument} {tail other : Node} {value : Value}
    (known : input.expression context = .ok (.literal value))
    (same : ∀ place, Compiler.selectKnown value context place tail =
      Compiler.selectKnown value context place other) :
    Compiler.select (head :: input :: tail) context =
      Compiler.select (head :: input :: other) context := by
  have first (rest : Node) :
      Node.argument (head :: input :: rest) ⟨Operator.select.name, 1⟩ = .ok input := rfl
  unfold Compiler.select
  simp only [first, bind, Except.bind, known]
  rw [List.drop_succ_cons, List.drop_succ_cons, List.drop_succ_cons, List.drop_succ_cons,
    List.drop_zero, List.drop_zero, same]

/-- The rule of an operator comes to the same with what it ignores replaced. -/
theorem rule_eq (ignores : Ignores context operator items others) (head : Argument) :
    operator.rule (head :: Node.ofItems items) context =
      operator.rule (head :: Node.ofItems others) context := by
  cases ignores with
  | conjunct after other decides =>
      simp only [rule, Compiler.logical, List.tail_cons, Node.ofItems_eq_map_argument,
        List.map_append, List.map_cons]
      rw [Compiler.conditions_append fun _ => ?_]
      rw [Compiler.conditions_of_decisive decides, Compiler.conditions_of_decisive decides]
  | disjunct after other decides =>
      simp only [rule, Compiler.logical, List.tail_cons, Node.ofItems_eq_map_argument,
        List.map_append, List.map_cons]
      rw [Compiler.conditions_append fun _ => ?_]
      rw [Compiler.conditions_of_decisive decides, Compiler.conditions_of_decisive decides]
  | branch after other paired holds =>
      simp only [rule, Compiler.case, List.tail_cons, Node.ofItems_eq_map_argument,
        List.map_append, List.map_cons]
      rw [Compiler.branches_append (by rwa [List.length_map]) fun _ => ?_]
      rw [Compiler.branches_of_true holds, Compiler.branches_of_true holds]
  | output output other paired fails =>
      simp only [rule, Compiler.case, List.tail_cons, Node.ofItems_eq_map_argument,
        List.map_append, List.map_cons]
      rw [Compiler.branches_append (by rwa [List.length_map]) fun _ => ?_]
      rw [Compiler.branches_of_false fails, Compiler.branches_of_false fails]
  | candidate after other known present =>
      simp only [rule, Compiler.coalesce, List.tail_cons, Node.ofItems_eq_map_argument,
        List.map_append, List.map_cons]
      rw [Compiler.candidates_append ?_]
      rw [Compiler.candidates_of_present known present,
        Compiler.candidates_of_present known present]
  | label after other paired known covers =>
      simp only [rule, Node.ofItems_eq_map_argument, List.map_append, List.map_cons]
      refine select_congr known fun _ =>
        Compiler.selectKnown_append (by rwa [List.length_map]) fun _ => ?_
      rw [Compiler.selectKnown_of_covering covers, Compiler.selectKnown_of_covering covers]
  | labelled output other paired known passes =>
      simp only [rule, Node.ofItems_eq_map_argument, List.map_append, List.map_cons]
      refine select_congr known fun _ =>
        Compiler.selectKnown_append (by rwa [List.length_map]) fun _ => ?_
      rw [Compiler.selectKnown_of_passing passes, Compiler.selectKnown_of_passing passes]

end Ignores

end Operator

/-- An expression with enough arguments is compiled by its rule, or found to be too deep. -/
theorem Node.compile_eq_ite {node : Node} (operator : Operator) (context : Context)
    (named : node.name? = some operator.name)
    (accepted : operator.arity.accepts (node.length - 1) = true) :
    node.compile context =
      if context.options.maxDepth ≤ context.depth then
        .error (.nestedTooDeep operator.name context.options.maxDepth)
      else operator.rule node context.deeper := by
  split
  · rename_i deep
    simp [Node.compile, named, Operator.ofName?_name, Arity.check, accepted, deep, bind,
      Except.bind, throw, throwThe, MonadExceptOf.throw]
  · rename_i shallow
    exact Node.compile_eq_rule named accepted (Nat.lt_of_not_le shallow)

/--
What an operator ignores may be replaced, whatever stands there and however many arguments there
are: the expression comes to the same term or the same failure.
-/
theorem ignored_arguments_replaceable {context : Context} {operator : Operator}
    {items others : List Value}
    (ignores : operator.Ignores context.deeper items others) :
    (Value.array (.string operator.name :: items)).compile context =
      (Value.array (.string operator.name :: others)).compile context := by
  obtain ⟨accepted, acceptedOther⟩ := ignores.accepted
  have length (arguments : List Value) :
      (Node.ofItems (.string operator.name :: arguments)).length - 1 = arguments.length := by
    rw [Node.length_ofItems, List.length_cons, Nat.add_sub_cancel]
  rw [Value.compile, Value.compile,
    Node.compile_eq_ite operator context (Node.name?_ofItems _) (by rwa [length]),
    Node.compile_eq_ite operator context (Node.name?_ofItems _) (by rwa [length]),
    Node.ofItems, Node.ofItems, ignores.rule_eq]

/-- Behind a taken branch, an odd rest with an unknown operator is as good as nothing. -/
theorem ignored_arguments_replaceable_case :
    (∀ output : Value,
      Operator.case.Ignores (Context.deeper {}) [.boolean true, output]
        [.boolean true, output, .array [.string "nothing"]]) ∧
    (Value.array [.string "case", .boolean true, .string "taken"]).compile {} =
      (Value.array [.string "case", .boolean true, .string "taken",
        .array [.string "nothing"]]).compile {} := by
  have ignores (output : Value) :
      Operator.case.Ignores (Context.deeper {}) [.boolean true, output]
        [.boolean true, output, .array [.string "nothing"]] :=
    @Operator.Ignores.branch _ [] _ _ [] [.array [.string "nothing"]] rfl rfl
  exact ⟨ignores, ignored_arguments_replaceable (ignores (.string "taken"))⟩

end MapStyle
