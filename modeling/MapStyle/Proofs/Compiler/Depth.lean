import MapStyle.Proofs.Compiler.Folding
import MapStyle.Proofs.Compiler.Substitution
import MapStyle.Proofs.Term.Depth

/-!
# Depth of compiled terms

One level of nesting costs at most as many calls as are counted for it: the rule of an operator
puts no more calls around the terms of its arguments.  A binding is dearer, since the terms of
its variables are already deep when they are put into its body.
-/

namespace MapStyle

variable {context : Context} {bound : Nat}

namespace Context

/-- A call that may be folded is at most one level deeper than its arguments. -/
theorem fold_callDepth_le {builtin : Builtin} {arguments : List Term} {term : Term}
    (each : ∀ argument ∈ arguments, argument.callDepth ≤ bound)
    (folded : context.fold (builtin.applied arguments) = .ok term) :
    term.callDepth ≤ bound + 1 := by
  rcases fold_applied_eq_ok folded with ⟨value, rfl, _, _⟩ | ⟨rfl, _⟩
  · simp
  · exact Term.callDepth_applied_le each

theorem tryFold_callDepth_le {builtin : Builtin} {arguments : List Term} {term : Term}
    (each : ∀ argument ∈ arguments, argument.callDepth ≤ bound)
    (tried : context.tryFold (builtin.applied arguments) = .ok term) :
    term.callDepth ≤ bound + 1 := by
  rcases tryFold_eq_ok tried with ⟨value, rfl, _, _⟩ | ⟨rfl, _⟩
  · simp
  · exact Term.callDepth_applied_le each

end Context

def Argument.Shallow (context : Context) (bound : Nat) (argument : Argument) : Prop :=
  ∀ term, argument.compile context = .ok term → term.callDepth ≤ bound

namespace Argument.Shallow

variable {argument : Argument} {term : Term}

theorem expression (shallow : argument.Shallow context bound)
    (compiled : argument.expression context = .ok term) : term.callDepth ≤ bound := by
  unfold Argument.expression at compiled
  split at compiled
  · exact shallow term compiled
  · obtain rfl := pure_eq_ok.mp compiled
    simp

theorem valueOrExpression (shallow : argument.Shallow context bound)
    (compiled : argument.valueOrExpression context = .ok term) : term.callDepth ≤ bound := by
  unfold Argument.valueOrExpression at compiled
  split at compiled
  · exact shallow term compiled
  · obtain rfl := pure_eq_ok.mp compiled
    simp

/-- The conversion around an operand of arithmetic is one more call. -/
theorem numberExpression (shallow : argument.Shallow context bound) {place : Place}
    (compiled : argument.numberExpression place context = .ok term) :
    term.callDepth ≤ bound + 1 := by
  obtain ⟨inner, compiled, operand⟩ := Argument.numberExpression_eq_ok compiled
  have depth := shallow.expression compiled
  rcases operand with ⟨_, rfl⟩ | ⟨_, rfl⟩
  · exact Nat.le_succ_of_le depth
  · exact Term.callDepth_applied_le (by simpa using depth)

end Argument.Shallow

def Node.Shallow (context : Context) (bound : Nat) (node : Node) : Prop :=
  ∀ argument ∈ node, argument.Shallow context bound

namespace Node.Shallow

variable {node : Node}

theorem argument (shallow : node.Shallow context bound) {place : Place} {argument : Argument}
    (found : node.argument place = .ok argument) : argument.Shallow context bound :=
  shallow argument (List.mem_of_getElem? (Node.getElem?_of_argument found))

theorem tail (shallow : node.Shallow context bound) : Node.Shallow context bound node.tail :=
  fun argument member => shallow argument ((List.tail_sublist node).subset member)

theorem drop (shallow : node.Shallow context bound) (count : Nat) :
    Node.Shallow context bound (node.drop count) :=
  fun argument member => shallow argument ((List.drop_sublist count node).subset member)

end Node.Shallow

namespace Compiler

variable {node : Node} {term : Term}

/-! ## Formulas -/

theorem operands_callDepth_le (shallow : node.Shallow context bound) {place : Place}
    {terms : List Term} (compiled : operands context place node = .ok terms) :
    ∀ term ∈ terms, term.callDepth ≤ bound + 1 := by
  induction node generalizing place terms with
  | nil =>
      obtain rfl := pure_eq_ok.mp compiled
      simp
  | cons argument rest ih =>
      unfold operands at compiled
      obtain ⟨first, head, compiled⟩ := bind_eq_ok.mp compiled
      obtain ⟨others, tail, compiled⟩ := bind_eq_ok.mp compiled
      obtain rfl := pure_eq_ok.mp compiled
      have depth := (shallow argument List.mem_cons_self).numberExpression head
      simpa using And.intro depth (ih shallow.tail tail)

theorem arithmetic_callDepth_le {operator : Operator} {builtin : Builtin}
    (shallow : node.Shallow context bound)
    (compiled : arithmetic operator builtin node context = .ok term) :
    term.callDepth ≤ bound + 2 := by
  obtain ⟨terms, operands, folded⟩ := bind_eq_ok.mp compiled
  exact Context.fold_callDepth_le (operands_callDepth_le shallow.tail operands) folded

/-- A channel is a conversion, rounded and written in digits. -/
theorem channel_callDepth_le {position : Nat} (shallow : node.Shallow context bound)
    (compiled : channel node context position = .ok term) : term.callDepth ≤ bound + 3 := by
  obtain ⟨argument, found, compiled⟩ := bind_eq_ok.mp compiled
  obtain ⟨number, operand, compiled⟩ := bind_eq_ok.mp compiled
  obtain ⟨rounded, rounds, digits⟩ := bind_eq_ok.mp compiled
  have depth := (shallow.argument found).numberExpression operand
  have roundedDepth := Context.fold_callDepth_le (by simpa using depth) rounds
  exact Context.fold_callDepth_le (by simpa using roundedDepth) digits

theorem rgb_callDepth_le (shallow : node.Shallow context bound)
    (compiled : rgb node context = .ok term) : term.callDepth ≤ bound + 4 := by
  obtain ⟨red, first, compiled⟩ := bind_eq_ok.mp compiled
  obtain ⟨green, second, compiled⟩ := bind_eq_ok.mp compiled
  obtain ⟨blue, third, folded⟩ := bind_eq_ok.mp compiled
  have channels := And.intro (channel_callDepth_le shallow first)
    (And.intro (channel_callDepth_le shallow second) (channel_callDepth_le shallow third))
  exact Context.fold_callDepth_le (by simpa using channels) folded

theorem expressions_callDepth_le (shallow : node.Shallow context bound) {terms : List Term}
    (compiled : expressions context node = .ok terms) :
    ∀ term ∈ terms, term.callDepth ≤ bound := by
  induction node generalizing terms with
  | nil =>
      obtain rfl := pure_eq_ok.mp compiled
      simp
  | cons argument rest ih =>
      unfold expressions at compiled
      obtain ⟨first, head, compiled⟩ := bind_eq_ok.mp compiled
      obtain ⟨others, tail, compiled⟩ := bind_eq_ok.mp compiled
      obtain rfl := pure_eq_ok.mp compiled
      have depth := (shallow argument List.mem_cons_self).expression head
      simpa using And.intro depth (ih shallow.tail tail)

theorem textual_callDepth_le {builtin : Builtin} (shallow : node.Shallow context bound)
    (compiled : textual builtin node context = .ok term) : term.callDepth ≤ bound + 1 := by
  obtain ⟨terms, inner, folded⟩ := bind_eq_ok.mp compiled
  exact Context.fold_callDepth_le (expressions_callDepth_le shallow.tail inner) folded

/-! ## Comparison and logic -/

theorem negation_callDepth_le {operator : Operator} (shallow : node.Shallow context bound)
    (compiled : negation operator node context = .ok term) : term.callDepth ≤ bound + 1 := by
  obtain ⟨argument, found, compiled⟩ := bind_eq_ok.mp compiled
  obtain ⟨inner, operand, folded⟩ := bind_eq_ok.mp compiled
  have depth := (shallow.argument found).expression operand
  exact Context.fold_callDepth_le (by simpa using depth) folded

theorem bothArguments_callDepth_le {operator : Operator} (shallow : node.Shallow context bound)
    {left right : Term} (compiled : bothArguments operator node context = .ok (left, right)) :
    ∀ argument ∈ [left, right], argument.callDepth ≤ bound := by
  obtain ⟨first, found, compiled⟩ := bind_eq_ok.mp compiled
  obtain ⟨one, compiledFirst, compiled⟩ := bind_eq_ok.mp compiled
  obtain ⟨second, foundSecond, compiled⟩ := bind_eq_ok.mp compiled
  obtain ⟨other, compiledSecond, same⟩ := bind_eq_ok.mp compiled
  cases same
  have leftDepth := (shallow.argument found).expression compiledFirst
  have rightDepth := (shallow.argument foundSecond).expression compiledSecond
  simpa using And.intro leftDepth rightDepth

theorem comparison_callDepth_le {operator : Operator} {order : Comparison}
    (shallow : node.Shallow context bound)
    (compiled : comparison operator order node context = .ok term) :
    term.callDepth ≤ bound + 1 := by
  obtain ⟨⟨left, right⟩, both, folded⟩ := bind_eq_ok.mp compiled
  exact Context.fold_callDepth_le (bothArguments_callDepth_le shallow both) folded

theorem equality_callDepth_le {operator : Operator} {negated : Bool}
    (shallow : node.Shallow context bound)
    (compiled : equality operator negated node context = .ok term) :
    term.callDepth ≤ bound + 2 := by
  obtain ⟨left, right, both, decided | ⟨_, rfl⟩⟩ := equality_cases compiled
  · obtain ⟨a, b, _, _, _, rfl⟩ := decided
    simp
  · have equal : (Builtin.equalTo.applied [left, right]).callDepth ≤ bound + 1 :=
      Term.callDepth_applied_le (bothArguments_callDepth_le shallow both)
    split
    · exact Term.callDepth_applied_le (by simpa using equal)
    · exact Nat.le_succ_of_le equal

theorem conditions_callDepth_le {decisive : Bool} (shallow : node.Shallow context bound)
    {place : Place} {terms : List Term}
    (compiled : conditions decisive context place node = .ok terms) :
    ∀ term ∈ terms, term.callDepth ≤ bound := by
  induction node generalizing place terms with
  | nil =>
      obtain rfl := pure_eq_ok.mp compiled
      simp
  | cons argument rest ih =>
      obtain ⟨term, head, ⟨_, rfl⟩ | ⟨others, tail, rfl, _⟩⟩ := conditions_cons compiled
      · simpa using (shallow argument List.mem_cons_self).expression head
      · have depth := (shallow argument List.mem_cons_self).expression head
        simpa using And.intro depth (ih shallow.tail tail)

theorem logical_callDepth_le {operator : Operator} {builtin : Builtin} {decisive : Bool}
    (shallow : node.Shallow context bound)
    (compiled : logical operator builtin decisive node context = .ok term) :
    term.callDepth ≤ bound + 1 := by
  obtain ⟨terms, inner, ⟨_, rfl⟩ | ⟨_, rfl⟩⟩ := logical_eq_ok compiled
  · simp
  · exact Term.callDepth_applied_le (conditions_callDepth_le shallow.tail inner)

/-! ## Choices -/

theorem branches_callDepth_le (shallow : node.Shallow context bound) {place : Place}
    {terms : List Term} (compiled : branches context place node = .ok terms) :
    ∀ term ∈ terms, term.callDepth ≤ bound := by
  induction place, node using branches.induct generalizing terms with
  | case1 place condition output rest ih =>
      obtain ⟨term, head, taken | passed | left⟩ := branches_cons compiled
      · obtain ⟨chosen, _, output, rfl⟩ := taken
        simpa using (shallow _ (by simp)).expression output
      · exact ih (shallow.drop 2) passed.2
      · obtain ⟨chosen, others, _, output, tail, rfl⟩ := left
        have first := (shallow condition (by simp)).expression head
        have second := (shallow _ (by simp)).expression output
        simpa using And.intro first (And.intro second (ih (shallow.drop 2) tail))
  | case2 place default =>
      obtain ⟨term, head, rfl⟩ := branches_default compiled
      simpa using (shallow default (by simp)).expression head
  | case3 place =>
      obtain rfl := pure_eq_ok.mp compiled
      simp

theorem case_callDepth_le (shallow : node.Shallow context bound)
    (compiled : case node context = .ok term) : term.callDepth ≤ bound + 1 := by
  obtain ⟨terms, inner, rfl | ⟨_, _, _, _, rfl⟩⟩ := case_eq_ok compiled
  · exact Nat.le_succ_of_le (branches_callDepth_le shallow.tail inner term (by simp))
  · exact Term.callDepth_applied_le (branches_callDepth_le shallow.tail inner)

theorem candidates_callDepth_le (shallow : node.Shallow context bound) {terms : List Term}
    (compiled : candidates context node = .ok terms) :
    ∀ term ∈ terms, term.callDepth ≤ bound := by
  induction node generalizing terms with
  | nil =>
      obtain rfl := pure_eq_ok.mp compiled
      simp
  | cons argument rest ih =>
      obtain ⟨term, head, passed | taken | left⟩ := candidates_cons compiled
      · exact ih shallow.tail passed.2
      · obtain ⟨value, rfl, _, rfl⟩ := taken
        simp
      · obtain ⟨others, _, tail, rfl⟩ := left
        have depth := (shallow argument List.mem_cons_self).expression head
        simpa using And.intro depth (ih shallow.tail tail)

theorem coalesce_callDepth_le (shallow : node.Shallow context bound)
    (compiled : coalesce node context = .ok term) : term.callDepth ≤ bound + 1 := by
  obtain ⟨terms, inner, ⟨_, rfl⟩ | ⟨value, _, rfl⟩ | ⟨_, _, rfl⟩⟩ := coalesce_eq_ok compiled
  · simp
  · simp
  · exact Term.callDepth_applied_le (candidates_callDepth_le shallow.tail inner)

theorem selectKnown_callDepth_le {input : Value} (shallow : node.Shallow context bound)
    {place : Place} (compiled : selectKnown input context place node = .ok term) :
    term.callDepth ≤ bound := by
  induction place, node using selectKnown.induct with
  | case1 place label output rest ih =>
      obtain ⟨_, ⟨_, taken⟩ | ⟨_, passed⟩⟩ := selectKnown_cons compiled
      · exact (shallow output (by simp)).expression taken
      · exact ih (shallow.drop 2) passed
  | case2 place default => exact (shallow default (by simp)).expression compiled
  | case3 place => cases compiled

theorem labelled_callDepth_le (shallow : node.Shallow context bound) {place : Place}
    {terms : List Term} (compiled : labelled context place node = .ok terms) :
    ∀ term ∈ terms, term.callDepth ≤ bound := by
  induction place, node using labelled.induct generalizing terms with
  | case1 place label output rest ih =>
      obtain ⟨_, chosen, others, taken, tail, rfl⟩ := labelled_cons compiled
      have depth := (shallow output (by simp)).expression taken
      simpa using And.intro depth (ih (shallow.drop 2) tail)
  | case2 place default =>
      obtain ⟨term, head, rfl⟩ := labelled_default compiled
      simpa using (shallow default (by simp)).expression head
  | case3 place =>
      obtain rfl := pure_eq_ok.mp compiled
      simp

theorem select_callDepth_le (shallow : node.Shallow context bound)
    (compiled : select node context = .ok term) : term.callDepth ≤ bound + 1 := by
  obtain ⟨argument, input, found, head, known | unknown⟩ := select_eq_ok compiled
  · obtain ⟨value, _, _, compiled⟩ := known
    exact Nat.le_succ_of_le (selectKnown_callDepth_le (shallow.drop 2) compiled)
  · obtain ⟨others, _, tail, rfl⟩ := unknown
    have depth := (shallow.argument found).expression head
    have each := labelled_callDepth_le (shallow.drop 2) tail
    exact Term.callDepth_applied_le (by simpa using And.intro depth each)

/-! ## Ramps -/

theorem stops_callDepth_le (shallow : node.Shallow context bound) {place : Place}
    {previous : Option Double} {terms : List Term}
    (compiled : stops context place previous node = .ok terms) :
    ∀ term ∈ terms, term.callDepth ≤ bound := by
  induction place, previous, node using stops.induct generalizing terms with
  | case1 place previous stop output rest ih =>
      obtain ⟨bound, chosen, others, _, taken, tail, rfl⟩ := stops_cons compiled
      have depth := (shallow output (by simp)).expression taken
      simpa using And.intro depth (ih bound (shallow.drop 2) tail)
  | case2 node place previous short =>
      rw [stops] at compiled
      · obtain rfl := pure_eq_ok.mp compiled
        simp
      · exact short

theorem step_callDepth_le (shallow : node.Shallow context bound)
    (compiled : step node context = .ok term) : term.callDepth ≤ bound + 2 := by
  obtain ⟨input, first, others, argument, output, found, second, operand, chosen, tail, tried⟩ :=
    step_eq_ok compiled
  have inputDepth := (shallow.argument found).numberExpression operand
  have outputDepth := Nat.le_succ_of_le ((shallow.argument second).expression chosen)
  have each := fun term member =>
    Nat.le_succ_of_le (stops_callDepth_le (shallow.drop 3) tail term member)
  exact Context.tryFold_callDepth_le
    (by simpa using And.intro inputDepth (And.intro outputDepth each)) tried

theorem interpolate_callDepth_le (shallow : node.Shallow context bound)
    (compiled : interpolate node context = .ok term) : term.callDepth ≤ bound + 2 := by
  obtain ⟨curve, input, others, shape, argument, _, _, found, operand, tail, tried⟩ :=
    interpolate_eq_ok compiled
  have inputDepth := (shallow.argument found).numberExpression operand
  have each := fun term member =>
    Nat.le_succ_of_le (stops_callDepth_le (shallow.drop 3) tail term member)
  exact Context.tryFold_callDepth_le (by simpa using And.intro inputDepth each) tried

/-! ## Access to data -/

theorem keyed_callDepth_le {operator : Operator} {ofFeature : String → Term}
    {ofObject : String → Entries → Value} (feature : ∀ key, (ofFeature key).callDepth ≤ 1)
    (compiled : keyed operator ofFeature ofObject node context = .ok term) :
    term.callDepth ≤ 1 := by
  obtain ⟨first, key, _, _, ⟨_, rfl⟩ | ⟨second, entries, _, _, _, rfl⟩⟩ := keyed_eq_ok compiled
  · exact feature key
  · simp

theorem length_callDepth_le (shallow : node.Shallow context bound)
    (compiled : length node context = .ok term) : term.callDepth ≤ bound + 1 := by
  obtain ⟨argument, inner, found, head, ⟨value, counted, _, _, rfl⟩ | ⟨_, cases⟩⟩ :=
    length_eq_ok compiled
  · simp
  · have depth := (shallow.argument found).valueOrExpression head
    have each : ∀ argument ∈ [inner], argument.callDepth ≤ bound := by simpa using depth
    rcases cases with ⟨_, rfl⟩ | ⟨_, rfl⟩ | ⟨_, rfl⟩
    · exact Term.callDepth_applied_le each
    · exact Term.callDepth_applied_le each
    · exact Term.callDepth_applied_le each

theorem renderVariable_callDepth_le (name : String) : (renderVariable name).callDepth ≤ 1 :=
  Term.callDepth_applied_le (by simp)

theorem zoom_callDepth_le : zoom.callDepth ≤ 2 :=
  Term.callDepth_applied_le (by simpa using renderVariable_callDepth_le scaleDenominator)

end Compiler

/--
The rule of an operator that binds or reads no variable costs at most the calls that are counted
for one level.
-/
theorem Operator.rule_callDepth_le {operator : Operator} {node : Node} {term : Term}
    (binds : operator ≠ .letIn) (reads : operator ≠ .var) (shallow : node.Shallow context bound)
    (compiled : operator.rule node context = .ok term) :
    term.callDepth ≤ bound + Options.callsPerLevel := by
  unfold Options.callsPerLevel
  cases operator with
  | letIn => exact absurd rfl binds
  | var => exact absurd rfl reads
  | rgb => exact Compiler.rgb_callDepth_le shallow compiled
  | not => exact Nat.le_trans (Compiler.negation_callDepth_le shallow compiled) (by omega)
  | equal | notEqual =>
      exact Nat.le_trans (Compiler.equality_callDepth_le shallow compiled) (by omega)
  | less | lessOrEqual | greater | greaterOrEqual =>
      exact Nat.le_trans (Compiler.comparison_callDepth_le shallow compiled) (by omega)
  | all | any =>
      exact Nat.le_trans (Compiler.logical_callDepth_le shallow compiled) (by omega)
  | case => exact Nat.le_trans (Compiler.case_callDepth_le shallow compiled) (by omega)
  | coalesce => exact Nat.le_trans (Compiler.coalesce_callDepth_le shallow compiled) (by omega)
  | select => exact Nat.le_trans (Compiler.select_callDepth_le shallow compiled) (by omega)
  | geometryType | id | properties =>
      obtain rfl := pure_eq_ok.mp compiled
      exact Nat.le_trans (Nat.le_of_eq (Term.callDepth_applied_nil _)) (by omega)
  | heatmapDensity =>
      obtain rfl := pure_eq_ok.mp compiled
      exact Nat.le_trans (Compiler.renderVariable_callDepth_le MapStyle.heatmapDensity) (by omega)
  | «at» =>
      obtain ⟨_, _, _, _, value, _, _, _, _, _, rfl⟩ := Compiler.itemAt_eq_ok compiled
      simp
  | get => exact Nat.le_trans (Compiler.keyed_callDepth_le (by simp) compiled) (by omega)
  | has =>
      have feature (key : String) :
          (Builtin.hasProperty.applied [.literal (.string key)]).callDepth ≤ 1 :=
        Term.callDepth_applied_le (by simp)
      exact Nat.le_trans (Compiler.keyed_callDepth_le feature compiled) (by omega)
  | length => exact Nat.le_trans (Compiler.length_callDepth_le shallow compiled) (by omega)
  | interpolate => exact Nat.le_trans (Compiler.interpolate_callDepth_le shallow compiled) (by omega)
  | step => exact Nat.le_trans (Compiler.step_callDepth_le shallow compiled) (by omega)
  | concat | downcase | upcase =>
      exact Nat.le_trans (Compiler.textual_callDepth_le shallow compiled) (by omega)
  | e | pi | ln2 =>
      obtain rfl := pure_eq_ok.mp compiled
      simp
  | zoom =>
      obtain rfl := pure_eq_ok.mp compiled
      exact Nat.le_trans Compiler.zoom_callDepth_le (by omega)
  | rgba | toRgba | array | boolean | collator | format | literal | number | object | string
  | toBoolean | toColor | toNumber | toText | typeOf => cases compiled
  | _ => exact Nat.le_trans (Compiler.arithmetic_callDepth_le shallow compiled) (by omega)

/-! ## Bindings -/

namespace Value

mutual

def bindings : Value → Nat
  | .array items =>
      (if (Value.array items).operator? = some .letIn then 1 else 0) + bindingsOfItems items
  | _ => 0

def bindingsOfItems : List Value → Nat
  | [] => 0
  | item :: rest => bindings item + bindingsOfItems rest

end

theorem bindingsOfItems_append (items others : List Value) :
    bindingsOfItems (items ++ others) = bindingsOfItems items + bindingsOfItems others := by
  induction items with
  | nil => simp [bindingsOfItems]
  | cons item rest ih =>
      rw [List.cons_append, bindingsOfItems, bindingsOfItems, ih, Nat.add_assoc]

theorem bindings_le_of_mem {items : List Value} {item : Value} (member : item ∈ items) :
    item.bindings ≤ bindingsOfItems items := by
  obtain ⟨before, after, rfl⟩ := List.append_of_mem member
  rw [bindingsOfItems_append, bindingsOfItems]
  omega

theorem bindingsOfItems_drop_le (count : Nat) (items : List Value) :
    bindingsOfItems (items.drop count) ≤ bindingsOfItems items := by
  have parts := bindingsOfItems_append (items.take count) (items.drop count)
  rw [List.take_append_drop] at parts
  omega

end Value

namespace Context

/-- The terms that the variables of a context stand for have no more nested calls than so many. -/
def BindsAtMost (bound : Nat) (context : Context) : Prop :=
  ∀ name term, context.lookup? name = some term → term.callDepth ≤ bound

theorem BindsAtMost.push {scope : Scope} {greater : Nat} (around : context.BindsAtMost bound)
    (least : bound ≤ greater) (each : ∀ entry ∈ scope, entry.2.callDepth ≤ greater) :
    (context.push scope).BindsAtMost greater := by
  intro name term found
  cases held : scope.lookup name with
  | some other =>
      rw [context.lookup?_push_of_mem held] at found
      cases found
      obtain ⟨before, after, rfl, _⟩ := List.lookup_eq_some_iff.mp held
      exact each (name, term) (by simp)
  | none =>
      rw [context.lookup?_push_of_not_mem held] at found
      exact Nat.le_trans (around name term found) least

/--
The calls that a value may cost in a context: those of the levels that are left, once for the
value itself and once more for each binding in it.
-/
def allowance (context : Context) (bindings : Nat) : Nat :=
  Options.callsPerLevel * (context.options.maxDepth - context.depth) * (bindings + 1)

theorem allowance_mono {fewer more : Nat} (fewerBindings : fewer ≤ more) :
    context.allowance fewer ≤ context.allowance more :=
  Nat.mul_le_mul_left _ (Nat.succ_le_succ fewerBindings)

/-- A level deeper there is less to spend, by the calls of one level at least. -/
theorem allowance_deeper (below : context.depth < context.options.maxDepth) (bindings : Nat) :
    context.deeper.allowance bindings + Options.callsPerLevel ≤ context.allowance bindings := by
  obtain ⟨levels, same⟩ := Nat.exists_eq_add_of_lt below
  unfold allowance deeper
  dsimp only
  have left : context.options.maxDepth - (context.depth + 1) = levels := by omega
  have here : context.options.maxDepth - context.depth = levels + 1 := by omega
  rw [left, here]
  calc Options.callsPerLevel * levels * (bindings + 1) + Options.callsPerLevel
      ≤ Options.callsPerLevel * levels * (bindings + 1) +
          Options.callsPerLevel * (bindings + 1) :=
        Nat.add_le_add_left (Nat.le_mul_of_pos_right _ (Nat.succ_pos _)) _
    _ = Options.callsPerLevel * (levels + 1) * (bindings + 1) := by
        rw [← Nat.add_mul, ← Nat.mul_succ]

/-- What the values of a binding and its body may cost, the binding may cost. -/
theorem allowance_add (values body : Nat) :
    context.deeper.allowance values + context.deeper.allowance body ≤
      context.allowance (1 + (values + body)) := by
  unfold allowance deeper
  dsimp only
  rw [← Nat.mul_add]
  refine Nat.mul_le_mul (Nat.mul_le_mul_left _ (Nat.sub_le_sub_left (Nat.le_succ _) _)) ?_
  omega

end Context

def Value.Affordable (value : Value) : Prop :=
  ∀ (context : Context) (term : Term) (bound : Nat), context.BindsAtMost bound →
    value.compile context = .ok term → term.callDepth ≤ bound + context.allowance value.bindings

theorem Value.Affordable.shallow {value : Value} (affordable : value.Affordable)
    (around : context.BindsAtMost bound) :
    value.argument.Shallow context (bound + context.allowance value.bindings) :=
  fun term compiled => affordable context term bound around compiled

theorem Node.shallow_ofItems {items : List Value} (each : ∀ item ∈ items, item.Affordable)
    (around : context.BindsAtMost bound) :
    (Node.ofItems items).Shallow context
      (bound + context.allowance (Value.bindingsOfItems items)) := by
  rw [ofItems_eq_map_argument]
  intro argument member term compiled
  obtain ⟨item, present, rfl⟩ := List.mem_map.mp member
  have depth := (each item present).shallow around term compiled
  have mono : context.allowance item.bindings ≤
      context.allowance (Value.bindingsOfItems items) :=
    Context.allowance_mono (Value.bindings_le_of_mem present)
  omega

namespace Compiler

theorem bindings_callDepth_le {node : Node} (shallow : node.Shallow context bound) {place : Place}
    {scope result : Scope} (held : ∀ entry ∈ scope, entry.2.callDepth ≤ bound)
    (compiled : bindings context place scope node = .ok result) :
    ∀ entry ∈ result, entry.2.callDepth ≤ bound := by
  induction place, scope, node using bindings.induct with
  | case1 place scope name value rest ih =>
      obtain ⟨name, term, _, head, tail⟩ := bindings_cons compiled
      have depth := (shallow value (by simp)).expression head
      exact ih name term (shallow.drop 2) (by simpa using And.intro depth held) tail
  | case2 node place scope short =>
      rw [bindings] at compiled
      · obtain rfl := pure_eq_ok.mp compiled
        exact held
      · exact short

/-- A body costs its own calls on top of those of the values that are bound around it. -/
theorem letIn_callDepth_le {items : List Value} {term : Term}
    (each : ∀ item ∈ items, item.Affordable) (around : context.BindsAtMost bound)
    (compiled : letIn (Node.ofItems items) context = .ok term) :
    ∃ values body, values + body ≤ Value.bindingsOfItems items ∧
      term.callDepth ≤ bound + context.allowance values + context.allowance body := by
  obtain ⟨_, scope, argument, bound, found, inner⟩ := letIn_eq_ok compiled
  obtain ⟨last, rfl, ended⟩ := Node.last_of_argument found
  rw [Node.ofItems_inner] at bound
  have values : ∀ item ∈ items.dropLast.drop 1, item.Affordable := fun item member =>
    each item ((List.dropLast_sublist items).subset ((List.drop_sublist 1 _).subset member))
  have scopeDepth := bindings_callDepth_le (Node.shallow_ofItems values around) (by simp) bound
  have pushed := around.push (Nat.le_add_right _ _) scopeDepth
  have body : last.Affordable := each last (by rw [← ended]; simp)
  refine ⟨_, last.bindings, ?_, (body.shallow pushed).expression inner⟩
  have whole := Value.bindingsOfItems_append items.dropLast [last]
  have fewer := Value.bindingsOfItems_drop_le 1 items.dropLast
  rw [ended, Value.bindingsOfItems, Value.bindingsOfItems] at whole
  omega

end Compiler

/-- Every value costs at most what it may cost. -/
theorem Value.affordable (value : Value) : value.Affordable := by
  intro context term bound around compiled
  induction value generalizing context term bound with
  | array items ih =>
      have below : context.depth < context.options.maxDepth := by
        rw [compile] at compiled
        exact Node.depth_lt_of_compile compiled
      have each : ∀ item ∈ items, item.Affordable := fun item member context term bound =>
        ih item member context term bound
      have deeper : context.deeper.BindsAtMost bound := around
      obtain ⟨operator, headed, _, ruled⟩ := compile_array_eq_ok compiled
      by_cases binds : operator = .letIn
      · subst binds
        obtain ⟨values, body, fewer, depth⟩ := Compiler.letIn_callDepth_le each deeper ruled
        have room := context.allowance_add values body
        have counted : context.allowance (1 + (values + body)) ≤
            context.allowance (Value.array items).bindings := by
          apply Context.allowance_mono
          rw [bindings, if_pos headed]
          omega
        omega
      · by_cases reads : operator = .var
        · subst reads
          obtain ⟨_, name, _, _, found⟩ := Compiler.var_eq_ok ruled
          exact Nat.le_add_right_of_le (around name term found)
        · have depth := Operator.rule_callDepth_le binds reads
            (Node.shallow_ofItems each deeper) ruled
          have room := Context.allowance_deeper below (bindingsOfItems items)
          have counted : context.allowance (bindingsOfItems items) ≤
              context.allowance (Value.array items).bindings := by
            apply Context.allowance_mono
            rw [bindings]
            omega
          omega
  | _ =>
      unfold compile at compiled
      obtain rfl := pure_eq_ok.mp compiled
      simp

/-! ## Documents -/

/-- The term of a document costs the calls of all its levels, and again for each binding in it. -/
theorem Compiler.callDepth_le {options : Options} {document : Value} {term : Term}
    (compiled : Compiler.compile { options } document = .ok term) :
    term.callDepth ≤
      options.maxDepth * Options.callsPerLevel * (document.bindings + 1) := by
  have unbound : Context.BindsAtMost 0 { options } := by
    intro name found impossible
    cases impossible
  have depth := document.affordable { options } term 0 unbound (Compiler.compile_eq_ok compiled)
  simpa [Context.allowance, Nat.mul_comm] using depth

/--
A compiled document evaluates within the limit, provided that the limit allows for the document's
bindings: if it is the one of the options, multiplied by one more than the number of bindings,
then for every feature and environment no call is found to be nested too deep.  In particular the
limit of the options is enough for documents without a binding, unless the limit is cut short.
-/
theorem evaluation_within_limit {options : Options} {document : Value} {term : Term} {limit : Nat}
    (compiled : Compiler.compile { options } document = .ok term)
    (allowed : options.maxDepth * Options.callsPerLevel * (document.bindings + 1) ≤ limit)
    (feature : Feature) (environment : Entries) (function : String) (reached : Nat) :
    Evaluator.evaluate { source := .scope feature environment, limit } 0 term ≠
      .error (.calledTooDeep function reached) := by
  have depth := Compiler.callDepth_le compiled
  let evaluator : Evaluator := { source := .scope feature environment, limit }
  have fits : 0 + term.callDepth ≤ evaluator.limit := by
    rw [Nat.zero_add]
    exact Nat.le_trans depth allowed
  intro failed
  cases evaluator.evaluate_not_tooDeep (Source.confined_scope feature environment) fits _ failed

/-- The opposite of a property fits into the limit of two levels. -/
theorem evaluation_within_limit_case :
    Evaluator.evaluate { source := .scope {} [], limit := 8 } 0
        (Builtin.not.applied [.property "x"]) ≠ .error (.calledTooDeep "not" 8) :=
  @evaluation_within_limit { maxDepth := 2 }
    (.array [.string "!", .array [.string "get", .string "x"]]) _ 8 rfl (by decide) {} [] "not" 8

namespace Value

/-- A value asked to differ from zero, and the answer asked again, so many times. -/
def unequal : Nat → Value → Value
  | 0, value => value
  | count + 1, value =>
      .array [.string "!=", unequal count value, .number (.whole 0 (by decide) (by decide))]

/-- Bindings inside one another, each of which goes on asking where the one before stopped. -/
def chained : Value :=
  .array [.string "let", .string "a", unequal 5 (.array [.string "get", .string "x"]),
    .array [.string "let", .string "b", unequal 4 (reading "a"),
      .array [.string "let", .string "c", unequal 3 (reading "b"),
        .array [.string "let", .string "d", unequal 2 (reading "c"),
          unequal 2 (reading "d")]]]]

end Value

/-- Seven levels of a document with bindings can cost more calls than four for each level. -/
theorem evaluation_beyond_limit :
    ∃ term, Compiler.compile { options := { maxDepth := 7 } } .chained = .ok term ∧
      Compiler.evaluate { options := { maxDepth := 7 } } (.scope {} []) term =
        .error (.calledTooDeep "not" 28) := by
  refine ⟨_, rfl, ?_⟩
  rfl

end MapStyle
