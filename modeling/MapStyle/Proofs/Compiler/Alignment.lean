import Mathlib.Data.List.Forall2
import Mathlib.Data.List.Induction
import MapStyle.Proofs.Compiler.Filling
import MapStyle.Proofs.Compiler.Inversion

/-!
# Arguments of expressions

Items as arguments, and the arguments of two expressions side by side.
-/

namespace MapStyle

/-!
## Items of an array as arguments

An array is compiled as the expression that its items make up: the first one names the operator,
and each item is an argument that compiles as the item does.
-/

def Value.argument (value : Value) : Argument := ⟨value, value.compile⟩

namespace Node

/-- An item of an array is the argument that it stands for. -/
theorem ofItems_eq_map_argument (items : List Value) : ofItems items = items.map Value.argument :=
  ofItems_eq_map items

theorem length_ofItems (items : List Value) : (ofItems items).length = items.length := by
  rw [ofItems_eq_map, List.length_map]

/-- The name of an expression is the one at the head of the array. -/
theorem name?_ofItems (items : List Value) :
    (ofItems items).name? = (Value.array items).headName? := by
  cases items with
  | nil => simp [ofItems, name?, Value.headName?]
  | cons item rest =>
      rw [ofItems]
      cases item with
      | string name => rfl
      | _ => rfl

/-- An argument that is found at a place is the item that stands there. -/
theorem item_of_argument {items : List Value} {place : Place} {argument : Argument}
    (found : (ofItems items).argument place = .ok argument) :
    ∃ item, items[place.position]? = some item ∧ argument = item.argument := by
  have present := getElem?_of_argument found
  rw [ofItems_eq_map_argument, List.getElem?_map] at present
  obtain ⟨item, here, rfl⟩ := Option.map_eq_some_iff.mp present
  exact ⟨item, here, rfl⟩

/-- The body of a binding is the last item of its array. -/
theorem last_of_argument {operator : String} {items : List Value} {argument : Argument}
    (found : (ofItems items).argument ⟨operator, (ofItems items).length - 1⟩ = .ok argument) :
    ∃ last, argument = last.argument ∧ items.dropLast ++ [last] = items := by
  obtain ⟨last, ended, rfl⟩ := item_of_argument found
  rw [length_ofItems, ← List.getLast?_eq_getElem?] at ended
  exact ⟨last, rfl, List.dropLast_append_getLast? last ended⟩

/-- Names and values of a binding stand between its operator and its body. -/
theorem ofItems_inner (items : List Value) :
    (ofItems items).dropLast.drop 1 = ofItems (items.dropLast.drop 1) := by
  simp only [ofItems_eq_map_argument, List.map_dropLast, List.map_drop]

/-- An expression compiles only where fewer enclose it than are allowed. -/
theorem depth_lt_of_compile {node : Node} {context : Context} {term : Term}
    (compiled : node.compile context = .ok term) : context.depth < context.options.maxDepth := by
  unfold Node.compile at compiled
  split at compiled
  · cases compiled
  · split at compiled
    · cases compiled
    · obtain ⟨_, _, compiled⟩ := bind_eq_ok.mp compiled
      split at compiled
      · cases compiled
      · rename_i shallow
        exact Nat.lt_of_not_le shallow

end Node

/-- The operator of an expression is the one whose name stands at its head. -/
theorem Value.operator?_of_name? {items : List Value} {operator : Operator}
    (named : (Node.ofItems items).name? = some operator.name) :
    (Value.array items).operator? = some operator := by
  unfold operator?
  rw [← Node.name?_ofItems, named]
  exact Operator.ofName?_name operator

theorem Value.depth_lt_of_compile {items : List Value} {context : Context} {term : Term}
    (compiled : (Value.array items).compile context = .ok term) :
    context.depth < context.options.maxDepth := by
  rw [Value.compile] at compiled
  exact Node.depth_lt_of_compile compiled

/-- An array that compiles is an expression, compiled by the rule of its operator. -/
theorem Value.compile_array_eq_ok {items : List Value} {context : Context} {term : Term}
    (compiled : (Value.array items).compile context = .ok term) :
    ∃ operator : Operator, (Value.array items).operator? = some operator ∧
      operator.arity.accepts ((Node.ofItems items).length - 1) = true ∧
      operator.rule (Node.ofItems items) context.deeper = .ok term := by
  rw [Value.compile] at compiled
  obtain ⟨operator, accepted, named, ruled⟩ := Node.compile_eq_ok compiled
  exact ⟨operator, operator?_of_name? named, accepted, ruled⟩

/-- An array that is headed by an operator compiles by the rule of that operator. -/
theorem Value.compile_headed_eq_ok {operator : Operator} {items : List Value} {context : Context}
    {term : Term}
    (compiled : (Value.array (.string operator.name :: items)).compile context = .ok term) :
    operator.arity.accepts items.length = true ∧
      operator.rule (Node.ofItems (.string operator.name :: items)) context.deeper = .ok term := by
  obtain ⟨other, named, accepted, ruled⟩ := compile_array_eq_ok compiled
  obtain rfl : operator = other := Option.some.inj ((operator?_of_name? rfl).symm.trans named)
  rw [Node.length_ofItems] at accepted
  exact ⟨accepted, ruled⟩

/-- A document that comes to a text has a term that evaluates to it. -/
theorem Value.compiled_of_text {document : Value} {evaluator : Evaluator} {text : String}
    (shown : (document.compile {} >>= evaluator.evaluate 0).toOption.bind Value.toText? =
      some text) :
    ∃ term, document.compile {} = .ok term ∧ evaluator.evaluate 0 term = .ok (.string text) := by
  obtain ⟨value, held, read⟩ := Option.bind_eq_some_iff.mp shown
  cases outcome : document.compile {} >>= evaluator.evaluate 0 with
  | error cause =>
      rw [outcome] at held
      cases held
  | ok found =>
      rw [outcome] at held
      cases held
      obtain ⟨term, compiled, evaluates⟩ := bind_eq_ok.mp outcome
      cases value with
      | string content =>
          cases read
          exact ⟨term, compiled, evaluates⟩
      | _ => cases read

/-!
## Expressions of one operator

Two expressions of one operator are compared argument by argument: those that the operator reads
as they are written are written alike in both, and the others are related in a way that each
comparison chooses for itself.  Labels and stops alternate with the arguments behind them, so
such lists are taken two by two.
-/

/-- From an even distance on, positions are read as written and compiled by turns. -/
theorem Operator.alternates_add {first position : Nat} (behind : first ≤ position)
    (even : (position - first) % 2 = 0) (length distance : Nat) :
    alternates first length (position + distance) =
      decide (distance % 2 = 0 ∧ position + distance + 1 < length) := by
  unfold alternates
  rw [Bool.eq_iff_iff]
  simp only [Bool.and_eq_true, decide_eq_true_eq, beq_iff_eq]
  omega

namespace Node

/-- Expressions from a position on, written alike where `written` says so and else related. -/
inductive Follows (tracks : Argument → Argument → Prop) (written : Nat → Bool) :
    Nat → Node → Node → Prop where
  | nil (position : Nat) : Follows tracks written position [] []
  | written {position : Nat} {one other : Argument} {ones others : Node}
      (skipped : written position = true) (raw : one.raw = other.raw)
      (rest : Follows tracks written (position + 1) ones others) :
      Follows tracks written position (one :: ones) (other :: others)
  | compiled {position : Nat} {one other : Argument} {ones others : Node}
      (reached : written position = false) (related : tracks one other)
      (rest : Follows tracks written (position + 1) ones others) :
      Follows tracks written position (one :: ones) (other :: others)

/-- Written and compiled arguments by turns, where the last argument may be a compiled one. -/
inductive Alternates (tracks : Argument → Argument → Prop) : Node → Node → Prop where
  | nil : Alternates tracks [] []
  | last {one other : Argument} (related : tracks one other) : Alternates tracks [one] [other]
  | pair {label otherLabel one other : Argument} {ones others : Node}
      (raw : label.raw = otherLabel.raw) (related : tracks one other)
      (rest : Alternates tracks ones others) :
      Alternates tracks (label :: one :: ones) (otherLabel :: other :: others)

namespace Follows

variable {tracks : Argument → Argument → Prop} {written : Nat → Bool} {position : Nat}
  {ones others : Node}

theorem length_eq (follows : Follows tracks written position ones others) :
    ones.length = others.length := by
  induction follows with
  | nil => rfl
  | written _ _ _ ih => simp [ih]
  | compiled _ _ _ ih => simp [ih]

/-- Only the positions from the first on decide what is written alike. -/
theorem congr {other : Nat → Bool} (follows : Follows tracks written position ones others)
    (same : ∀ index, position ≤ index → written index = other index) :
    Follows tracks other position ones others := by
  induction follows with
  | nil => exact .nil _
  | @written position _ _ _ _ skipped raw _ ih =>
      have later := ih fun index behind => same index (by omega)
      exact .written (by rw [← same position (Nat.le_refl _), skipped]) raw later
  | @compiled position _ _ _ _ reached related _ ih =>
      have later := ih fun index behind => same index (by omega)
      exact .compiled (by rw [← same position (Nat.le_refl _), reached]) related later

theorem drop (follows : Follows tracks written position ones others) (count : Nat) :
    Follows tracks written (position + count) (ones.drop count) (others.drop count) := by
  induction count generalizing position ones others with
  | zero => simpa using follows
  | succ count ih =>
      cases follows with
      | nil => simpa using Follows.nil _
      | written _ _ rest =>
          have later := ih rest
          rw [Nat.add_assoc, Nat.add_comm 1 count] at later
          simpa using later
      | compiled _ _ rest =>
          have later := ih rest
          rw [Nat.add_assoc, Nat.add_comm 1 count] at later
          simpa using later

theorem tail (follows : Follows tracks written position ones others) :
    Follows tracks written (position + 1) ones.tail others.tail := by
  simpa using follows.drop 1

/-- The arguments at one place of both expressions are related where they are compiled. -/
theorem tracks_at (follows : Follows tracks written position ones others) {index : Nat}
    (reached : written (position + index) = false) {one other : Argument}
    (found : ones[index]? = some one) (otherFound : others[index]? = some other) :
    tracks one other := by
  have follows := follows.drop index
  rw [List.drop_eq_getElem_cons (List.getElem?_eq_some_iff.mp found).1,
    List.drop_eq_getElem_cons (List.getElem?_eq_some_iff.mp otherFound).1,
    (List.getElem?_eq_some_iff.mp found).2,
    (List.getElem?_eq_some_iff.mp otherFound).2] at follows
  cases follows with
  | written skipped _ _ =>
      rw [reached] at skipped
      cases skipped
  | compiled _ related _ => exact related

theorem raw_at (follows : Follows tracks written position ones others) {index : Nat}
    (skipped : written (position + index) = true) {one other : Argument}
    (found : ones[index]? = some one) (otherFound : others[index]? = some other) :
    one.raw = other.raw := by
  have follows := follows.drop index
  rw [List.drop_eq_getElem_cons (List.getElem?_eq_some_iff.mp found).1,
    List.drop_eq_getElem_cons (List.getElem?_eq_some_iff.mp otherFound).1,
    (List.getElem?_eq_some_iff.mp found).2,
    (List.getElem?_eq_some_iff.mp otherFound).2] at follows
  cases follows with
  | written _ raw _ => exact raw
  | compiled reached _ _ =>
      rw [reached] at skipped
      cases skipped

/-- The arguments of both expressions at a place, which are compiled there. -/
theorem tracks_of_argument (follows : Follows tracks written 0 ones others) {place : Place}
    (reached : written place.position = false) {one other : Argument}
    (found : Node.argument ones place = .ok one)
    (otherFound : Node.argument others place = .ok other) : tracks one other :=
  follows.tracks_at (by rwa [Nat.zero_add]) (getElem?_of_argument found)
    (getElem?_of_argument otherFound)

/-- Where nothing is only written, all arguments are related. -/
theorem forall₂ (follows : Follows tracks written position ones others)
    (reached : ∀ position, written position = false) : List.Forall₂ tracks ones others := by
  induction follows with
  | nil => exact .nil
  | written skipped _ _ _ =>
      rw [reached] at skipped
      cases skipped
  | compiled _ related _ ih => exact .cons related ih

/-- The arguments behind the name, where nothing is only written. -/
theorem arguments (follows : Follows tracks written position ones others)
    (reached : ∀ position, written position = false) :
    List.Forall₂ tracks ones.tail others.tail :=
  follows.tail.forall₂ reached

/-- Alternating positions from an even distance on hold written and compiled arguments. -/
theorem alternates {first length : Nat}
    (follows : Follows tracks (Operator.alternates first length) position ones others)
    (behind : first ≤ position) (even : (position - first) % 2 = 0)
    (fits : position + others.length = length) : Alternates tracks ones others := by
  induction others using List.twoStepInduction generalizing position ones with
  | nil =>
      cases follows
      exact .nil
  | singleton other =>
      have label := Operator.alternates_add behind even length 0
      simp only [List.length_cons, List.length_nil] at fits
      rw [Nat.add_zero, decide_eq_false (by omega)] at label
      cases follows with
      | written skipped _ _ =>
          rw [label] at skipped
          cases skipped
      | compiled _ related rest =>
          cases rest
          exact .last related
  | cons_cons otherLabel other others ih _ =>
      have label := Operator.alternates_add behind even length 0
      have output := Operator.alternates_add behind even length 1
      simp only [List.length_cons] at fits
      rw [Nat.add_zero, decide_eq_true (by omega)] at label
      rw [decide_eq_false (by omega)] at output
      cases follows with
      | written _ raw rest =>
          cases rest with
          | written skipped _ _ =>
              rw [output] at skipped
              cases skipped
          | compiled _ related rest =>
              exact .pair raw related (ih rest (by omega) (by omega) (by omega))
      | compiled reached _ _ =>
          rw [label] at reached
          cases reached

end Follows

/-- Without the compiled argument at their end, alternating arguments alternate still. -/
theorem Alternates.dropLast {tracks : Argument → Argument → Prop} {ones others : Node}
    (alternates : Alternates tracks ones others) (odd : ones.length % 2 = 1) :
    Alternates tracks ones.dropLast others.dropLast := by
  induction alternates with
  | nil => exact .nil
  | last related => exact .nil
  | @pair label otherLabel one other ones others raw related rest ih =>
      have later : ones.length % 2 = 1 := by
        simp only [List.length_cons] at odd
        omega
      cases rest with
      | nil => cases later
      | last last => exact .pair raw related .nil
      | pair _ _ _ => exact .pair raw related (ih later)

/-! ### An expression beside itself -/

section Reflexive

variable {tracks : Argument → Argument → Prop} {node : Node}

theorem Follows.refl_of (each : ∀ argument ∈ node, tracks argument argument)
    (written : Nat → Bool) (position : Nat) : Follows tracks written position node node := by
  induction node generalizing position with
  | nil => exact .nil position
  | cons head rest ih =>
      have later := ih (fun argument member => each argument (List.mem_cons_of_mem _ member))
        (position + 1)
      cases skipped : written position with
      | true => exact .written skipped rfl later
      | false => exact .compiled skipped (each head List.mem_cons_self) later

theorem Alternates.refl_of (each : ∀ argument ∈ node, tracks argument argument) :
    Alternates tracks node node := by
  induction node using List.twoStepInduction with
  | nil => exact .nil
  | singleton last => exact .last (each last List.mem_cons_self)
  | cons_cons label head rest ih _ =>
      have later := ih fun argument member =>
        each argument (List.mem_cons_of_mem _ (List.mem_cons_of_mem _ member))
      exact .pair rfl (each head (List.mem_cons_of_mem _ List.mem_cons_self)) later

end Reflexive

end Node

end MapStyle
