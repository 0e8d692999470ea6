import MapStyle.Proofs.Compiler.Alignment
import MapStyle.Proofs.Compiler.Limit
import MapStyle.Proofs.Compiler.Logic
import MapStyle.Proofs.Equality

/-!
# Comparisons of two operands

The order of two operands is asked of their nearest binary64 numbers, and their equality of the
numbers as they are written.  The six comparisons of two numbers or of two strings are one
answer in six forms nevertheless, but for two whole numbers of 63 bits and a sign that are
different and have one nearest binary64 number: of these none is the greater, and they are not
equal either.
-/

namespace MapStyle

/-! ## Order and equality of values -/

/-- Different whole numbers of 63 bits and a sign that binary64 does not keep apart. -/
structure Number.Tied (a b : Number) : Prop extends Merged a b where
  left : a.toInt64? ≠ none
  right : b.toInt64? ≠ none

/-- Equality answers like that of the nearest binary64 numbers, unless there is a tie. -/
theorem Number.equal_eq_nearest_iff (a b : Number) :
    equal a b = Double.eq a.toDouble b.toDouble ↔ ¬a.Tied b := by
  by_cases signed : a.toInt64? = none ∨ b.toInt64? = none
  · have untied : ¬a.Tied b := fun tied => signed.elim tied.left tied.right
    exact iff_of_true (equal_of_unsigned signed) untied
  · obtain ⟨left, right⟩ := not_or.mp signed
    obtain ⟨x, first⟩ := Option.ne_none_iff_exists'.mp left
    obtain ⟨y, second⟩ := Option.ne_none_iff_exists'.mp right
    have exact := equal_of_signed first second
    constructor
    · intro same tied
      exact tied.different (exact.mp (same.trans tied.nearest))
    · intro untied
      apply Bool.eq_iff_iff.mpr
      rw [exact]
      constructor
      · exact eq_toDouble_of_denoted
      · intro nearest
        by_contra different
        exact untied ⟨⟨different, nearest⟩, left, right⟩

namespace Value

inductive Comparable : Value → Value → Prop where
  | numbers (a b : Number) : Comparable (.number a) (.number b)
  | strings (s t : String) : Comparable (.string s) (.string t)

def Tied : Value → Value → Prop
  | .number a, .number b => a.Tied b
  | _, _ => False

/-- Two numbers or two strings have an order, and unless they are tied it tells their equality. -/
theorem Comparable.order {a b : Value} (comparable : a.Comparable b) :
    ∃ order : Ordering, (∀ function, Decision.orderOf function a b = .ok (some order)) ∧
      (equal a b = (order == .eq) ↔ ¬a.Tied b) := by
  cases comparable with
  | numbers a b =>
      obtain ⟨x, first⟩ := a.toDouble_eq_finite
      obtain ⟨y, second⟩ := b.toDouble_eq_finite
      refine ⟨compare x.value y.value, fun function => ?_, ?_⟩
      · rw [Decision.orderOf, first, second, Double.compare?]
      · have nearest := Number.equal_eq_nearest_iff a b
        rw [first, second] at nearest
        simpa [equal, Tied, Double.eq, Double.compare?] using nearest
  | strings s t =>
      refine ⟨compare s t, fun function => rfl, ?_⟩
      have untied : ¬(string s).Tied (.string t) := id
      rw [iff_true_right untied, equal, Bool.eq_iff_iff, beq_iff_eq, beq_iff_eq,
        Std.compare_eq_iff_eq]

end Value

namespace Decision

/-- The answers that an order gives are opposites in pairs. -/
theorem answers_not (order : Ordering) :
    answers .lessOrEqual (some order) = !answers .greater (some order) ∧
      answers .greaterOrEqual (some order) = !answers .less (some order) := by
  cases order <;> exact ⟨rfl, rfl⟩

/-- Of less, equal and greater exactly one holds if equality is told from the order. -/
theorem answers_exactly_one (order : Ordering) (equal : Bool) :
    (answers .less (some order)).toNat + equal.toNat + (answers .greater (some order)).toNat = 1 ↔
      equal = (order == .eq) := by
  cases order <;> cases equal <;> decide

end Decision

/-! ## Calls on two operands -/

namespace Evaluator

/-- Does the operand come to the value, wherever a comparison puts it? -/
def Reaches (evaluator : Evaluator) (excused : Error → Prop) (operand : Term) (value : Value) :
    Prop :=
  ∀ depth, depth ≤ 2 → Agrees excused (evaluator.evaluate depth operand) (.ok value)

variable {evaluator : Evaluator} {operand : Term} {value : Value}

/-- An operand that evaluates by itself comes to its value, unless the limit is in the way. -/
theorem reaches_of_evaluate (evaluates : evaluator.evaluate 0 operand = .ok value) :
    evaluator.Reaches (fun cause => cause.isCalledTooDeep) operand value := by
  intro depth _
  rw [← meaning_of_evaluate evaluates]
  exact evaluate_agrees_meaning evaluator operand depth

/-- An operand that evaluates inside two calls comes to its value in any case. -/
theorem reaches_of_evaluate_two (evaluates : evaluator.evaluate 2 operand = .ok value) :
    evaluator.Reaches (fun _ => False) operand value := by
  intro depth shallow
  exact .of_eq ((evaluate_agrees_of_shallower evaluator shallow operand).ok evaluates)

/-- An operand that is a value already comes to it, whatever else may fail. -/
theorem reaches_literal (evaluator : Evaluator) (excused : Error → Prop) (value : Value) :
    evaluator.Reaches excused (.literal value) value := by
  intro depth _
  rw [evaluate]
  exact .refl _

/-- An operand that is a value already can come to no other. -/
theorem Reaches.value_eq {excused : Error → Prop} {held : Value}
    (reaches : evaluator.Reaches excused (.literal held) value) : held = value := by
  have agrees := reaches 0 (by omega)
  rw [evaluate] at agrees
  cases agrees with
  | ok same => exact same

/-- A call within the limit answers as the function does for what its arguments come to. -/
theorem applied_agrees {excused : Error → Prop} (full : evaluator.registry = {}) {depth : Nat}
    (within : depth < evaluator.limit) (builtin : Builtin) {arguments : List Term}
    {outcomes : List Outcome}
    (agree : List.Forall₂ (Agrees excused) (arguments.map (evaluator.evaluate (depth + 1)))
      outcomes) :
    Agrees excused (evaluator.evaluate depth (builtin.applied arguments))
      (builtin.call evaluator.source outcomes) := by
  rw [evaluate_applied full within]
  exact Builtin.call_agrees (.refl _) builtin agree

variable {excused : Error → Prop} {left right : Term} {a b : Value}

/-- A call on two operands answers as its function does for their values. -/
theorem both_agree (full : evaluator.registry = {}) (first : evaluator.Reaches excused left a)
    (second : evaluator.Reaches excused right b) {depth : Nat} (shallow : depth < 2)
    (within : depth < evaluator.limit) (builtin : Builtin) :
    Agrees excused (evaluator.evaluate depth (builtin.applied [left, right]))
      (builtin.call evaluator.source [.ok a, .ok b]) :=
  applied_agrees full within builtin
    (.cons (first (depth + 1) (by omega)) (.cons (second (depth + 1) (by omega)) .nil))

/-- The call for an equality comes to the equality of the values, or to its opposite. -/
theorem equalityCall_agrees (full : evaluator.registry = {})
    (first : evaluator.Reaches excused left a) (second : evaluator.Reaches excused right b)
    (within : 1 < evaluator.limit) (negated : Bool) :
    Agrees excused (evaluator.evaluate 0 (Compiler.equalityCall negated left right))
      (.ok (.boolean (Value.equal a b != negated))) := by
  cases negated with
  | false =>
      have agrees := both_agree full first second (by omega) (Nat.lt_of_succ_lt within) .equalTo
      rw [Bool.bne_false]
      exact agrees
  | true =>
      have equal := both_agree full first second (by omega) within .equalTo
      have arguments : List.Forall₂ (Agrees excused)
          ([Builtin.equalTo.applied [left, right]].map (evaluator.evaluate 1)) [_] :=
        .cons equal .nil
      rw [Bool.bne_true]
      exact applied_agrees full (Nat.lt_of_succ_lt within) .not arguments

end Evaluator

/-- Two values compared come to what their order answers. -/
theorem Builtin.call_compare {a b : Value} {order : Ordering}
    (ordered : ∀ function, Decision.orderOf function a b = .ok (some order)) (source : Source)
    (comparison : Comparison) :
    (Builtin.compare comparison).call source [.ok a, .ok b] =
      .ok (.boolean (Decision.answers comparison (some order))) := by
  apply Builtin.call_eq_of_rule
  · cases comparison <;> rfl
  · have answered : Decision.compare comparison (.ok a) (.ok b) =
        .ok (.boolean (Decision.answers comparison (some order))) :=
      bind_eq_ok.mpr ⟨_, rfl, bind_eq_ok.mpr ⟨_, rfl, bind_eq_ok.mpr ⟨_, ordered _, rfl⟩⟩⟩
    exact congrArg some answered

/-! ## Comparisons as they are written -/

def Operator.Answers (operator : Operator) (excused : Error → Prop) (context : Context)
    (source : Source) (first second : Value) (flag : Bool) : Prop :=
  ∃ term, (Value.array [.string operator.name, first, second]).compile context = .ok term ∧
    Agrees excused ((context.evaluatorFor source).evaluate 0 term) (.ok (.boolean flag))

/-- The answers of all six comparisons of two operands. -/
structure Compared (excused : Error → Prop) (context : Context) (source : Source)
    (first second : Value) (isLess isEqual isGreater : Bool) : Prop where
  less : Operator.less.Answers excused context source first second isLess
  equal : Operator.equal.Answers excused context source first second isEqual
  greater : Operator.greater.Answers excused context source first second isGreater
  lessOrEqual : Operator.lessOrEqual.Answers excused context source first second !isGreater
  greaterOrEqual : Operator.greaterOrEqual.Answers excused context source first second !isLess
  notEqual : Operator.notEqual.Answers excused context source first second !isEqual

section Operands

variable {context : Context} {first second : Value} {left right : Term}

/-- Two operands are compiled one after the other. -/
theorem Compiler.bothArguments_ofItems (operator : Operator)
    (compiledFirst : first.argument.expression context = .ok left)
    (compiledSecond : second.argument.expression context = .ok right) :
    bothArguments operator (Node.ofItems [.string operator.name, first, second]) context =
      .ok (left, right) := by
  have head : (Node.ofItems [.string operator.name, first, second]).argument ⟨operator.name, 1⟩ =
      .ok first.argument := by
    rw [Node.ofItems_eq_map_argument]
    rfl
  have next : (Node.ofItems [.string operator.name, first, second]).argument ⟨operator.name, 2⟩ =
      .ok second.argument := by
    rw [Node.ofItems_eq_map_argument]
    rfl
  exact bind_eq_ok.mpr ⟨_, head, bind_eq_ok.mpr ⟨_, compiledFirst,
    bind_eq_ok.mpr ⟨_, next, bind_eq_ok.mpr ⟨_, compiledSecond, rfl⟩⟩⟩⟩

/-- An operator of two operands compiles by its rule. -/
theorem Value.compile_two {operator : Operator} (two : operator.arity = .exactly 2)
    (shallow : context.depth < context.options.maxDepth) :
    (Value.array [.string operator.name, first, second]).compile context =
      operator.rule (Node.ofItems [.string operator.name, first, second]) context.deeper := by
  rw [Value.compile]
  apply Node.compile_eq_rule
  · rfl
  · rw [Node.length_ofItems, two]
    rfl
  · exact shallow

variable {excused : Error → Prop} {source : Source} {a b : Value}

/-- A written comparison answers what the order of the values does. -/
theorem Compiler.comparison_answers {operator : Operator} {comparison : Comparison}
    (ruled : ∀ node context, operator.rule node context =
      Compiler.comparison operator comparison node context)
    (two : operator.arity = .exactly 2) (full : context.registry = {})
    (shallow : context.depth < context.options.maxDepth)
    (compiledFirst : first.argument.expression context.deeper = .ok left)
    (compiledSecond : second.argument.expression context.deeper = .ok right)
    (reachesFirst : (context.evaluatorFor source).Reaches excused left a)
    (reachesSecond : (context.evaluatorFor source).Reaches excused right b) {order : Ordering}
    (ordered : ∀ function, Decision.orderOf function a b = .ok (some order)) :
    operator.Answers excused context source first second
      (Decision.answers comparison (some order)) := by
  have within := Options.four_le_evaluationDepth (Nat.zero_lt_of_lt shallow)
  have folds : ∃ result, context.deeper.fold ((Builtin.compare comparison).applied [left, right]) =
      .ok result := by
    apply Context.fold_applied_isOk
    intro known
    -- Operands that are values already are compared at once, and these are the values they reach.
    cases left with
    | literal held =>
        cases right with
        | literal other =>
            obtain rfl := reachesFirst.value_eq
            obtain rfl := reachesSecond.value_eq
            have reaches := context.deeper.evaluator.reaches_literal fun _ => False
            have agrees := Evaluator.both_agree full (reaches held) (reaches other)
              Nat.two_pos (Nat.lt_of_lt_of_le (by decide) within) (.compare comparison)
            rw [Builtin.call_compare ordered] at agrees
            exact ⟨_, agrees.eq_of_none⟩
        | _ => simp [Term.isLiteral] at known
    | _ => simp [Term.isLiteral] at known
  obtain ⟨result, folded⟩ := folds
  refine ⟨result, ?_, ?_⟩
  · rw [Value.compile_two two shallow, ruled]
    exact bind_eq_ok.mpr ⟨_, bothArguments_ofItems operator compiledFirst compiledSecond, folded⟩
  · rw [← Context.evaluatorFor_deeper, Context.evaluate_fold folded source]
    have registered : (context.evaluatorFor source).registry = {} := full
    have agrees := Evaluator.both_agree registered reachesFirst reachesSecond Nat.two_pos
      (Nat.lt_of_lt_of_le (by decide) within) (.compare comparison)
    rw [Builtin.call_compare ordered] at agrees
    exact agrees

/-- A written equality answers what the equality of the values does. -/
theorem Compiler.equality_answers {operator : Operator} {negated : Bool}
    (ruled : ∀ node context, operator.rule node context =
      Compiler.equality operator negated node context)
    (two : operator.arity = .exactly 2) (full : context.registry = {})
    (shallow : context.depth < context.options.maxDepth)
    (compiledFirst : first.argument.expression context.deeper = .ok left)
    (compiledSecond : second.argument.expression context.deeper = .ok right)
    (reachesFirst : (context.evaluatorFor source).Reaches excused left a)
    (reachesSecond : (context.evaluatorFor source).Reaches excused right b) :
    operator.Answers excused context source first second (Value.equal a b != negated) := by
  have both := bothArguments_ofItems operator compiledFirst compiledSecond
  have decided : ∃ term, equality operator negated
      (Node.ofItems [.string operator.name, first, second]) context.deeper = .ok term := by
    unfold equality
    rw [both]
    dsimp only [bind, Except.bind]
    split
    · split
      · exact ⟨_, rfl⟩
      · exact ⟨_, rfl⟩
    · exact ⟨_, rfl⟩
  obtain ⟨term, decided⟩ := decided
  refine ⟨term, ?_, ?_⟩
  · rw [Value.compile_two two shallow, ruled]
    exact decided
  · obtain ⟨_, _, same, cases⟩ := equality_cases decided
    cases both.symm.trans same
    rcases cases with ⟨held, other, rfl, rfl, _, rfl⟩ | ⟨_, rfl⟩
    · obtain rfl := reachesFirst.value_eq
      obtain rfl := reachesSecond.value_eq
      rw [Evaluator.evaluate]
      exact .refl _
    · have within := Options.four_le_evaluationDepth (Nat.zero_lt_of_lt shallow)
      exact Evaluator.equalityCall_agrees full reachesFirst reachesSecond
        (Nat.lt_of_lt_of_le (by decide) within) negated

/-- All six comparisons of two operands, in terms of the order of their values. -/
theorem Compared.of_reaches (full : context.registry = {})
    (shallow : context.depth < context.options.maxDepth)
    (compiledFirst : first.argument.expression context.deeper = .ok left)
    (compiledSecond : second.argument.expression context.deeper = .ok right)
    (reachesFirst : (context.evaluatorFor source).Reaches excused left a)
    (reachesSecond : (context.evaluatorFor source).Reaches excused right b) {order : Ordering}
    (ordered : ∀ function, Decision.orderOf function a b = .ok (some order)) :
    Compared excused context source first second (Decision.answers .less (some order))
      (Value.equal a b) (Decision.answers .greater (some order)) := by
  obtain ⟨notGreater, notLess⟩ := Decision.answers_not order
  have compares {operator : Operator} {comparison : Comparison}
      (ruled : ∀ node context, operator.rule node context =
        Compiler.comparison operator comparison node context)
      (two : operator.arity = .exactly 2) :=
    Compiler.comparison_answers ruled two full shallow compiledFirst compiledSecond reachesFirst
      reachesSecond ordered
  have equates {operator : Operator} {negated : Bool}
      (ruled : ∀ node context, operator.rule node context =
        Compiler.equality operator negated node context)
      (two : operator.arity = .exactly 2) :=
    Compiler.equality_answers ruled two full shallow compiledFirst compiledSecond reachesFirst
      reachesSecond
  constructor
  · exact compares (fun _ _ => rfl) rfl
  · rw [← Bool.bne_false (Value.equal a b)]
    exact equates (fun _ _ => rfl) rfl
  · exact compares (fun _ _ => rfl) rfl
  · rw [← notGreater]
    exact compares (fun _ _ => rfl) rfl
  · rw [← notLess]
    exact compares (fun _ _ => rfl) rfl
  · rw [← Bool.bne_true (Value.equal a b)]
    exact equates (fun _ _ => rfl) rfl

end Operands

/--
Comparisons form a trichotomy.  For operands that evaluate to two numbers or to two strings, all
six comparisons compile, folded or not, and come to a truth value unless calls are nested too deep
for them, which they are not where the operands can stand inside two calls.  At most is the
opposite of greater, at least that of less, and different that of equal; and exactly one of less,
equal and greater is true, but for different whole numbers that the order cannot tell apart.
-/
theorem comparisons_form_trichotomy {context : Context} (full : context.registry = {})
    (shallow : context.depth < context.options.maxDepth) {first second : Value}
    {left right : Term} (compiledFirst : first.argument.expression context.deeper = .ok left)
    (compiledSecond : second.argument.expression context.deeper = .ok right) (source : Source)
    {a b : Value} (evaluatesFirst : (context.evaluatorFor source).evaluate 0 left = .ok a)
    (evaluatesSecond : (context.evaluatorFor source).evaluate 0 right = .ok b)
    (comparable : a.Comparable b) :
    ∃ less equal greater : Bool,
      Compared (fun cause => cause.isCalledTooDeep) context source first second less equal
        greater ∧
      ((context.evaluatorFor source).evaluate 2 left = .ok a →
        (context.evaluatorFor source).evaluate 2 right = .ok b →
        Compared (fun _ => False) context source first second less equal greater) ∧
      (less.toNat + equal.toNat + greater.toNat = 1 ↔ ¬a.Tied b) := by
  obtain ⟨order, ordered, untied⟩ := comparable.order
  refine ⟨Decision.answers .less (some order), Value.equal a b,
    Decision.answers .greater (some order), ?_, ?_, ?_⟩
  · exact .of_reaches full shallow compiledFirst compiledSecond
      (Evaluator.reaches_of_evaluate evaluatesFirst)
      (Evaluator.reaches_of_evaluate evaluatesSecond) ordered
  · intro deepFirst deepSecond
    exact .of_reaches full shallow compiledFirst compiledSecond
      (Evaluator.reaches_of_evaluate_two deepFirst)
      (Evaluator.reaches_of_evaluate_two deepSecond) ordered
  · exact (Decision.answers_exactly_one order _).trans untied

/-- A property that is two, compared with three. -/
theorem comparisons_form_trichotomy_case :
    ∃ less equal greater : Bool,
      Compared (fun _ => False) {}
        (.scope { properties := [("x", .number (.whole 2 (by decide) (by decide)))] } [])
        (.array [.string "get", .string "x"]) (.number (.whole 3 (by decide) (by decide)))
        less equal greater ∧
      less.toNat + equal.toNat + greater.toNat = 1 := by
  obtain ⟨less, equal, greater, _, compared, single⟩ :=
    @comparisons_form_trichotomy {} rfl (by decide) (.array [.string "get", .string "x"])
      (.number (.whole 3 (by decide) (by decide))) _ _ rfl rfl
      (.scope { properties := [("x", .number (.whole 2 (by decide) (by decide)))] } [])
      _ _ rfl rfl (.numbers (.whole 2 (by decide) (by decide)) (.whole 3 (by decide) (by decide)))
  refine ⟨less, equal, greater, compared rfl rfl, single.mpr fun tied => ?_⟩
  have narrow := Number.Merged.wide tied.toMerged
  simp [Number.Wide] at narrow

/-- `2 ^ 53` and the number after it are neither equal, nor is one of them the greater. -/
theorem comparisons_of_tied :
    Compared (fun _ => False) {} (.scope {} [])
      (.number (.whole (2 ^ 53) (by decide) (by decide)))
      (.number (.whole (2 ^ 53 + 1) (by decide) (by decide))) false false false := by
  have same : Double.compare? (.ofInt (2 ^ 53)) (.ofInt (2 ^ 53 + 1)) = some .eq := by
    decide +kernel
  refine @Compared.of_reaches {} (.number (.whole (2 ^ 53) (by decide) (by decide)))
    (.number (.whole (2 ^ 53 + 1) (by decide) (by decide))) _ _ _ _ _ _ rfl (by decide) rfl rfl
    (Evaluator.reaches_literal _ _ _) (Evaluator.reaches_literal _ _ _) .eq ?_
  exact fun function => congrArg Except.ok same

end MapStyle
