import MapStyle.Proofs.Compiler.Alignment

/-!
# Compilation at different places

An expression is compiled at two places, with arguments that come to the same terms there.  The
places may lie in different depths and bindings, but the functions and options are the same, so
that equal terms are folded alike; then the expression comes to the same term at both places.
Only the operators of variables ask what is bound.
-/

namespace MapStyle

/-- Contexts that differ in the place only: in the depth and in the bindings around it. -/
structure Context.Alike (one other : Context) : Prop where
  registry : one.registry = other.registry
  options : one.options = other.options

namespace Context.Alike

variable {one other : Context}

theorem trans {third : Context} (alike : one.Alike other) (further : other.Alike third) :
    one.Alike third :=
  ⟨alike.registry.trans further.registry, alike.options.trans further.options⟩

theorem deeper (alike : one.Alike other) : one.deeper.Alike other.deeper :=
  ⟨alike.registry, alike.options⟩

theorem push (alike : one.Alike other) (scope otherScope : Scope) :
    (one.push scope).Alike (other.push otherScope) :=
  ⟨alike.registry, alike.options⟩

theorem constant? (alike : one.Alike other) : one.constant? = other.constant? := by
  have evaluators : one.evaluator = other.evaluator := by
    unfold Context.evaluator
    rw [alike.registry, alike.options]
  funext term
  unfold Context.constant?
  rw [evaluators]

end Context.Alike

inductive Context.Checks (excused : Excuses) (one other : Context) : Prop where
  /-- Both contexts check alike. -/
  | same (depth : one.depth = other.depth)
      (limit : one.options.maxDepth = other.options.maxDepth)
  /-- Either context may refuse the expression. -/
  | either (deep : ∀ operator limit, excused.one (.nestedTooDeep operator limit))
      (otherDeep : ∀ operator limit, excused.other (.nestedTooDeep operator limit))
  /-- The first context alone may refuse the expression, because its limit is the lower one. -/
  | raised (deep : ∀ operator limit, excused.one (.nestedTooDeep operator limit))
      (depth : one.depth = other.depth) (limit : one.options.maxDepth ≤ other.options.maxDepth)

namespace Context.Checks

variable {excused : Excuses} {one other : Context}

theorem deeper (checks : one.Checks excused other) : one.deeper.Checks excused other.deeper := by
  cases checks with
  | same depth limit => exact .same (congrArg (· + 1) depth) limit
  | either deep otherDeep => exact .either deep otherDeep
  | raised deep depth limit => exact .raised deep (congrArg (· + 1) depth) limit

theorem push (checks : one.Checks excused other) (scope otherScope : Scope) :
    (one.push scope).Checks excused (other.push otherScope) := by
  cases checks with
  | same depth limit => exact .same depth limit
  | either deep otherDeep => exact .either deep otherDeep
  | raised deep depth limit => exact .raised deep depth limit

/-- Where the depth is checked in both contexts, only computations inside it need to concur. -/
theorem nested (checks : one.Checks excused other) (operator : String) {α : Type}
    {inner otherInner : Except Error α} (concurs : Concurs excused inner otherInner) :
    Concurs excused
      (if one.options.maxDepth ≤ one.depth then
        throw (.nestedTooDeep operator one.options.maxDepth) else inner)
      (if other.options.maxDepth ≤ other.depth then
        throw (.nestedTooDeep operator other.options.maxDepth) else otherInner) := by
  cases checks with
  | same depth limit =>
      rw [depth, limit]
      split
      · exact .same _
      · exact concurs
  | either deep otherDeep =>
      split
      · exact .left (deep _ _)
      · split
        · exact .right (otherDeep _ _)
        · exact concurs
  | raised deep depth limit =>
      split
      · exact .left (deep _ _)
      · rw [if_neg (by omega)]
        exact concurs

end Context.Checks

/-- Contexts that fold terms alike and check expressions alike, up to what is excused. -/
structure Context.Comparable (excused : Excuses) (one other : Context) : Prop where
  registry : one.registry = other.registry
  folds : one.options.foldConstants = other.options.foldConstants
  constant? : ∀ term, Concurs excused (one.constant? term) (other.constant? term)
  checks : one.Checks excused other

/-- Contexts that are alike fold terms alike. -/
theorem Context.Alike.comparable {excused : Excuses} {one other : Context}
    (alike : one.Alike other) (checks : one.Checks excused other) :
    one.Comparable excused other := by
  refine ⟨alike.registry, ?_, ?_, checks⟩
  · rw [alike.options]
  · intro term
    rw [alike.constant?]
    exact .same _

namespace Context.Comparable

variable {excused : Excuses} {one other : Context}

theorem deeper (comparable : one.Comparable excused other) :
    one.deeper.Comparable excused other.deeper :=
  ⟨comparable.registry, comparable.folds, comparable.constant?, comparable.checks.deeper⟩

theorem push (comparable : one.Comparable excused other) (scope otherScope : Scope) :
    (one.push scope).Comparable excused (other.push otherScope) :=
  ⟨comparable.registry, comparable.folds, comparable.constant?,
    comparable.checks.push scope otherScope⟩

theorem kind? (comparable : one.Comparable excused other) : one.kind? = other.kind? := by
  funext term
  unfold Context.kind?
  rw [comparable.registry]

theorem tryFold (comparable : one.Comparable excused other) (term : Term) :
    Concurs excused (one.tryFold term) (other.tryFold term) := by
  unfold Context.tryFold
  rw [comparable.folds]
  split
  · exact .same _
  · exact (comparable.constant? term).bind fun _ => .same _

theorem fold (comparable : one.Comparable excused other) (term : Term) :
    Concurs excused (one.fold term) (other.fold term) := by
  unfold Context.fold
  split
  · split
    · exact comparable.tryFold _
    · exact .same _
  · exact .same _

end Context.Comparable

/-- Arguments that come to the same term at two places, in whichever way they are compiled. -/
structure Argument.Concur (excused : Excuses) (one other : Context)
    (argument otherArgument : Argument) : Prop where
  expression : Concurs excused (argument.expression one) (otherArgument.expression other)
  valueOrExpression :
    Concurs excused (argument.valueOrExpression one) (otherArgument.valueOrExpression other)

variable {excused : Excuses} {one other : Context}

namespace Argument.Concur

variable {argument otherArgument : Argument}

theorem constantBy (concur : Concur excused one other argument otherArgument)
    (comparable : one.Comparable excused other) {α : Type} (place : Place) (expected : String)
    (read? : Value → Option α) :
    Concurs excused (argument.constantBy place expected read? one)
      (otherArgument.constantBy place expected read? other) := by
  unfold Argument.constantBy Argument.constant
  apply Concurs.bind
  · apply concur.valueOrExpression.bind
    intro term
    exact (comparable.constant? term).bind fun _ => .same _
  · intro value
    exact .same _

theorem numberExpression (concur : Concur excused one other argument otherArgument)
    (comparable : one.Comparable excused other) (place : Place) :
    Concurs excused (argument.numberExpression place one)
      (otherArgument.numberExpression place other) := by
  unfold Argument.numberExpression
  rw [comparable.kind?]
  exact concur.expression.bind fun _ => .same _

end Argument.Concur

namespace Compiler

variable {ones others : Node} {written : Nat → Bool}

/-- Steps on the arguments at a place concur if they do on the arguments that are found there. -/
theorem argument_bind_concurs {α : Type}
    (follows : Node.Follows (Argument.Concur excused one other) written 0 ones others)
    (place : Place) {next otherNext : Argument → Except Error α}
    (step : ∀ argument otherArgument, ones[place.position]? = some argument →
      others[place.position]? = some otherArgument →
        Concurs excused (next argument) (otherNext otherArgument)) :
    Concurs excused (ones.argument place >>= next) (others.argument place >>= otherNext) := by
  have lengths := follows.length_eq
  unfold Node.argument
  cases found : ones[place.position]? with
  | none =>
      have missing : others[place.position]? = none := by
        rw [List.getElem?_eq_none_iff] at found ⊢
        omega
      rw [missing]
      exact .same _
  | some argument =>
      have within : place.position < others.length := by
        have bound := (List.getElem?_eq_some_iff.mp found).1
        omega
      rw [List.getElem?_eq_getElem within]
      exact step argument _ found (List.getElem?_eq_getElem within)

/-- A step on the argument at a place, where arguments are compiled. -/
theorem compiled_bind_concurs {α : Type}
    (follows : Node.Follows (Argument.Concur excused one other) written 0 ones others)
    (place : Place) (reached : written place.position = false)
    {next otherNext : Argument → Except Error α}
    (step : ∀ argument otherArgument, Argument.Concur excused one other argument otherArgument →
      Concurs excused (next argument) (otherNext otherArgument)) :
    Concurs excused (ones.argument place >>= next) (others.argument place >>= otherNext) := by
  apply argument_bind_concurs follows
  intro argument otherArgument found otherFound
  exact step argument otherArgument
    (follows.tracks_at (by rwa [Nat.zero_add]) found otherFound)

/-! ## Lists of arguments -/

section Lists

variable (each : List.Forall₂ (Argument.Concur excused one other) ones others)

include each

theorem operands_concur (comparable : one.Comparable excused other) (place : Place) :
    Concurs excused (operands one place ones) (operands other place others) := by
  induction each generalizing place with
  | nil => exact .same _
  | cons head _ ih =>
      unfold operands
      exact (head.numberExpression comparable place).bind fun _ => (ih _).bind fun _ => .same _

theorem expressions_concur :
    Concurs excused (expressions one ones) (expressions other others) := by
  induction each with
  | nil => exact .same _
  | cons head _ ih =>
      unfold expressions
      exact head.expression.bind fun _ => ih.bind fun _ => .same _

theorem conditions_concur (comparable : one.Comparable excused other) (decisive : Bool)
    (place : Place) :
    Concurs excused (conditions decisive one place ones)
      (conditions decisive other place others) := by
  induction each generalizing place with
  | nil => exact .same _
  | cons head _ ih =>
      unfold conditions
      rw [comparable.kind?]
      apply head.expression.bind
      intro term
      have later := (ih (place.next 1)).bind fun terms => .same (pure (term :: terms))
      dsimp only
      split
      · split
        · exact .same _
        · exact later
      · split
        · exact later
        · exact later
        · exact .same _

theorem branches_concur (place : Place) :
    Concurs excused (branches one place ones) (branches other place others) := by
  induction place, others using branches.induct generalizing ones with
  | case1 place condition output rest ih =>
      cases each with
      | cons condition each =>
          cases each with
          | cons output each =>
              unfold branches
              apply condition.expression.bind
              intro term
              split
              · exact output.expression.bind fun _ => .same _
              · exact ih each
              · exact .same _
              · exact output.expression.bind fun _ => (ih each).bind fun _ => .same _
  | case2 place default =>
      cases each with
      | cons default each =>
          cases each
          exact default.expression.bind fun _ => .same _
  | case3 place =>
      cases each
      exact .same _

theorem candidates_concur :
    Concurs excused (candidates one ones) (candidates other others) := by
  induction each with
  | nil => exact .same _
  | cons head _ ih =>
      unfold candidates
      apply head.expression.bind
      intro term
      split
      · exact ih
      · exact .same _
      · exact ih.bind fun _ => .same _

end Lists

section Pairs

variable (alternates : Node.Alternates (Argument.Concur excused one other) ones others)

include alternates

theorem selectKnown_concurs (input : Value) (place : Place) :
    Concurs excused (selectKnown input one place ones) (selectKnown input other place others) := by
  induction alternates generalizing place with
  | nil => exact .same _
  | last default => exact default.expression
  | pair raw output _ ih =>
      unfold selectKnown
      rw [raw]
      apply Concurs.bind (.same _)
      intro found
      split
      · exact output.expression
      · exact ih _

theorem labelled_concur (place : Place) :
    Concurs excused (labelled one place ones) (labelled other place others) := by
  induction alternates generalizing place with
  | nil => exact .same _
  | last default => exact default.expression.bind fun _ => .same _
  | pair raw output _ ih =>
      unfold labelled
      rw [raw]
      exact Concurs.bind (.same _) fun _ =>
        output.expression.bind fun _ => (ih _).bind fun _ => .same _

theorem stops_concur (place : Place) (previous : Option Double) :
    Concurs excused (stops one place previous ones) (stops other place previous others) := by
  induction alternates generalizing place previous with
  | nil => exact .same _
  | last default => exact .same _
  | pair raw output _ ih =>
      unfold stops Argument.numberLiteral
      rw [raw]
      apply Concurs.bind (.same _)
      intro bound
      split
      · exact .same _
      · exact output.expression.bind fun _ => (ih _ _).bind fun _ => .same _

theorem bindings_concur (place : Place) (scope : Scope) :
    Concurs excused (bindings one place scope ones) (bindings other place scope others) := by
  induction alternates generalizing place scope with
  | nil => exact .same _
  | last body => exact .same _
  | pair raw value _ ih =>
      unfold bindings variableName
      rw [raw]
      exact Concurs.bind (.same _) fun _ => value.expression.bind fun _ => ih _ _

end Pairs

/-! ## Operators -/

section Compiled

variable (follows : Node.Follows (Argument.Concur excused one other) (fun _ => false) 0 ones others)
  (comparable : one.Comparable excused other)

include follows comparable

theorem arithmetic_concurs (operator : Operator) (builtin : Builtin) :
    Concurs excused (arithmetic operator builtin ones one)
      (arithmetic operator builtin others other) := by
  unfold arithmetic
  exact (operands_concur (follows.arguments fun _ => rfl) comparable _).bind fun _ =>
    comparable.fold _

theorem channel_concurs (position : Nat) :
    Concurs excused (channel ones one position) (channel others other position) := by
  unfold channel
  apply compiled_bind_concurs follows _ rfl
  intro argument otherArgument concur
  apply (concur.numberExpression comparable _).bind
  intro number
  exact (comparable.fold _).bind fun _ => comparable.fold _

theorem rgb_concurs : Concurs excused (rgb ones one) (rgb others other) := by
  unfold rgb
  exact (channel_concurs follows comparable 1).bind fun _ =>
    (channel_concurs follows comparable 2).bind fun _ =>
      (channel_concurs follows comparable 3).bind fun _ => comparable.fold _

theorem textual_concurs (builtin : Builtin) :
    Concurs excused (textual builtin ones one) (textual builtin others other) := by
  unfold textual
  exact (expressions_concur (follows.arguments fun _ => rfl)).bind fun _ => comparable.fold _

theorem negation_concurs (operator : Operator) :
    Concurs excused (negation operator ones one) (negation operator others other) := by
  unfold negation
  apply compiled_bind_concurs follows _ rfl
  intro argument otherArgument concur
  exact concur.expression.bind fun _ => comparable.fold _

omit comparable in
theorem bothArguments_concur (operator : Operator) :
    Concurs excused (bothArguments operator ones one) (bothArguments operator others other) := by
  apply compiled_bind_concurs follows _ rfl
  intro left otherLeft first
  apply first.expression.bind
  intro leftTerm
  apply compiled_bind_concurs follows _ rfl
  intro right otherRight second
  exact second.expression.bind fun _ => .same _

theorem comparison_concurs (operator : Operator) (order : Comparison) :
    Concurs excused (comparison operator order ones one)
      (comparison operator order others other) := by
  unfold comparison
  exact (bothArguments_concur follows operator).bind fun _ => comparable.fold _

theorem equality_concurs (operator : Operator) (negated : Bool) :
    Concurs excused (equality operator negated ones one)
      (equality operator negated others other) := by
  unfold equality
  rw [comparable.folds]
  exact (bothArguments_concur follows operator).bind fun _ => .same _

theorem logical_concurs (operator : Operator) (builtin : Builtin) (decisive : Bool) :
    Concurs excused (logical operator builtin decisive ones one)
      (logical operator builtin decisive others other) :=
  (conditions_concur (follows.arguments fun _ => rfl) comparable decisive _).bind fun _ => .same _

omit comparable in
theorem case_concurs : Concurs excused (case ones one) (case others other) :=
  (branches_concur (follows.arguments fun _ => rfl) _).bind fun _ => .same _

omit comparable in
theorem coalesce_concurs : Concurs excused (coalesce ones one) (coalesce others other) :=
  (candidates_concur (follows.arguments fun _ => rfl)).bind fun _ => .same _

theorem itemAt_concurs : Concurs excused (itemAt ones one) (itemAt others other) := by
  apply compiled_bind_concurs follows _ rfl
  intro index otherIndex first
  apply (first.constantBy comparable _ _ _).bind
  intro x
  apply compiled_bind_concurs follows _ rfl
  intro items otherItems second
  exact (second.constantBy comparable _ _ _).bind fun _ => .same _

theorem keyed_concurs (operator : Operator) (ofFeature : String → Term)
    (ofObject : String → Entries → Value) :
    Concurs excused (keyed operator ofFeature ofObject ones one)
      (keyed operator ofFeature ofObject others other) := by
  unfold keyed
  rw [follows.length_eq]
  apply compiled_bind_concurs follows _ rfl
  intro key otherKey first
  apply (first.constantBy comparable _ _ _).bind
  intro name
  split
  · exact .same _
  · apply compiled_bind_concurs follows _ rfl
    intro object otherObject second
    exact (second.constantBy comparable _ _ _).bind fun _ => .same _

theorem length_concurs : Concurs excused (length ones one) (length others other) := by
  unfold length
  rw [comparable.kind?]
  apply compiled_bind_concurs follows _ rfl
  intro argument otherArgument concur
  exact concur.valueOrExpression.bind fun _ => .same _

end Compiled

theorem select_concurs (comparable : one.Comparable excused other)
    (follows : Node.Follows (Argument.Concur excused one other)
      (Operator.alternates 2 others.length) 0 ones others) :
    Concurs excused (select ones one) (select others other) := by
  unfold select
  rw [comparable.kind?]
  apply argument_bind_concurs follows
  intro argument otherArgument found otherFound
  have long : 1 < others.length := (List.getElem?_eq_some_iff.mp otherFound).1
  have alternates := (follows.drop 2).alternates (by omega) (by omega)
    (by rw [List.length_drop]; omega)
  apply (follows.tracks_at rfl found otherFound).expression.bind
  intro input
  split
  · exact Concurs.bind (.same _) fun _ => selectKnown_concurs alternates _ _
  · exact Concurs.bind (.same _) fun _ => (labelled_concur alternates _).bind fun _ => .same _

/-- The stops of a ramp, which begin behind its input. -/
theorem ramp_concurs
    (follows : Node.Follows (Argument.Concur excused one other) written 0 ones others)
    (behind : ∀ position, 3 ≤ position →
      written position = Operator.alternates 3 others.length position)
    (long : 3 ≤ others.length) (place : Place) :
    Concurs excused (stops one place none (ones.drop 3))
      (stops other place none (others.drop 3)) := by
  have alternates := ((follows.drop 3).congr (by simpa using behind)).alternates (by omega)
    (by omega) (by rw [List.length_drop]; omega)
  exact stops_concur alternates place none

theorem step_concurs (comparable : one.Comparable excused other)
    (follows : Node.Follows (Argument.Concur excused one other)
      (Operator.step.readsWritten others.length) 0 ones others) :
    Concurs excused (step ones one) (step others other) := by
  unfold step Node.expectPairs
  rw [follows.length_eq]
  apply Concurs.bind (.same _)
  intro _
  apply compiled_bind_concurs follows _ rfl
  intro input otherInput concur
  apply (concur.numberExpression comparable _).bind
  intro inputTerm
  apply argument_bind_concurs follows
  intro first otherFirst found otherFound
  have long : 2 < others.length := (List.getElem?_eq_some_iff.mp otherFound).1
  apply (follows.tracks_at rfl found otherFound).expression.bind
  intro firstTerm
  exact (ramp_concurs follows (fun _ _ => rfl) long _).bind fun _ => comparable.tryFold _

theorem interpolate_concurs (comparable : one.Comparable excused other)
    (follows : Node.Follows (Argument.Concur excused one other)
      (Operator.interpolate.readsWritten others.length) 0 ones others) :
    Concurs excused (interpolate ones one) (interpolate others other) := by
  unfold interpolate Node.expectPairs
  rw [follows.length_eq]
  apply Concurs.bind (.same _)
  intro _
  apply argument_bind_concurs follows
  intro shape otherShape found otherFound
  rw [follows.raw_at rfl found otherFound]
  split
  · exact .same _
  · apply argument_bind_concurs follows
    intro input otherInput found otherFound
    have long : 2 < others.length := (List.getElem?_eq_some_iff.mp otherFound).1
    apply ((follows.tracks_at rfl found otherFound).numberExpression comparable _).bind
    intro inputTerm
    have behind (position : Nat) (past : 3 ≤ position) :=
      Operator.readsWritten_interpolate others.length past
    exact (ramp_concurs follows behind long _).bind fun _ => comparable.tryFold _

end Compiler

/-- The rule of an operator that is not about variables keeps concurrence. -/
theorem Operator.rule_concurs {operator : Operator} {ones others : Node}
    (comparable : one.Comparable excused other)
    (follows : Node.Follows (Argument.Concur excused one other)
      (operator.readsWritten others.length) 0 ones others)
    (plain : operator ≠ .letIn ∧ operator ≠ .var) :
    Concurs excused (operator.rule ones one) (operator.rule others other) := by
  cases operator with
  | rgb => exact Compiler.rgb_concurs follows comparable
  | not => exact Compiler.negation_concurs follows comparable _
  | equal | notEqual => exact Compiler.equality_concurs follows comparable _ _
  | less | lessOrEqual | greater | greaterOrEqual =>
      exact Compiler.comparison_concurs follows comparable _ _
  | all | any => exact Compiler.logical_concurs follows comparable _ _ _
  | case => exact Compiler.case_concurs follows
  | coalesce => exact Compiler.coalesce_concurs follows
  | select => exact Compiler.select_concurs comparable follows
  | «at» => exact Compiler.itemAt_concurs follows comparable
  | get | has => exact Compiler.keyed_concurs follows comparable _ _ _
  | length => exact Compiler.length_concurs follows comparable
  | subtract =>
      unfold rule Compiler.difference
      dsimp only
      rw [follows.length_eq]
      exact Compiler.arithmetic_concurs follows comparable _ _
  | interpolate => exact Compiler.interpolate_concurs comparable follows
  | step => exact Compiler.step_concurs comparable follows
  | concat | downcase | upcase => exact Compiler.textual_concurs follows comparable _
  | letIn => exact absurd rfl plain.1
  | var => exact absurd rfl plain.2
  | geometryType | id | properties | heatmapDensity | e | pi | ln2 | zoom => exact .same _
  | rgba | toRgba | array | boolean | collator | format | literal | number | object | string
  | toBoolean | toColor | toNumber | toText | typeOf => exact .same _
  | _ => exact Compiler.arithmetic_concurs follows comparable _ _

/-- Expressions with one name concur if the rule of the operator that it names does. -/
theorem Node.compile_concurs {ones others : Node} (comparable : one.Comparable excused other)
    (names : ones.name? = others.name?) (lengths : ones.length = others.length)
    (ruled : ∀ operator : Operator, others.name? = some operator.name →
      operator.arity.accepts (others.length - 1) = true →
        Concurs excused (operator.rule ones one.deeper) (operator.rule others other.deeper)) :
    Concurs excused (ones.compile one) (others.compile other) := by
  unfold Node.compile
  rw [names, lengths]
  split
  · exact .same _
  · rename_i name named
    split
    · exact .same _
    · rename_i operator found
      obtain rfl := Operator.name_of_ofName? found
      apply Concurs.bind_of_ok (.same _)
      intro _ checked
      have accepted := Arity.accepts_of_check checked
      apply comparable.checks.nested
      unfold Operator.compile Node.expectOperator
      rw [names]
      exact Concurs.bind (.same _) fun _ => ruled operator named accepted

end MapStyle
