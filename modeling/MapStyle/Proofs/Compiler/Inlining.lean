import MapStyle.Proofs.Compiler.Substitution

/-!
# Bindings are substitutions

A binding of distinct names to values that ask for no variable comes to the same term as its body
with the values written in place of the names.  The values are then compiled where they are used:
in other depths, which may exceed what is allowed, and inside other bindings, of which they see
nothing.
-/

namespace MapStyle

def Value.pairItems (pairs : List (String × Value)) : List Value :=
  pairs.flatMap fun pair => [.string pair.1, pair.2]

/-- The expression that binds names to values inside its body. -/
def Value.binding (pairs : List (String × Value)) (body : Value) : Value :=
  .array (.string "let" :: pairItems pairs ++ [body])

def Error.isNestedTooDeep : Error → Bool
  | .nestedTooDeep _ _ => true
  | _ => false

/-- Where nothing is to be replaced, hiding names changes nothing. -/
theorem Replacement.without_none (names : List String) :
    Replacement.without (fun _ => none) names = fun _ => none := by
  funext name
  exact ite_self none

theorem Operator.substituteItems_none {operator : Operator} {whole items : List Value}
    {position : Nat} (each : ∀ item ∈ items, item.substitute (fun _ => none) = item) :
    operator.substituteItems (fun _ => none) whole position items = items := by
  induction items generalizing position with
  | nil => simp [substituteItems]
  | cons item rest ih =>
      have later : operator.substituteItems (fun _ => none) whole (position + 1) rest = rest :=
        ih fun other member => each other (List.mem_cons_of_mem _ member)
      rw [substituteItems, later, Replacement.without_none, each item List.mem_cons_self, ite_self]

namespace Value

variable {value : Value}

theorem substitute_none (value : Value) : value.substitute (fun _ => none) = value := by
  induction value with
  | array items ih =>
      cases named : (array items).variableName? with
      | some name =>
          rw [variableName?_eq_some named, substitute_reading]
          rfl
      | none =>
          cases headed : (array items).operator? with
          | none => exact substitute_of_plain named headed
          | some operator =>
              rw [substitute_of_operator? named headed, Operator.substituteItems_none ih]
  | _ => exact substitute_of_plain rfl rfl

/-- A value comes to one term at two places where it asks for names that are bound alike. -/
theorem concur_of_lookup {excused : Excuses} {one other : Context}
    (comparable : one.Comparable excused other)
    (same : ∀ name, value.mentions name = true → one.lookup? name = other.lookup? name) :
    Argument.Concur excused one other value.argument value.argument := by
  have concur := value.substitutes (fun _ => none) one other comparable
    fun name mentioned => .kept rfl (same name mentioned)
  rwa [substitute_none] at concur

/-- A value that is compiled as an expression is no less one where values are expected. -/
theorem valueOrExpression_of_expression {context : Context} {term : Term}
    (compiled : value.argument.expression context = .ok term) :
    value.argument.valueOrExpression context = .ok term := by
  cases headed : value.operator? with
  | some operator =>
      obtain ⟨rest, rfl⟩ := operator?_eq_some headed
      rw [← compiled]
      exact if_pos (Option.isSome_iff_exists.mpr ⟨operator, headed⟩)
  | none =>
      have literal : value.argument.raw.isExpression = false := congrArg Option.isSome headed
      unfold Argument.expression at compiled
      split at compiled
      · rename_i named
        cases value with
        | array items =>
            obtain ⟨operator, known, _⟩ := compile_array_eq_ok compiled
            rw [headed] at known
            cases known
        | _ => cases named
      · unfold Argument.valueOrExpression
        rw [literal]
        exact compiled

/-- A value that asks for no name comes to its term wherever it is written, if not too deep. -/
theorem inlines_of_closed {excused : Excuses}
    (deep : ∀ operator limit, excused.one (.nestedTooDeep operator limit))
    (otherDeep : ∀ operator limit, excused.other (.nestedTooDeep operator limit))
    (closed : ∀ name, value.mentions name = false) {context : Context} {term : Term}
    (compiled : value.argument.expression context = .ok term) :
    value.Inlines excused context term := by
  have anywhere (place : Context) (alike : place.Alike context) :
      Argument.Concur excused place context value.argument value.argument := by
    refine concur_of_lookup (alike.comparable (.either deep otherDeep)) ?_
    intro name mentioned
    rw [closed name] at mentioned
    cases mentioned
  constructor
  · intro place alike
    rw [← compiled]
    exact (anywhere place alike).expression
  · intro place alike
    rw [← valueOrExpression_of_expression compiled]
    exact (anywhere place alike).valueOrExpression

end Value

namespace Compiler

/-- Of distinct names, each is bound to the term of its value. -/
theorem bindings_pairItems {pairs : List (String × Value)} {context : Context} {place : Place}
    {scope result : Scope} (distinct : (pairs.map Prod.fst).Nodup)
    (bound : bindings context place scope (Node.ofItems (Value.pairItems pairs)) = .ok result)
    (name : String) :
    (pairs.lookup name = none → result.lookup name = scope.lookup name) ∧
      ∀ value, pairs.lookup name = some value → ∃ term,
        value.argument.expression context = .ok term ∧ result.lookup name = some term := by
  induction pairs generalizing place scope with
  | nil =>
      obtain rfl := pure_eq_ok.mp bound
      refine ⟨fun _ => rfl, ?_⟩
      intro value impossible
      cases impossible
  | cons pair rest ih =>
      obtain ⟨head, value⟩ := pair
      obtain ⟨fresh, distinct⟩ := List.nodup_cons.mp distinct
      obtain ⟨written, term, named, compiled, later⟩ := bindings_cons bound
      cases variableName_eq_ok named
      obtain ⟨kept, held⟩ := ih distinct later
      rw [List.lookup_cons] at kept ⊢
      cases same : name == head with
      | true =>
          rw [same] at kept
          obtain rfl := beq_iff_eq.mp same
          have free : rest.lookup name = none := by
            rw [List.lookup_eq_none_iff]
            intro pair member
            exact bne_iff_ne.mpr fun equal => fresh (List.mem_map.mpr ⟨pair, member, equal.symm⟩)
          constructor
          · intro impossible
            cases impossible
          · intro found sameValue
            cases sameValue
            exact ⟨term, compiled, kept free⟩
      | false =>
          rw [same] at kept
          exact ⟨kept, held⟩

/-- A binding that compiles is its body, compiled in the scope of its values. -/
theorem binding_eq_ok {context : Context} {pairs : List (String × Value)} {body : Value}
    {term : Term} (compiled : (Value.binding pairs body).argument.expression context = .ok term) :
    ∃ scope,
      bindings context.deeper ⟨Operator.letIn.name, 1⟩ [] (Node.ofItems (Value.pairItems pairs)) =
        .ok scope ∧
      body.argument.expression (context.deeper.push scope) = .ok term := by
  have expression : (Value.binding pairs body).compile context = .ok term := compiled
  obtain ⟨operator, headed, _, ruled⟩ := Value.compile_array_eq_ok expression
  obtain rfl : Operator.letIn = operator := Option.some.inj headed
  obtain ⟨_, _, ruled⟩ := bind_eq_ok.mp ((letIn_ofItems _ _ _).symm.trans ruled)
  exact bind_eq_ok.mp ruled

/-- A body with values in place of its variables comes to what a binding of them comes to. -/
theorem substitute_concurs_binding {context : Context} {pairs : List (String × Value)}
    {body : Value} {term : Term} (distinct : (pairs.map Prod.fst).Nodup)
    (closed : ∀ pair ∈ pairs, ∀ name, pair.2.mentions name = false)
    (compiled : (Value.binding pairs body).argument.expression context = .ok term) :
    Concurs (.both fun cause => cause.isNestedTooDeep = true)
      ((body.substitute fun name => pairs.lookup name).argument.expression context)
      (.ok term) := by
  obtain ⟨scope, bound, inner⟩ := binding_eq_ok compiled
  rw [← inner]
  -- The body loses the level of the binding, and a value gains the levels around its variable.
  have deep (operator : String) (limit : Nat) :
      (Error.nestedTooDeep operator limit).isNestedTooDeep = true := rfl
  have alike : context.Alike (context.deeper.push scope) := ⟨rfl, rfl⟩
  refine (body.substitutes _ context _ (alike.comparable (.either deep deep)) ?_).expression
  intro name _
  obtain ⟨free, held⟩ := bindings_pairItems distinct bound name
  cases found : pairs.lookup name with
  | none =>
      refine .kept found ?_
      rw [context.deeper.lookup?_push_of_not_mem (free found)]
      rfl
  | some value =>
      obtain ⟨valueTerm, valueCompiled, holds⟩ := held value found
      obtain ⟨before, behind, split, _⟩ := List.lookup_eq_some_iff.mp found
      have asksNothing := closed (name, value) (by simp [split])
      have inlines : value.Inlines (.both fun cause => cause.isNestedTooDeep = true)
          context.deeper valueTerm :=
        Value.inlines_of_closed deep deep asksNothing valueCompiled
      exact .replaced found (context.deeper.lookup?_push_of_mem holds) deep alike
        (inlines.move ⟨rfl, rfl⟩)

end Compiler

/--
A binding is a substitution.  If a binding of distinct names to values that ask for no variable
compiles, and so does its body with the values written in place of the names, then both compile to
one and the same term, in whatever context it is.
-/
theorem binding_is_substitution {context : Context} {pairs : List (String × Value)} {body : Value}
    {bound substituted : Term} (distinct : (pairs.map Prod.fst).Nodup)
    (closed : ∀ pair ∈ pairs, ∀ name, pair.2.mentions name = false)
    (boundCompiled : (Value.binding pairs body).argument.expression context = .ok bound)
    (substitutedCompiled :
      (body.substitute fun name => pairs.lookup name).argument.expression context =
        .ok substituted) : bound = substituted :=
  ((Compiler.substitute_concurs_binding distinct closed boundCompiled).eq_of_ok
    substitutedCompiled rfl).symm

/-- Two names in a choice, of which an inner binding hides one, inside a binding of that one. -/
theorem binding_is_substitution_case :
    ∃ bound substituted,
      (Value.binding
        [("a", .array [.string "get", .string "k"]), ("b", .array [.string "has", .string "k"])]
        (.array [.string "case", .reading "b", .reading "a",
          .binding [("a", .reading "b")] (.reading "a")])).argument.expression
        { depth := 3, scopes := [[("a", .literal .null)]] } = .ok bound ∧
      (Value.array [.string "case", .array [.string "has", .string "k"],
        .array [.string "get", .string "k"],
        .binding [("a", .array [.string "has", .string "k"])]
          (.reading "a")]).argument.expression
        { depth := 3, scopes := [[("a", .literal .null)]] } = .ok substituted ∧
      bound = substituted := by
  refine ⟨_, _, rfl, rfl, ?_⟩
  apply @binding_is_substitution { depth := 3, scopes := [[("a", .literal .null)]] }
    [("a", .array [.string "get", .string "k"]), ("b", .array [.string "has", .string "k"])]
    (.array [.string "case", .reading "b", .reading "a",
      .binding [("a", .reading "b")] (.reading "a")])
  · decide
  · intro pair member name
    simp only [List.mem_cons, List.not_mem_nil, or_false] at member
    rcases member with rfl | rfl
    · rfl
    · rfl
  · rfl
  · rfl

end MapStyle
