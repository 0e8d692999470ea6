import MapStyle.Proofs.Compiler.Inlining
import MapStyle.Proofs.Entries

/-!
# Lexical scoping

What a document comes to depends on the bindings around it by its free names only: those of the
variables in it that lie in no body of a binding that writes their name.  In particular a binding
does not depend on the order in which it writes its names.
-/

namespace MapStyle

namespace Value

/-- Is the name written before a value in an array that is headed as a binding? -/
def Binds (items : List Value) (name : String) : Prop :=
  items.head? = some (.string "let") ∧
    ∃ index, index % 2 = 1 ∧ index + 1 < items.length ∧ items[index]? = some (.string name)

/-- The name of a variable somewhere in the value, outside the bodies of its bindings there. -/
inductive Free (name : String) : Value → Prop where
  | reading : Free name (reading name)
  | item {items : List Value} {index : Nat} {item : Value}
      (present : items[index]? = some item)
      (visible : ¬ (index + 1 = items.length ∧ Binds items name)) (inner : Free name item) :
      Free name (.array items)

/-- In an array that is no binding, every name that is free in an item is free. -/
theorem Free.of_mem {name : String} {items : List Value} {item : Value}
    (unbound : items.head? ≠ some (.string "let")) (member : item ∈ items)
    (inner : item.Free name) : (array items).Free name := by
  obtain ⟨index, present⟩ := List.mem_iff_getElem?.mp member
  exact .item present (fun bound => unbound bound.2.1) inner

/-- A name that is free in an array is that of the variable it reads, or free in an item. -/
theorem Free.cases_array {name : String} {items : List Value} (free : (array items).Free name) :
    array items = Value.reading name ∨ ∃ index item, items[index]? = some item ∧
      ¬ (index + 1 = items.length ∧ Binds items name) ∧ item.Free name := by
  generalize same : array items = value at free
  cases free with
  | reading => exact .inl rfl
  | item present visible inner =>
      cases same
      exact .inr ⟨_, _, present, visible, inner⟩

/-- The one name that is free where a variable is read is that of the variable. -/
theorem Free.of_reading {name other : String} (free : (Value.reading other).Free name) :
    name = other := by
  rcases free.cases_array with same | ⟨index, item, present, _, inner⟩
  · cases same
    rfl
  · match index with
    | 0 | 1 =>
        cases present
        cases inner
    | index + 2 => cases present

end Value

/-- No two operators have one name. -/
theorem Operator.eq_of_name_eq {one other : Operator} (same : one.name = other.name) :
    one = other := by
  have found := Operator.ofName?_name one
  rw [same, Operator.ofName?_name] at found
  exact (Option.some.inj found).symm

variable {excused : Excuses} {one other : Context}

/-- A value that compiles to the same at two places is the same argument at both. -/
theorem Argument.Concur.of_self {value : Value}
    (concurs : Concurs excused (value.compile one) (value.compile other)) :
    Argument.Concur excused one other value.argument value.argument := by
  constructor
  · unfold Argument.expression
    split
    · exact concurs
    · exact .same _
  · unfold Argument.valueOrExpression
    split
    · exact concurs
    · exact .same _

theorem Node.concur_ofItems {items : List Value}
    (each : ∀ item ∈ items, Concurs excused (item.compile one) (item.compile other)) :
    ∀ argument ∈ ofItems items, Argument.Concur excused one other argument argument := by
  intro argument member
  rw [ofItems_eq_map_argument] at member
  obtain ⟨item, present, rfl⟩ := List.mem_map.mp member
  exact .of_self (each item present)

/-! ## Free names -/

namespace Compiler

/-- A scope holds every name that is written before a value. -/
theorem bindings_hold {items : List Value} {context : Context} {place : Place}
    {scope result : Scope} (bound : bindings context place scope (Node.ofItems items) = .ok result)
    {index : Nat} {name : String} (even : index % 2 = 0) (followed : index + 1 < items.length)
    (named : items[index]? = some (.string name)) : result.lookup name ≠ none := by
  induction items using List.twoStepInduction generalizing place scope index with
  | nil => cases named
  | singleton item => simp at followed
  | cons_cons first value rest ih _ =>
      rw [Node.ofItems, Node.ofItems] at bound
      obtain ⟨head, term, written, _, later⟩ := bindings_cons bound
      obtain _ | _ | index := index
      · obtain rfl := Option.some.inj named
        cases variableName_eq_ok written
        intro free
        have hidden := ((bindings_lookup later name).mp free).2
        simp at hidden
      · cases even
      · rw [List.length_cons, List.length_cons] at followed
        exact ih later (by omega) (by omega) named

/-- A variable comes to the same where its name stands for the same. -/
theorem var_concurs_of_lookup {items : List Value}
    (same : ∀ name, (Value.array items).Free name → one.lookup? name = other.lookup? name)
    (each : ∀ item ∈ items, Concurs excused (item.compile one) (item.compile other))
    (named : (Node.ofItems items).name? = some Operator.var.name)
    (accepted : Operator.var.arity.accepts ((Node.ofItems items).length - 1) = true) :
    Concurs excused (var (Node.ofItems items) one) (var (Node.ofItems items) other) := by
  have single : (Node.ofItems items).length - 1 = 1 := by
    simpa [Operator.arity, Operator.entry, Arity.accepts] using accepted
  rw [Node.length_ofItems] at single
  obtain ⟨head, operand, rfl⟩ := List.length_eq_two.mp (show items.length = 2 by omega)
  obtain ⟨rest, written⟩ := Value.operator?_eq_some (Value.operator?_of_name? named)
  cases written
  cases operand with
  | string name =>
      have alike : one.lookup? name = other.lookup? name := same name .reading
      refine .of_eq ?_
      simp [var, Node.argument, Node.ofItems, variableName, Value.toText?, alike, bind,
        Except.bind, pure, Except.pure]
  | _ =>
      apply var_concurs_of_unnamed (.refl_of (Node.concur_ofItems each) _ _)
      rintro argument ⟨⟩
      rfl

/-- A binding comes to the same where the free names in it stand for the same. -/
theorem letIn_concurs_of_free {items : List Value} (comparable : one.Comparable excused other)
    (each : ∀ item ∈ items, ∀ {one other : Context}, one.Comparable excused other →
      (∀ name, item.Free name → one.lookup? name = other.lookup? name) →
        Concurs excused (item.compile one) (item.compile other))
    (same : ∀ name, (Value.array items).Free name → one.lookup? name = other.lookup? name)
    (named : (Node.ofItems items).name? = some Operator.letIn.name)
    (accepted : Operator.letIn.arity.accepts ((Node.ofItems items).length - 1) = true) :
    Concurs excused (letIn (Node.ofItems items) one) (letIn (Node.ofItems items) other) := by
  have long : 3 ≤ (Node.ofItems items).length - 1 := by
    simpa [Operator.arity, Operator.entry, Arity.accepts] using accepted
  rw [Node.length_ofItems] at long
  rcases List.eq_nil_or_concat items with rfl | ⟨before, last, rfl⟩
  · cases long
  rw [List.concat_eq_append] at *
  have occupied : 2 < before.length := by
    rw [List.length_append, List.length_singleton] at long
    omega
  -- The values lie outside the scope, so what is free in them is free in the binding.
  have values : ∀ item ∈ before.tail, Concurs excused (item.compile one) (item.compile other) := by
    intro item member
    obtain ⟨index, present⟩ := List.mem_iff_getElem?.mp (List.mem_of_mem_tail member)
    have within := (List.getElem?_eq_some_iff.mp present).1
    have found : (before ++ [last])[index]? = some item := by
      rwa [List.getElem?_append_left within]
    refine each item (List.mem_of_getElem? found) comparable fun name inner => ?_
    refine same name (.item found (fun bound => ?_) inner)
    have ended := bound.1
    rw [List.length_append, List.length_singleton] at ended
    omega
  rw [letIn_ofItems, letIn_ofItems]
  apply Concurs.bind_of_ok (.same _)
  intro _ checked
  apply Concurs.bind_of_ok (bindings_concur (.refl_of (Node.concur_ofItems values)) _ _)
  intro scope bound
  have present : (before ++ [last])[before.length]? = some last := by simp
  refine (Argument.Concur.of_self (each last (List.mem_of_getElem? present)
    (comparable.push scope scope) fun name inner => ?_)).expression
  cases held : scope.lookup name with
  | some term => rw [one.lookup?_push_of_mem held, other.lookup?_push_of_mem held]
  | none =>
      rw [one.lookup?_push_of_not_mem held, other.lookup?_push_of_not_mem held]
      refine same name (.item present (fun hidden => ?_) inner)
      obtain ⟨_, _, index, odd, followed, written⟩ := hidden
      have paired : ((Node.ofItems (before ++ [last])).length - 2) % 2 = 0 := by
        unfold Node.expectPairs at checked
        split at checked
        · assumption
        · cases checked
      rw [Node.length_ofItems, List.length_append, List.length_singleton] at paired
      rw [List.length_append, List.length_singleton] at followed
      have reached : before.tail[index - 1]? = some (.string name) := by
        rw [List.getElem?_tail, Nat.sub_add_cancel (by omega)]
        rwa [List.getElem?_append_left (by omega)] at written
      exact bindings_hold bound (by omega) (by rw [List.length_tail]; omega) reached held

end Compiler

/-- A value comes to the same where the free names in it stand for the same. -/
theorem Value.compile_concurs_of_free (value : Value) {one other : Context}
    (comparable : one.Comparable excused other)
    (same : ∀ name, value.Free name → one.lookup? name = other.lookup? name) :
    Concurs excused (value.compile one) (value.compile other) := by
  induction value generalizing one other with
  | array items ih =>
      rw [Value.compile, Value.compile]
      apply Node.compile_concurs comparable rfl rfl
      intro operator named accepted
      by_cases binding : operator = .letIn
      · subst binding
        exact Compiler.letIn_concurs_of_free comparable.deeper ih same named accepted
      · have unbound : items.head? ≠ some (.string "let") := by
          intro headed
          have sameName : (Node.ofItems items).name? = some Operator.letIn.name := by
            rw [Node.name?_ofItems]
            cases items with
            | nil => cases headed
            | cons head rest =>
                cases headed
                rfl
          exact binding (Operator.eq_of_name_eq (Option.some.inj (named.symm.trans sameName)))
        have each : ∀ item ∈ items,
            Concurs excused (item.compile one.deeper) (item.compile other.deeper) := by
          intro item member
          exact ih item member comparable.deeper fun name inner =>
            same name (.of_mem unbound member inner)
        by_cases reading : operator = .var
        · subst reading
          exact Compiler.var_concurs_of_lookup same each named accepted
        · exact Operator.rule_concurs comparable.deeper
            (.refl_of (Node.concur_ofItems each) _ _) ⟨binding, reading⟩
  | _ =>
      rw [Value.compile.eq_def]
      exact .same _

/-! ## The order of names -/

namespace Value

variable {pairs others : List (String × Value)}

/-- Distinct names are found with the same values in every order. -/
theorem lookup_perm (distinct : (pairs.map Prod.fst).Nodup) (perm : pairs.Perm others)
    (name : String) : pairs.lookup name = others.lookup name := by
  have otherDistinct : (others.map Prod.fst).Nodup := (perm.map Prod.fst).nodup distinct
  ext value
  rw [Entries.lookup_eq_some_iff_mem distinct, Entries.lookup_eq_some_iff_mem otherDistinct,
    perm.mem_iff]

end Value

namespace Compiler

variable {context : Context} {pairs others : List (String × Value)}

/-- Names are bound to values if and only if all of the values compile. -/
theorem bindings_isOk_iff {place : Place} {scope : Scope} :
    (∃ result, bindings context place scope (Node.ofItems (Value.pairItems pairs)) = .ok result) ↔
      ∀ pair ∈ pairs, ∃ term, pair.2.argument.expression context = .ok term := by
  induction pairs generalizing place scope with
  | nil =>
      constructor
      · rintro _ pair ⟨⟩
      · intro _
        exact ⟨scope, rfl⟩
  | cons pair rest ih =>
      rw [List.forall_mem_cons]
      constructor
      · rintro ⟨result, bound⟩
        obtain ⟨_, term, _, compiled, later⟩ := bindings_cons bound
        exact ⟨⟨term, compiled⟩, ih.mp ⟨result, later⟩⟩
      · rintro ⟨⟨term, compiled⟩, each⟩
        have first : bindings context place scope (Node.ofItems (Value.pairItems (pair :: rest))) =
            (pair.2.argument.expression context >>= fun term =>
              bindings context (place.next 2) ((pair.1, term) :: scope)
                (Node.ofItems (Value.pairItems rest))) := rfl
        rw [first, compiled]
        exact ih.mpr each

/-- Names bound in two orders stand for the same terms. -/
theorem bindings_perm {place : Place} {result otherResult : Scope}
    (distinct : (pairs.map Prod.fst).Nodup) (perm : pairs.Perm others)
    (bound : bindings context place [] (Node.ofItems (Value.pairItems pairs)) = .ok result)
    (otherBound :
      bindings context place [] (Node.ofItems (Value.pairItems others)) = .ok otherResult)
    (name : String) : result.lookup name = otherResult.lookup name := by
  have otherDistinct : (others.map Prod.fst).Nodup := (perm.map Prod.fst).nodup distinct
  obtain ⟨free, held⟩ := bindings_pairItems distinct bound name
  obtain ⟨otherFree, otherHeld⟩ := bindings_pairItems otherDistinct otherBound name
  rw [← Value.lookup_perm distinct perm] at otherFree otherHeld
  cases found : pairs.lookup name with
  | none => rw [free found, otherFree found]
  | some value =>
      obtain ⟨term, compiled, held⟩ := held value found
      obtain ⟨otherTerm, otherCompiled, otherHeld⟩ := otherHeld value found
      rw [compiled] at otherCompiled
      cases otherCompiled
      rw [held, otherHeld]

/-- A binding compiles if its names are bound and its body compiles in their scope. -/
theorem binding_compile_eq_ok_iff {body : Value} {term : Term} :
    (Value.binding pairs body).compile context = .ok term ↔
      pairs ≠ [] ∧ context.depth < context.options.maxDepth ∧ ∃ scope,
        bindings context.deeper ⟨Operator.letIn.name, 1⟩ []
          (Node.ofItems (Value.pairItems pairs)) = .ok scope ∧
        body.argument.expression (context.deeper.push scope) = .ok term := by
  have length : (Node.ofItems (.string "let" :: Value.pairItems pairs ++ [body])).length =
      2 * pairs.length + 2 := by
    simp [Node.length_ofItems, Value.pairItems, List.length_flatMap, Nat.mul_comm]
  constructor
  · intro compiled
    refine ⟨?_, ?_, binding_eq_ok compiled⟩
    · rintro rfl
      cases compiled
    · rw [Value.binding, Value.compile] at compiled
      exact Node.depth_lt_of_compile compiled
  · rintro ⟨occupied, shallow, scope, bound, inner⟩
    have positive : 0 < pairs.length := List.length_pos_iff.mpr occupied
    have named : (Node.ofItems (.string "let" :: Value.pairItems pairs ++ [body])).name? =
        some Operator.letIn.name := rfl
    rw [Value.binding, Value.compile, Node.compile_eq_rule named ?_ shallow]
    · rw [Operator.rule, letIn_ofItems]
      refine bind_eq_ok.mpr ⟨(), ?_, bind_eq_ok.mpr ⟨scope, bound, inner⟩⟩
      unfold Node.expectPairs
      rw [length, if_pos (by omega)]
      rfl
    · rw [length]
      simp [Operator.arity, Operator.entry, Arity.accepts]
      omega

/-- A binding compiles as it does with its names in another order. -/
theorem binding_perm {body : Value} {term : Term} (distinct : (pairs.map Prod.fst).Nodup)
    (perm : pairs.Perm others) (compiled : (Value.binding pairs body).compile context = .ok term) :
    (Value.binding others body).compile context = .ok term := by
  obtain ⟨occupied, shallow, scope, bound, inner⟩ := binding_compile_eq_ok_iff.mp compiled
  have values := bindings_isOk_iff.mp ⟨scope, bound⟩
  obtain ⟨otherScope, otherBound⟩ := bindings_isOk_iff.mpr
    fun pair member => values pair (perm.mem_iff.mpr member)
  refine binding_compile_eq_ok_iff.mpr ⟨?_, shallow, otherScope, otherBound, ?_⟩
  · rintro rfl
    exact occupied perm.eq_nil
  · rw [← inner]
    have alike : (context.deeper.push otherScope).Alike (context.deeper.push scope) := ⟨rfl, rfl⟩
    refine (Argument.Concur.of_self (body.compile_concurs_of_free
      (alike.comparable (.same rfl rfl)) fun name _ => ?_)).expression.eq_of_none
    have same := bindings_perm distinct perm bound otherBound name
    cases held : scope.lookup name with
    | some bound =>
        rw [context.deeper.lookup?_push_of_mem held,
          context.deeper.lookup?_push_of_mem (same.symm.trans held)]
    | none =>
        rw [context.deeper.lookup?_push_of_not_mem held,
          context.deeper.lookup?_push_of_not_mem (same.symm.trans held)]

end Compiler

/--
Scoping is lexical.  A value comes to the same term or the same failure in contexts with the same
functions, options and depth, as long as they bind its free names alike.  So a binding of distinct
names that compiles comes to the same term with its names in any other order.
-/
theorem scoping_is_lexical :
    (∀ (one other : Context) (value : Value), one.Alike other → one.depth = other.depth →
      (∀ name, value.Free name → one.lookup? name = other.lookup? name) →
        value.compile one = value.compile other) ∧
    ∀ (context : Context) (pairs others : List (String × Value)) (body : Value) (term : Term),
      (pairs.map Prod.fst).Nodup → pairs.Perm others →
        (Value.binding pairs body).compile context = .ok term →
          (Value.binding others body).compile context = .ok term := by
  constructor
  · intro one other value alike depth same
    have limit : one.options.maxDepth = other.options.maxDepth := by rw [alike.options]
    exact (value.compile_concurs_of_free (alike.comparable (.same depth limit)) same).eq_of_none
  · intro context pairs others body term distinct perm compiled
    exact Compiler.binding_perm distinct perm compiled

/-- An outer variable is seen by a value, is hidden in the body, and two names change places. -/
theorem scoping_is_lexical_case :
    (Value.binding [("a", .reading "b")] (.reading "a")).compile
        { scopes := [[("a", .literal .null)], [("b", .property "k")]] } =
      (Value.binding [("a", .reading "b")] (.reading "a")).compile
        { scopes := [[("b", .property "k")]] } ∧
    (Value.binding [("b", .string "y"), ("a", .string "x")] (.reading "a")).compile {} =
      .ok (.literal (.string "x")) := by
  have onlyOuter (name : String)
      (free : (Value.binding [("a", .reading "b")] (.reading "a")).Free name) : name = "b" := by
    rcases free.cases_array with same | ⟨index, item, present, visible, inner⟩
    · exact absurd (congrArg Value.headName? same) (by decide : some "let" ≠ some "var")
    · match index with
      | 0 | 1 =>
          cases present
          cases inner
      | 2 =>
          cases present
          exact inner.of_reading
      | 3 =>
          cases present
          obtain rfl := inner.of_reading
          exact absurd ⟨rfl, rfl, 1, rfl, by decide, rfl⟩ visible
      | index + 4 => cases present
  constructor
  · refine scoping_is_lexical.1 _ _ _ ⟨rfl, rfl⟩ rfl fun name free => ?_
    obtain rfl := onlyOuter name free
    rfl
  · refine scoping_is_lexical.2 {} [("a", .string "x"), ("b", .string "y")] _ _ _ ?_ ?_ rfl
    · decide
    · exact .swap _ _ _

end MapStyle
