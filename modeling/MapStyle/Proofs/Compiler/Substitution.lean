import MapStyle.Proofs.Compiler.Concurrence

/-!
# Variables and what is put in their place

Which names a value asks for, and what becomes of it when terms are put in the place of names.
-/

namespace MapStyle

/-!
## Names and their bindings

What the name of a variable stands for is decided where it is read, by the innermost binding around
that place.  A binding binds the names that are written in it, for its body only.
-/

namespace Value

def reading (name : String) : Value := .array [.string "var", .string name]

def variableName? : Value → Option String
  | .array [.string "var", .string name] => some name
  | _ => none

def boundNames : List Value → List String
  | .string name :: _ :: rest => name :: boundNames rest
  | _ => []

theorem variableName?_eq_some {value : Value} {name : String}
    (named : value.variableName? = some name) : value = reading name := by
  unfold variableName? at named
  split at named
  · cases named
    rfl
  · cases named

theorem variableName?_reading (name : String) : (reading name).variableName? = some name := rfl

end Value

/-- The names that an operator binds inside its argument at a position. -/
def Operator.binds (operator : Operator) (items : List Value) (position : Nat) : List String :=
  match operator with
  | .letIn => if position + 1 = items.length then Value.boundNames items.dropLast.tail else []
  | _ => []

theorem Operator.binds_of_ne {operator : Operator} (plain : operator ≠ .letIn)
    (items : List Value) (position : Nat) : operator.binds items position = [] := by
  cases operator with
  | letIn => exact absurd rfl plain
  | _ => rfl

/-- A binding binds its names for its body only. -/
theorem Operator.letIn_binds_of_lt {items : List Value} {position : Nat}
    (before : position < items.length) (last : Value) :
    letIn.binds (items ++ [last]) position = [] := by
  refine if_neg ?_
  rw [List.length_append, List.length_singleton]
  omega

namespace Compiler

/-- A variable comes to what its name is bound to, at any depth that is allowed. -/
theorem compile_reading (name : String) (context : Context) :
    (Value.reading name).compile context =
      if context.options.maxDepth ≤ context.depth then
        throw (.nestedTooDeep Operator.var.name context.options.maxDepth)
      else
        match context.lookup? name with
        | some term => return term
        | none => throw (.unboundVariable name) := by
  rfl

/-- A variable that is not named by a string is refused at every place. -/
theorem var_concurs_of_unnamed {excused : Excuses} {one other : Context} {ones others : Node}
    (follows : Node.Follows (Argument.Concur excused one other)
      (Operator.var.readsWritten others.length) 0 ones others)
    (unnamed : ∀ argument, others[1]? = some argument → argument.raw.toText? = none) :
    Concurs excused (var ones one) (var others other) := by
  apply argument_bind_concurs follows
  intro argument otherArgument found otherFound
  unfold variableName
  rw [follows.raw_at rfl found otherFound, unnamed otherArgument otherFound]
  exact .same _

/-- A binding with the given last item: its values are bound, then that item is compiled. -/
theorem letIn_ofItems (items : List Value) (last : Value) (context : Context) :
    letIn (Node.ofItems (items ++ [last])) context = (do
      (Node.ofItems (items ++ [last])).expectPairs Operator.letIn.name 1
      let scope ← bindings context ⟨Operator.letIn.name, 1⟩ [] (Node.ofItems items.tail)
      last.argument.expression (context.push scope)) := by
  have reached : (Node.ofItems (items ++ [last])).argument
      ⟨Operator.letIn.name, (Node.ofItems (items ++ [last])).length - 1⟩ = .ok last.argument := by
    simp [Node.argument, Node.ofItems_eq_map_argument]
  unfold letIn
  rw [Node.ofItems_inner, List.dropLast_concat, List.drop_one]
  dsimp only
  rw [reached]
  rfl

theorem variableName_eq_ok {value : Value} {place : Place} {name : String}
    (written : variableName value.argument place = .ok name) : value = .string name := by
  unfold variableName at written
  split at written
  · rename_i content found
    obtain rfl := pure_eq_ok.mp written
    cases value with
    | string content =>
        cases found
        rfl
    | _ => cases found
  · cases written

/-- The names in the scope of a binding are those that are written in it. -/
theorem bindings_lookup {items : List Value} {context : Context} {place : Place}
    {scope result : Scope} (bound : bindings context place scope (Node.ofItems items) = .ok result)
    (name : String) :
    result.lookup name = none ↔ name ∉ Value.boundNames items ∧ scope.lookup name = none := by
  induction items using List.twoStepInduction generalizing place scope with
  | nil =>
      obtain rfl := pure_eq_ok.mp bound
      simp [Value.boundNames]
  | singleton item =>
      obtain rfl := pure_eq_ok.mp bound
      simp [Value.boundNames]
  | cons_cons first value rest ih _ =>
      rw [Node.ofItems, Node.ofItems] at bound
      obtain ⟨head, term, written, _, later⟩ := bindings_cons bound
      obtain rfl := variableName_eq_ok written
      rw [ih later, List.lookup_cons, Value.boundNames]
      cases same : name == head with
      | true => simp [beq_iff_eq.mp same]
      | false => simp [beq_eq_false_iff_ne.mp same]

end Compiler

/-!
## Values in place of variables

Values can be written into a document in place of variables.  This is done wherever an argument
is compiled and the name of the variable is not bound anew; names, labels, stops and curves are
left as they are written, and so are arrays and objects that stand for themselves.  The document
then comes to the term that it came to before, as long as each value comes to the term that its
variable was bound to.
-/

abbrev Replacement := String → Option Value

/-- Names that are bound anew are not replaced. -/
def Replacement.without (replacement : Replacement) (names : List String) : Replacement :=
  fun name => if name ∈ names then none else replacement name

theorem Replacement.without_nil (replacement : Replacement) :
    replacement.without [] = replacement := by
  funext name
  simp [without]

mutual

/-- The value with others written in place of its variables. -/
def Value.substitute (replacement : Replacement) : Value → Value
  | .array items =>
      match (Value.array items).variableName? with
      | some name => (replacement name).getD (.array items)
      | none =>
          match (Value.array items).operator? with
          | some operator => .array (operator.substituteItems replacement items 0 items)
          | none => .array items
  | value => value

def Operator.substituteItems (replacement : Replacement) (operator : Operator)
    (whole : List Value) : Nat → List Value → List Value
  | _, [] => []
  | position, item :: rest =>
      (if operator.readsWritten whole.length position then item
        else item.substitute (replacement.without (operator.binds whole position))) ::
        Operator.substituteItems replacement operator whole (position + 1) rest

end

mutual

/-- Does the value ask what a name is bound to around it? -/
def Value.mentions (name : String) : Value → Bool
  | .array items =>
      match (Value.array items).variableName? with
      | some other => other == name
      | none =>
          match (Value.array items).operator? with
          | some operator => operator.itemsMention name items 0 items
          | none => false
  | _ => false

def Operator.itemsMention (name : String) (operator : Operator) (whole : List Value) :
    Nat → List Value → Bool
  | _, [] => false
  | position, item :: rest =>
      (!operator.readsWritten whole.length position &&
        !(operator.binds whole position).contains name && item.mentions name) ||
        Operator.itemsMention name operator whole (position + 1) rest

end

namespace Operator

variable {replacement : Replacement} {operator : Operator} {whole items : List Value}
  {position : Nat}

theorem length_substituteItems :
    (operator.substituteItems replacement whole position items).length = items.length := by
  induction items generalizing position with
  | nil => simp [substituteItems]
  | cons item rest ih => simp [substituteItems, ih]

/-- The last item of an expression is replaced like those before it. -/
theorem substituteItems_concat (last : Value) :
    operator.substituteItems replacement whole position (items ++ [last]) =
      operator.substituteItems replacement whole position items ++
        operator.substituteItems replacement whole (position + items.length) [last] := by
  induction items generalizing position with
  | nil => simp [substituteItems]
  | cons item rest ih =>
      have later := @ih (position + 1)
      rw [Nat.add_assoc, Nat.add_comm 1] at later
      simp [substituteItems, later]

theorem itemsMention_of_getElem? {name : String} {index : Nat} {item : Value}
    (present : items[index]? = some item)
    (reached : operator.readsWritten whole.length (position + index) = false)
    (free : name ∉ operator.binds whole (position + index)) (mentioned : item.mentions name = true) :
    operator.itemsMention name whole position items = true := by
  induction items generalizing position index with
  | nil => simp at present
  | cons head rest ih =>
      rw [itemsMention, Bool.or_eq_true]
      cases index with
      | zero =>
          obtain rfl := Option.some.inj present
          rw [Nat.add_zero] at reached free
          exact .inl (by simp [reached, free, mentioned])
      | succ index =>
          rw [← Nat.add_assoc, Nat.add_right_comm] at reached free
          exact .inr (ih present reached free)

end Operator

namespace Value

variable {replacement : Replacement} {value : Value} {items : List Value} {operator : Operator}

theorem substitute_reading (name : String) :
    (reading name).substitute replacement = (replacement name).getD (reading name) := by
  have named := variableName?_reading name
  unfold reading at named ⊢
  rw [substitute, named]

theorem mentions_reading (name : String) : (reading name).mentions name = true := by
  have named := variableName?_reading name
  unfold reading at named ⊢
  rw [mentions, named]
  exact beq_self_eq_true name

/-- A value that is no expression stands for itself, and nothing is replaced in it. -/
theorem substitute_of_plain (unnamed : value.variableName? = none)
    (plain : value.operator? = none) : value.substitute replacement = value := by
  cases value with
  | array items => simp [substitute, unnamed, plain]
  | _ => simp [substitute]

theorem substitute_of_operator? (unnamed : (array items).variableName? = none)
    (headed : (array items).operator? = some operator) :
    (array items).substitute replacement =
      .array (operator.substituteItems replacement items 0 items) := by
  rw [substitute, unnamed, headed]

theorem mentions_of_operator? {name : String} (unnamed : (array items).variableName? = none)
    (headed : (array items).operator? = some operator) :
    (array items).mentions name = operator.itemsMention name items 0 items := by
  rw [mentions, unnamed, headed]

/-- The operator of an expression stays at its head. -/
theorem headName?_substituteItems (headed : (array items).operator? = some operator) :
    (array (operator.substituteItems replacement items 0 items)).headName? =
      (array items).headName? := by
  obtain ⟨rest, same⟩ := operator?_eq_some headed
  cases same
  have head (inner : Replacement) :
      (string operator.name).substitute inner = .string operator.name := by
    simp [substitute]
  rw [Operator.substituteItems, head, ite_self]
  rfl

end Value

variable {excused : Excuses} {one other : Context}

namespace Argument.Concur

/-- Expressions of one operator concur in every way if they do when they are compiled. -/
theorem of_compile {value otherValue : Value} {operator : Operator}
    (headed : value.operator? = some operator) (otherHeaded : otherValue.operator? = some operator)
    (concurs : Concurs excused (value.compile one) (otherValue.compile other)) :
    Concur excused one other value.argument otherValue.argument := by
  have reached {value : Value} (headed : value.operator? = some operator) (context : Context) :
      value.argument.expression context = value.compile context ∧
        value.argument.valueOrExpression context = value.compile context := by
    obtain ⟨rest, rfl⟩ := Value.operator?_eq_some headed
    refine ⟨rfl, if_pos ?_⟩
    unfold Value.isExpression
    exact Option.isSome_iff_exists.mpr ⟨operator, headed⟩
  constructor
  · rw [(reached headed one).1, (reached otherHeaded other).1]
    exact concurs
  · rw [(reached headed one).2, (reached otherHeaded other).2]
    exact concurs

/-- A value that is no expression comes to itself, or to one failure, at every place. -/
theorem of_plain {value : Value} (comparable : one.Comparable excused other)
    (plain : value.operator? = none) : Concur excused one other value.argument value.argument := by
  constructor
  · unfold Argument.expression
    split
    · rename_i headed
      cases value with
      | array items =>
          apply Node.compile_concurs comparable rfl rfl
          intro operator named _
          rw [Value.operator?_of_name? named] at plain
          cases plain
      | _ => cases headed
    · exact .same _
  · unfold Argument.valueOrExpression
    have literal : value.isExpression = false := congrArg Option.isSome plain
    rw [if_neg (by simpa [Value.argument] using literal),
      if_neg (by simpa [Value.argument] using literal)]
    exact .same _

end Argument.Concur

/-- A value that comes to a term wherever it is written, unless for an excused cause. -/
structure Value.Inlines (excused : Excuses) (place : Context) (value : Value) (term : Term) :
    Prop where
  expression : ∀ context : Context, context.Alike place →
    Concurs excused (value.argument.expression context) (.ok term)
  valueOrExpression : ∀ context : Context, context.Alike place →
    Concurs excused (value.argument.valueOrExpression context) (.ok term)

theorem Value.Inlines.move {value : Value} {term : Term} (inlines : value.Inlines excused one term)
    (alike : other.Alike one) : value.Inlines excused other term :=
  ⟨fun context near => inlines.expression context (near.trans alike),
    fun context near => inlines.valueOrExpression context (near.trans alike)⟩

/-- What a name stands for at two places, if it may be replaced at the first. -/
inductive Stands (excused : Excuses) (replacement : Replacement) (one other : Context)
    (name : String) : Prop where
  | kept (kept : replacement name = none) (same : one.lookup? name = other.lookup? name)
  | replaced {value : Value} {term : Term} (found : replacement name = some value)
      (bound : other.lookup? name = some term)
      (deep : ∀ operator limit, excused.other (.nestedTooDeep operator limit))
      (alike : one.Alike other) (inlines : value.Inlines excused other term)

namespace Stands

variable {replacement : Replacement} {name : String}

theorem deeper (stands : Stands excused replacement one other name) :
    Stands excused replacement one.deeper other.deeper name := by
  cases stands with
  | kept kept same => exact .kept kept same
  | replaced found bound deep alike inlines =>
      exact .replaced found bound deep alike.deeper (inlines.move ⟨rfl, rfl⟩)

/-- Inside one scope, a name stands for what it does outside if the scope does not bind it. -/
theorem push {scope : Scope} {names : List String}
    (binds : scope.lookup name = none ↔ name ∉ names)
    (outside : name ∉ names → Stands excused replacement one other name) :
    Stands excused (replacement.without names) (one.push scope) (other.push scope) name := by
  by_cases member : name ∈ names
  · obtain ⟨term, held⟩ := Option.ne_none_iff_exists'.mp fun free => binds.mp free member
    apply kept
    · exact if_pos member
    · rw [one.lookup?_push_of_mem held, other.lookup?_push_of_mem held]
  · have free := binds.mpr member
    have same : replacement.without names name = replacement name := if_neg member
    cases outside member with
    | kept kept agree =>
        refine .kept (same.trans kept) ?_
        rwa [one.lookup?_push_of_not_mem free, other.lookup?_push_of_not_mem free]
    | replaced found bound deep alike inlines =>
        refine .replaced (same.trans found) ?_ deep (alike.push _ _) (inlines.move ⟨rfl, rfl⟩)
        rwa [other.lookup?_push_of_not_mem free]

/-- A variable comes to what its name stands for. -/
theorem concur (comparable : one.Comparable excused other)
    (stands : Stands excused replacement one other name) :
    Argument.Concur excused one other ((Value.reading name).substitute replacement).argument
      (Value.reading name).argument := by
  rw [Value.substitute_reading]
  cases stands with
  | kept kept same =>
      rw [kept]
      apply Argument.Concur.of_compile rfl rfl
      rw [Option.getD_none, Compiler.compile_reading, Compiler.compile_reading, same]
      exact comparable.checks.nested _ (.same _)
  | @replaced value term found bound deep alike inlines =>
      rw [found]
      have within (inner : Except Error Term) (concurs : Concurs excused inner (.ok term)) :
          Concurs excused inner ((Value.reading name).compile other) := by
        rw [Compiler.compile_reading, bound]
        split
        · exact .right (deep _ _)
        · exact concurs
      exact ⟨within _ (inlines.expression one alike),
        within _ (inlines.valueOrExpression one alike)⟩

end Stands

/-- Variables replaced in the items of an expression, which then concur one by one. -/
theorem Node.follows_substituteItems {replacement : Replacement} {operator : Operator}
    {whole items : List Value} {position : Nat}
    (tracks : ∀ index item, items[index]? = some item →
      operator.readsWritten whole.length (position + index) = false →
        Argument.Concur excused one other
          (item.substitute
            (replacement.without (operator.binds whole (position + index)))).argument
          item.argument) :
    Node.Follows (Argument.Concur excused one other) (operator.readsWritten whole.length) position
      (Node.ofItems (operator.substituteItems replacement whole position items))
      (Node.ofItems items) := by
  induction items generalizing position with
  | nil =>
      rw [Operator.substituteItems, Node.ofItems]
      exact .nil _
  | cons item rest ih =>
      have later := @ih (position + 1) fun index other present => by
        have tracked := tracks (index + 1) other present
        rwa [← Nat.add_assoc, Nat.add_right_comm] at tracked
      rw [Operator.substituteItems, Node.ofItems, Node.ofItems]
      cases skipped : operator.readsWritten whole.length position with
      | true => exact .written skipped rfl later
      | false => exact .compiled skipped (tracks 0 item rfl skipped) later

namespace Compiler

/-- What stands between the operator of a binding and its body is replaced pair by pair. -/
theorem alternates_bindings {replacement : Replacement} {items : List Value} {last : Value}
    (occupied : 0 < items.length) (paired : (items.length - 1) % 2 = 0)
    (tracks : ∀ (index : Nat) (item : Value), items[index]? = some item →
      Operator.letIn.readsWritten (items ++ [last]).length index = false →
        Argument.Concur excused one other (item.substitute replacement).argument item.argument) :
    Node.Alternates (Argument.Concur excused one other)
      (Node.ofItems (Operator.letIn.substituteItems replacement (items ++ [last]) 0 items).tail)
      (Node.ofItems items.tail) := by
  have follows := @Node.follows_substituteItems excused one other replacement .letIn
    (items ++ [last]) items 0 fun index item present reached => by
      rw [Nat.zero_add] at reached ⊢
      rw [Operator.letIn_binds_of_lt (List.getElem?_eq_some_iff.mp present).1 last,
        Replacement.without_nil]
      exact tracks index item present reached
  have shorter (position : Nat) : Operator.letIn.readsWritten (items ++ [last]).length position =
      Operator.alternates 1 items.length position := by
    unfold Operator.readsWritten Operator.alternates
    rw [List.length_append, List.length_singleton, Bool.eq_iff_iff]
    simp only [Bool.and_eq_true, decide_eq_true_eq, beq_iff_eq]
    omega
  have alternates := (follows.tail.congr fun position _ => shorter position).alternates
    (by omega) (by omega) (by rw [List.length_tail, Node.length_ofItems]; omega)
  simpa only [Node.ofItems_eq_map_argument, List.map_tail] using alternates

/-- A binding concurs with itself where its values do, and its body inside each scope of them. -/
theorem letIn_concurs {replacement : Replacement} {items : List Value} {last : Value}
    (occupied : 0 < items.length)
    (tracks : ∀ (index : Nat) (item : Value), items[index]? = some item →
      Operator.letIn.readsWritten (items ++ [last]).length index = false →
        Argument.Concur excused one other (item.substitute replacement).argument item.argument)
    (body : ∀ scope : Scope,
      (∀ name, scope.lookup name = none ↔ name ∉ Value.boundNames items.tail) →
        Argument.Concur excused (one.push scope) (other.push scope)
          (last.substitute (replacement.without (Value.boundNames items.tail))).argument
          last.argument) :
    Concurs excused
      (letIn (Node.ofItems
        (Operator.letIn.substituteItems replacement (items ++ [last]) 0 (items ++ [last]))) one)
      (letIn (Node.ofItems (items ++ [last])) other) := by
  have ended : Operator.letIn.substituteItems replacement (items ++ [last]) (0 + items.length)
      [last] = [last.substitute (replacement.without (Value.boundNames items.tail))] := by
    simp [Operator.substituteItems, Operator.readsWritten, Operator.alternates, Operator.binds]
  rw [Operator.substituteItems_concat, ended, letIn_ofItems, letIn_ofItems]
  unfold Node.expectPairs
  simp only [Node.length_ofItems, List.length_append, List.length_singleton,
    Operator.length_substituteItems]
  apply Concurs.bind_of_ok (.same _)
  intro _ checked
  split at checked
  · rename_i paired
    apply Concurs.bind_of_ok
      (bindings_concur (alternates_bindings occupied (by omega) tracks) _ [])
    intro scope bound
    exact (body scope fun name => by simpa using bindings_lookup bound name).expression
  · cases checked

end Compiler

/-- A value whose variables may be replaced by what comes to the terms they are bound to. -/
def Value.Substitutes (excused : Excuses) (value : Value) : Prop :=
  ∀ (replacement : Replacement) (one other : Context), one.Comparable excused other →
    (∀ name, value.mentions name = true → Stands excused replacement one other name) →
      Argument.Concur excused one other (value.substitute replacement).argument value.argument

namespace Operator

variable {replacement : Replacement} {operator : Operator} {items : List Value}

/-- Where a compiled item may ask for a name, the name stands for what the expression asks for. -/
theorem stands_of_getElem? (stands : ∀ name, operator.itemsMention name items 0 items = true →
      Stands excused replacement one other name)
    {index : Nat} {item : Value} (present : items[index]? = some item)
    (reached : operator.readsWritten items.length index = false) {name : String}
    (mentioned : item.mentions name = true) (free : name ∉ operator.binds items index) :
    Stands excused replacement one other name :=
  stands name (itemsMention_of_getElem? present (by rwa [Nat.zero_add]) (by rwa [Nat.zero_add])
    mentioned)

/-- Operators that bind no names have their arguments replaced in one and the same way. -/
theorem follows_of_unbound (each : ∀ item ∈ items, item.Substitutes excused)
    (comparable : one.Comparable excused other) (plain : operator ≠ .letIn)
    (stands : ∀ name, operator.itemsMention name items 0 items = true →
      Stands excused replacement one other name) :
    Node.Follows (Argument.Concur excused one other)
      (operator.readsWritten (Node.ofItems items).length) 0
      (Node.ofItems (operator.substituteItems replacement items 0 items)) (Node.ofItems items) := by
  rw [Node.length_ofItems]
  apply Node.follows_substituteItems
  intro index item present reached
  rw [Nat.zero_add] at reached
  have unbound := operator.binds_of_ne plain items index
  rw [Nat.zero_add, unbound, Replacement.without_nil]
  refine each item (List.mem_of_getElem? present) replacement one other comparable ?_
  intro name mentioned
  exact stands_of_getElem? stands present reached mentioned (by simp [unbound])

/-- A binding has the values in it replaced as they are, and its body where names are not hidden. -/
theorem letIn_substitute_concurs (each : ∀ item ∈ items, item.Substitutes excused)
    (comparable : one.Comparable excused other) (long : 1 < items.length)
    (stands : ∀ name, letIn.itemsMention name items 0 items = true →
      Stands excused replacement one other name) :
    Concurs excused
      (Compiler.letIn (Node.ofItems (letIn.substituteItems replacement items 0 items)) one)
      (Compiler.letIn (Node.ofItems items) other) := by
  rcases List.eq_nil_or_concat items with rfl | ⟨before, last, rfl⟩
  · cases long
  rw [List.concat_eq_append] at *
  have occupied : 0 < before.length := by
    rw [List.length_append, List.length_singleton] at long
    omega
  apply Compiler.letIn_concurs occupied
  · intro index item present reached
    have within := (List.getElem?_eq_some_iff.mp present).1
    have present : (before ++ [last])[index]? = some item := by
      rwa [List.getElem?_append_left within]
    refine each item (List.mem_of_getElem? present) replacement one other comparable ?_
    intro name mentioned
    refine stands_of_getElem? stands present reached mentioned ?_
    simp [letIn_binds_of_lt within last]
  · intro scope lookups
    have present : (before ++ [last])[before.length]? = some last := by simp
    refine each last (List.mem_of_getElem? present) _ _ _ (comparable.push scope scope) ?_
    intro name mentioned
    refine .push (lookups name) fun free => stands_of_getElem? stands present ?_ mentioned ?_
    · simp [readsWritten, alternates]
    · simpa [binds] using free

/-- The rule of an operator comes to one term whether variables are replaced or bound. -/
theorem rule_substitute_concurs (each : ∀ item ∈ items, item.Substitutes excused)
    (comparable : one.Comparable excused other)
    (unnamed : (Value.array items).variableName? = none)
    (headed : (Value.array items).operator? = some operator)
    (accepted : operator.arity.accepts ((Node.ofItems items).length - 1) = true)
    (stands : ∀ name, operator.itemsMention name items 0 items = true →
      Stands excused replacement one other name) :
    Concurs excused
      (operator.rule (Node.ofItems (operator.substituteItems replacement items 0 items)) one)
      (operator.rule (Node.ofItems items) other) := by
  by_cases binding : operator = .letIn
  · subst binding
    have long : 3 ≤ (Node.ofItems items).length - 1 := by
      simpa [Operator.arity, Operator.entry, Arity.accepts] using accepted
    rw [Node.length_ofItems] at long
    exact letIn_substitute_concurs each comparable (by omega) stands
  have follows := follows_of_unbound each comparable binding stands
  by_cases reading : operator = .var
  · subst reading
    apply Compiler.var_concurs_of_unnamed follows
    intro argument found
    have single : (Node.ofItems items).length - 1 = 1 := by
      simpa [Operator.arity, Operator.entry, Arity.accepts] using accepted
    rw [Node.length_ofItems] at single
    obtain ⟨head, name, rfl⟩ := List.length_eq_two.mp (show items.length = 2 by omega)
    obtain ⟨rest, same⟩ := Value.operator?_eq_some headed
    cases same
    cases found
    cases name with
    | string content =>
        cases (Value.variableName?_reading content).symm.trans unnamed
    | _ => rfl
  · exact rule_concurs comparable follows ⟨binding, reading⟩

end Operator

/-- Variables that are replaced come to what they stand for, and so do expressions with them. -/
theorem Value.substitutes (value : Value) : value.Substitutes excused := by
  induction value with
  | array items ih =>
      intro replacement one other comparable stands
      cases named : (array items).variableName? with
      | some name =>
          rw [variableName?_eq_some named] at stands ⊢
          exact (stands name (mentions_reading name)).concur comparable
      | none =>
          cases headed : (array items).operator? with
          | none =>
              rw [substitute_of_plain named headed]
              exact .of_plain comparable headed
          | some operator =>
              rw [substitute_of_operator? named headed]
              have heads : (array (operator.substituteItems replacement items 0 items)).headName? =
                  (array items).headName? := headName?_substituteItems headed
              refine .of_compile (by rwa [operator?, heads]) headed ?_
              rw [Value.compile, Value.compile]
              apply Node.compile_concurs comparable
              · rw [Node.name?_ofItems, Node.name?_ofItems, heads]
              · rw [Node.length_ofItems, Node.length_ofItems, Operator.length_substituteItems]
              · intro found sameName accepted
                obtain rfl : operator = found := by
                  rw [operator?_of_name? sameName] at headed
                  exact (Option.some.inj headed).symm
                apply Operator.rule_substitute_concurs ih comparable.deeper named headed accepted
                intro name mentioned
                exact (stands name ((mentions_of_operator? named headed).trans mentioned)).deeper
  | _ =>
      intro replacement one other comparable stands
      rw [substitute_of_plain rfl rfl]
      exact .of_plain comparable rfl

end MapStyle
