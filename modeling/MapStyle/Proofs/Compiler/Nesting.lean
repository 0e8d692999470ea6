import MapStyle.Proofs.Compiler.Depth

/-!
# Levels of nesting and nested calls

A document is nested as deep as expressions stand inside one another in it.  Without a variable
each level adds at most the calls that are counted for one level, whether constants are folded or
not: the operator puts its own calls around the terms of its arguments, and a body is compiled
one level below its binding.  A variable would put the calls of its value in the place of a single
level.
-/

namespace MapStyle

namespace Value

mutual

/-- The greatest number of expressions that stand inside one another. -/
def nesting : Value → Nat
  | .array items =>
      if (Value.array items).operator?.isSome then greatestNesting items + 1 else 0
  | _ => 0

def greatestNesting : List Value → Nat
  | [] => 0
  | item :: rest => max (nesting item) (greatestNesting rest)

end

mutual

/-- Is a variable read in the value, or in an expression inside it? -/
def readsVariable : Value → Bool
  | .array items =>
      (Value.array items).operator? == some .var ||
        (Value.array items).operator?.isSome && someReadsVariable items
  | _ => false

def someReadsVariable : List Value → Bool
  | [] => false
  | item :: rest => readsVariable item || someReadsVariable rest

end

theorem nesting_le_of_mem {items : List Value} {item : Value} (member : item ∈ items) :
    item.nesting ≤ greatestNesting items := by
  induction items with
  | nil => cases member
  | cons head rest ih =>
      rw [greatestNesting]
      cases member with
      | head => exact Nat.le_max_left _ _
      | tail _ member => exact Nat.le_trans (ih member) (Nat.le_max_right _ _)

theorem readsVariable_of_mem {items : List Value} {item : Value} (member : item ∈ items)
    (reads : item.readsVariable = true) : someReadsVariable items = true := by
  induction items with
  | nil => cases member
  | cons head rest ih =>
      rw [someReadsVariable, Bool.or_eq_true]
      cases member with
      | head => exact .inl reads
      | tail _ member => exact .inr (ih member)

section

variable {items : List Value} {operator : Operator}
  (headed : (Value.array items).operator? = some operator)

include headed

/-- An expression is nested one level deeper than its items. -/
theorem nesting_of_operator? : (Value.array items).nesting = greatestNesting items + 1 := by
  rw [nesting, headed]
  rfl

/-- An expression without variables is no variable, and has none in its items. -/
theorem variableless_of_operator? (variableless : (Value.array items).readsVariable = false) :
    operator ≠ .var ∧ ∀ item ∈ items, item.readsVariable = false := by
  rw [readsVariable, headed, Bool.or_eq_false_iff] at variableless
  obtain ⟨other, inner⟩ := variableless
  constructor
  · rintro rfl
    cases other
  · intro item member
    refine Bool.eq_false_iff.mpr fun reads => ?_
    rw [readsVariable_of_mem member reads] at inner
    cases inner

end

/-- The term of a value without variables costs at most the calls of its levels. -/
theorem callDepth_le_nesting {value : Value} (variableless : value.readsVariable = false)
    {context : Context} {term : Term} (compiled : value.compile context = .ok term) :
    term.callDepth ≤ Options.callsPerLevel * value.nesting := by
  induction value generalizing context term with
  | array items ih =>
      obtain ⟨operator, headed, _, ruled⟩ := compile_array_eq_ok compiled
      obtain ⟨reads, inner⟩ := variableless_of_operator? headed variableless
      have shallow (around : Context) : (Node.ofItems items).Shallow around
          (Options.callsPerLevel * greatestNesting items) := by
        rw [Node.ofItems_eq_map_argument]
        intro argument member term compiled
        obtain ⟨item, present, rfl⟩ := List.mem_map.mp member
        have depth := ih item present (inner item present) compiled
        exact Nat.le_trans depth (Nat.mul_le_mul_left _ (nesting_le_of_mem present))
      rw [nesting_of_operator? headed, Nat.mul_succ]
      by_cases binds : operator = .letIn
      · -- The term of a binding is that of its body: what is bound is read nowhere in it.
        subst binds
        obtain ⟨_, scope, body, _, found, last⟩ := Compiler.letIn_eq_ok ruled
        have depth := ((shallow (context.deeper.push scope)).argument found).expression last
        exact Nat.le_add_right_of_le depth
      · exact Operator.rule_callDepth_le binds reads (shallow context.deeper) ruled
  | _ =>
      unfold compile at compiled
      obtain rfl := pure_eq_ok.mp compiled
      simp

end Value

/--
Each level of a document costs at most the calls that are counted for one level.  If a document in
which no variable is read compiles, with folding or without it, calls are nested in its term at
most four times as deep as expressions are in the document.  And no evaluation, wherever it starts,
finds a call nested too deep if the calls of the term fit into what the limit leaves and the source
does not answer so of itself; no feature does.
-/
theorem levels_bound_calls {compiler : Compiler} {document : Value} {term : Term}
    (compiled : compiler.compile document = .ok term)
    (variableless : document.readsVariable = false) :
    term.callDepth ≤ Options.callsPerLevel * document.nesting ∧
      ∀ (evaluator : Evaluator) (depth : Nat),
        (evaluator.source.Confined fun cause => cause.isCalledTooDeep = false) →
          depth + term.callDepth ≤ evaluator.limit → ∀ (function : String) (reached : Nat),
            evaluator.evaluate depth term ≠ .error (.calledTooDeep function reached) := by
  constructor
  · exact Value.callDepth_le_nesting variableless (Compiler.compile_eq_ok compiled)
  · intro evaluator depth known fits function reached failed
    cases evaluator.evaluate_not_tooDeep known fits _ failed

def Value.grey (value : Value) : Value := .array [.string "rgb", value, value, value]

/-- Two greys cost four calls each and the choice between them one; the property costs none. -/
theorem levels_bound_calls_case :
    ∃ term,
      Compiler.compile {} (.grey (.array [.string "coalesce",
          .grey (.array [.string "get", .string "r"])])) = .ok term ∧
        term.callDepth = 9 ∧ term.callDepth ≤ 4 * 4 ∧
        Evaluator.evaluate { source := .scope {} [], limit := 11 } 2 term ≠
          .error (.calledTooDeep "mbToNumber" 11) := by
  refine ⟨_, rfl, by rfl, ?_⟩
  have bounds := @levels_bound_calls {}
    (.grey (.array [.string "coalesce", .grey (.array [.string "get", .string "r"])])) _ rfl
    (by rfl)
  exact ⟨bounds.1, bounds.2 _ 2 (Source.confined_scope {} []) (by decide) _ _⟩

end MapStyle
