import MapStyle.Proofs.Compiler.Folding
import MapStyle.Proofs.Compiler.Inlining

/-!
# Limits are guards

Two limits bound how deep expressions and calls may be nested.  They decide whether there is a
result and not which one: an outcome other than a complaint about the depth stays the same under
every larger limit.  For compilation this needs the first half for evaluation, since constants are
evaluated under a limit that grows with the one on expressions.
-/

namespace MapStyle

def Error.isTooDeep (cause : Error) : Bool := cause.isNestedTooDeep || cause.isCalledTooDeep

/-- A lower limit may refuse what a larger one admits. -/
def Excuses.lowerLimit : Excuses := ⟨fun cause => cause.isTooDeep = true, fun _ => False⟩

/-! ## Evaluation -/

/-- An outcome under a limit is the outcome under a larger one, unless calls are too deep for it. -/
theorem Evaluator.evaluate_agrees_of_le (source : Source) (registry : Registry)
    {limit larger : Nat} (raised : limit ≤ larger) (depth : Nat) (term : Term) :
    Agrees (fun cause => cause.isCalledTooDeep) (evaluate { source, registry, limit } depth term)
      (evaluate { source, registry, limit := larger } depth term) := by
  induction term generalizing depth with
  | literal value => simpa [evaluate] using Agrees.refl _
  | property name => simpa [evaluate] using Agrees.refl _
  | call function arguments ih =>
      unfold evaluate
      dsimp only
      split
      · exact .excuse rfl
      · rename_i within
        rw [if_neg (show ¬ larger ≤ depth by omega)]
        cases registry.find? function with
        | none => exact .refl _
        | some builtin =>
            dsimp only
            rw [evaluateAll_eq_map, evaluateAll_eq_map]
            apply Builtin.call_agrees (.refl _)
            exact forall_map_agrees arguments fun argument member => ih argument member (depth + 1)

/-- An outcome inside some calls is the outcome inside fewer, unless calls are too deep for it. -/
theorem Evaluator.evaluate_agrees_of_shallower (evaluator : Evaluator) {depth deeper : Nat}
    (nested : depth ≤ deeper) (term : Term) :
    Agrees (fun cause => cause.isCalledTooDeep) (evaluator.evaluate deeper term)
      (evaluator.evaluate depth term) := by
  induction term generalizing depth deeper with
  | literal value => simpa [evaluate] using Agrees.refl _
  | property name => simpa [evaluate] using Agrees.refl _
  | call function arguments ih =>
      unfold evaluate
      split
      · exact .excuse rfl
      · rename_i within
        rw [if_neg (show ¬ evaluator.limit ≤ depth by omega)]
        cases evaluator.registry.find? function with
        | none => exact .refl _
        | some builtin =>
            dsimp only
            rw [evaluateAll_eq_map, evaluateAll_eq_map]
            apply Builtin.call_agrees (.refl _)
            exact forall_map_agrees arguments fun argument member =>
              ih argument member (Nat.succ_le_succ nested)

/-- A larger limit on expressions comes with a limit on calls that is no smaller. -/
theorem Options.evaluationDepth_mono {options larger : Options}
    (raised : options.maxDepth ≤ larger.maxDepth) :
    options.evaluationDepth ≤ larger.evaluationDepth := by
  unfold evaluationDepth callsPerLevel
  omega

/-! ## Compilation -/

namespace Context

variable {one other : Context}

/-- What is found to be constant under a limit is found to be so under a larger one. -/
theorem constant?_concurs (registry : one.registry = other.registry)
    (raised : one.options.maxDepth ≤ other.options.maxDepth) (term : Term) :
    Concurs .lowerLimit (one.constant? term) (other.constant? term) := by
  have agrees : Agrees (fun cause => cause.isCalledTooDeep) (one.evaluator.evaluate 0 term)
      (other.evaluator.evaluate 0 term) := by
    unfold evaluator
    rw [registry]
    exact Evaluator.evaluate_agrees_of_le _ _ (Options.evaluationDepth_mono raised) 0 term
  rcases agrees.cases_eq with ⟨cause, failed, deep⟩ | same
  · cases cause with
    | calledTooDeep function limit =>
        rw [constant?_of_error failed]
        exact .left rfl
    | _ => cases deep
  · cases outcome : one.evaluator.evaluate 0 term with
    | ok value =>
        rw [constant?_of_ok outcome, constant?_of_ok (same.symm.trans outcome)]
        exact .same _
    | error cause =>
        rw [constant?_of_error outcome, constant?_of_error (same.symm.trans outcome)]
        exact .same _

/-- Contexts at one depth that differ in the limit are comparable. -/
theorem comparable_of_le (registry : one.registry = other.registry)
    (folds : one.options.foldConstants = other.options.foldConstants)
    (depth : one.depth = other.depth) (raised : one.options.maxDepth ≤ other.options.maxDepth) :
    one.Comparable .lowerLimit other :=
  ⟨registry, folds, constant?_concurs registry raised, .raised (fun _ _ => rfl) depth raised⟩

end Context

/-- A value compiles alike in comparable contexts that bind the names it asks for alike. -/
theorem Value.compile_concurs {excused : Excuses} {one other : Context} {value : Value}
    (comparable : one.Comparable excused other)
    (same : ∀ name, value.mentions name = true → one.lookup? name = other.lookup? name) :
    Concurs excused (value.compile one) (value.compile other) := by
  have concur := (concur_of_lookup comparable same).expression
  unfold Argument.expression at concur
  split at concur
  · exact concur
  · rename_i unnamed
    cases value with
    | array items =>
        rw [Value.compile, Value.compile]
        unfold Node.compile
        have nameless : (Node.ofItems items).name? = none := by
          rw [Node.name?_ofItems]
          simpa [Value.argument] using unnamed
        rw [nameless]
        exact .same _
    | _ =>
        rw [Value.compile.eq_def]
        exact .same _

/-- A document compiles under a limit as it does under a larger one, unless it is too deep. -/
theorem Compiler.compile_concurs_of_le {registry : Registry} {options larger : Options}
    (folds : options.foldConstants = larger.foldConstants)
    (raised : options.maxDepth ≤ larger.maxDepth) (document : Value) :
    Concurs .lowerLimit (compile { options, registry } document)
      (compile { options := larger, registry } document) := by
  cases document with
  | array items =>
      have comparable : Context.Comparable .lowerLimit { registry, options }
          { registry, options := larger } := Context.comparable_of_le rfl folds rfl raised
      have concurs := @Value.compile_concurs _ _ _ (.array items) comparable fun _ _ => rfl
      rw [Value.compile, Value.compile] at concurs
      exact concurs
  | _ => exact .same _

/--
The limits are guards and no more.  An evaluation under a limit that does not fail because calls are
nested too deep has the same outcome under every larger limit; and a compilation under a limit that
does not fail because expressions or calls are nested too deep comes to the same term or the same
failure under every larger one.
-/
theorem limits_are_guards {limit larger : Nat} (raised : limit ≤ larger) (registry : Registry) :
    (∀ (source : Source) (depth : Nat) (term : Term),
      (∀ cause, Evaluator.evaluate { source, registry, limit } depth term = .error cause →
        cause.isCalledTooDeep = false) →
      Evaluator.evaluate { source, registry, limit := larger } depth term =
        Evaluator.evaluate { source, registry, limit } depth term) ∧
    (∀ (foldConstants : Bool) (document : Value),
      (∀ cause,
        Compiler.compile { options := { maxDepth := limit, foldConstants }, registry } document =
          .error cause → cause.isTooDeep = false) →
      Compiler.compile { options := { maxDepth := larger, foldConstants }, registry } document =
        Compiler.compile { options := { maxDepth := limit, foldConstants }, registry }
          document) := by
  constructor
  · intro source depth term shallow
    rcases (Evaluator.evaluate_agrees_of_le source registry raised depth term).cases_eq with
        ⟨cause, failed, deep⟩ | same
    · rw [shallow cause failed] at deep
      cases deep
    · exact same.symm
  · intro foldConstants document shallow
    have concurs := @Compiler.compile_concurs_of_le registry { maxDepth := limit, foldConstants }
      { maxDepth := larger, foldConstants } rfl raised document
    rcases concurs.cases_eq with ⟨cause, failed, deep⟩ | ⟨cause, _, impossible⟩ | same
    · cases (shallow cause failed).symm.trans deep
    · cases impossible
    · exact same.symm

/-- An equality is evaluated, and a text is joined, under just enough and under more. -/
theorem limits_are_guards_case :
    Evaluator.evaluate
        { source := .scope { properties := [("a", .ofNat 2)] } [], registry := {}, limit := 512 } 0
        (Builtin.equalTo.applied [.property "a", .literal (.ofNat 2)]) =
      Evaluator.evaluate
        { source := .scope { properties := [("a", .ofNat 2)] } [], registry := {}, limit := 1 } 0
        (Builtin.equalTo.applied [.property "a", .literal (.ofNat 2)]) ∧
    Compiler.compile { options := { maxDepth := 512, foldConstants := true }, registry := {} }
        (.array [.string "concat", .string "a", .string "b"]) =
      Compiler.compile { options := { maxDepth := 1, foldConstants := true }, registry := {} }
        (.array [.string "concat", .string "a", .string "b"]) := by
  obtain ⟨evaluation, compilation⟩ := limits_are_guards (show 1 ≤ 512 by omega) {}
  constructor
  · apply evaluation
    intro cause failed
    cases failed
  · apply compilation
    intro cause failed
    cases failed

end MapStyle
