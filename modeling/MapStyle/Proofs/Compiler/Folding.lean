import MapStyle.Compiler.Context
import MapStyle.Proofs.Term.Meaning

/-!
# Folding of constants

A term is replaced by a value only if it has that value when nothing is known of the feature.
Such a value stays the value of the term once a feature is known: an evaluation that asks for no
datum cannot tell what the data are.
-/

namespace MapStyle

namespace Context

def LeavesOpen {α : Type} (outcome : Except Error α) : Prop :=
  ∃ datum, outcome = .error (.unresolved datum)

/-- A computation that leaves a datum open does so whatever follows it. -/
theorem LeavesOpen.bind {α β : Type} {outcome : Except Error α} (waits : LeavesOpen outcome)
    (next : α → Except Error β) : LeavesOpen (outcome >>= next) := by
  obtain ⟨datum, rfl⟩ := waits
  exact ⟨datum, rfl⟩

theorem leavesOpen_of_isUnresolved {outcome : Outcome} {cause : Error}
    (failed : outcome = .error cause) (unresolved : cause.isUnresolved = true) :
    LeavesOpen outcome := by
  cases cause with
  | unresolved datum => exact ⟨datum, failed⟩
  | _ => cases unresolved

/-- A term with a value is found to be that value. -/
theorem constant?_of_ok {context : Context} {term : Term} {value : Value}
    (yields : context.evaluator.evaluate 0 term = .ok value) :
    context.constant? term = .ok (some value) := by
  cases term with
  | literal held =>
      rw [Evaluator.evaluate] at yields
      cases yields
      rfl
  | property name =>
      unfold constant?
      dsimp only
      rw [yields]
      rfl
  | call function arguments =>
      unfold constant?
      dsimp only
      rw [yields]
      rfl

/-- A term that fails has to wait, if it fails for want of a datum. -/
theorem constant?_of_error {context : Context} {term : Term} {cause : Error}
    (failed : context.evaluator.evaluate 0 term = .error cause) :
    context.constant? term = if cause.isUnresolved then .ok none else .error cause := by
  cases term with
  | literal held =>
      rw [Evaluator.evaluate] at failed
      cases failed
  | property name =>
      unfold constant?
      dsimp only
      rw [failed]
      rfl
  | call function arguments =>
      unfold constant?
      dsimp only
      rw [failed]
      rfl

/-- What a term is found to be while nothing is known: a value, or one that has to wait. -/
theorem constant?_eq_ok {context : Context} {term : Term} {found : Option Value}
    (decided : context.constant? term = .ok found) :
    (∃ value, found = some value ∧ context.evaluator.evaluate 0 term = .ok value) ∨
      found = none ∧ LeavesOpen (context.evaluator.evaluate 0 term) := by
  cases outcome : context.evaluator.evaluate 0 term with
  | ok value =>
      rw [constant?_of_ok outcome] at decided
      cases decided
      exact .inl ⟨value, rfl, rfl⟩
  | error cause =>
      rw [constant?_of_error outcome] at decided
      split at decided
      · rename_i unresolved
        cases decided
        exact .inr ⟨rfl, leavesOpen_of_isUnresolved rfl unresolved⟩
      · cases decided

theorem constant?_eq_some {context : Context} {term : Term} {value : Value}
    (decided : context.constant? term = .ok (some value)) :
    context.evaluator.evaluate 0 term = .ok value := by
  rcases constant?_eq_ok decided with ⟨found, same, evaluates⟩ | ⟨impossible, _⟩
  · cases same
    exact evaluates
  · cases impossible

/-- A term that is tried is replaced by its constant value or left because it has to wait. -/
theorem tryFold_eq_ok {context : Context} {term result : Term}
    (tried : context.tryFold term = .ok result) :
    (∃ value, result = .literal value ∧ context.evaluator.evaluate 0 term = .ok value ∧
        (term.isLiteral = true ∨ context.options.foldConstants = true)) ∨
      result = term ∧ (context.options.foldConstants = true →
        LeavesOpen (context.evaluator.evaluate 0 term)) := by
  unfold tryFold at tried
  split at tried
  · rename_i skipped
    rw [pure_eq_ok] at tried
    subst tried
    cases term with
    | literal value => exact .inl ⟨value, rfl, by simp [Evaluator.evaluate], .inl rfl⟩
    | property name => exact .inr ⟨rfl, fun folds => by simp [Term.isLiteral, folds] at skipped⟩
    | call function arguments =>
        exact .inr ⟨rfl, fun folds => by simp [Term.isLiteral, folds] at skipped⟩
  · rename_i eager
    obtain ⟨found, decided, replaced⟩ := bind_eq_ok.mp tried
    rcases constant?_eq_ok decided with ⟨value, rfl, evaluates⟩ | ⟨rfl, waits⟩
    · rw [pure_eq_ok] at replaced
      have folds : context.options.foldConstants = true := by
        simp only [Bool.or_eq_true, Bool.not_eq_true', not_or, Bool.not_eq_false] at eager
        exact eager.2
      exact .inl ⟨value, replaced.symm, evaluates, .inr folds⟩
    · rw [pure_eq_ok] at replaced
      exact .inr ⟨replaced.symm, fun _ => waits⟩

/-- Folding leaves a term as it is or tries to replace it. -/
theorem fold_eq_ok {context : Context} {term result : Term}
    (folded : context.fold term = .ok result) :
    result = term ∨ context.tryFold term = .ok result := by
  unfold fold at folded
  split at folded
  · split at folded
    · exact .inr folded
    · rw [pure_eq_ok] at folded
      exact .inl folded.symm
  · rw [pure_eq_ok] at folded
    exact .inl folded.symm

/-- A call is folded to its constant value, or it is left because an argument is not known. -/
theorem fold_applied_eq_ok {context : Context} {builtin : Builtin} {arguments : List Term}
    {result : Term} (folded : context.fold (builtin.applied arguments) = .ok result) :
    (∃ value, result = .literal value ∧
      context.evaluator.evaluate 0 (builtin.applied arguments) = .ok value ∧
      ∀ argument ∈ arguments, argument.isLiteral = true) ∨
    result = builtin.applied arguments ∧ (context.options.foldConstants = true →
      (∃ argument ∈ arguments, argument.isLiteral = false) ∨
        LeavesOpen (context.evaluator.evaluate 0 (builtin.applied arguments))) := by
  unfold fold Builtin.applied at folded
  dsimp only at folded
  split at folded
  · rename_i known
    rcases tryFold_eq_ok folded with ⟨value, replaced, evaluates, _⟩ | ⟨same, waits⟩
    · exact .inl ⟨value, replaced, evaluates, by simpa using known⟩
    · exact .inr ⟨same, fun folds => .inr (waits folds)⟩
  · rename_i unknown
    rw [pure_eq_ok] at folded
    refine .inr ⟨folded.symm, fun _ => .inl ?_⟩
    simpa using unknown

end Context

/-- A value that a term has while nothing is known is its value for every source. -/
theorem Term.meaning_of_constant {context : Context} {term : Term} {value : Value}
    (constant : context.evaluator.evaluate 0 term = .ok value) (source : Source) :
    term.meaning context.registry source = .ok value :=
  (term.meaning_agrees (Source.constants_agrees source) context.registry).ok
    (Evaluator.meaning_of_evaluate constant)

/-- Folding does not change what a term means. -/
theorem Context.meaning_fold {context : Context} {term result : Term}
    (folded : context.fold term = .ok result) (source : Source) :
    result.meaning context.registry source = term.meaning context.registry source := by
  rcases fold_eq_ok folded with rfl | tried
  · rfl
  · rcases tryFold_eq_ok tried with ⟨value, rfl, constant, _⟩ | ⟨rfl, _⟩
    · rw [Term.meaning_literal, Term.meaning_of_constant constant]
    · rfl

/-- A folded call with a value is the answer for the values of its arguments. -/
theorem Context.call_of_fold {context : Context} {source : Source} {builtin : Builtin}
    {arguments : List Term} {term : Term} {value : Value}
    (folded : context.fold (builtin.applied arguments) = .ok term)
    (yields : term.meaning context.registry source = .ok value) :
    builtin.call source (arguments.map (Term.meaning context.registry source)) = .ok value :=
  Term.call_of_meaning ((meaning_fold folded source).symm.trans yields)

/-- A call within the limit answers for the outcomes of its arguments, one level deeper. -/
theorem Evaluator.evaluate_applied {evaluator : Evaluator} (full : evaluator.registry = {})
    {depth : Nat} (within : depth < evaluator.limit) (builtin : Builtin) (arguments : List Term) :
    evaluator.evaluate depth (builtin.applied arguments) =
      builtin.call evaluator.source (arguments.map (evaluator.evaluate (depth + 1))) := by
  unfold Builtin.applied evaluate
  rw [if_neg (Nat.not_le.mpr within), full, Registry.find?_standard, evaluateAll_eq_map]

/-- A limit that admits an expression admits at least four calls inside one another. -/
theorem Options.four_le_evaluationDepth {options : Options} (occupied : 0 < options.maxDepth) :
    4 ≤ options.evaluationDepth := by
  unfold evaluationDepth callsPerLevel greatestLimit
  omega

namespace Context

/-- The evaluator of terms that are compiled in this context, for a source. -/
def evaluatorFor (context : Context) (source : Source) : Evaluator :=
  { source, registry := context.registry, limit := context.options.evaluationDepth }

@[simp] theorem evaluatorFor_deeper (context : Context) (source : Source) :
    context.deeper.evaluatorFor source = context.evaluatorFor source := rfl

/-- A value found for the constants of a context is the value for every source. -/
theorem evaluatorFor_of_constant {context : Context} {term : Term} {value : Value}
    (constant : context.evaluator.evaluate 0 term = .ok value) (source : Source) :
    (context.evaluatorFor source).evaluate 0 term = .ok value :=
  (Evaluator.evaluate_agrees (Source.constants_agrees source) context.registry
    context.options.evaluationDepth 0 term).ok constant

/-- A term that folding is tried on evaluates as it did before. -/
theorem evaluate_tryFold {context : Context} {term result : Term}
    (tried : context.tryFold term = .ok result) (source : Source) :
    (context.evaluatorFor source).evaluate 0 result =
      (context.evaluatorFor source).evaluate 0 term := by
  rcases tryFold_eq_ok tried with ⟨value, rfl, constant, _⟩ | ⟨rfl, _⟩
  · rw [evaluatorFor_of_constant constant, Evaluator.evaluate]
  · rfl

theorem evaluate_fold {context : Context} {term result : Term}
    (folded : context.fold term = .ok result) (source : Source) :
    (context.evaluatorFor source).evaluate 0 result =
      (context.evaluatorFor source).evaluate 0 term := by
  rcases fold_eq_ok folded with rfl | tried
  · rfl
  · exact evaluate_tryFold tried source

/-- A call is folded without complaint if it has a value wherever all its arguments do. -/
theorem fold_applied_isOk {context : Context} {builtin : Builtin} {arguments : List Term}
    (settled : (∀ argument ∈ arguments, argument.isLiteral = true) →
      ∃ value, context.evaluator.evaluate 0 (builtin.applied arguments) = .ok value) :
    ∃ result, context.fold (builtin.applied arguments) = .ok result := by
  unfold fold Builtin.applied
  dsimp only
  split
  · rename_i known
    obtain ⟨value, constant⟩ := settled (by simpa using known)
    unfold tryFold
    split
    · exact ⟨_, rfl⟩
    · rw [← Builtin.applied, constant?_of_ok constant]
      exact ⟨_, rfl⟩
  · exact ⟨_, rfl⟩

end Context

/--
Folding is sound.  An evaluation that does not fail for want of a datum comes to the same for
every feature and environment, at every depth and under every limit; so a term that is replaced
by a value evaluates to that value for each of them.
-/
theorem constant_evaluation_sound (registry : Registry) :
    (∀ (limit depth : Nat) (term : Term) (feature : Feature) (environment : Entries),
      (∀ datum, Evaluator.evaluate { source := .constants, registry, limit } depth term ≠
        .error (.unresolved datum)) →
      Evaluator.evaluate { source := .scope feature environment, registry, limit } depth term =
        Evaluator.evaluate { source := .constants, registry, limit } depth term) ∧
    (∀ (context : Context) (term : Term) (value : Value) (feature : Feature)
        (environment : Entries), context.registry = registry →
      context.fold term = .ok (.literal value) ∨ context.tryFold term = .ok (.literal value) →
      Evaluator.evaluate
        { source := .scope feature environment, registry,
          limit := context.options.evaluationDepth } 0 term = .ok value) := by
  have decided (limit depth : Nat) (term : Term) (feature : Feature) (environment : Entries) :=
    (Evaluator.evaluate_agrees (Source.constants_agrees (.scope feature environment)) registry
      limit depth term).cases_eq
  constructor
  · intro limit depth term feature environment known
    rcases decided limit depth term feature environment with ⟨cause, failed, unresolved⟩ | same
    · obtain ⟨datum, leftOpen⟩ := Context.leavesOpen_of_isUnresolved failed unresolved
      exact absurd leftOpen (known datum)
    · exact same.symm
  · intro context term value feature environment sameRegistry replaced
    have tried : Term.literal value = term ∨ context.tryFold term = .ok (.literal value) := by
      rcases replaced with folded | tried
      · exact Context.fold_eq_ok folded
      · exact .inr tried
    have constant : context.evaluator.evaluate 0 term = .ok value := by
      rcases tried with rfl | tried
      · simp [Evaluator.evaluate]
      · rcases Context.tryFold_eq_ok tried with ⟨found, same, evaluates, _⟩ | ⟨rfl, _⟩
        · cases same
          exact evaluates
        · simp [Evaluator.evaluate]
    subst sameRegistry
    exact (Evaluator.evaluate_agrees (Source.constants_agrees (.scope feature environment))
      context.registry context.options.evaluationDepth 0 term).ok constant

/-- A choice between a known branch and a property is decided before the property is known. -/
theorem constant_evaluation_sound_case :
    Evaluator.evaluate { source := .scope {} [], limit := 2 } 0
        (Builtin.case.applied
          [Builtin.not.applied [.literal (.boolean true)], .property "name",
           .literal (.string "none")]) = .ok (.string "none") ∧
      Evaluator.evaluate { source := .scope {} [], limit := 512 } 0
        (Builtin.concatenate.applied [.literal (.string "a"), .literal (.string "b")]) =
          .ok (.string "ab") := by
  constructor
  · exact (constant_evaluation_sound {}).1 2 0 _ {} [] fun datum impossible => by cases impossible
  · exact (constant_evaluation_sound {}).2 {} _ (.string "ab") {} [] rfl (.inl rfl)

end MapStyle
