import MapStyle.Compiler.Context
import MapStyle.Proofs.Builtin.Call
import MapStyle.Term.Evaluation

/-!
# Meanings of terms

The meaning of a term is its outcome when calls may be nested without limit.  An evaluation under
a limit comes to the meaning unless it fails for being too deep, so statements about evaluation
can be proved of meanings, where no depth is counted.  Meanings for two sources agree when the
sources do; in particular the source that knows nothing yet agrees with every other one, up to
the data that it leaves open.
-/

namespace MapStyle

def Error.isCalledTooDeep : Error → Bool
  | .calledTooDeep _ _ => true
  | _ => false

namespace Term

/-- Terms are proved about by their form, calls from what is known of each argument. -/
@[elab_as_elim, induction_eliminator]
theorem inductionOn {holds : Term → Prop} (literal : ∀ value, holds (.literal value))
    (property : ∀ name, holds (.property name))
    (call : ∀ function arguments, (∀ argument ∈ arguments, holds argument) →
      holds (.call function arguments))
    (term : Term) : holds term := by
  apply @Term.rec holds fun arguments => ∀ argument ∈ arguments, holds argument
  · exact literal
  · exact property
  · exact call
  · intro argument impossible
    cases impossible
  · intro head tail first rest argument member
    cases member with
    | head => exact first
    | tail _ member => exact rest argument member

mutual

/-- The outcome of a term when calls may be nested without limit. -/
def meaning (registry : Registry) (source : Source) : Term → Outcome
  | .literal value => .ok value
  | .property name => (source.property name).map (·.getD .null)
  | .call function arguments =>
      match registry.find? function with
      | none => .error (.unknownFunction function)
      | some builtin => builtin.call source (meanings registry source arguments)

def meanings (registry : Registry) (source : Source) : List Term → List Outcome
  | [] => []
  | term :: rest => meaning registry source term :: meanings registry source rest

end

theorem meanings_eq_map (registry : Registry) (source : Source) (terms : List Term) :
    meanings registry source terms = terms.map (meaning registry source) := by
  induction terms with
  | nil => simp [meanings]
  | cons term rest ih => simp [meanings, ih]

@[simp] theorem meaning_literal (registry : Registry) (source : Source) (value : Value) :
    (Term.literal value).meaning registry source = .ok value := by
  simp [meaning]

/-- The meaning of a call of a registered function is the call on the meanings of its arguments. -/
theorem meaning_applied_of_registered {registry : Registry} {builtin : Builtin}
    (registered : registry.find? builtin.name = some builtin) (source : Source)
    (arguments : List Term) :
    (builtin.applied arguments).meaning registry source =
      builtin.call source (arguments.map (Term.meaning registry source)) := by
  unfold meaning Builtin.applied
  dsimp only
  rw [registered, meanings_eq_map]

/-- With all functions, the meaning of a call is the call on the meanings of its arguments. -/
theorem meaning_applied (source : Source) (builtin : Builtin) (arguments : List Term) :
    (builtin.applied arguments).meaning {} source =
      builtin.call source (arguments.map (Term.meaning {} source)) :=
  meaning_applied_of_registered (Registry.find?_standard builtin) source arguments

/-- A call with a value is answered by its own function, which no registry replaces. -/
theorem call_of_meaning {registry : Registry} {source : Source} {builtin : Builtin}
    {arguments : List Term} {value : Value}
    (yields : (builtin.applied arguments).meaning registry source = .ok value) :
    builtin.call source (arguments.map (Term.meaning registry source)) = .ok value := by
  cases found : registry.find? builtin.name with
  | none =>
      unfold meaning Builtin.applied at yields
      dsimp only at yields
      rw [found] at yields
      cases yields
  | some other =>
      obtain rfl := Registry.eq_of_find?_name found
      rwa [meaning_applied_of_registered found] at yields

/-- A call with an accepted number of arguments means what the rule of its function answers. -/
theorem meaning_of_registered_rule {registry : Registry} {source : Source} {builtin : Builtin}
    {arguments : List Term} {outcome : Outcome}
    (registered : registry.find? builtin.name = some builtin)
    (accepted : builtin.arity.accepts arguments.length = true)
    (applies : (builtin.rule source).answer? (arguments.map (meaning registry source)) =
      some outcome) : (builtin.applied arguments).meaning registry source = outcome := by
  rw [meaning_applied_of_registered registered]
  apply Builtin.call_eq_of_rule _ applies
  rw [List.length_map]
  exact accepted

theorem meaning_of_rule {source : Source} {builtin : Builtin} {arguments : List Term}
    {outcome : Outcome} (accepted : builtin.arity.accepts arguments.length = true)
    (applies : (builtin.rule source).answer? (arguments.map (meaning {} source)) = some outcome) :
    (builtin.applied arguments).meaning {} source = outcome :=
  meaning_of_registered_rule (Registry.find?_standard builtin) accepted applies

/-- With all functions, the class of a call is the one that its function declares. -/
theorem kind?_applied (builtin : Builtin) (arguments : List Term) :
    (builtin.applied arguments).kind? {} = builtin.returns := by
  unfold kind? Builtin.applied
  dsimp only
  rw [Registry.find?_standard]
  rfl

end Term

/-- Lists that are computed from one list agree if they do on each of its items. -/
theorem forall_map_agrees {α : Type} {excused : Error → Prop} {one other : α → Outcome}
    (items : List α) (agree : ∀ item ∈ items, Agrees excused (one item) (other item)) :
    List.Forall₂ (Agrees excused) (items.map one) (items.map other) := by
  rw [List.forall₂_map_left_iff, List.forall₂_map_right_iff, List.forall₂_same]
  exact agree

/-- Answers for a property agree as the value that a term reads. -/
theorem property_agrees {excused : Error → Prop} {one other : Except Error (Option Value)}
    (agrees : Agrees excused one other) :
    Agrees excused (one.map (·.getD .null)) (other.map (·.getD .null)) := by
  rcases agrees.cases_eq with ⟨cause, failed, reason⟩ | same
  · rw [failed]
    exact .excuse reason
  · rw [same]
    exact .refl _

namespace Evaluator

/-- An evaluation comes to the meaning of the term or is stopped by the limit. -/
theorem evaluate_agrees_meaning (evaluator : Evaluator) (term : Term) (depth : Nat) :
    Agrees (fun cause => cause.isCalledTooDeep) (evaluator.evaluate depth term)
      (term.meaning evaluator.registry evaluator.source) := by
  induction term generalizing depth with
  | literal value => simpa [evaluate, Term.meaning] using Agrees.refl _
  | property name => simpa [evaluate, Term.meaning] using Agrees.refl _
  | call function arguments ih =>
      unfold evaluate Term.meaning
      split
      · exact .excuse rfl
      · cases evaluator.registry.find? function with
        | none => exact .refl _
        | some builtin =>
            dsimp only
            rw [evaluateAll_eq_map, Term.meanings_eq_map]
            apply Builtin.call_agrees (.refl _)
            exact forall_map_agrees arguments fun argument member => ih argument member (depth + 1)

/-- A value that an evaluation yields is the meaning of the term. -/
theorem meaning_of_evaluate {evaluator : Evaluator} {term : Term} {depth : Nat} {value : Value}
    (yields : evaluator.evaluate depth term = .ok value) :
    term.meaning evaluator.registry evaluator.source = .ok value :=
  (evaluate_agrees_meaning evaluator term depth).ok yields

/-- Evaluation yields a meaning, or the limit stops it. -/
theorem evaluate_of_meaning (evaluator : Evaluator) {term : Term} (depth : Nat) {outcome : Outcome}
    (means : term.meaning evaluator.registry evaluator.source = outcome) :
    evaluator.evaluate depth term = outcome ∨
      ∃ function limit, evaluator.evaluate depth term = .error (.calledTooDeep function limit) := by
  rcases (evaluate_agrees_meaning evaluator term depth).cases_eq with ⟨cause, failed, deep⟩ | same
  · cases cause with
    | calledTooDeep function limit => exact .inr ⟨function, limit, failed⟩
    | _ => cases deep
  · exact .inl (same.trans means)

/-- Evaluations under one limit agree when their sources do. -/
theorem evaluate_agrees {excused : Error → Prop} {source otherSource : Source}
    (sources : source.Agrees excused otherSource) (registry : Registry) (limit depth : Nat)
    (term : Term) :
    Agrees excused (evaluate { source, registry, limit } depth term)
      (evaluate { source := otherSource, registry, limit } depth term) := by
  induction term generalizing depth with
  | literal value => simpa [evaluate] using Agrees.refl _
  | property name => simpa [evaluate] using property_agrees (sources.property name)
  | call function arguments ih =>
      unfold evaluate
      dsimp only
      split
      · exact .refl _
      · cases registry.find? function with
        | none => exact .refl _
        | some builtin =>
            dsimp only
            rw [evaluateAll_eq_map, evaluateAll_eq_map]
            apply Builtin.call_agrees sources
            exact forall_map_agrees arguments fun argument member => ih argument member (depth + 1)

end Evaluator

/-- Meanings agree when their sources do. -/
theorem Term.meaning_agrees {excused : Error → Prop} {source otherSource : Source}
    (sources : source.Agrees excused otherSource) (registry : Registry) (term : Term) :
    Agrees excused (term.meaning registry source) (term.meaning registry otherSource) := by
  induction term with
  | literal value => simpa [meaning] using Agrees.refl _
  | property name => simpa [meaning] using property_agrees (sources.property name)
  | call function arguments ih =>
      unfold meaning
      cases registry.find? function with
      | none => exact .refl _
      | some builtin =>
          dsimp only
          rw [meanings_eq_map, meanings_eq_map]
          apply Builtin.call_agrees sources
          exact forall_map_agrees arguments ih

/-- The source that knows nothing agrees with each other one, up to what it leaves open. -/
theorem Source.constants_agrees (source : Source) :
    Source.constants.Agrees (fun cause => cause.isUnresolved) source :=
  ⟨fun _ => .excuse rfl, .excuse rfl, .excuse rfl, .excuse rfl, fun _ => .excuse rfl⟩

end MapStyle
