import MapStyle.Proofs.Builtin.Course
import MapStyle.Proofs.Term.Meaning
import MapStyle.Term.Course

/-!
# Evaluation comes to an outcome and restores its state

Whatever term is evaluated, the course that evaluates it does not break off, comes to the outcome
of the term at the depth and under the limit of its state, and leaves that state as it was, if it
fails, too.  So each term of a session has the outcome that it has by itself.
-/

namespace MapStyle

open Course (Returns)

namespace Term

/-- The arguments of a call come to their outcomes, each from the same state. -/
theorem runAll_answers {arguments : List Term} {state : Evaluator.State}
    (each : ∀ argument ∈ arguments,
      Returns argument.run state (state.evaluator.evaluate state.depth argument)) :
    Call.Answers (runAll arguments) state
      (state.evaluator.evaluateAll state.depth arguments) := by
  rw [runAll_eq_map, Evaluator.evaluateAll_eq_map, Call.Answers, List.forall₂_map_left_iff,
    List.forall₂_map_right_iff, List.forall₂_same]
  exact each

/-- A call is refused before its level is counted, or else performed one level deeper. -/
theorem perform_inside (source : Source) (builtin : Builtin) {state : Evaluator.State}
    {arguments : Call.Arguments Evaluator.State} {outcomes : List Outcome}
    (answers : Call.Answers arguments state.deeper outcomes) :
    Returns
      (do
        builtin.arity.check builtin.name outcomes.length
        Course.inside Evaluator.State.deeper Evaluator.State.shallower
          (builtin.perform source arguments)) state
      (builtin.call source outcomes) := by
  by_cases accepted : builtin.arity.accepts outcomes.length = true
  · have checked : builtin.arity.check builtin.name outcomes.length = .ok () := if_pos accepted
    rw [checked]
    have performed := Builtin.perform_returns source answers accepted
    exact (Returns.lift _).goOn (performed.inside state.shallower_deeper)
  · have checked : builtin.arity.check builtin.name outcomes.length =
        .error (.argumentCount builtin.name builtin.arity outcomes.length) := if_neg accepted
    have refused : builtin.call source outcomes =
        .error (.argumentCount builtin.name builtin.arity outcomes.length) := if_neg accepted
    rw [checked, refused]
    exact (Returns.lift _).fail

/-- The course of a term comes to its outcome and leaves every state as it was. -/
theorem run_returns (term : Term) (state : Evaluator.State) :
    Returns term.run state (state.evaluator.evaluate state.depth term) := by
  induction term generalizing state with
  | literal value =>
      rw [run, Evaluator.evaluate]
      exact .pure value
  | property name =>
      have read := (Returns.ask fun state : Evaluator.State =>
        state.evaluator.source.property name).bind fun found _ =>
          (Returns.pure (found.getD .null) : Returns _ state _)
      have mapped (result : Except Error (Option Value)) :
          result.map (·.getD .null) = (result >>= fun found => pure (found.getD .null)) := by
        cases result <;> rfl
      rw [run, Evaluator.evaluate, mapped]
      exact read
  | call function arguments ih =>
      rw [run, Evaluator.evaluate]
      refine (Returns.ask .ok).goOn ?_
      split
      · exact .throw _
      · cases state.evaluator.registry.find? function with
        | none => exact .throw _
        | some builtin =>
            have answers := runAll_answers fun argument member => ih argument member state.deeper
            have count : arguments.length =
                (state.evaluator.evaluateAll (state.depth + 1) arguments).length := by
              rw [Evaluator.evaluateAll_eq_map, List.length_map]
            rw [count]
            exact perform_inside _ builtin answers

end Term

namespace Evaluator

/-- The step that evaluates a term keeps the state and gives the outcome. -/
theorem Step.run_evaluate (state : State) (term : Term) :
    (Step.evaluate term).run state =
      .ok (state, some (state.evaluator.evaluate state.depth term)) := by
  rw [Step.run, (term.run_returns state).takeFrom_eq]
  rfl

/-- Terms that are evaluated one after the other are all evaluated in the first state. -/
theorem runSteps_evaluate (state : State) (terms : List Term) :
    runSteps state (terms.map .evaluate) =
      .ok (terms.map fun term => (state, some (state.evaluator.evaluate state.depth term))) := by
  induction terms with
  | nil => rfl
  | cons term rest ih =>
      rw [List.map_cons, runSteps, Step.run_evaluate]
      change (runSteps state (rest.map .evaluate) >>= fun others => _) = _
      rw [ih]
      rfl

end Evaluator

/--
An evaluation leaves the state as it was, depth and limit included, whether it comes to a value or
fails.  So terms that are evaluated one after the other have the outcomes that each of them has
alone, in a state made anew with the same depth and the same limit.
-/
theorem evaluation_restores_state (source : Source) (registry : Registry) (limit depth : Nat) :
    let state : Evaluator.State := { evaluator := { source, registry, limit }, depth }
    (∀ term : Term, ∃ outcome, term.run.takeFrom state = .ok (outcome, state)) ∧
      ∀ terms : List Term, ∃ outcomes,
        Evaluator.runSteps state (terms.map .evaluate) =
          .ok (outcomes.map fun outcome => (state, some outcome)) ∧
        List.Forall₂
          (fun term outcome =>
            Evaluator.runSteps { evaluator := { source, registry, limit }, depth }
              [.evaluate term] = .ok [(state, some outcome)])
          terms outcomes := by
  intro state
  refine ⟨fun term => ⟨_, (term.run_returns state).takeFrom_eq⟩, fun terms => ?_⟩
  refine ⟨terms.map (state.evaluator.evaluate state.depth), ?_, ?_⟩
  · rw [Evaluator.runSteps_evaluate, List.map_map]
    rfl
  · rw [List.forall₂_map_right_iff, List.forall₂_same]
    intro term _
    exact Evaluator.runSteps_evaluate state [term]

end MapStyle
