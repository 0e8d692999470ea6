import MapStyle.Builtin.Course
import MapStyle.Term.Evaluation

/-!
# Evaluation as a course

A term is evaluated with one state for the whole of it.  A call counts one level for its function
and takes it back behind it, whatever the function comes to; a call that is refused counts none.
-/

namespace MapStyle

namespace Evaluator

/-- An evaluator and the number of calls around the term that it is given. -/
structure State where
  evaluator : Evaluator
  depth : Nat := 0

namespace State

def deeper (state : State) : State := { state with depth := state.depth + 1 }

/-- The state outside the innermost call, of which there has to be one. -/
def shallower (state : State) : Except Fault State :=
  if 1 ≤ state.depth then .ok { state with depth := state.depth - 1 }
  else .error (.underflow state.depth 1)

/-- A level that has been counted can be taken back. -/
@[simp] theorem shallower_deeper (state : State) : state.deeper.shallower = .ok state := by
  have counted : 1 ≤ state.deeper.depth := Nat.le_add_left 1 state.depth
  rw [shallower, if_pos counted]
  rfl

end State

end Evaluator

namespace Term

mutual

def run : Term → Course Evaluator.State Value
  | .literal value => return value
  | .property name => do
      let found ← Course.ask fun state => state.evaluator.source.property name
      return found.getD .null
  | .call function arguments => do
      let state ← Course.ask .ok
      if state.evaluator.limit ≤ state.depth then
        throw (.calledTooDeep function state.evaluator.limit)
      else
        match state.evaluator.registry.find? function with
        | none => throw (.unknownFunction function)
        | some builtin =>
            builtin.arity.check builtin.name arguments.length
            Course.inside Evaluator.State.deeper Evaluator.State.shallower
              (builtin.perform state.evaluator.source (runAll arguments))

def runAll : List Term → Call.Arguments Evaluator.State
  | [] => []
  | term :: rest => run term :: runAll rest

end

/-- The courses of a list of terms are those of each of them. -/
theorem runAll_eq_map (terms : List Term) : runAll terms = terms.map run := by
  induction terms with
  | nil => simp [runAll]
  | cons term rest ih => simp [runAll, ih]

end Term

/-!
## Evaluation sessions

A session evaluates one term after the other at some depth and under some limit.  Each evaluation
begins in the state that the step before it leaves behind.
-/

namespace Evaluator

inductive Step where
  | evaluate (term : Term)
  | setDepth (depth : Nat)
  | setLimit (limit : Nat)

/-- The state after a step, and the outcome of the term if it evaluates one. -/
def Step.run (state : State) : Step → Except Fault (State × Option Outcome)
  | .evaluate term => do
      let (outcome, after) ← term.run.takeFrom state
      return (after, some outcome)
  | .setDepth depth => return ({ state with depth }, none)
  | .setLimit limit =>
      return ({ state with evaluator := { state.evaluator with limit } }, none)

def runSteps (state : State) : List Step → Except Fault (List (State × Option Outcome))
  | [] => return []
  | step :: rest => do
      let result ← step.run state
      let others ← runSteps result.1 rest
      return result :: others

end Evaluator

end MapStyle
