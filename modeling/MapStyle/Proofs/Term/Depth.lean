import MapStyle.Proofs.Builtin.Failure
import MapStyle.Proofs.Term.Meaning

/-!
# Depth of calls

How many calls are nested in one another decides whether the limit on calls can be met.  A term
that fits into the limit comes to its meaning, and no meaning complains of the limit.
-/

namespace MapStyle

namespace Term

mutual

/-- The greatest number of calls in a term that are nested in one another. -/
def callDepth : Term → Nat
  | .literal _ => 0
  | .property _ => 0
  | .call _ arguments => greatestDepth arguments + 1

def greatestDepth : List Term → Nat
  | [] => 0
  | term :: rest => max (callDepth term) (greatestDepth rest)

end

@[simp] theorem callDepth_literal (value : Value) : (Term.literal value).callDepth = 0 := by
  rw [callDepth]

@[simp] theorem callDepth_property (name : String) : (Term.property name).callDepth = 0 := by
  rw [callDepth]

theorem callDepth_call (function : String) (arguments : List Term) :
    (Term.call function arguments).callDepth = greatestDepth arguments + 1 := by
  rw [callDepth]

theorem greatestDepth_le_iff {bound : Nat} {terms : List Term} :
    greatestDepth terms ≤ bound ↔ ∀ term ∈ terms, term.callDepth ≤ bound := by
  induction terms with
  | nil => simp [greatestDepth]
  | cons term rest ih =>
      rw [greatestDepth, Nat.max_le, ih]
      simp

theorem greatestDepth_cons_le {term other : Term} {terms others : List Term}
    (head : term.callDepth ≤ other.callDepth)
    (tail : greatestDepth terms ≤ greatestDepth others) :
    greatestDepth (term :: terms) ≤ greatestDepth (other :: others) := by
  rw [greatestDepth, greatestDepth]
  omega

theorem greatestDepth_le_of_forall₂ {terms others : List Term}
    (each : List.Forall₂ (fun term other => term.callDepth ≤ other.callDepth) terms others) :
    greatestDepth terms ≤ greatestDepth others := by
  induction each with
  | nil => exact Nat.le_refl _
  | cons head _ ih => exact greatestDepth_cons_le head ih

/-- An argument is less deep than the call. -/
theorem callDepth_lt_of_mem {function : String} {arguments : List Term} {argument : Term}
    (member : argument ∈ arguments) :
    argument.callDepth < (Term.call function arguments).callDepth := by
  rw [callDepth_call]
  exact Nat.lt_succ_of_le (greatestDepth_le_iff.mp (Nat.le_refl _) argument member)

theorem callDepth_applied (builtin : Builtin) (arguments : List Term) :
    (builtin.applied arguments).callDepth = greatestDepth arguments + 1 :=
  callDepth_call builtin.name arguments

/-- A call is one level deeper than its arguments. -/
theorem callDepth_applied_le {builtin : Builtin} {arguments : List Term} {bound : Nat}
    (each : ∀ argument ∈ arguments, argument.callDepth ≤ bound) :
    (builtin.applied arguments).callDepth ≤ bound + 1 := by
  rw [callDepth_applied]
  exact Nat.succ_le_succ (greatestDepth_le_iff.mpr each)

theorem callDepth_applied_nil (builtin : Builtin) : (builtin.applied []).callDepth = 1 := by
  rw [callDepth_applied, greatestDepth]

/-- No meaning complains that calls are nested too deep, unless the source itself does. -/
theorem meaning_not_tooDeep (registry : Registry) {source : Source}
    (known : source.Confined fun cause => cause.isCalledTooDeep = false) (term : Term) :
    Confined (fun cause => cause.isCalledTooDeep = false) (term.meaning registry source) := by
  have data (cause : Error) (blames : cause.blamesOperand = true) :
      cause.isCalledTooDeep = false := by
    cases cause with
    | calledTooDeep => cases blames
    | _ => rfl
  have curves (cause : Error) (blames : cause.blamesCurve = true) :
      cause.isCalledTooDeep = false := by
    cases cause with
    | calledTooDeep => cases blames
    | _ => rfl
  induction term with
  | literal value =>
      rw [meaning_literal]
      exact .ok value
  | property name =>
      rw [meaning]
      exact (known.property name).map _
  | call function arguments ih =>
      rw [meaning]
      split
      · exact .error rfl
      · rw [meanings_eq_map]
        refine Builtin.call_confined data known ?_
          ⟨fun _ => .inr fun _ => rfl, fun _ _ _ => .inr curves⟩ (.inr fun _ _ _ => rfl)
        intro outcome member
        obtain ⟨argument, present, rfl⟩ := List.mem_map.mp member
        exact ih argument present

end Term

namespace Evaluator

/-- An evaluation comes to the meaning of the term if the calls in it fit into the limit. -/
theorem evaluate_eq_meaning (evaluator : Evaluator) {depth : Nat} {term : Term}
    (fits : depth + term.callDepth ≤ evaluator.limit) :
    evaluator.evaluate depth term = term.meaning evaluator.registry evaluator.source := by
  induction term generalizing depth with
  | literal value => rw [evaluate, Term.meaning]
  | property name => rw [evaluate, Term.meaning]
  | call function arguments ih =>
      have below : ¬ evaluator.limit ≤ depth := by
        rw [Term.callDepth_call] at fits
        omega
      rw [evaluate, if_neg below, Term.meaning, evaluateAll_eq_map, Term.meanings_eq_map]
      have same : arguments.map (evaluator.evaluate (depth + 1)) =
          arguments.map (Term.meaning evaluator.registry evaluator.source) := by
        apply List.map_congr_left
        intro argument member
        have less : argument.callDepth < (Term.call function arguments).callDepth :=
          Term.callDepth_lt_of_mem member
        exact ih argument member (by omega)
      cases evaluator.registry.find? function with
      | none => rfl
      | some builtin => exact congrArg (builtin.call evaluator.source) same

/-- A term whose calls fit into the limit never fails for the limit. -/
theorem evaluate_not_tooDeep (evaluator : Evaluator)
    (known : evaluator.source.Confined fun cause => cause.isCalledTooDeep = false) {depth : Nat}
    {term : Term} (fits : depth + term.callDepth ≤ evaluator.limit) :
    Confined (fun cause => cause.isCalledTooDeep = false) (evaluator.evaluate depth term) := by
  rw [evaluator.evaluate_eq_meaning fits]
  exact term.meaning_not_tooDeep evaluator.registry known

end Evaluator

end MapStyle
