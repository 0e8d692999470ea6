import MapStyle.Proofs.Builtin.Answer
import MapStyle.Proofs.Range
import MapStyle.Proofs.Term.Meaning

/-!
# Classes of terms

A value has the class that its term declares, with one exception: a function whose class is that
of numbers comes to null where its result is not finite.  Sums, differences and products do so,
texts that spell too large a number, and zoom levels at a scale that has none; so what is
declared a number may be null.  No other function does, provided that the machine's circular
functions come to finite numbers for finite angles.
-/

namespace MapStyle

/-- The functions declared to return numbers whose results may lie outside the finite range. -/
def Builtin.leavesRange : Builtin → Bool
  | .binary .sub | .list .add | .list .mul | .toNumber | .zoomLevel => true
  | _ => false

def Builtin.isCircular : Builtin → Bool
  | .unary function => function.isCircular
  | _ => false

/-- A function that leaves the finite range by itself, or because the machine does. -/
def Builtin.MayLeaveRange (builtin : Builtin) : Prop :=
  builtin.leavesRange = true ∨ builtin.isCircular = true ∧ ¬Double.MachineKeepsRange

/-- What a call comes to when its class is declared. -/
inductive Builtin.Yields (builtin : Builtin) (kind : Kind) (value : Value) : Prop where
  | declared (same : value.kind = kind)
  | outside (number : kind = .number) (null : value = .null) (leaves : builtin.MayLeaveRange)
  | countless (number : kind = .number) (count : Nat) (huge : 2 ^ 64 < count)
      (counts : value = .ofNat count)

namespace Builtin.Yields

variable {builtin : Builtin}

end Builtin.Yields

/-! ## Functions that stay in the finite range -/

namespace Builtin

end Builtin

/-! ## Results that leave the range -/

/-- A list function of two numbers comes to null where its result is infinite. -/
theorem Arithmetic.list_overflow {function : ListFunction} {x y : FiniteDouble} {negative : Bool}
    (overflows : function.run [.finite x, .finite y] = .infinite negative) :
    list function [.ok (.number (.double x)), .ok (.number (.double y))] = .ok .null := by
  have runs : list function [.ok (.number (.double x)), .ok (.number (.double y))] =
      .ok (.ofDouble (function.run [.finite x, .finite y])) := rfl
  rw [runs, overflows]
  rfl

/-- A function of two numbers comes to null where its result is infinite. -/
theorem Arithmetic.binary_overflow {function : BinaryFunction} {x y : FiniteDouble}
    {negative : Bool} (overflows : function.run (.finite x) (.finite y) = .infinite negative) :
    binary function (.ok (.number (.double x))) (.ok (.number (.double y))) = .ok .null := by
  have runs : binary function (.ok (.number (.double x))) (.ok (.number (.double y))) =
      .ok (.ofDouble (function.run (.finite x) (.finite y))) := rfl
  rw [runs, overflows]
  rfl

def greatestPower : FiniteDouble := ⟨false, 2 ^ 2097, by decide +kernel⟩

def leastPower : FiniteDouble := { greatestPower with negative := true }

theorem add_greatestPower :
    ListFunction.add.run [.finite greatestPower, .finite greatestPower] = .infinite false := by
  decide +kernel

/-- No exception is idle: each function that leaves the range comes to null for some arguments. -/
theorem Builtin.exists_null_of_leavesRange {builtin : Builtin}
    (leaves : builtin.leavesRange = true) (computed : builtin ≠ .zoomLevel) (source : Source) :
    ∃ arguments, builtin.call source arguments = .ok .null := by
  let power : Outcome := .ok (.number (.double greatestPower))
  have product : ListFunction.mul.run [.finite greatestPower, .finite greatestPower] =
      .infinite false := by
    decide +kernel
  have difference : BinaryFunction.sub.run (.finite leastPower) (.finite greatestPower) =
      .infinite true := by
    decide +kernel
  cases builtin with
  | binary function =>
      cases function with
      | sub =>
          exact ⟨[.ok (.number (.double leastPower)), power],
            Arithmetic.binary_overflow difference⟩
      | _ => cases leaves
  | list function =>
      cases function with
      | add => exact ⟨[power, power], Arithmetic.list_overflow add_greatestPower⟩
      | mul => exact ⟨[power, power], Arithmetic.list_overflow product⟩
      | _ => cases leaves
  | toNumber =>
      have infinite : (Value.string "1e999").coerceToDouble? = some (.infinite false) := by
        decide +kernel
      refine ⟨[.ok (.string "1e999")], ?_⟩
      change Conversion.firstOf _ _ _ none [.ok (.string "1e999")] = _
      unfold Conversion.firstOf
      simp only [bind, Except.bind, infinite]
      rfl
  | zoomLevel => exact absurd rfl computed
  | _ => cases leaves

end MapStyle
