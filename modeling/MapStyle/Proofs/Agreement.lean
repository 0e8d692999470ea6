import Mathlib.Data.List.Forall2
import MapStyle.Error

/-!
# Agreement of outcomes

Two runs of one computation may differ in what they are told.  Where the first one fails for a
cause that excuses it, nothing is asked of the second; otherwise both fail alike or both succeed
with related results.  Composition of computations keeps agreement.
-/

namespace MapStyle

/-- A composition succeeds when its first part does and the second one does on that result. -/
theorem bind_eq_ok {α β : Type} {first : Except Error α} {next : α → Except Error β} {result : β} :
    (first >>= next) = .ok result ↔ ∃ value, first = .ok value ∧ next value = .ok result := by
  cases first with
  | error cause =>
      constructor
      · intro impossible
        cases impossible
      · rintro ⟨value, impossible, _⟩
        cases impossible
  | ok value =>
      constructor
      · intro succeeded
        exact ⟨value, rfl, succeeded⟩
      · rintro ⟨other, same, succeeded⟩
        cases same
        exact succeeded

/-- What succeeds has a result. -/
theorem eq_ok_of_isOk {α : Type} {result : Except Error α} (succeeds : result.isOk = true) :
    ∃ value, result = .ok value := by
  cases result with
  | error cause => cases succeeds
  | ok value => exact ⟨value, rfl⟩

@[simp] theorem pure_eq_ok {α : Type} {value result : α} :
    (pure value : Except Error α) = .ok result ↔ value = result := by
  constructor
  · intro same
    cases same
    rfl
  · rintro rfl
    rfl

@[simp] theorem throw_ne_ok {α : Type} {cause : Error} {result : α} :
    ¬ (throw cause : Except Error α) = .ok result := by
  intro impossible
  cases impossible

/--
Two outcomes of which the first may fail for an excused cause; otherwise both fail for the same
cause or both succeed, with related results.
-/
inductive Relates {α β : Type} (excused : Error → Prop) (related : α → β → Prop) :
    Except Error α → Except Error β → Prop where
  | excuse {cause : Error} {other : Except Error β} (reason : excused cause) :
      Relates excused related (.error cause) other
  | error (cause : Error) : Relates excused related (.error cause) (.error cause)
  | ok {value : α} {other : β} (both : related value other) :
      Relates excused related (.ok value) (.ok other)

/-- Two outcomes that are the same, unless an excused cause stands in the way of the first. -/
abbrev Agrees {α : Type} (excused : Error → Prop) (one other : Except Error α) : Prop :=
  Relates excused Eq one other

namespace Relates

variable {α β γ δ : Type} {excused : Error → Prop}

/-- Related outcomes stay related when computations follow that keep their results related. -/
theorem bind {related : α → β → Prop} {after : γ → δ → Prop}
    {one : Except Error α} {other : Except Error β}
    {next : α → Except Error γ} {otherNext : β → Except Error δ}
    (first : Relates excused related one other)
    (step : ∀ value otherValue, related value otherValue →
      Relates excused after (next value) (otherNext otherValue)) :
    Relates excused after (one >>= next) (other >>= otherNext) := by
  cases first with
  | excuse reason => exact .excuse reason
  | error cause => exact .error cause
  | ok both => exact step _ _ both

/-- Success of the first of two related outcomes carries over to the second. -/
theorem ok_of_ok {related : α → β → Prop} {one : Except Error α} {other : Except Error β}
    {value : α} (relates : Relates excused related one other) (succeeded : one = .ok value) :
    ∃ otherValue, other = .ok otherValue ∧ related value otherValue := by
  cases relates with
  | excuse reason => cases succeeded
  | error cause => cases succeeded
  | ok both =>
      cases succeeded
      exact ⟨_, rfl, both⟩

end Relates

namespace Agrees

variable {α β : Type} {excused : Error → Prop}

/-- An outcome agrees with itself. -/
theorem refl (outcome : Except Error α) : Agrees excused outcome outcome := by
  cases outcome with
  | error cause => exact .error cause
  | ok value => exact .ok rfl

theorem of_eq {one other : Except Error α} (same : one = other) : Agrees excused one other := by
  subst same
  exact refl one

/-- Agreement is kept by a computation on the result. -/
theorem bind {one other : Except Error α} {next otherNext : α → Except Error β}
    (first : Agrees excused one other)
    (step : ∀ value, Agrees excused (next value) (otherNext value)) :
    Agrees excused (one >>= next) (other >>= otherNext) := by
  apply Relates.bind first
  rintro value _ rfl
  exact step value

/-- Agreement leaves two cases: an excused failure of the first outcome, or equality. -/
theorem cases_eq {one other : Except Error α} (agrees : Agrees excused one other) :
    (∃ cause, one = .error cause ∧ excused cause) ∨ one = other := by
  cases agrees with
  | excuse reason => exact .inl ⟨_, rfl, reason⟩
  | error cause => exact .inr rfl
  | ok both =>
      subst both
      exact .inr rfl

/-- What the first of two agreeing outcomes comes to, the second one comes to. -/
theorem ok {one other : Except Error α} {value : α} (agrees : Agrees excused one other)
    (succeeded : one = .ok value) : other = .ok value := by
  obtain ⟨found, succeeds, rfl⟩ := agrees.ok_of_ok succeeded
  exact succeeds

/-- Without an excuse, outcomes that agree are the same. -/
theorem eq_of_none {one other : Except Error α} (agrees : Agrees (fun _ => False) one other) :
    one = other := by
  cases agrees with
  | excuse reason => exact reason.elim
  | error cause => rfl
  | ok same => rw [same]

/-- Outcomes that agree have results that are related, if each result is related to itself. -/
theorem relates {related : α → α → Prop} (reflexive : ∀ value, related value value)
    {one other : Except Error α} (agrees : Agrees excused one other) :
    Relates excused related one other := by
  cases agrees with
  | excuse reason => exact .excuse reason
  | error cause => exact .error cause
  | ok same =>
      subst same
      exact .ok (reflexive _)

end Agrees

/-- The causes for which each of two outcomes may fail. -/
structure Excuses where
  one : Error → Prop
  other : Error → Prop

def Excuses.both (excused : Error → Prop) : Excuses := ⟨excused, excused⟩

def Excuses.none : Excuses := .both fun _ => False

/-- Two outcomes that are the same, unless either fails for a cause that excuses it. -/
inductive Concurs {α : Type} (excused : Excuses) : Except Error α → Except Error α → Prop where
  | left {cause : Error} {other : Except Error α} (reason : excused.one cause) :
      Concurs excused (.error cause) other
  | right {one : Except Error α} {cause : Error} (reason : excused.other cause) :
      Concurs excused one (.error cause)
  | same (outcome : Except Error α) : Concurs excused outcome outcome

namespace Concurs

variable {α β : Type} {excused : Excuses}

theorem of_eq {one other : Except Error α} (same : one = other) : Concurs excused one other := by
  subst same
  exact .same one

/-- Outcomes that concur still do so after computations that concur on their common result. -/
theorem bind_of_ok {one other : Except Error α} {next otherNext : α → Except Error β}
    (first : Concurs excused one other)
    (step : ∀ value, other = .ok value → Concurs excused (next value) (otherNext value)) :
    Concurs excused (one >>= next) (other >>= otherNext) := by
  cases first with
  | left reason => exact .left reason
  | right reason => exact .right reason
  | same =>
      cases one with
      | error cause => exact .same (.error cause)
      | ok value => exact step value rfl

theorem bind {one other : Except Error α} {next otherNext : α → Except Error β}
    (first : Concurs excused one other)
    (step : ∀ value, Concurs excused (next value) (otherNext value)) :
    Concurs excused (one >>= next) (other >>= otherNext) :=
  first.bind_of_ok fun value _ => step value

/-- Outcomes that concur are the same, unless one of them fails for an excused cause. -/
theorem cases_eq {one other : Except Error α} (concurs : Concurs excused one other) :
    (∃ cause, one = .error cause ∧ excused.one cause) ∨
      (∃ cause, other = .error cause ∧ excused.other cause) ∨ one = other := by
  cases concurs with
  | left reason => exact .inl ⟨_, rfl, reason⟩
  | right reason => exact .inr (.inl ⟨_, rfl, reason⟩)
  | same => exact .inr (.inr rfl)

/-- Without an excuse, outcomes that concur are the same. -/
theorem eq_of_none {one other : Except Error α} (concurs : Concurs .none one other) :
    one = other := by
  cases concurs with
  | left reason => exact reason.elim
  | right reason => exact reason.elim
  | same => rfl

/-- Outcomes that concur are the same where both succeed. -/
theorem eq_of_ok {one other : Except Error α} {value otherValue : α}
    (concurs : Concurs excused one other) (succeeds : one = .ok value)
    (otherSucceeds : other = .ok otherValue) : value = otherValue := by
  cases concurs with
  | left reason => cases succeeds
  | right reason => cases otherSucceeds
  | same =>
      rw [succeeds] at otherSucceeds
      exact Except.ok.inj otherSucceeds

end Concurs

/-!
## Confined failures

Which causes the failures of a computation can have, whatever it succeeds with.  A composition
fails as its first part does, or as the second one does on a result of the first.
-/

namespace Error

/-- Does the cause lie in the data: values of a wrong class, or for which no branch is meant? -/
def blamesData : Error → Bool
  | .invalidArgument _ _ _ _ => true
  | .invalidInput _ => true
  | .noMatchingCase => true
  | .noMatchingLabel => true
  | _ => false

def blamesCurve : Error → Bool
  | .invalidArgument _ _ expected _ => expected == "an interpolation type"
  | _ => false

def blamesOperand (cause : Error) : Bool := cause.blamesData && !cause.blamesCurve

theorem blamesData_of_blamesOperand {cause : Error} (blames : cause.blamesOperand = true) :
    cause.blamesData = true :=
  (Bool.and_eq_true_iff.mp blames).1

theorem blamesCurve_of_blamesOperand {cause : Error} (blames : cause.blamesOperand = true) :
    cause.blamesCurve = false :=
  (Bool.not_eq_eq_eq_not ..).mp (Bool.and_eq_true_iff.mp blames).2

/-- A complaint that asks for anything but a curve does not lie in a curve. -/
theorem blamesOperand_of_expected {function expected found : String} {position : Nat}
    (other : (expected == "an interpolation type") = false) :
    (invalidArgument function position expected found).blamesOperand = true := by
  simp [blamesOperand, blamesData, blamesCurve, other]

/--
Is the cause one that no document is to blame for?  Two are signals inside the compiler, and what
names no curve is refused before a curve is asked for.
-/
def isInternal : Error → Bool
  | .unresolved _ => true
  | .unknownFunction _ => true
  | cause => cause.blamesCurve

end Error

/-- Each failure of an outcome has an allowed cause. -/
def Confined {α : Type} (allowed : Error → Prop) (outcome : Except Error α) : Prop :=
  ∀ cause, outcome = .error cause → allowed cause

namespace Confined

variable {α β : Type} {allowed : Error → Prop}

theorem ok (value : α) : Confined allowed (.ok value) := by
  intro cause impossible
  cases impossible

theorem error {cause : Error} (reason : allowed cause) :
    Confined allowed (.error cause : Except Error α) := by
  intro other same
  cases same
  exact reason

/-- Compositions are confined if both parts are, the second one on results of the first. -/
theorem bind {outcome : Except Error α} {next : α → Except Error β}
    (first : Confined allowed outcome)
    (step : ∀ value, outcome = .ok value → Confined allowed (next value)) :
    Confined allowed (outcome >>= next) := by
  cases outcome with
  | error cause => exact error (first cause rfl)
  | ok value => exact step value rfl

theorem map {outcome : Except Error α} (function : α → β) (first : Confined allowed outcome) :
    Confined allowed (outcome.map function) := by
  cases outcome with
  | error cause => exact error (first cause rfl)
  | ok value => exact ok _

theorem mono {other : Error → Prop} {outcome : Except Error α}
    (weaker : ∀ cause, allowed cause → other cause) (confined : Confined allowed outcome) :
    Confined other outcome :=
  fun cause failed => weaker cause (confined cause failed)

end Confined

end MapStyle
