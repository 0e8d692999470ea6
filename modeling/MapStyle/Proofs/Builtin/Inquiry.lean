import Mathlib.Data.List.Induction
import Mathlib.Data.Nat.Init
import MapStyle.Proofs.Builtin.Failure

/-!
# Inquiries

A function that looks at its arguments one after the other is an inquiry: it asks for the outcome
of the argument at a position, and what it asks for next, or answers, depends on that outcome.
Run on an argument list, an inquiry depends on the arguments that it asks for and on no others.
The functions that may leave arguments alone are written here as inquiries, each with the
positions that it counts through, and come to the same as their calls.
-/

namespace MapStyle

/-- A computation that asks for the outcomes of arguments by their positions. -/
inductive Inquiry (α : Type) where
  | answer (result : Except Error α)
  | ask (position : Nat) (next : Outcome → Inquiry α)

namespace Inquiry

variable {α β : Type}

protected def bind : Inquiry α → (α → Inquiry β) → Inquiry β
  | .answer (.ok value), next => next value
  | .answer (.error cause), _ => .answer (.error cause)
  | .ask position inner, next => .ask position fun outcome => (inner outcome).bind next

instance : Monad Inquiry where
  pure value := .answer (.ok value)
  bind := Inquiry.bind

/-- The result for an argument list; there is none if an argument behind the end is asked for. -/
def run? (arguments : List Outcome) : Inquiry α → Option (Except Error α)
  | .answer result => some result
  | .ask position next =>
      match arguments[position]? with
      | some outcome => (next outcome).run? arguments
      | none => none

def asked (arguments : List Outcome) : Inquiry α → List Nat
  | .answer _ => []
  | .ask position next =>
      position ::
        match arguments[position]? with
        | some outcome => (next outcome).asked arguments
        | none => []

def read (position : Nat) (reading : Outcome → Except Error α) : Inquiry α :=
  .ask position fun outcome => .answer (reading outcome)

def argument (position : Nat) : Inquiry Value := read position id

def number (function : String) (position : Nat) : Inquiry Double :=
  read position (Operand.number function position)

variable {arguments : List Outcome} {position : Nat} {outcome other : Outcome}

/-- An argument that is not asked for has no part in the result. -/
theorem run?_set {inquiry : Inquiry α} (unasked : position ∉ inquiry.asked arguments) :
    inquiry.run? (arguments.set position other) = inquiry.run? arguments := by
  induction inquiry with
  | answer result => rfl
  | ask first next ih =>
      rw [asked, List.mem_cons, not_or] at unasked
      have kept : (arguments.set position other)[first]? = arguments[first]? :=
        List.getElem?_set_ne unasked.1
      rw [run?, run?, kept]
      cases found : arguments[first]? with
      | none => rfl
      | some outcome =>
          rw [found] at unasked
          exact ih outcome unasked.2

/-- An inquiry goes on with what it has found out. -/
theorem run?_bind (inquiry : Inquiry α) (next : α → Inquiry β) :
    (inquiry >>= next).run? arguments =
      (inquiry.run? arguments).bind fun
        | .ok value => (next value).run? arguments
        | .error cause => some (.error cause) := by
  induction inquiry with
  | answer result => cases result <;> rfl
  | ask first inner ih =>
      change (Inquiry.ask first fun outcome => inner outcome >>= next).run? arguments = _
      rw [run?, run?]
      cases arguments[first]? with
      | none => rfl
      | some outcome => exact ih outcome

/-- An inquiry that goes on asks for what it has asked for and for what it goes on with. -/
theorem asked_bind (inquiry : Inquiry α) (next : α → Inquiry β) :
    (inquiry >>= next).asked arguments =
      inquiry.asked arguments ++
        match inquiry.run? arguments with
        | some (.ok value) => (next value).asked arguments
        | _ => [] := by
  induction inquiry with
  | answer result => cases result <;> rfl
  | ask first inner ih =>
      change (Inquiry.ask first fun outcome => inner outcome >>= next).asked arguments = _
      rw [asked, asked, run?, List.cons_append]
      cases arguments[first]? with
      | none => rfl
      | some outcome => exact congrArg (first :: ·) (ih outcome)

theorem run?_read (found : arguments[position]? = some outcome)
    (reading : Outcome → Except Error α) :
    (read position reading).run? arguments = some (reading outcome) := by
  rw [read, run?, found]
  rfl

theorem run?_argument (found : arguments[position]? = some outcome) :
    (argument position).run? arguments = some outcome :=
  run?_read found id

theorem asked_read (reading : Outcome → Except Error α) :
    (read position reading).asked arguments = [position] := by
  rw [read, asked]
  cases arguments[position]? <;> rfl

/-- An inquiry that fails as soon as an argument does that it asks for. -/
inductive Strict : Inquiry α → Prop where
  | answer (result : Except Error α) : Strict (.answer result)
  | ask {position : Nat} {next : Outcome → Inquiry α}
      (fails : ∀ cause, next (.error cause) = .answer (.error cause))
      (each : ∀ outcome, Strict (next outcome)) : Strict (.ask position next)

theorem Strict.bind {inquiry : Inquiry α} {next : α → Inquiry β} (strict : inquiry.Strict)
    (each : ∀ value, (next value).Strict) : (inquiry >>= next).Strict := by
  induction strict with
  | answer result =>
      cases result with
      | ok value => exact each value
      | error cause => exact .answer _
  | @ask position inner fails _ ih =>
      refine .ask (fun cause => ?_) ih
      rw [fails]
      rfl

theorem Strict.read {reading : Outcome → Except Error α}
    (fails : ∀ cause, reading (.error cause) = .error cause) :
    (Inquiry.read position reading).Strict :=
  .ask (fun cause => congrArg Inquiry.answer (fails cause)) fun _ => .answer _

/-- Where an argument fails that is asked for, so does the inquiry. -/
theorem Strict.run?_set {inquiry : Inquiry α} (strict : inquiry.Strict)
    (asked : position ∈ inquiry.asked arguments) (within : position < arguments.length)
    (cause : Error) :
    inquiry.run? (arguments.set position (.error cause)) = some (.error cause) := by
  induction strict with
  | answer result => cases asked
  | @ask first next fails _ ih =>
      rw [run?]
      by_cases same : position = first
      · subst same
        rw [List.getElem?_set_self within]
        dsimp only
        rw [fails, run?]
      · rw [Inquiry.asked, List.mem_cons, or_iff_right same] at asked
        rw [List.getElem?_set_ne same]
        cases found : arguments[first]? with
        | none =>
            rw [found] at asked
            cases asked
        | some outcome =>
            rw [found] at asked
            exact ih outcome asked

/-! ## The functions as inquiries -/

def scan (settle : Value → Option Value) (otherwise : Value) : Nat → Nat → Inquiry Value
  | _, 0 => pure otherwise
  | position, remaining + 1 => do
      let value ← argument position
      match settle value with
      | some result => pure result
      | none => scan settle otherwise (position + 1) remaining

def choose (takes : Nat → Value → Except Error Bool) (exhausted : Error) :
    Nat → Nat → Inquiry Value
  | position, remaining + 2 => do
      let value ← argument position
      if ← .answer (takes position value) then argument (position + 1)
      else choose takes exhausted (position + 2) remaining
  | position, 1 => argument position
  | _, 0 => .answer (.error exhausted)

def select (count : Nat) : Inquiry Value := do
  let input ← argument 0
  let _ ← .answer (Label.checkInput input)
  choose (fun position label => Label.matchesInput Builtin.select.name position label input)
    .noMatchingLabel 1 (count - 1)

def stepFrom (input : Double) : (output stop remaining : Nat) → Inquiry Value
  | output, stop, remaining + 2 => do
      let bound ← number Builtin.step.name stop
      if input.lt bound then argument output
      else stepFrom input (stop + 1) (stop + 2) remaining
  | output, _, _ => argument output

def step (count : Nat) : Inquiry Value := do
  let input ← number Builtin.step.name 0
  stepFrom input 1 2 (count - 2)

def knots : Nat → Nat → Inquiry (List (Ramp.Knot Nat))
  | position, remaining + 2 => do
      let bound ← number Builtin.interpolate.name position
      let others ← knots (position + 2) remaining
      return ⟨bound, position + 1⟩ :: others
  | _, _ => return []

def outputAt (refusal : Error) (curve : Curve) (input : Double) (knots : List (Ramp.Knot Nat)) :
    Inquiry Value :=
  match knots.head?, knots.getLast? with
  | some first, some last =>
      if input.le first.stop then argument first.output
      else if last.stop.le input then argument last.output
      else
        match Ramp.segment? input 0 knots with
        | some segment => do
            let t := curve.factor input segment.lower.stop segment.upper.stop
            let a ← argument segment.lower.output
            let b ← argument segment.upper.output
            .answer (Ramp.blend (2 * segment.index + 5) t a b)
        | none => .answer (.error refusal)
  | _, _ => .answer (.error refusal)

def interpolate (count : Nat) : Inquiry Value := do
  let curve ← read 0 Ramp.curveOf
  let input ← number Builtin.interpolate.name 1
  let stops ← knots 2 (count - 2)
  outputAt (.argumentCount Builtin.interpolate.name Builtin.interpolate.arity count) curve input
    stops

theorem strict_scan (settle : Value → Option Value) (otherwise : Value)
    (position remaining : Nat) : (scan settle otherwise position remaining).Strict := by
  induction remaining generalizing position with
  | zero => exact .answer _
  | succ remaining ih =>
      refine .bind (.read fun _ => rfl) fun value => ?_
      cases settle value with
      | some result => exact .answer _
      | none => exact ih (position + 1)

theorem strict_choose (takes : Nat → Value → Except Error Bool) (exhausted : Error)
    (position remaining : Nat) : (choose takes exhausted position remaining).Strict := by
  induction remaining using Nat.twoStepInduction generalizing position with
  | zero => exact .answer _
  | one => exact .read fun _ => rfl
  | more remaining ih _ =>
      refine .bind (.read fun _ => rfl) fun value => .bind (.answer _) fun taken => ?_
      cases taken with
      | true => exact .read fun _ => rfl
      | false => exact ih (position + 2)

theorem strict_stepFrom (input : Double) (output stop remaining : Nat) :
    (stepFrom input output stop remaining).Strict := by
  induction remaining using Nat.twoStepInduction generalizing output stop with
  | zero => exact .read fun _ => rfl
  | one => exact .read fun _ => rfl
  | more remaining ih _ =>
      refine .bind (.read fun _ => rfl) fun bound => ?_
      cases input.lt bound with
      | true => exact .read fun _ => rfl
      | false => exact ih (stop + 1) (stop + 2)

theorem strict_knots (position remaining : Nat) : (knots position remaining).Strict := by
  induction remaining using Nat.twoStepInduction generalizing position with
  | zero => exact .answer _
  | one => exact .answer _
  | more remaining ih _ =>
      exact .bind (.read fun _ => rfl) fun bound => .bind (ih (position + 2)) fun _ => .answer _

theorem strict_outputAt (refusal : Error) (curve : Curve) (input : Double)
    (knots : List (Ramp.Knot Nat)) : (outputAt refusal curve input knots).Strict := by
  unfold outputAt
  split
  · split
    · exact .read fun _ => rfl
    · split
      · exact .read fun _ => rfl
      · split
        · exact .bind (.read fun _ => rfl) fun _ => .bind (.read fun _ => rfl) fun _ => .answer _
        · exact .answer _
  · exact .answer _

end Inquiry

/-- A function that may leave arguments alone, as an inquiry into so many arguments. -/
def Builtin.inquiry? (count : Nat) : Builtin → Option (Inquiry Value)
  | .all =>
      some (.scan (fun value => if value.isTrue then none else some (.boolean false))
        (.boolean true) 0 count)
  | .any =>
      some (.scan (fun value => if value.isTrue then some (.boolean true) else none)
        (.boolean false) 0 count)
  | .coalesce =>
      some (.scan (fun value => if value.isNull then none else some value) .null 0 count)
  | .case => some (.choose (fun _ value => .ok value.isTrue) .noMatchingCase 0 count)
  | .select => some (.select count)
  | .step => some (.step count)
  | .interpolate => some (.interpolate count)
  | _ => none

/-- Functions fail as the arguments do that they ask for. -/
theorem Builtin.strict_inquiry {builtin : Builtin} {count : Nat} {inquiry : Inquiry Value}
    (lazy : builtin.inquiry? count = some inquiry) : inquiry.Strict := by
  cases builtin with
  | all | any | coalesce =>
      cases lazy
      exact Inquiry.strict_scan _ _ _ _
  | case =>
      cases lazy
      exact Inquiry.strict_choose _ _ _ _
  | select =>
      cases lazy
      exact .bind (.read fun _ => rfl) fun _ => .bind (.answer _) fun _ =>
        Inquiry.strict_choose _ _ _ _
  | step =>
      cases lazy
      exact .bind (.read fun _ => rfl) fun _ => Inquiry.strict_stepFrom _ _ _ _
  | interpolate =>
      cases lazy
      exact .bind (.read fun _ => rfl) fun _ => .bind (.read fun _ => rfl) fun _ =>
        .bind (Inquiry.strict_knots _ _) fun _ => Inquiry.strict_outputAt _ _ _ _
  | _ => cases lazy

/-! ## Inquiries come to the same as calls -/

namespace Decision

def scan (settle : Value → Option Value) (otherwise : Value) : List Outcome → Outcome
  | [] => return otherwise
  | argument :: rest => do
      let value ← argument
      match settle value with
      | some result => return result
      | none => scan settle otherwise rest

def choose (takes : Nat → Value → Except Error Bool) (exhausted : Error) :
    Nat → List Outcome → Outcome
  | position, condition :: output :: rest => do
      let value ← condition
      if ← takes position value then output else choose takes exhausted (position + 2) rest
  | _, [default] => default
  | _, [] => throw exhausted

theorem all_eq_scan (arguments : List Outcome) :
    all arguments =
      scan (fun value => if value.isTrue then none else some (.boolean false)) (.boolean true)
        arguments := by
  induction arguments with
  | nil => rfl
  | cons argument rest ih =>
      unfold all scan
      rw [ih]
      congr 1
      funext value
      cases value.isTrue <;> rfl

theorem any_eq_scan (arguments : List Outcome) :
    any arguments =
      scan (fun value => if value.isTrue then some (.boolean true) else none) (.boolean false)
        arguments := by
  induction arguments with
  | nil => rfl
  | cons argument rest ih =>
      unfold any scan
      rw [ih]
      congr 1
      funext value
      cases value.isTrue <;> rfl

theorem coalesce_eq_scan (arguments : List Outcome) :
    coalesce arguments =
      scan (fun value => if value.isNull then none else some value) .null arguments := by
  induction arguments with
  | nil => rfl
  | cons argument rest ih =>
      unfold coalesce scan
      rw [ih]
      congr 1
      funext value
      cases value.isNull <;> rfl

theorem case_eq_choose (position : Nat) (arguments : List Outcome) :
    case arguments =
      choose (fun _ value => .ok value.isTrue) .noMatchingCase position arguments := by
  induction arguments using List.twoStepInduction generalizing position with
  | nil => rfl
  | singleton default => rfl
  | cons_cons condition output rest ih _ =>
      unfold case choose
      rw [ih (position + 2)]
      rfl

theorem selectFrom_eq_choose (input : Value) (position : Nat) (arguments : List Outcome) :
    selectFrom input position arguments =
      choose (fun position label => Label.matchesInput Builtin.select.name position label input)
        .noMatchingLabel position arguments := by
  induction arguments using List.twoStepInduction generalizing position with
  | nil => rfl
  | singleton default => rfl
  | cons_cons label output rest ih _ =>
      unfold selectFrom choose
      rw [ih (position + 2)]

end Decision

namespace Inquiry

variable {arguments rest : List Outcome} {position : Nat} {outcome : Outcome}

/-- The items from a position on begin with the one at that position. -/
theorem getElem?_of_drop {α : Type} {items rest : List α} {item : α}
    (behind : items.drop position = item :: rest) :
    items[position]? = some item ∧ items.drop (position + 1) = rest := by
  constructor
  · rw [← Nat.add_zero position, ← List.getElem?_drop, behind]
    rfl
  · rw [← List.drop_drop, behind]
    rfl

theorem run?_scan (settle : Value → Option Value) (otherwise : Value)
    (behind : arguments.drop position = rest) :
    (scan settle otherwise position rest.length).run? arguments =
      some (Decision.scan settle otherwise rest) := by
  induction rest generalizing position with
  | nil => rfl
  | cons head rest ih =>
      obtain ⟨found, later⟩ := getElem?_of_drop behind
      rw [List.length_cons, scan, argument, run?_bind, run?_read found, Option.bind_some]
      cases head with
      | error cause => rfl
      | ok value =>
          dsimp only [id, Decision.scan]
          cases settled : settle value with
          | some result => simp [run?, settled, bind, Except.bind, pure, Except.pure]
          | none => simpa [settled, bind, Except.bind] using ih later

theorem run?_choose (takes : Nat → Value → Except Error Bool) (exhausted : Error)
    (behind : arguments.drop position = rest) :
    (choose takes exhausted position rest.length).run? arguments =
      some (Decision.choose takes exhausted position rest) := by
  induction rest using List.twoStepInduction generalizing position with
  | nil => rfl
  | singleton default => exact run?_argument (getElem?_of_drop behind).1
  | cons_cons condition output rest ih _ =>
      obtain ⟨found, later⟩ := getElem?_of_drop behind
      obtain ⟨next, last⟩ := getElem?_of_drop later
      rw [List.length_cons, List.length_cons, choose, argument, run?_bind, run?_read found,
        Option.bind_some]
      cases condition with
      | error cause => rfl
      | ok value =>
          dsimp only [id]
          rw [run?_bind, run?, Option.bind_some, Decision.choose]
          cases taken : takes position value with
          | error cause => simp [taken, bind, Except.bind]
          | ok flag =>
              cases flag with
              | true => simpa [taken, bind, Except.bind] using run?_argument next
              | false => simpa [taken, bind, Except.bind] using ih last

theorem run?_stepFrom (input : Double) {output : Nat} {current : Outcome}
    (selected : arguments[output]? = some current) (behind : arguments.drop position = rest) :
    (stepFrom input output position rest.length).run? arguments =
      some (Ramp.stepFrom input current position rest) := by
  induction rest using List.twoStepInduction generalizing output current position with
  | nil => exact run?_argument selected
  | singleton left => exact run?_argument selected
  | cons_cons stop next rest ih _ =>
      obtain ⟨found, later⟩ := getElem?_of_drop behind
      obtain ⟨nextFound, last⟩ := getElem?_of_drop later
      rw [List.length_cons, List.length_cons, stepFrom, number, run?_bind, run?_read found,
        Option.bind_some, Ramp.stepFrom]
      cases Operand.number Builtin.step.name position stop with
      | error cause => rfl
      | ok bound =>
          cases below : input.lt bound with
          | true => simpa [below, bind, Except.bind] using run?_argument selected
          | false => simpa [below, bind, Except.bind] using ih nextFound last

end Inquiry

namespace Ramp

variable {α β : Type}

def Knot.map (change : α → β) (knot : Knot α) : Knot β := ⟨knot.stop, change knot.output⟩

def Segment.map (change : α → β) (segment : Segment α) : Segment β :=
  ⟨segment.index, segment.lower.map change, segment.upper.map change⟩

/-- A segment is found by the stops alone. -/
theorem segment?_map (change : α → β) (input : Double) (index : Nat) (knots : List (Knot α)) :
    segment? input index (knots.map (Knot.map change)) =
      (segment? input index knots).map (Segment.map change) := by
  induction index, knots using segment?.induct input with
  | case1 index lower upper rest below =>
      simp [segment?, Knot.map, Segment.map, below]
  | case2 index lower upper rest above ih =>
      have passed : ¬ input.lt (upper.map change).stop = true := above
      rw [List.map_cons, List.map_cons, segment?, if_neg passed, segment?, if_neg above]
      exact ih
  | case3 found index short =>
      rcases found with _ | ⟨lower, _ | ⟨upper, rest⟩⟩
      · rfl
      · rfl
      · exact (short lower upper rest rfl).elim

end Ramp

namespace Inquiry

variable {arguments rest : List Outcome} {position : Nat}

def fetch (arguments : List Outcome) (position : Nat) : Outcome :=
  arguments[position]?.getD (.ok .null)

theorem fetch_of_getElem? {outcome : Outcome} (found : arguments[position]? = some outcome) :
    fetch arguments position = outcome := by
  rw [fetch, found, Option.getD_some]

theorem run?_fetch (within : position < arguments.length) :
    (argument position).run? arguments = some (fetch arguments position) := by
  have found := List.getElem?_eq_getElem within
  rw [run?_argument found, fetch_of_getElem? found]

/-- The stops that are found are those of the ramp, with the positions of its outputs. -/
theorem run?_knots (behind : arguments.drop position = rest) :
    ∃ result, (knots position rest.length).run? arguments = some result ∧
      Ramp.knots position rest = result.map (List.map (Ramp.Knot.map (fetch arguments))) ∧
      ∀ found, result = .ok found → ∀ (place : Nat) (knot : Ramp.Knot Nat),
        found[place]? = some knot →
          knot.output = position + 2 * place + 1 ∧ knot.output < arguments.length := by
  induction rest using List.twoStepInduction generalizing position with
  | nil => exact ⟨.ok [], rfl, rfl, by rintro _ ⟨⟩ place knot ⟨⟩⟩
  | singleton left => exact ⟨.ok [], rfl, rfl, by rintro _ ⟨⟩ place knot ⟨⟩⟩
  | cons_cons stop output rest ih _ =>
      obtain ⟨found, later⟩ := getElem?_of_drop behind
      obtain ⟨outputFound, last⟩ := getElem?_of_drop later
      rw [List.length_cons, List.length_cons, knots, number, run?_bind, run?_read found,
        Option.bind_some, Ramp.knots]
      cases Operand.number Builtin.interpolate.name position stop with
      | error cause => exact ⟨.error cause, rfl, rfl, by rintro _ ⟨⟩⟩
      | ok bound =>
          obtain ⟨result, run, read, within⟩ := ih last
          dsimp only
          rw [run?_bind, run, Option.bind_some, read]
          cases result with
          | error cause => exact ⟨.error cause, rfl, rfl, by rintro _ ⟨⟩⟩
          | ok others =>
              have head : fetch arguments (position + 1) = output := fetch_of_getElem? outputFound
              refine ⟨.ok (⟨bound, position + 1⟩ :: others), rfl, ?_, ?_⟩
              · simp [Except.map, Ramp.Knot.map, head, bind, Except.bind, pure, Except.pure]
              · rintro _ ⟨⟩ place knot present
                cases place with
                | zero =>
                    cases present
                    exact ⟨rfl, (List.getElem?_eq_some_iff.mp outputFound).1⟩
                | succ place =>
                    obtain ⟨placed, before⟩ := within others rfl place knot present
                    exact ⟨by omega, before⟩

/-- The output is found by asking for the arguments that belong to the stops around the input. -/
theorem run?_outputAt (refusal : Error) (curve : Curve) (input : Double)
    {knots : List (Ramp.Knot Nat)} (within : ∀ knot ∈ knots, knot.output < arguments.length) :
    (outputAt refusal curve input knots).run? arguments =
      some ((Ramp.outputAt? curve input (knots.map (Ramp.Knot.map (fetch arguments)))).getD
        (.error refusal)) := by
  unfold outputAt Ramp.outputAt?
  rw [List.head?_map, List.getLast?_map]
  cases started : knots.head? with
  | none => rfl
  | some first =>
      cases ended : knots.getLast? with
      | none => rfl
      | some last =>
          dsimp only [Option.map_some, Ramp.Knot.map]
          split
          · exact run?_fetch (within first (List.mem_of_mem_head? started))
          · split
            · exact run?_fetch (within last (List.mem_of_getLast? ended))
            · have mapped := Ramp.segment?_map (fetch arguments) input 0 knots
              rw [mapped]
              cases inside : Ramp.segment? input 0 knots with
              | none => rfl
              | some segment =>
                  obtain ⟨lower, upper⟩ := Ramp.mem_of_segment? inside
                  dsimp only [Option.map_some, Option.getD_some, Ramp.blendSegment,
                    Ramp.Segment.map, Ramp.Knot.map]
                  rw [run?_bind, run?_fetch (within _ lower), Option.bind_some]
                  cases fetch arguments segment.lower.output with
                  | error cause => rfl
                  | ok a =>
                      dsimp only
                      rw [run?_bind, run?_fetch (within _ upper), Option.bind_some]
                      cases fetch arguments segment.upper.output <;> rfl

theorem run?_select (input : Outcome) (rest : List Outcome) :
    (select (rest.length + 1)).run? (input :: rest) = some (Decision.select input rest) := by
  rw [select, run?_bind, run?_argument rfl, Option.bind_some]
  cases input with
  | error cause => rfl
  | ok value =>
      dsimp only
      have selected : Decision.select (.ok value) rest =
          (Label.checkInput value >>= fun _ => Decision.selectFrom value 1 rest) := rfl
      rw [run?_bind, run?, Option.bind_some, selected]
      cases Label.checkInput value with
      | error cause => rfl
      | ok checked =>
          dsimp only
          rw [Nat.add_sub_cancel, Decision.selectFrom_eq_choose]
          exact run?_choose _ _ rfl

theorem run?_step (input first : Outcome) (rest : List Outcome) :
    (step (rest.length + 2)).run? (input :: first :: rest) =
      some (Ramp.step input first rest) := by
  rw [step, number, run?_bind, run?_read rfl, Option.bind_some, Ramp.step]
  cases Operand.number Builtin.step.name 0 input with
  | error cause => rfl
  | ok x => exact run?_stepFrom x rfl rfl

theorem run?_interpolate (curve input : Outcome) (rest : List Outcome) :
    (interpolate (rest.length + 2)).run? (curve :: input :: rest) =
      some ((Ramp.interpolate? curve input rest).getD (.error
        (.argumentCount Builtin.interpolate.name Builtin.interpolate.arity (rest.length + 2)))) := by
  rw [interpolate, run?_bind, run?_read rfl, Option.bind_some,
    Ramp.interpolate?_eq_readParts, Ramp.readParts]
  cases Ramp.curveOf curve with
  | error cause => rfl
  | ok shape =>
      dsimp only
      rw [number, run?_bind, run?_read rfl, Option.bind_some]
      cases Operand.number Builtin.interpolate.name 1 input with
      | error cause => rfl
      | ok x =>
          obtain ⟨result, run, read, within⟩ :=
            @run?_knots (curve :: input :: rest) rest 2 rfl
          dsimp only
          rw [Nat.add_sub_cancel, run?_bind, run, Option.bind_some, read]
          cases result with
          | error cause => rfl
          | ok found =>
              refine run?_outputAt _ shape x fun knot member => ?_
              obtain ⟨place, present⟩ := List.mem_iff_getElem?.mp member
              exact (within found rfl place knot present).2

end Inquiry

/-- The inquiry of a function, run on as many arguments as it accepts, comes to its call. -/
theorem Builtin.run?_inquiry (source : Source) {builtin : Builtin} {arguments : List Outcome}
    {inquiry : Inquiry Value} (lazy : builtin.inquiry? arguments.length = some inquiry)
    (accepted : builtin.arity.accepts arguments.length = true) :
    inquiry.run? arguments = some (builtin.call source arguments) := by
  cases builtin with
  | all =>
      cases lazy
      rw [call_eq_of_rule accepted rfl, Decision.all_eq_scan]
      exact Inquiry.run?_scan _ _ rfl
  | any =>
      cases lazy
      rw [call_eq_of_rule accepted rfl, Decision.any_eq_scan]
      exact Inquiry.run?_scan _ _ rfl
  | coalesce =>
      cases lazy
      rw [call_eq_of_rule accepted rfl, Decision.coalesce_eq_scan]
      exact Inquiry.run?_scan _ _ rfl
  | case =>
      cases lazy
      rw [call_eq_of_rule accepted rfl, Decision.case_eq_choose 0]
      exact Inquiry.run?_choose _ _ rfl
  | select =>
      cases lazy
      have two : 2 ≤ arguments.length := Arity.le_of_atLeast accepted
      obtain ⟨input, rest, rfl⟩ :=
        List.exists_cons_of_length_pos (show 0 < arguments.length by omega)
      rw [call_eq_of_rule accepted rfl]
      exact Inquiry.run?_select input rest
  | step =>
      cases lazy
      have two : 2 ≤ arguments.length := Arity.le_of_atLeast accepted
      rcases arguments with _ | ⟨input, _ | ⟨first, rest⟩⟩
      · cases two
      · simp at two
      · rw [call_eq_of_rule accepted rfl]
        exact Inquiry.run?_step input first rest
  | interpolate =>
      cases lazy
      have four : 4 ≤ arguments.length := Arity.le_of_atLeast accepted
      rcases arguments with _ | ⟨curve, _ | ⟨input, rest⟩⟩
      · cases four
      · simp at four
      · rw [call, if_pos accepted]
        exact Inquiry.run?_interpolate curve input rest
  | _ => cases lazy

end MapStyle
