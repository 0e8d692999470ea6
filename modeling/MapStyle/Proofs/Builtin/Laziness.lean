import Mathlib.Data.Nat.Init
import MapStyle.Compiler.Context
import MapStyle.Proofs.Builtin.Inquiry

/-!
# Arguments that are never evaluated

A conjunction, disjunction or choice ends at the argument that settles it and passes over the
outputs of the branches that are not taken; a ramp passes over the stops behind the first one
above the input and over all outputs but those around it.  Nothing is asked of such an argument, so
any other may stand in its place.
-/

namespace MapStyle

/-- The places of the outputs that belong to the stops around an input. -/
def Ramp.around {α : Type} (input : Double) (knots : List (Knot α)) : List Nat :=
  match knots.head?, knots.getLast? with
  | some first, some last =>
      if input.le first.stop then [0]
      else if last.stop.le input then [knots.length - 1]
      else
        match segment? input 0 knots with
        | some segment => [segment.index, segment.index + 1]
        | none => []
  | _, _ => []

namespace Ramp

/-- The ends of a segment stand side by side at its place. -/
theorem getElem?_of_segment? {α : Type} {input : Double} {index : Nat} {knots : List (Knot α)}
    {segment : Segment α} (inside : segment? input index knots = some segment) :
    ∃ place, segment.index = index + place ∧ knots[place]? = some segment.lower ∧
      knots[place + 1]? = some segment.upper := by
  induction index, knots using segment?.induct input with
  | case1 index lower upper rest below =>
      rw [segment?, if_pos below] at inside
      obtain rfl := Option.some.inj inside
      exact ⟨0, rfl, rfl, rfl⟩
  | case2 index lower upper rest above ih =>
      rw [segment?, if_neg above] at inside
      obtain ⟨place, same, first, second⟩ := ih inside
      exact ⟨place + 1, by omega, first, second⟩
  | case3 knots index short =>
      rw [segment?] at inside
      · cases inside
      · exact short

/-- The places around an input are found by the stops alone. -/
theorem around_map {α β : Type} (change : α → β) (input : Double) (knots : List (Knot α)) :
    around input (knots.map (Knot.map change)) = around input knots := by
  unfold around
  rw [List.head?_map, List.getLast?_map, List.length_map, segment?_map]
  cases knots.head? with
  | none => rfl
  | some first =>
      cases knots.getLast? with
      | none => rfl
      | some last =>
          cases segment? input 0 knots with
          | none => rfl
          | some segment => rfl

end Ramp

/--
The positions that a function passes over for the outcomes of its arguments.  An argument that
fails settles the outcome just as one that is decisive does.
-/
inductive Builtin.PassesOver (outcomes : List Outcome) : Builtin → Nat → Prop where
  /-- What stands behind a conjunct that is not true. -/
  | conjunct {decisive position : Nat} {outcome : Outcome}
      (found : outcomes[decisive]? = some outcome)
      (decides : ∀ value, outcome = .ok value → value.isTrue = false)
      (behind : decisive < position) : PassesOver outcomes .all position
  /-- What stands behind a disjunct that is true. -/
  | disjunct {decisive position : Nat} {outcome : Outcome}
      (found : outcomes[decisive]? = some outcome)
      (decides : ∀ value, outcome = .ok value → value.isTrue = true)
      (behind : decisive < position) : PassesOver outcomes .any position
  /-- What stands behind a candidate that is not null. -/
  | candidate {decisive position : Nat} {outcome : Outcome}
      (found : outcomes[decisive]? = some outcome)
      (decides : ∀ value, outcome = .ok value → value.isNull = false)
      (behind : decisive < position) : PassesOver outcomes .coalesce position
  /-- What stands behind the output of a condition that is true. -/
  | branch {pair position : Nat} {outcome : Outcome} (paired : pair % 2 = 0)
      (followed : pair + 1 < outcomes.length) (found : outcomes[pair]? = some outcome)
      (taken : ∀ value, outcome = .ok value → value.isTrue = true)
      (behind : pair + 1 < position) : PassesOver outcomes .case position
  /-- The output of a condition that is not true. -/
  | output {pair : Nat} {outcome : Outcome} (paired : pair % 2 = 0)
      (followed : pair + 1 < outcomes.length) (found : outcomes[pair]? = some outcome)
      (untaken : ∀ value, outcome = .ok value → value.isTrue = false) :
      PassesOver outcomes .case (pair + 1)
  /-- What stands behind the output of a label that stands for the input. -/
  | label {pair position : Nat} {input : Value} {outcome : Outcome}
      (known : outcomes[0]? = some (.ok input)) (paired : pair % 2 = 1)
      (followed : pair + 1 < outcomes.length) (found : outcomes[pair]? = some outcome)
      (covers : ∀ label, outcome = .ok label → Label.covers label input = true)
      (behind : pair + 1 < position) : PassesOver outcomes .select position
  /-- The output of a label that does not stand for the input. -/
  | labelled {pair : Nat} {input : Value} {outcome : Outcome}
      (known : outcomes[0]? = some (.ok input)) (paired : pair % 2 = 1)
      (followed : pair + 1 < outcomes.length) (found : outcomes[pair]? = some outcome)
      (passes : ∀ label, outcome = .ok label → Label.covers label input = false) :
      PassesOver outcomes .select (pair + 1)
  /-- What stands behind a stop that the input has not reached. -/
  | stop {stop position : Nat} {x : Double} {input outcome : Outcome}
      (known : outcomes[0]? = some input) (number : Operand.number Builtin.step.name 0 input = .ok x)
      (paired : stop % 2 = 0) (first : 2 ≤ stop) (followed : stop + 1 < outcomes.length)
      (found : outcomes[stop]? = some outcome)
      (exceeds : ∀ bound, Operand.number Builtin.step.name stop outcome = .ok bound →
        x.lt bound = true)
      (behind : stop < position) : PassesOver outcomes .step position
  /-- The output before a stop that the input has reached. -/
  | reached {stop : Nat} {x : Double} {input outcome : Outcome}
      (known : outcomes[0]? = some input) (number : Operand.number Builtin.step.name 0 input = .ok x)
      (paired : stop % 2 = 0) (first : 2 ≤ stop) (followed : stop + 1 < outcomes.length)
      (found : outcomes[stop]? = some outcome)
      (reaches : ∀ bound, Operand.number Builtin.step.name stop outcome = .ok bound →
        x.lt bound = false) : PassesOver outcomes .step (stop - 1)
  /-- The output of a stop that is none of those around the input. -/
  | knot {place : Nat} {x : Double} {input : Outcome} {knots : List (Ramp.Knot Outcome)}
      (known : outcomes[1]? = some input)
      (number : Operand.number Builtin.interpolate.name 1 input = .ok x)
      (stops : Ramp.knots 2 (outcomes.drop 2) = .ok knots)
      (apart : place ∉ Ramp.around x knots) :
      PassesOver outcomes .interpolate (2 * place + 3)

/-- A label either is refused or is found to stand for the input as it does. -/
theorem Label.matchesInput_ne {function : String} {position : Nat} {label input : Value}
    {flag : Bool} (covers : Label.covers label input = flag) :
    Label.matchesInput function position label input ≠ .ok !flag := by
  unfold Label.matchesInput
  rw [covers]
  cases Label.check function position label with
  | error cause => rintro ⟨⟩
  | ok _ => cases flag <;> rintro ⟨⟩

namespace Inquiry

variable {arguments : List Outcome} {position remaining asking : Nat} {outcome : Outcome}

/-- An inquiry that begins with an argument goes on only if that does not fail. -/
theorem mem_asked_read_bind {α β : Type} {reading : Outcome → Except Error α}
    {next : α → Inquiry β} (member : asking ∈ (read position reading >>= next).asked arguments) :
    asking = position ∨ ∃ outcome value, arguments[position]? = some outcome ∧
      reading outcome = .ok value ∧ asking ∈ (next value).asked arguments := by
  rw [asked_bind, asked_read, List.singleton_append, List.mem_cons] at member
  rcases member with same | member
  · exact .inl same
  · cases found : arguments[position]? with
    | none =>
        have missing : (read position reading).run? arguments = none := by
          rw [read, run?, found]
        rw [missing] at member
        cases member
    | some outcome =>
        rw [run?_read found] at member
        cases result : reading outcome with
        | error cause =>
            rw [result] at member
            cases member
        | ok value =>
            rw [result] at member
            exact .inr ⟨outcome, value, rfl, result, member⟩

/-- The argument at a position is all that is asked for its value. -/
theorem mem_asked_argument (member : asking ∈ (argument position).asked arguments) :
    asking = position := by
  rw [argument, asked_read] at member
  exact List.mem_singleton.mp member

/-! ## One answer after the other -/

/-- Nothing is asked behind an argument that settles the answer. -/
theorem le_of_mem_asked_scan {settle : Value → Option Value} {otherwise : Value} {decisive : Nat}
    (found : arguments[decisive]? = some outcome)
    (decides : ∀ value, outcome = .ok value → (settle value).isSome = true)
    (reached : position ≤ decisive)
    (member : asking ∈ (scan settle otherwise position remaining).asked arguments) :
    asking ≤ decisive := by
  induction remaining generalizing position with
  | zero => cases member
  | succ remaining ih =>
      rcases mem_asked_read_bind member with rfl | ⟨first, value, here, same, member⟩
      · exact reached
      · cases settled : settle value with
        | some result =>
            rw [settled] at member
            cases member
        | none =>
            rw [settled] at member
            have passed : position ≠ decisive := by
              rintro rfl
              rw [found] at here
              cases here
              have settles := decides value same
              rw [settled] at settles
              cases settles
            exact ih (by omega) member

/-! ## Two by two -/

section Choose

variable {takes : Nat → Value → Except Error Bool} {exhausted : Error} {pair : Nat}

/-- What is asked of arguments two by two: a condition, then its output or what stands behind. -/
theorem mem_asked_choose
    (member : asking ∈ (choose takes exhausted position (remaining + 2)).asked arguments) :
    asking = position ∨ ∃ outcome value, arguments[position]? = some outcome ∧
      outcome = .ok value ∧
      (takes position value = .ok true ∧ asking = position + 1 ∨
        takes position value = .ok false ∧
          asking ∈ (choose takes exhausted (position + 2) remaining).asked arguments) := by
  rcases mem_asked_read_bind member with rfl | ⟨outcome, value, found, same, member⟩
  · exact .inl rfl
  · refine .inr ⟨outcome, value, found, same, ?_⟩
    rw [asked_bind, run?] at member
    cases taken : takes position value with
    | error cause =>
        rw [taken] at member
        cases member
    | ok flag =>
        rw [taken] at member
        cases flag with
        | true => exact .inl ⟨rfl, mem_asked_argument member⟩
        | false => exact .inr ⟨rfl, member⟩

theorem le_of_mem_asked_choose
    (member : asking ∈ (choose takes exhausted position remaining).asked arguments) :
    position ≤ asking := by
  induction remaining using Nat.twoStepInduction generalizing position with
  | zero => cases member
  | one => exact Nat.le_of_eq (mem_asked_argument member).symm
  | more remaining ih _ =>
      rcases mem_asked_choose member with rfl | ⟨_, _, _, _, ⟨_, rfl⟩ | ⟨_, member⟩⟩
      · exact Nat.le_refl _
      · exact Nat.le_succ _
      · exact Nat.le_of_add_right_le (ih member)

/-- Nothing is asked behind the output of a pair that is taken. -/
theorem le_of_mem_asked_choose_of_taken (found : arguments[pair]? = some outcome)
    (taken : ∀ value, outcome = .ok value → takes pair value ≠ .ok false)
    (reached : position ≤ pair) (paired : (pair - position) % 2 = 0)
    (followed : pair + 1 < position + remaining)
    (member : asking ∈ (choose takes exhausted position remaining).asked arguments) :
    asking ≤ pair + 1 := by
  induction remaining using Nat.twoStepInduction generalizing position with
  | zero => cases member
  | one => omega
  | more remaining ih _ =>
      rcases mem_asked_choose member with rfl | ⟨_, value, here, same, ⟨_, rfl⟩ | ⟨untaken, member⟩⟩
      · omega
      · omega
      · have passed : position ≠ pair := by
          rintro rfl
          rw [found] at here
          cases here
          exact taken value same untaken
        exact ih (by omega) (by omega) (by omega) member

/-- The output of a pair that is not taken is not asked for. -/
theorem not_mem_asked_choose_of_untaken (found : arguments[pair]? = some outcome)
    (untaken : ∀ value, outcome = .ok value → takes pair value ≠ .ok true)
    (reached : position ≤ pair) (paired : (pair - position) % 2 = 0)
    (followed : pair + 1 < position + remaining) :
    pair + 1 ∉ (choose takes exhausted position remaining).asked arguments := by
  induction remaining using Nat.twoStepInduction generalizing position with
  | zero => exact List.not_mem_nil
  | one => omega
  | more remaining ih _ =>
      intro member
      rcases mem_asked_choose member with
        same | ⟨_, value, here, same, ⟨taken, place⟩ | ⟨_, member⟩⟩
      · omega
      · obtain rfl : position = pair := by omega
        rw [found] at here
        cases here
        exact untaken value same taken
      · rcases Nat.eq_or_lt_of_le reached with rfl | before
        · have later := le_of_mem_asked_choose member
          omega
        · exact ih (by omega) (by omega) (by omega) member

end Choose

/-! ## Ramps -/

section Step

variable {input : Double} {output stop reached : Nat}

/-- What is asked of the stops of a step: a stop, then the output before it or what is behind. -/
theorem mem_asked_stepFrom
    (member : asking ∈ (stepFrom input output stop (remaining + 2)).asked arguments) :
    asking = stop ∨ ∃ outcome bound, arguments[stop]? = some outcome ∧
      Operand.number Builtin.step.name stop outcome = .ok bound ∧
      (input.lt bound = true ∧ asking = output ∨
        input.lt bound = false ∧
          asking ∈ (stepFrom input (stop + 1) (stop + 2) remaining).asked arguments) := by
  rcases mem_asked_read_bind member with rfl | ⟨outcome, bound, found, read, member⟩
  · exact .inl rfl
  · refine .inr ⟨outcome, bound, found, read, ?_⟩
    cases below : input.lt bound with
    | true =>
        rw [below] at member
        exact .inl ⟨rfl, mem_asked_argument member⟩
    | false =>
        rw [below] at member
        exact .inr ⟨rfl, member⟩

theorem le_of_mem_asked_stepFrom (before : output < stop)
    (member : asking ∈ (stepFrom input output stop remaining).asked arguments) :
    output ≤ asking := by
  induction remaining using Nat.twoStepInduction generalizing output stop with
  | zero => exact Nat.le_of_eq (mem_asked_argument member).symm
  | one => exact Nat.le_of_eq (mem_asked_argument member).symm
  | more remaining ih _ =>
      rcases mem_asked_stepFrom member with rfl | ⟨_, _, _, _, ⟨_, rfl⟩ | ⟨_, member⟩⟩
      · omega
      · exact Nat.le_refl _
      · have later := ih (Nat.lt_succ_self (stop + 1)) member
        omega

/-- Nothing is asked behind a stop that the input has not reached. -/
theorem le_of_mem_asked_stepFrom_of_exceeds (found : arguments[reached]? = some outcome)
    (exceeds : ∀ bound, Operand.number Builtin.step.name reached outcome = .ok bound →
      input.lt bound = true)
    (before : output < stop) (behind : stop ≤ reached) (paired : (reached - stop) % 2 = 0)
    (followed : reached + 1 < stop + remaining)
    (member : asking ∈ (stepFrom input output stop remaining).asked arguments) :
    asking ≤ reached := by
  induction remaining using Nat.twoStepInduction generalizing output stop with
  | zero => omega
  | one => omega
  | more remaining ih _ =>
      rcases mem_asked_stepFrom member with
        rfl | ⟨_, bound, here, read, ⟨_, rfl⟩ | ⟨passed, member⟩⟩
      · exact behind
      · omega
      · have later : stop ≠ reached := by
          rintro rfl
          rw [found] at here
          cases here
          rw [exceeds bound read] at passed
          cases passed
        exact ih (by omega) (by omega) (by omega) (by omega) member

/-- The output before a stop that the input has reached is not asked for. -/
theorem not_mem_asked_stepFrom_of_reached (found : arguments[reached]? = some outcome)
    (reaches : ∀ bound, Operand.number Builtin.step.name reached outcome = .ok bound →
      input.lt bound = false)
    (before : output + 1 = stop) (behind : stop ≤ reached) (paired : (reached - stop) % 2 = 0)
    (followed : reached + 1 < stop + remaining) :
    reached - 1 ∉ (stepFrom input output stop remaining).asked arguments := by
  induction remaining using Nat.twoStepInduction generalizing output stop with
  | zero => omega
  | one => omega
  | more remaining ih _ =>
      intro member
      rcases mem_asked_stepFrom member with
        same | ⟨_, bound, here, read, ⟨below, same⟩ | ⟨_, member⟩⟩
      · omega
      · obtain rfl : stop = reached := by omega
        rw [found] at here
        cases here
        rw [reaches bound read] at below
        cases below
      · rcases Nat.eq_or_lt_of_le behind with rfl | further
        · have later := le_of_mem_asked_stepFrom (Nat.lt_succ_self (stop + 1)) member
          omega
        · exact ih rfl (by omega) (by omega) (by omega) member

end Step

/-- The stops of an interpolation are asked for, and no output. -/
theorem even_of_mem_asked_knots (even : position % 2 = 0)
    (member : asking ∈ (knots position remaining).asked arguments) : asking % 2 = 0 := by
  induction remaining using Nat.twoStepInduction generalizing position with
  | zero => cases member
  | one => cases member
  | more remaining ih _ =>
      rcases mem_asked_read_bind member with rfl | ⟨_, _, _, _, member⟩
      · exact even
      · rw [asked_bind, List.mem_append] at member
        rcases member with member | member
        · exact ih (by omega) member
        · split at member
          · cases member
          · cases member

/-- What a choice by labels asks for besides its input. -/
theorem mem_asked_select {input : Value} {count : Nat} (known : arguments[0]? = some (.ok input))
    (member : asking ∈ (select count).asked arguments) :
    asking = 0 ∨ asking ∈ (choose
      (fun position label => Label.matchesInput Builtin.select.name position label input)
      .noMatchingLabel 1 (count - 1)).asked arguments := by
  rcases mem_asked_read_bind member with rfl | ⟨outcome, value, here, same, member⟩
  · exact .inl rfl
  · rw [known] at here
    cases here
    cases same
    rw [asked_bind, run?] at member
    cases checked : Label.checkInput input with
    | error cause =>
        rw [checked] at member
        cases member
    | ok _ =>
        rw [checked] at member
        exact .inr member

/-- What a step asks for besides its input. -/
theorem mem_asked_step {input : Outcome} {x : Double} {count : Nat}
    (known : arguments[0]? = some input)
    (number : Operand.number Builtin.step.name 0 input = .ok x)
    (member : asking ∈ (step count).asked arguments) :
    asking = 0 ∨ asking ∈ (stepFrom x 1 2 (count - 2)).asked arguments := by
  rcases mem_asked_read_bind member with rfl | ⟨outcome, operand, here, same, member⟩
  · exact .inl rfl
  · rw [known] at here
    cases here
    rw [number] at same
    cases same
    exact .inr member

/-- Of the outputs of an interpolation, only those around the input are asked for. -/
theorem mem_asked_outputAt {refusal : Error} {curve : Curve} {input : Double}
    {knots : List (Ramp.Knot Nat)}
    (member : asking ∈ (outputAt refusal curve input knots).asked arguments) :
    ∃ place ∈ Ramp.around input knots, ∃ knot, knots[place]? = some knot ∧
      asking = knot.output := by
  unfold outputAt at member
  unfold Ramp.around
  cases started : knots.head? with
  | none =>
      rw [started] at member
      cases member
  | some first =>
      cases ended : knots.getLast? with
      | none =>
          rw [started, ended] at member
          cases member
      | some last =>
          rw [started, ended] at member
          dsimp only at member ⊢
          split at member
          · rename_i low
            rw [if_pos low]
            rw [List.head?_eq_getElem?] at started
            exact ⟨0, List.mem_singleton_self 0, first, started, mem_asked_argument member⟩
          · rename_i above
            rw [if_neg above]
            split at member
            · rename_i high
              rw [if_pos high]
              rw [List.getLast?_eq_getElem?] at ended
              exact ⟨_, List.mem_singleton_self _, last, ended, mem_asked_argument member⟩
            · rename_i below
              rw [if_neg below]
              split at member
              · rename_i segment inside
                rw [inside]
                obtain ⟨place, same, lower, upper⟩ := Ramp.getElem?_of_segment? inside
                rw [Nat.zero_add] at same
                rcases mem_asked_read_bind member with rfl | ⟨_, _, _, _, member⟩
                · exact ⟨place, by simp [same], segment.lower, lower, rfl⟩
                · rcases mem_asked_read_bind member with rfl | ⟨_, _, _, _, member⟩
                  · exact ⟨place + 1, by simp [same], segment.upper, upper, rfl⟩
                  · cases member
              · cases member

/-- The output of a stop that is none of those around the input is not asked for. -/
theorem not_mem_asked_interpolate {place : Nat} {x : Double} {input : Outcome}
    {stops : List (Ramp.Knot Outcome)} (known : arguments[1]? = some input)
    (number : Operand.number Builtin.interpolate.name 1 input = .ok x)
    (read : Ramp.knots 2 (arguments.drop 2) = .ok stops) (apart : place ∉ Ramp.around x stops) :
    2 * place + 3 ∉ (interpolate arguments.length).asked arguments := by
  intro member
  rcases mem_asked_read_bind member with same | ⟨_, shape, _, _, member⟩
  · omega
  rcases mem_asked_read_bind member with same | ⟨outcome, operand, here, same, member⟩
  · omega
  rw [known] at here
  cases here
  rw [number] at same
  cases same
  obtain ⟨result, run, found, placed⟩ := @run?_knots arguments (arguments.drop 2) 2 rfl
  rw [List.length_drop] at run
  rw [asked_bind, run, List.mem_append] at member
  rcases member with member | member
  · have even := even_of_mem_asked_knots rfl member
    omega
  · rw [read] at found
    cases result with
    | error cause => cases member
    | ok knots =>
        cases found
        obtain ⟨other, near, knot, present, same⟩ := mem_asked_outputAt member
        have output := (placed knots rfl other knot present).1
        obtain rfl : other = place := by omega
        exact apart (by rwa [Ramp.around_map])

end Inquiry

namespace Builtin

/-- What a function passes over is not asked for. -/
theorem PassesOver.not_mem_asked {builtin : Builtin} {outcomes : List Outcome} {position : Nat}
    {inquiry : Inquiry Value} (passes : builtin.PassesOver outcomes position)
    (lazy : builtin.inquiry? outcomes.length = some inquiry) :
    position ∉ inquiry.asked outcomes := by
  intro member
  cases passes with
  | conjunct found decides behind =>
      cases lazy
      have before := Inquiry.le_of_mem_asked_scan found
        (fun value same => by simp [decides value same]) (Nat.zero_le _) member
      omega
  | disjunct found decides behind =>
      cases lazy
      have before := Inquiry.le_of_mem_asked_scan found
        (fun value same => by simp [decides value same]) (Nat.zero_le _) member
      omega
  | candidate found decides behind =>
      cases lazy
      have before := Inquiry.le_of_mem_asked_scan found
        (fun value same => by simp [decides value same]) (Nat.zero_le _) member
      omega
  | branch paired followed found taken behind =>
      cases lazy
      have before := Inquiry.le_of_mem_asked_choose_of_taken found
        (fun value same => by simp [taken value same]) (Nat.zero_le _) paired (by omega) member
      omega
  | output paired followed found untaken =>
      cases lazy
      exact Inquiry.not_mem_asked_choose_of_untaken found
        (fun value same => by simp [untaken value same]) (Nat.zero_le _) paired (by omega) member
  | @label pair _ input outcome known paired followed found covers behind =>
      cases lazy
      rcases Inquiry.mem_asked_select known member with rfl | member
      · omega
      · have before := Inquiry.le_of_mem_asked_choose_of_taken found
          (fun label same => Label.matchesInput_ne (covers label same)) (by omega) (by omega)
          (by omega) member
        omega
  | @labelled pair input outcome known paired followed found passes =>
      cases lazy
      rcases Inquiry.mem_asked_select known member with same | member
      · omega
      · exact Inquiry.not_mem_asked_choose_of_untaken found
          (fun label same => Label.matchesInput_ne (passes label same)) (by omega) (by omega)
          (by omega) member
  | stop known number paired first followed found exceeds behind =>
      cases lazy
      rcases Inquiry.mem_asked_step known number member with rfl | member
      · omega
      · have before := Inquiry.le_of_mem_asked_stepFrom_of_exceeds found exceeds
          (by omega) first (by omega) (by omega) member
        omega
  | reached known number paired first followed found reaches =>
      cases lazy
      rcases Inquiry.mem_asked_step known number member with same | member
      · omega
      · exact Inquiry.not_mem_asked_stepFrom_of_reached found reaches rfl first (by omega)
          (by omega) member
  | knot known number stops apart =>
      cases lazy
      exact Inquiry.not_mem_asked_interpolate known number stops apart member

/-- A call stays the same where an argument that is not asked for is replaced. -/
theorem call_set_of_not_mem_asked (source : Source) {builtin : Builtin} {outcomes : List Outcome}
    {inquiry : Inquiry Value} (lazy : builtin.inquiry? outcomes.length = some inquiry)
    {position : Nat} (unasked : position ∉ inquiry.asked outcomes) (other : Outcome) :
    builtin.call source (outcomes.set position other) = builtin.call source outcomes := by
  have length : (outcomes.set position other).length = outcomes.length := List.length_set
  cases accepted : builtin.arity.accepts outcomes.length with
  | false =>
      unfold call
      rw [length, accepted]
      rfl
  | true =>
      have same := run?_inquiry source (by rwa [length]) (by rwa [length] : builtin.arity.accepts
        (outcomes.set position other).length = true)
      rw [Inquiry.run?_set unasked, run?_inquiry source lazy accepted] at same
      exact (Option.some.inj same).symm

/-- A call fails as an argument does that is asked for. -/
theorem call_set_of_mem_asked (source : Source) {builtin : Builtin} {outcomes : List Outcome}
    {inquiry : Inquiry Value} (lazy : builtin.inquiry? outcomes.length = some inquiry)
    (accepted : builtin.arity.accepts outcomes.length = true) {position : Nat}
    (asked : position ∈ inquiry.asked outcomes) (within : position < outcomes.length)
    (cause : Error) :
    builtin.call source (outcomes.set position (.error cause)) = .error cause := by
  have length : (outcomes.set position (.error cause)).length = outcomes.length := List.length_set
  have run := run?_inquiry source (by rwa [length]) (by rwa [length] : builtin.arity.accepts
    (outcomes.set position (.error cause)).length = true)
  rw [(strict_inquiry lazy).run?_set asked within cause] at run
  exact (Option.some.inj run).symm

end Builtin

/--
Evaluation is lazy.  A conjunction, disjunction, choice or ramp asks for the outcomes of its
arguments one after the other, and any argument that it does not ask for, such as one that it
passes over, may be replaced by any other term: the call comes to the same value or failure.
-/
theorem evaluation_is_lazy (evaluator : Evaluator) (depth : Nat) {builtin : Builtin}
    {arguments : List Term} {inquiry : Inquiry Value}
    (lazy : builtin.inquiry? arguments.length = some inquiry) :
    (∀ position, builtin.PassesOver (arguments.map (evaluator.evaluate (depth + 1))) position →
      position ∉ inquiry.asked (arguments.map (evaluator.evaluate (depth + 1)))) ∧
    ∀ position other, position ∉ inquiry.asked (arguments.map (evaluator.evaluate (depth + 1))) →
      evaluator.evaluate depth (builtin.applied (arguments.set position other)) =
        evaluator.evaluate depth (builtin.applied arguments) := by
  have lazy : builtin.inquiry? (arguments.map (evaluator.evaluate (depth + 1))).length =
      some inquiry := by rwa [List.length_map]
  constructor
  · intro position passes
    exact passes.not_mem_asked lazy
  · intro position other unasked
    unfold Builtin.applied Evaluator.evaluate
    split
    · rfl
    · cases found : evaluator.registry.find? builtin.name with
      | none => rfl
      | some registered =>
          obtain rfl := Registry.eq_of_find?_name found
          dsimp only
          rw [Evaluator.evaluateAll_eq_map, Evaluator.evaluateAll_eq_map, List.map_set]
          exact Builtin.call_set_of_not_mem_asked _ lazy unasked _

/-- Behind a taken branch, a call that must fail is as good as a property. -/
theorem evaluation_is_lazy_case :
    Builtin.case.inquiry? 3 = some (.choose (fun _ value => .ok value.isTrue) .noMatchingCase 0 3) ∧
    Evaluator.evaluate { source := .constants, limit := 1 } 0
        (Builtin.case.applied
          [.literal (.boolean true), .literal (.string "taken"), .property "missing"]) =
      Evaluator.evaluate { source := .constants, limit := 1 } 0
        (Builtin.case.applied
          [.literal (.boolean true), .literal (.string "taken"), .call "nothing" []]) := by
  refine ⟨rfl, ?_⟩
  obtain ⟨unasked, replaced⟩ := @evaluation_is_lazy { source := .constants, limit := 1 } 0 .case
    [.literal (.boolean true), .literal (.string "taken"), .call "nothing" []] _ rfl
  refine replaced 2 (.property "missing") (unasked 2 ?_)
  refine @Builtin.PassesOver.branch _ 0 2 (.ok (.boolean true)) rfl (by decide) ?_ ?_ (by decide)
  · simp [Evaluator.evaluate]
  · rintro value ⟨⟩
    rfl

/--
What is asked for is reached: where an argument that a call asks for fails, so does the call, if
its function is registered and it is neither nested too deep nor of the wrong length.
-/
theorem evaluation_reaches_asked (evaluator : Evaluator) {depth : Nat} {builtin : Builtin}
    {arguments : List Term} {inquiry : Inquiry Value}
    (lazy : builtin.inquiry? arguments.length = some inquiry)
    (shallow : depth < evaluator.limit)
    (registered : evaluator.registry.find? builtin.name = some builtin)
    (accepted : builtin.arity.accepts arguments.length = true) {position : Nat}
    (asked : position ∈ inquiry.asked (arguments.map (evaluator.evaluate (depth + 1))))
    (within : position < arguments.length) {other : Term} {cause : Error}
    (fails : evaluator.evaluate (depth + 1) other = .error cause) :
    evaluator.evaluate depth (builtin.applied (arguments.set position other)) = .error cause := by
  unfold Builtin.applied Evaluator.evaluate
  rw [if_neg (Nat.not_le.mpr shallow), registered]
  dsimp only
  rw [Evaluator.evaluateAll_eq_map, List.map_set, fails]
  apply Builtin.call_set_of_mem_asked evaluator.source _ _ asked
  · rwa [List.length_map]
  · rwa [List.length_map]
  · rwa [List.length_map]

end MapStyle
