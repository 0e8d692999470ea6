import MapStyle.Builtin.Course
import MapStyle.Proofs.Builtin.Segment

/-!
# Courses that come to their results

What it is that a course comes to a result without breaking off, and that calls do so.
-/

namespace MapStyle

/-!
## Courses that come to a result

A course returns a result from a state if it comes to that result, a value or a cause of failure,
without breaking off, and leaves the same state behind.  A position before the end, a part that is
no greater than the whole and a search that finds something do so, and so does a change of the
state that can be taken back.
-/

namespace Course

variable {σ α β : Type} {state : σ} {course : Course σ α} {result : Except Error α}

/-- From the state, the course comes to the result and leaves the state as it was. -/
def Returns (course : Course σ α) (state : σ) (result : Except Error α) : Prop :=
  course.takeFrom state = .ok (result, state)

namespace Returns

theorem takeFrom_eq (returns : Returns course state result) :
    course.takeFrom state = .ok (result, state) :=
  returns

theorem pure (value : α) : Returns (Pure.pure value) state (Pure.pure value) := rfl

theorem throw (cause : Error) :
    Returns (throwThe Error cause : Course σ α) state (.error cause) :=
  rfl

/-- A check that asks for no state leaves it as it was. -/
theorem lift (result : Except Error α) : Returns (liftM result) state result := rfl

/-- A question leaves the state as it was. -/
theorem ask (question : σ → Except Error α) :
    Returns (Course.ask question) state (question state) :=
  rfl

/-- A course that goes on where another one has come to a value and left the state as it was. -/
theorem bind {next : α → Course σ β} {later : α → Except Error β}
    (first : Returns course state result)
    (step : ∀ value, result = .ok value → Returns (next value) state (later value)) :
    Returns (course >>= next) state (result >>= later) := by
  have run : (course >>= next).takeFrom state =
      (course.takeFrom state >>= fun after => ExceptT.bindCont next after.1 after.2) := rfl
  rw [Returns, run, first.takeFrom_eq]
  cases result with
  | ok value => exact step value rfl
  | error cause => rfl

/-- A course that goes on with the value that another one is known to come to. -/
theorem goOn {value : α} {next : α → Course σ β} {later : Except Error β}
    (first : Returns course state (.ok value)) (step : Returns (next value) state later) :
    Returns (course >>= next) state later := by
  apply first.bind
  rintro _ ⟨⟩
  exact step

/-- A course that would have gone on behind another one that is known to fail. -/
theorem fail {cause : Error} {next : α → Course σ β}
    (first : Returns course state (.error cause)) :
    Returns (course >>= next) state (.error cause) :=
  @bind σ α β state course (.error cause) next (fun _ => .error cause) first fun _ => nofun

theorem itemAt {items : List α} {position : Nat} {item : α}
    (present : items[position]? = some item) :
    Returns (Course.itemAt items position) state (.ok item) := by
  rw [Course.itemAt, present]
  exact .pure item

theorem itemsFrom {items : List α} {position : Nat} (within : position ≤ items.length) :
    Returns (Course.itemsFrom items position) state (.ok (items.drop position)) := by
  rw [Course.itemsFrom, if_pos within]
  exact .pure _

theorem minus {whole part : Nat} (within : part ≤ whole) :
    Returns (Course.minus whole part) state (.ok (whole - part)) := by
  rw [Course.minus, if_pos within]
  exact .pure _

/-- A change of the state that is taken back, whether the course inside it fails or not. -/
theorem inside {enter : σ → σ} {leave : σ → Except Fault σ}
    (within : Returns course (enter state) result) (back : leave (enter state) = .ok state) :
    Returns (Course.inside enter leave course) state result := by
  -- The result is looked at behind the way back, so a failure has no way around it.
  have run : (Course.inside enter leave course).takeFrom state =
      (course.takeFrom (enter state) >>= fun after =>
        leave after.2 >>= fun back => Pure.pure (after.1, back)) := rfl
  rw [Returns, run, within.takeFrom_eq]
  change (leave (enter state) >>= fun back => Pure.pure (result, back)) = _
  rw [back]
  rfl

/-- A course in a state of its own leaves the one around it as it was. -/
theorem apart {τ : Type} {around : τ} (within : Returns course state result) :
    Returns (Course.apart course state) around (.ok result) := by
  have run : (Course.apart course state).takeFrom around =
      (course.takeFrom state >>= fun after => Pure.pure (.ok after.1, around)) := rfl
  rw [Returns, run, within.takeFrom_eq]
  rfl

end Returns

end Course

/-!
## Calls come to their outcomes without breaking off

If the arguments of a call come to their outcomes and leave the state as it was, so does the call,
whenever there are as many as its function accepts.  The number of arguments keeps every position
before the end; between the first and the last stop of a ramp, the order of finite numbers keeps
the search for the next stop from finding nothing.
-/

open Course (Returns)

namespace Ramp

variable {outcomes rest : List Outcome} {position : Nat}

theorem map_knots_cons (position : Nat) (stop output : Outcome) (rest : List Outcome) :
    (knots position (stop :: output :: rest)).map (List.map Knot.stop) =
      (do
        let bound ← Operand.number Builtin.interpolate.name position stop
        let others ← (knots (position + 2) rest).map (List.map Knot.stop)
        return bound :: others) := by
  rw [knots]
  cases Operand.number Builtin.interpolate.name position stop with
  | error cause => rfl
  | ok bound => cases knots (position + 2) rest <;> rfl

/-- The output of a stop is the outcome behind it. -/
theorem outputs_of_knots {stops : List (Knot Outcome)}
    (read : knots position rest = .ok stops) (behind : outcomes.drop position = rest) :
    stops.length = rest.length / 2 ∧ ∀ (place : Nat) (knot : Knot Outcome),
      stops[place]? = some knot → outcomes[position + 2 * place + 1]? = some knot.output := by
  induction rest using List.twoStepInduction generalizing position stops with
  | nil =>
      obtain rfl := Except.ok.inj read
      exact ⟨rfl, by rintro place knot ⟨⟩⟩
  | singleton left =>
      obtain rfl := Except.ok.inj read
      exact ⟨by simp, by rintro place knot ⟨⟩⟩
  | cons_cons stop output rest ih _ =>
      obtain ⟨_, later⟩ := Inquiry.getElem?_of_drop behind
      obtain ⟨found, last⟩ := Inquiry.getElem?_of_drop later
      rw [knots] at read
      obtain ⟨bound, _, read⟩ := bind_eq_ok.mp read
      obtain ⟨others, tail, same⟩ := bind_eq_ok.mp read
      cases same
      obtain ⟨count, placed⟩ := ih tail last
      refine ⟨by simp only [List.length_cons, count]; omega, fun place knot present => ?_⟩
      cases place with
      | zero =>
          obtain rfl := Option.some.inj present
          exact found
      | succ place =>
          have shifted : position + 2 * (place + 1) + 1 = position + 2 + 2 * place + 1 := by omega
          rw [shifted]
          exact placed place knot present

/-- The first stop above the input is the upper end of the segment, unless it is the first stop. -/
theorem findIdx?_of_segment? {x : Double} {index : Nat} {first : Knot Outcome}
    {knots : List (Knot Outcome)} {segment : Segment Outcome}
    (started : x.lt first.stop = false)
    (inside : segment? x index (first :: knots) = some segment) :
    ∃ place, segment.index = index + place ∧
      ((first :: knots).map Knot.stop).findIdx? (fun stop => x.lt stop) = some (place + 1) := by
  induction knots generalizing index first with
  | nil => cases inside
  | cons upper knots ih =>
      rw [segment?] at inside
      cases above : x.lt upper.stop with
      | true =>
          rw [above, if_pos rfl] at inside
          obtain rfl := Option.some.inj inside
          exact ⟨0, rfl, by simp [List.findIdx?_cons, started, above]⟩
      | false =>
          rw [above, if_neg Bool.false_ne_true] at inside
          obtain ⟨place, same, search⟩ := ih above inside
          refine ⟨place + 1, by omega, ?_⟩
          rw [List.map_cons, List.findIdx?_cons, started, search]
          rfl

/-- An interpolation reads the curve, the input and the stops before it looks for the output. -/
theorem getD_interpolate? (curve input : Outcome) (rest : List Outcome) (refusal : Outcome) :
    (interpolate? curve input rest).getD refusal =
      (do
        let value ← curve
        let shape ← curveOf (.ok value)
        let x ← Operand.number Builtin.interpolate.name 1 input
        let stops ← knots 2 rest
        (outputAt? shape x stops).getD refusal) := by
  rw [interpolate?_eq_readParts, readParts]
  cases curve with
  | error cause => rfl
  | ok value =>
      change _ = (curveOf (.ok value) >>= fun shape => _)
      cases curveOf (.ok value) with
      | error cause => rfl
      | ok shape =>
          cases Operand.number Builtin.interpolate.name 1 input with
          | error cause => rfl
          | ok x => cases knots 2 rest <;> rfl

end Ramp

namespace Call

variable {σ : Type} {state : σ} {arguments : Arguments σ} {outcomes rest : List Outcome}
  {outcome : Outcome} {position : Nat}

/-- Arguments that come to these outcomes and leave the state as it was. -/
def Answers (arguments : Arguments σ) (state : σ) (outcomes : List Outcome) : Prop :=
  List.Forall₂ (fun course outcome => Returns course state outcome) arguments outcomes

theorem Answers.length_eq (answers : Answers arguments state outcomes) :
    arguments.length = outcomes.length :=
  List.Forall₂.length_eq answers

theorem Answers.drop (answers : Answers arguments state outcomes) (count : Nat) :
    Answers (arguments.drop count) state (outcomes.drop count) :=
  List.forall₂_drop count answers

theorem Answers.getElem? (answers : Answers arguments state outcomes)
    (found : outcomes[position]? = some outcome) :
    ∃ course, arguments[position]? = some course ∧ Returns course state outcome := by
  induction answers generalizing position with
  | nil => cases found
  | @cons course _ _ _ first _ ih =>
      cases position with
      | zero =>
          obtain rfl := Option.some.inj found
          exact ⟨course, rfl, first⟩
      | succ position => exact ih found

section

variable (answers : Answers arguments state outcomes) (position : Nat)
  (found : outcomes[position]? = some outcome)

include answers found

theorem argument_returns : Returns (argument arguments position) state outcome := by
  obtain ⟨course, present, returns⟩ := answers.getElem? found
  exact (Returns.itemAt present).goOn returns

theorem number_returns (function : String) :
    Returns (number function arguments position) state
      (Operand.number function position outcome) := by
  have read := (argument_returns answers position found).bind fun value _ =>
    Returns.lift (Operand.number function position (.ok value))
  cases outcome <;> exact read

theorem text_returns (function : String) :
    Returns (text function arguments position) state (Operand.text function position outcome) := by
  have read := (argument_returns answers position found).bind fun value _ =>
    Returns.lift (Operand.text function position (.ok value))
  cases outcome <;> exact read

end

theorem one_returns {run : Outcome → Outcome} (answers : Answers arguments state [outcome])
    (strict : ∀ cause, run (.error cause) = .error cause) :
    Returns (one run arguments) state (run outcome) := by
  have read := (argument_returns answers 0 rfl).bind fun value _ =>
    Returns.lift (run (.ok value))
  cases outcome with
  | ok value => exact read
  | error cause =>
      rw [strict]
      exact read

theorem two_returns {run : Outcome → Outcome → Outcome} {left right : Outcome}
    (answers : Answers arguments state [left, right])
    (strict : ∀ cause, run (.error cause) right = .error cause)
    (strictAgain : ∀ value cause, run (.ok value) (.error cause) = .error cause) :
    Returns (two run arguments) state (run left right) := by
  have read := (argument_returns answers 0 rfl).bind fun first _ =>
    (argument_returns answers 1 rfl).bind fun second _ =>
      Returns.lift (run (.ok first) (.ok second))
  cases left with
  | error cause =>
      rw [strict]
      exact read
  | ok value =>
      cases right with
      | error cause =>
          rw [strictAgain]
          exact read
      | ok other => exact read

/-! ### Arguments one after the other -/

theorem scan_returns (settle : Value → Option Value) (otherwise : Value)
    (answers : Answers arguments state outcomes) :
    Returns (scan settle otherwise arguments) state (Decision.scan settle otherwise outcomes) := by
  induction answers with
  | nil => exact .pure otherwise
  | cons first _ ih =>
      refine first.bind fun value _ => ?_
      cases settle value with
      | some result => exact .pure result
      | none => exact ih

/-- Both positions of a pair lie inside it, and at most one argument is left over. -/
theorem choose_returns (takes : Nat → Value → Except Error Bool) (exhausted : Error)
    (position : Nat) (answers : Answers arguments state outcomes) :
    Returns (choose takes exhausted position (inPairs arguments).1 (inPairs arguments).2) state
      (Decision.choose takes exhausted position outcomes) := by
  induction outcomes using List.twoStepInduction generalizing arguments position with
  | nil =>
      cases answers
      exact .throw exhausted
  | singleton default =>
      rcases answers with _ | ⟨only, ⟨⟩⟩
      exact only
  | cons_cons condition output rest ih _ =>
      rcases answers with _ | ⟨first, _ | ⟨second, answers⟩⟩
      have pair : Answers [_, _] state [condition, output] := .cons first (.cons second .nil)
      refine (argument_returns pair 0 rfl).bind fun value _ => ?_
      refine (Returns.lift (takes position value)).bind fun taken _ => ?_
      cases taken with
      | true => exact argument_returns pair 1 rfl
      | false => exact ih (position + 2) answers

theorem case_returns (answers : Answers arguments state outcomes) :
    Returns (case arguments) state (Decision.case outcomes) := by
  rw [Decision.case_eq_choose 0]
  exact choose_returns _ _ 0 answers

theorem select_returns {input : Outcome} (answers : Answers arguments state (input :: rest)) :
    Returns (select arguments) state (Decision.select input rest) := by
  refine (argument_returns answers 0 rfl).bind fun value _ => ?_
  refine (Returns.lift (Label.checkInput value)).bind fun _ _ => ?_
  have within : 1 ≤ arguments.length := by
    rw [answers.length_eq]
    exact Nat.le_add_left _ _
  rw [Decision.selectFrom_eq_choose]
  exact (Returns.itemsFrom within).goOn (choose_returns _ _ 1 (answers.drop 1))

theorem firstOf_returns (function expected : String) (convert? : Value → Option Value)
    (seen : Option Kind) (answers : Answers arguments state outcomes) :
    Returns (firstOf function expected convert? seen arguments) state
      (Conversion.firstOf function expected convert? seen outcomes) := by
  induction answers generalizing seen with
  | nil => exact .throw _
  | cons first _ ih =>
      refine first.bind fun value _ => ?_
      cases convert? value with
      | some result => exact .pure result
      | none => exact ih _

/-- The texts are put behind the one that is there, in the order of the arguments. -/
theorem concatenation_returns (content : String) (answers : Answers arguments state outcomes) :
    Returns (concatenation content arguments) state
      ((Conversion.concatenation outcomes).map (content ++ ·)) := by
  induction answers generalizing content with
  | nil =>
      have same : content ++ "" = content := String.append_empty
      rw [Conversion.concatenation]
      exact congrArg (fun text => Except.ok (Except.ok text, state)) same.symm
  | @cons _ outcome _ outcomes first _ ih =>
      have read := first.bind fun value _ => ih (content ++ value.plainText)
      have same : (Conversion.concatenation (outcome :: outcomes)).map (content ++ ·) =
          outcome >>= fun value =>
            (Conversion.concatenation outcomes).map (content ++ value.plainText ++ ·) := by
        cases outcome with
        | error cause => rfl
        | ok value =>
            cases found : Conversion.concatenation outcomes with
            | error cause => simp [Conversion.concatenation, found, bind, Except.bind, Except.map]
            | ok others =>
                simp [Conversion.concatenation, found, bind, Except.bind, Except.map, pure,
                  Except.pure, String.append_assoc]
      rw [same]
      exact read

theorem concatenate_returns (answers : Answers arguments state outcomes) :
    Returns (concatenate arguments) state (Conversion.concatenate outcomes) := by
  have read := (concatenation_returns "" answers).bind fun content _ =>
    Returns.pure (Value.string content)
  have same : Conversion.concatenate outcomes =
      (Conversion.concatenation outcomes).map ("" ++ ·) >>= fun content =>
        pure (Value.string content) := by
    rw [Conversion.concatenate]
    cases Conversion.concatenation outcomes with
    | error cause => rfl
    | ok content => simp [bind, Except.bind, Except.map, pure, Except.pure]
  rw [same]
  exact read

/-! ### Numbers -/

theorem binary_returns (function : BinaryFunction) {left right : Outcome}
    (answers : Answers arguments state [left, right]) :
    Returns (binary function arguments) state (Arithmetic.binary function left right) :=
  (number_returns answers 0 rfl _).bind fun _ _ =>
    (number_returns answers 1 rfl _).bind fun _ _ => .pure _

theorem zoomLevel_returns {scale system : Outcome}
    (answers : Answers arguments state [scale, system]) :
    Returns (zoomLevel arguments) state (Reading.zoomLevel scale system) := by
  refine (number_returns answers 0 rfl _).bind fun denominator _ => ?_
  refine (text_returns answers 1 rfl _).bind fun name _ => ?_
  split
  · exact .pure _
  · exact .throw _

/-- The positions from one on, as many as there are arguments behind it, lie before the end. -/
theorem numbers_returns (function : String) (answers : Answers arguments state outcomes)
    (behind : outcomes.drop position = rest) :
    Returns (Course.collect 1 (number function arguments) position rest.length) state
      (Operand.numbers function position rest) := by
  induction rest generalizing position with
  | nil => exact .pure []
  | cons outcome rest ih =>
      obtain ⟨found, later⟩ := Inquiry.getElem?_of_drop behind
      exact (number_returns answers position found function).bind fun x _ =>
        (ih later).bind fun others _ => .pure _

theorem list_returns (function : ListFunction) (answers : Answers arguments state outcomes) :
    Returns (list function arguments) state (Arithmetic.list function outcomes) := by
  unfold list
  rw [answers.length_eq]
  exact (numbers_returns _ answers rfl).bind fun numbers _ => .pure _

/-! ### Ramps -/

/--
The position that a step counts up to is that of an output, and the stop it looks at next stands
behind it.
-/
theorem reached_returns (input : Double) (output : Nat) {current : Outcome}
    (answers : Answers arguments state outcomes) (selected : outcomes[output]? = some current)
    (behind : outcomes.drop position = rest) :
    Returns (reached input arguments output position >>= argument arguments) state
      (Ramp.stepFrom input current position rest) := by
  induction rest using List.twoStepInduction generalizing output current position with
  | nil =>
      have ended : ¬position + 1 < arguments.length := by
        have short := List.drop_eq_nil_iff.mp behind
        rw [answers.length_eq]
        omega
      rw [reached, if_neg ended]
      exact argument_returns answers _ selected
  | singleton left =>
      have ended : ¬position + 1 < arguments.length := by
        have short := List.drop_eq_nil_iff.mp (Inquiry.getElem?_of_drop behind).2
        rw [answers.length_eq]
        omega
      rw [reached, if_neg ended]
      exact argument_returns answers _ selected
  | cons_cons stop next rest ih _ =>
      obtain ⟨found, later⟩ := Inquiry.getElem?_of_drop behind
      obtain ⟨nextFound, last⟩ := Inquiry.getElem?_of_drop later
      have within : position + 1 < arguments.length := by
        rw [answers.length_eq]
        exact (List.getElem?_eq_some_iff.mp nextFound).1
      rw [reached, if_pos within, bind_assoc, Ramp.stepFrom]
      refine (number_returns answers position found _).bind fun bound _ => ?_
      cases input.lt bound with
      | true => exact argument_returns answers _ selected
      | false => exact ih (position + 1) nextFound last

theorem step_returns {input first : Outcome}
    (answers : Answers arguments state (input :: first :: rest)) :
    Returns (step arguments) state (Ramp.step input first rest) :=
  (number_returns answers 0 rfl _).bind fun x _ =>
    reached_returns x 1 answers rfl rfl

/-- The stops are read from every other position, and each has its output right behind it. -/
theorem stops_returns (answers : Answers arguments state outcomes)
    (behind : outcomes.drop position = rest) :
    Returns (Course.collect 2 (number Builtin.interpolate.name arguments) position
        (rest.length / 2)) state
      ((Ramp.knots position rest).map (List.map Ramp.Knot.stop)) := by
  induction rest using List.twoStepInduction generalizing position with
  | nil => exact .pure []
  | singleton left =>
      have count : [left].length / 2 = 0 := by simp
      rw [count]
      exact .pure []
  | cons_cons stop output rest ih _ =>
      obtain ⟨found, later⟩ := Inquiry.getElem?_of_drop behind
      have others := ih (Inquiry.getElem?_of_drop later).2
      have read :=
        (number_returns answers position found Builtin.interpolate.name).bind fun bound _ =>
          others.bind fun others _ => Returns.pure (bound :: others)
      have count : (stop :: output :: rest).length / 2 = rest.length / 2 + 1 := by
        simp only [List.length_cons]
        omega
      rw [count, Ramp.map_knots_cons]
      exact read

/--
Where the input stands among the stops, the positions of its outputs lie before the end; and in a
segment the search finds the upper end, which is no first stop.
-/
theorem outputAt_returns (shape : Curve) {x : Double} {knots : List (Ramp.Knot Outcome)}
    {location : Ramp.Location Outcome} (answers : Answers arguments state outcomes)
    (finite : ∃ y, x = .finite y) (stopsFinite : ∀ knot ∈ knots, ∃ y, knot.stop = .finite y)
    (placed : ∀ (place : Nat) (knot : Ramp.Knot Outcome),
      knots[place]? = some knot → outcomes[stopAt place + 1]? = some knot.output)
    (found : Ramp.Found x knots location) :
    Returns (outputAt shape x (knots.map Ramp.Knot.stop) (knots.length - 1) arguments) state
      (location.answer shape x) := by
  have stop {place : Nat} {knot : Ramp.Knot Outcome} (present : knots[place]? = some knot) :
      Returns (Course.itemAt (knots.map Ramp.Knot.stop) place) state (.ok knot.stop) :=
    .itemAt (by rw [List.getElem?_map, present]; rfl)
  have output {place : Nat} {knot : Ramp.Knot Outcome} (present : knots[place]? = some knot) :
      Returns (argument arguments (stopAt place + 1)) state knot.output :=
    argument_returns answers _ (placed place knot present)
  have ends {first last : Ramp.Knot Outcome} (head : knots.head? = some first)
      (ended : knots.getLast? = some last) :
      knots[0]? = some first ∧ knots[knots.length - 1]? = some last := by
    rw [← List.head?_eq_getElem?, ← List.getLast?_eq_getElem?]
    exact ⟨head, ended⟩
  unfold outputAt
  cases found with
  | first head ended low =>
      refine (stop (ends head ended).1).goOn ?_
      rw [if_pos low]
      exact output (ends head ended).1
  | last head ended above high =>
      refine (stop (ends head ended).1).goOn ?_
      rw [if_neg above]
      refine (stop (ends head ended).2).goOn ?_
      rw [if_pos high]
      exact output (ends head ended).2
  | @inside first last segment head ended above before around =>
      refine (stop (ends head ended).1).goOn ?_
      rw [if_neg above]
      refine (stop (ends head ended).2).goOn ?_
      rw [if_neg before]
      obtain ⟨rest, rfl⟩ := List.head?_eq_some_iff.mp head
      have started : x.lt first.stop = false := by
        have known := stopsFinite first List.mem_cons_self
        rw [Double.le_iff finite known] at above
        rw [← Bool.not_eq_true, Double.lt_iff finite known]
        omega
      obtain ⟨place, same, search⟩ := Ramp.findIdx?_of_segment? started around
      obtain ⟨place', same', lower, upper⟩ := Ramp.getElem?_of_segment? around
      obtain rfl : place = segment.index := by omega
      obtain rfl : place' = segment.index := by omega
      rw [search]
      refine (Returns.pure _).goOn ((Returns.minus (Nat.le_add_left 1 _)).goOn ?_)
      rw [Nat.add_sub_cancel]
      refine (stop lower).goOn ((stop upper).goOn ?_)
      refine (output lower).bind fun a _ => (output upper).bind fun b _ => ?_
      have position : stopAt (segment.index + 1) + 1 = 2 * segment.index + 5 := by
        unfold stopAt
        omega
      rw [position]
      exact .lift _

theorem interpolate_returns {curve input : Outcome} (refusal : Outcome) (stops : 2 ≤ rest.length)
    (answers : Answers arguments state (curve :: input :: rest)) :
    Returns (interpolate arguments) state
      ((Ramp.interpolate? curve input rest).getD refusal) := by
  rw [Ramp.getD_interpolate?]
  refine (argument_returns answers 0 rfl).bind fun value _ => ?_
  refine (Returns.lift _).bind fun shape _ => ?_
  refine (number_returns answers 1 rfl _).bind fun x operand => ?_
  have count : arguments.length = rest.length + 2 := answers.length_eq
  refine (Returns.minus (by omega)).goOn ?_
  have behind : List.drop 2 (curve :: input :: rest) = rest := rfl
  have collected := stops_returns answers behind
  rw [count, Nat.add_sub_cancel]
  cases read : Ramp.knots 2 rest with
  | error cause =>
      rw [read] at collected
      exact collected.fail
  | ok knots =>
      rw [read] at collected
      refine collected.goOn ?_
      obtain ⟨length, placed⟩ := Ramp.outputs_of_knots read behind
      obtain ⟨finite, occupied⟩ := Ramp.finite_of_knots read
      rw [← length]
      have one : 1 ≤ knots.length := List.length_pos_iff.mpr (occupied stops)
      refine (Returns.minus one).goOn ?_
      obtain ⟨y, rfl⟩ := Ramp.finite_of_operand operand
      obtain ⟨outcome, found⟩ :=
        Option.isSome_iff_exists.mp (Ramp.outputAt?_isSome shape finite (occupied stops))
      change Returns _ state ((Ramp.outputAt? shape _ knots).getD refusal)
      rw [Ramp.outputAt?_eq_locate?] at found ⊢
      obtain ⟨location, located, _⟩ := Option.map_eq_some_iff.mp found
      rw [located]
      exact outputAt_returns shape answers ⟨y, rfl⟩ finite placed
        (Ramp.found_of_locate? located)

end Call

namespace Builtin

open Call

variable {σ : Type} {state : σ} {arguments : Call.Arguments σ} {outcomes : List Outcome}

/-- A function that takes no argument looks at none. -/
theorem perform_none {source : Source} {builtin : Builtin} {answer : Outcome}
    (takes : builtin.rule source = .none answer) :
    Returns (builtin.perform source arguments) state answer := by
  cases builtin with
  | geometryType | featureId | properties =>
      obtain rfl := Rule.none.inj takes
      exact .lift _
  | _ => cases takes

theorem perform_one {source : Source} {builtin : Builtin} {run : Outcome → Outcome}
    {outcome : Outcome} (takes : builtin.rule source = .one run)
    (answers : Answers arguments state [outcome]) :
    Returns (builtin.perform source arguments) state (run outcome) := by
  cases builtin with
  | not | listSize | textLength | length | hasProperty | toHex | unary | lowercase | uppercase
  | environment =>
      obtain rfl := Rule.one.inj takes
      exact one_returns answers fun _ => rfl
  | _ => cases takes

theorem perform_two {source : Source} {builtin : Builtin} {run : Outcome → Outcome → Outcome}
    {left right : Outcome} (takes : builtin.rule source = .two run)
    (answers : Answers arguments state [left, right]) :
    Returns (builtin.perform source arguments) state (run left right) := by
  cases builtin with
  | compare | equalTo =>
      obtain rfl := Rule.two.inj takes
      exact two_returns answers (fun _ => rfl) fun _ _ => rfl
  | binary function =>
      obtain rfl := Rule.two.inj takes
      exact binary_returns function answers
  | zoomLevel =>
      obtain rfl := Rule.two.inj takes
      exact zoomLevel_returns answers
  | _ => cases takes

theorem perform_some {source : Source} {builtin : Builtin} {run : List Outcome → Outcome}
    (takes : builtin.rule source = .some run) (answers : Answers arguments state outcomes) :
    Returns (builtin.perform source arguments) state (run outcomes) := by
  cases builtin with
  | all =>
      obtain rfl := Rule.some.inj takes
      rw [Decision.all_eq_scan]
      exact scan_returns _ _ answers
  | any =>
      obtain rfl := Rule.some.inj takes
      rw [Decision.any_eq_scan]
      exact scan_returns _ _ answers
  | coalesce =>
      obtain rfl := Rule.some.inj takes
      rw [Decision.coalesce_eq_scan]
      exact scan_returns _ _ answers
  | case =>
      obtain rfl := Rule.some.inj takes
      exact case_returns answers
  | toNumber | toArray =>
      obtain rfl := Rule.some.inj takes
      exact firstOf_returns _ _ _ _ answers
  | list function =>
      obtain rfl := Rule.some.inj takes
      exact list_returns function answers
  | concatenate =>
      obtain rfl := Rule.some.inj takes
      exact concatenate_returns answers
  | _ => cases takes

theorem perform_oneAndSome {source : Source} {builtin : Builtin}
    {run : Outcome → List Outcome → Outcome} {first : Outcome} {rest : List Outcome}
    (takes : builtin.rule source = .oneAndSome run)
    (answers : Answers arguments state (first :: rest)) :
    Returns (builtin.perform source arguments) state (run first rest) := by
  cases builtin with
  | select =>
      obtain rfl := Rule.oneAndSome.inj takes
      exact select_returns answers
  | _ => cases takes

/-- The first stop of an interpolation and its output are among the arguments that it accepts. -/
theorem perform_twoAndSome {source : Source} {builtin : Builtin}
    {run? : Outcome → Outcome → List Outcome → Option Outcome} {first second outcome : Outcome}
    {rest : List Outcome} (takes : builtin.rule source = .twoAndSome run?)
    (answers : Answers arguments state (first :: second :: rest))
    (accepted : builtin.arity.accepts (first :: second :: rest).length = true)
    (applies : run? first second rest = some outcome) :
    Returns (builtin.perform source arguments) state outcome := by
  cases builtin with
  | interpolate =>
      obtain rfl := Rule.twoAndSome.inj takes
      have four : 4 ≤ (first :: second :: rest).length := Arity.le_of_atLeast accepted
      have stops : 2 ≤ rest.length := by
        simp only [List.length_cons] at four
        omega
      have returns := interpolate_returns outcome stops answers
      rw [applies] at returns
      exact returns
  | step =>
      obtain rfl := Rule.twoAndSome.inj takes
      obtain rfl := Option.some.inj applies
      exact step_returns answers
  | _ => cases takes

/--
On as many arguments as its function accepts, a call comes to its outcome and leaves the state as
it was; it breaks off nowhere.
-/
theorem perform_returns (source : Source) {builtin : Builtin}
    (answers : Answers arguments state outcomes)
    (accepted : builtin.arity.accepts outcomes.length = true) :
    Returns (builtin.perform source arguments) state (builtin.call source outcomes) := by
  obtain ⟨outcome, applies⟩ := Option.isSome_iff_exists.mp (answer?_isSome source accepted)
  rw [call_eq_of_rule accepted applies]
  cases takes : builtin.rule source with
  | none answer =>
      rw [takes] at applies
      rcases outcomes with _ | ⟨first, rest⟩
      · obtain rfl := Option.some.inj applies
        exact perform_none takes
      · cases applies
  | one run =>
      rw [takes] at applies
      rcases outcomes with _ | ⟨first, _ | ⟨second, rest⟩⟩
      · cases applies
      · obtain rfl := Option.some.inj applies
        exact perform_one takes answers
      · cases applies
  | two run =>
      rw [takes] at applies
      rcases outcomes with _ | ⟨first, _ | ⟨second, _ | ⟨third, rest⟩⟩⟩
      · cases applies
      · cases applies
      · obtain rfl := Option.some.inj applies
        exact perform_two takes answers
      · cases applies
  | some run =>
      rw [takes] at applies
      obtain rfl := Option.some.inj applies
      exact perform_some takes answers
  | oneAndSome run =>
      rw [takes] at applies
      rcases outcomes with _ | ⟨first, rest⟩
      · cases applies
      · obtain rfl := Option.some.inj applies
        exact perform_oneAndSome takes answers
  | twoAndSome run? =>
      rw [takes] at applies
      rcases outcomes with _ | ⟨first, _ | ⟨second, rest⟩⟩
      · cases applies
      · cases applies
      · exact perform_twoAndSome takes answers accepted applies

/-- Without the check of the number of arguments, a ramp without a stop has no last one. -/
example :
    (interpolate.perform .constants [pure (.array [.string "linear"]),
      pure (.number (.whole 1 (by decide) (by decide)))]).takeFrom () = .error (.underflow 0 1) :=
  rfl

end Builtin

end MapStyle
