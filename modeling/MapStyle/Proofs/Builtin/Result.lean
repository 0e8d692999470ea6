import MapStyle.Proofs.Builtin.Call
import MapStyle.Proofs.Value

/-!
# Results of built-in functions

Where a function declares a class, each of its values is of the form that the class stands for;
a number may have left the finite range and be null.  All other values are arguments, blends of
arguments, or data that the source gave out: no function makes a value of any other form.
-/

namespace MapStyle

/-! ## Reading outcomes -/

namespace Operand

theorem number_eq_ok {function : String} {position : Nat} {outcome : Outcome} {x : Double} :
    number function position outcome = .ok x ↔
      ∃ value, outcome = .ok value ∧ value.toDouble? = some x := by
  unfold number
  rw [bind_eq_ok]
  apply exists_congr
  intro value
  apply and_congr_right
  intro _
  cases value.toDouble? with
  | none => simp
  | some y => simp

theorem text_eq_ok {function : String} {position : Nat} {outcome : Outcome} {content : String} :
    text function position outcome = .ok content ↔ outcome = .ok (.string content) := by
  unfold text
  rw [bind_eq_ok]
  constructor
  · rintro ⟨value, succeeded, read⟩
    cases value with
    | string held =>
        rw [succeeded]
        simpa [Value.toText?] using read
    | _ => simp [Value.toText?] at read
  · intro succeeded
    exact ⟨_, succeeded, rfl⟩

end Operand

namespace Rule

theorem answer?_none {answer : Outcome} {arguments : List Outcome} {outcome : Outcome}
    (applies : (Rule.none answer).answer? arguments = .some outcome) : answer = outcome := by
  cases arguments with
  | nil => exact Option.some.inj applies
  | cons _ _ => cases applies

theorem answer?_one {run : Outcome → Outcome} {arguments : List Outcome} {outcome : Outcome}
    (applies : (Rule.one run).answer? arguments = .some outcome) :
    ∃ argument, arguments = [argument] ∧ run argument = outcome := by
  rcases arguments with _ | ⟨argument, _ | ⟨_, _⟩⟩
  · cases applies
  · exact ⟨argument, rfl, Option.some.inj applies⟩
  · cases applies

theorem answer?_two {run : Outcome → Outcome → Outcome} {arguments : List Outcome}
    {outcome : Outcome} (applies : (Rule.two run).answer? arguments = .some outcome) :
    ∃ left right, arguments = [left, right] ∧ run left right = outcome := by
  rcases arguments with _ | ⟨left, _ | ⟨right, _ | ⟨_, _⟩⟩⟩
  · cases applies
  · cases applies
  · exact ⟨left, right, rfl, Option.some.inj applies⟩
  · cases applies

theorem answer?_oneAndSome {run : Outcome → List Outcome → Outcome} {arguments : List Outcome}
    {outcome : Outcome} (applies : (Rule.oneAndSome run).answer? arguments = .some outcome) :
    ∃ first rest, arguments = first :: rest ∧ run first rest = outcome := by
  cases arguments with
  | nil => cases applies
  | cons first rest => exact ⟨first, rest, rfl, Option.some.inj applies⟩

theorem answer?_twoAndSome {run? : Outcome → Outcome → List Outcome → Option Outcome}
    {arguments : List Outcome} {outcome : Outcome}
    (applies : (Rule.twoAndSome run?).answer? arguments = .some outcome) :
    ∃ first second rest, arguments = first :: second :: rest ∧
      run? first second rest = .some outcome := by
  rcases arguments with _ | ⟨first, _ | ⟨second, rest⟩⟩
  · cases applies
  · cases applies
  · exact ⟨first, second, rest, rfl, applies⟩

end Rule

/-- A call that yields a value does so by the rule of the function. -/
theorem Builtin.rule_of_call {source : Source} {builtin : Builtin} {arguments : List Outcome}
    {value : Value} (yields : builtin.call source arguments = .ok value) :
    (builtin.rule source).answer? arguments = some (.ok value) := by
  unfold call at yields
  dsimp only at yields
  split at yields
  · rw [call?_eq_rule] at yields
    cases applied : (builtin.rule source).answer? arguments with
    | none =>
        rw [applied] at yields
        cases yields
    | some outcome =>
        rw [applied] at yields
        exact congrArg some yields
  · cases yields

/-! ## Values of each function -/

namespace Decision

theorem not_returns {argument : Outcome} {value : Value}
    (yields : Decision.not argument = .ok value) : value.Returned .boolean := by
  obtain ⟨held, _, yields⟩ := bind_eq_ok.mp yields
  cases held with
  | boolean flag =>
      cases yields
      exact .boolean _
  | _ => cases yields

theorem compare_returns {order : Comparison} {left right : Outcome} {value : Value}
    (yields : Decision.compare order left right = .ok value) : value.Returned .boolean := by
  obtain ⟨a, _, yields⟩ := bind_eq_ok.mp yields
  obtain ⟨b, _, yields⟩ := bind_eq_ok.mp yields
  obtain ⟨found, _, yields⟩ := bind_eq_ok.mp yields
  cases yields
  exact .boolean _

theorem equalTo_returns {left right : Outcome} {value : Value}
    (yields : equalTo left right = .ok value) : value.Returned .boolean := by
  obtain ⟨a, _, yields⟩ := bind_eq_ok.mp yields
  obtain ⟨b, _, yields⟩ := bind_eq_ok.mp yields
  cases yields
  exact .boolean _

theorem all_returns {arguments : List Outcome} {value : Value}
    (yields : all arguments = .ok value) : value.Returned .boolean := by
  induction arguments with
  | nil =>
      cases yields
      exact .boolean _
  | cons argument rest ih =>
      obtain ⟨held, _, yields⟩ := bind_eq_ok.mp yields
      split at yields
      · exact ih yields
      · cases yields
        exact .boolean _

theorem any_returns {arguments : List Outcome} {value : Value}
    (yields : any arguments = .ok value) : value.Returned .boolean := by
  induction arguments with
  | nil =>
      cases yields
      exact .boolean _
  | cons argument rest ih =>
      obtain ⟨held, _, yields⟩ := bind_eq_ok.mp yields
      split at yields
      · cases yields
        exact .boolean _
      · exact ih yields

/-- A choice by conditions takes one of its arguments. -/
theorem mem_of_case {arguments : List Outcome} {value : Value}
    (yields : case arguments = .ok value) : .ok value ∈ arguments := by
  induction arguments using case.induct with
  | case1 condition output rest ih =>
      obtain ⟨held, _, yields⟩ := bind_eq_ok.mp yields
      split at yields
      · subst yields
        simp
      · exact List.mem_cons_of_mem _ (List.mem_cons_of_mem _ (ih yields))
  | case2 default =>
      have same : default = .ok value := yields
      simp [same]
  | case3 => cases yields

/-- The first argument that is not null is one of the arguments; there may be none. -/
theorem mem_of_coalesce {arguments : List Outcome} {value : Value}
    (yields : coalesce arguments = .ok value) : value = .null ∨ .ok value ∈ arguments := by
  induction arguments with
  | nil =>
      cases yields
      exact .inl rfl
  | cons argument rest ih =>
      obtain ⟨held, succeeded, yields⟩ := bind_eq_ok.mp yields
      split at yields
      · exact (ih yields).imp_right (List.mem_cons_of_mem _)
      · cases yields
        exact .inr (by simp [succeeded])

/-- A choice by labels takes one of its arguments. -/
theorem mem_of_selectFrom {input : Value} {position : Nat} {arguments : List Outcome}
    {value : Value} (yields : selectFrom input position arguments = .ok value) :
    .ok value ∈ arguments := by
  induction position, arguments using selectFrom.induct with
  | case1 position label output rest ih =>
      obtain ⟨held, _, yields⟩ := bind_eq_ok.mp yields
      obtain ⟨found, _, yields⟩ := bind_eq_ok.mp yields
      split at yields
      · subst yields
        simp
      · exact List.mem_cons_of_mem _ (List.mem_cons_of_mem _ (ih yields))
  | case2 position default =>
      have same : default = .ok value := yields
      simp [same]
  | case3 position => cases yields

theorem mem_of_select {input : Outcome} {arguments : List Outcome} {value : Value}
    (yields : select input arguments = .ok value) : .ok value ∈ arguments := by
  obtain ⟨held, _, yields⟩ := bind_eq_ok.mp yields
  obtain ⟨_, _, yields⟩ := bind_eq_ok.mp yields
  exact mem_of_selectFrom yields

end Decision

namespace Conversion

/-- What a list of arguments is first converted to comes from one of them. -/
theorem mem_of_firstOf {function expected : String} {convert? : Value → Option Value}
    {seen : Option Kind} {arguments : List Outcome} {value : Value}
    (yields : firstOf function expected convert? seen arguments = .ok value) :
    ∃ held, .ok held ∈ arguments ∧ convert? held = some value := by
  induction arguments generalizing seen with
  | nil => cases yields
  | cons argument rest ih =>
      obtain ⟨held, succeeded, yields⟩ := bind_eq_ok.mp yields
      cases converted : convert? held with
      | some result =>
          rw [converted] at yields
          cases yields
          exact ⟨held, by simp [succeeded], converted⟩
      | none =>
          rw [converted] at yields
          obtain ⟨other, member, converted⟩ := ih yields
          exact ⟨other, List.mem_cons_of_mem _ member, converted⟩

theorem toNumber_returns {arguments : List Outcome} {value : Value}
    (yields : toNumber arguments = .ok value) : value.Returned .number := by
  obtain ⟨held, _, converted⟩ := mem_of_firstOf yields
  obtain ⟨x, _, rfl⟩ := Option.map_eq_some_iff.mp converted
  exact .number x

theorem array?_eq_some {held value : Value} (found : array? held = some value) :
    held = value ∧ value.Returned .array := by
  cases held with
  | array items =>
      cases found
      exact ⟨rfl, .array items⟩
  | _ => cases found

theorem mem_of_toArray {arguments : List Outcome} {value : Value}
    (yields : toArray arguments = .ok value) :
    .ok value ∈ arguments ∧ value.Returned .array := by
  obtain ⟨held, member, found⟩ := mem_of_firstOf yields
  obtain ⟨rfl, returned⟩ := array?_eq_some found
  exact ⟨member, returned⟩

theorem lengthOf_returns {function : String} {held value : Value}
    (yields : lengthOf function held = .ok value) : value.Returned .number := by
  cases held with
  | string content =>
      obtain rfl := Except.ok.inj yields
      exact .number _
  | array items =>
      obtain rfl := Except.ok.inj yields
      exact .number _
  | _ => cases yields

theorem length_returns {argument : Outcome} {value : Value}
    (yields : length argument = .ok value) : value.Returned .number := by
  obtain ⟨held, _, yields⟩ := bind_eq_ok.mp yields
  exact lengthOf_returns yields

theorem listSize_returns {argument : Outcome} {value : Value}
    (yields : listSize argument = .ok value) : value.Returned .number := by
  obtain ⟨held, _, yields⟩ := bind_eq_ok.mp yields
  cases held with
  | array items =>
      obtain rfl := pure_eq_ok.mp yields
      exact .number _
  | _ => cases yields

theorem textLength_returns {argument : Outcome} {value : Value}
    (yields : textLength argument = .ok value) : value.Returned .number := by
  obtain ⟨content, _, yields⟩ := bind_eq_ok.mp yields
  obtain rfl := pure_eq_ok.mp yields
  exact .number _

theorem toHex_eq_ok {argument : Outcome} {value : Value}
    (yields : toHex argument = .ok value) :
    ∃ number x, argument = .ok number ∧ number.toDouble? = some x ∧
      value = .string (String.ofList (Hex.channel x)) := by
  obtain ⟨x, read, shown⟩ := bind_eq_ok.mp yields
  obtain ⟨number, comes, numeric⟩ := Operand.number_eq_ok.mp read
  exact ⟨number, x, comes, numeric, (pure_eq_ok.mp shown).symm⟩

theorem toHex_returns {argument : Outcome} {value : Value}
    (yields : toHex argument = .ok value) : value.Returned .string := by
  obtain ⟨_, _, _, _, rfl⟩ := toHex_eq_ok yields
  exact .string _

/-- A concatenation joins the texts of its arguments, which all have values. -/
theorem concatenation_eq_ok {arguments : List Outcome} {text : String}
    (joined : concatenation arguments = .ok text) :
    ∃ values, List.Forall₂ (fun argument value => argument = .ok value) arguments values ∧
      text.toList = values.flatMap fun value => value.plainText.toList := by
  induction arguments generalizing text with
  | nil =>
      obtain rfl := pure_eq_ok.mp joined
      exact ⟨[], .nil, rfl⟩
  | cons argument rest ih =>
      obtain ⟨value, comes, joined⟩ := bind_eq_ok.mp joined
      obtain ⟨others, behind, joined⟩ := bind_eq_ok.mp joined
      obtain rfl := pure_eq_ok.mp joined
      obtain ⟨values, each, spelled⟩ := ih behind
      exact ⟨value :: values, .cons comes each, by simp [spelled]⟩

theorem concatenate_eq_ok {arguments : List Outcome} {value : Value}
    (joined : concatenate arguments = .ok value) :
    ∃ values, List.Forall₂ (fun argument value => argument = .ok value) arguments values ∧
      value = .string (String.ofList (values.flatMap fun value => value.plainText.toList)) := by
  unfold concatenate at joined
  cases found : concatenation arguments with
  | error cause =>
      rw [found] at joined
      cases joined
  | ok text =>
      rw [found] at joined
      cases joined
      obtain ⟨values, each, spelled⟩ := concatenation_eq_ok found
      exact ⟨values, each, by rw [← spelled, String.ofList_toList]⟩

theorem concatenate_returns {arguments : List Outcome} {value : Value}
    (yields : concatenate arguments = .ok value) : value.Returned .string := by
  obtain ⟨_, _, rfl⟩ := concatenate_eq_ok yields
  exact .string _

theorem lowercase_returns {argument : Outcome} {value : Value}
    (yields : lowercase argument = .ok value) : value.Returned .string := by
  obtain ⟨content, _, yields⟩ := bind_eq_ok.mp yields
  cases yields
  exact .string _

theorem uppercase_returns {argument : Outcome} {value : Value}
    (yields : uppercase argument = .ok value) : value.Returned .string := by
  obtain ⟨content, _, yields⟩ := bind_eq_ok.mp yields
  cases yields
  exact .string _

end Conversion

namespace Arithmetic

theorem unary_eq_ok {function : UnaryFunction} {argument : Outcome} {value : Value}
    (yields : unary function argument = .ok value) :
    ∃ number x, argument = .ok number ∧ number.toDouble? = some x ∧
      value = .ofDouble (function.run x) := by
  obtain ⟨x, read, computed⟩ := bind_eq_ok.mp yields
  obtain ⟨number, comes, numeric⟩ := Operand.number_eq_ok.mp read
  exact ⟨number, x, comes, numeric, (pure_eq_ok.mp computed).symm⟩

theorem unary_returns {function : UnaryFunction} {argument : Outcome} {value : Value}
    (yields : unary function argument = .ok value) : value.Returned .number := by
  obtain ⟨_, _, _, _, rfl⟩ := unary_eq_ok yields
  exact .number _

theorem binary_returns {function : BinaryFunction} {left right : Outcome} {value : Value}
    (yields : binary function left right = .ok value) : value.Returned .number := by
  obtain ⟨x, _, yields⟩ := bind_eq_ok.mp yields
  obtain ⟨y, _, yields⟩ := bind_eq_ok.mp yields
  obtain rfl := pure_eq_ok.mp yields
  exact .number _

theorem list_returns {function : ListFunction} {arguments : List Outcome} {value : Value}
    (yields : list function arguments = .ok value) : value.Returned .number := by
  obtain ⟨numbers, _, yields⟩ := bind_eq_ok.mp yields
  obtain rfl := pure_eq_ok.mp yields
  exact .number _

end Arithmetic

namespace Reading

theorem hasProperty_returns {source : Source} {argument : Outcome} {value : Value}
    (yields : hasProperty source argument = .ok value) : value.Returned .boolean := by
  obtain ⟨name, _, yields⟩ := bind_eq_ok.mp yields
  obtain ⟨found, _, yields⟩ := bind_eq_ok.mp yields
  cases yields
  exact .boolean _

theorem zoomLevel_returns {scale system : Outcome} {value : Value}
    (yields : zoomLevel scale system = .ok value) : value.Returned .number := by
  obtain ⟨denominator, _, yields⟩ := bind_eq_ok.mp yields
  obtain ⟨name, _, yields⟩ := bind_eq_ok.mp yields
  split at yields
  · obtain rfl := pure_eq_ok.mp yields
    exact .number _
  · cases yields

end Reading

namespace Ramp

/-- A step takes one of its outputs. -/
theorem mem_of_stepFrom {input : Double} {current : Outcome} {position : Nat}
    {arguments : List Outcome} {value : Value}
    (yields : stepFrom input current position arguments = .ok value) :
    .ok value ∈ current :: arguments := by
  induction current, position, arguments using stepFrom.induct with
  | case1 current position stop output rest ih =>
      obtain ⟨bound, _, yields⟩ := bind_eq_ok.mp yields
      split at yields
      · simp [yields]
      · exact List.mem_cons_of_mem _ (List.mem_cons_of_mem _ (ih yields))
  | case2 current position arguments short =>
      rw [stepFrom] at yields
      · simp [yields]
      · exact short

theorem mem_of_step {input first : Outcome} {arguments : List Outcome} {value : Value}
    (yields : step input first arguments = .ok value) : .ok value ∈ first :: arguments := by
  obtain ⟨x, _, yields⟩ := bind_eq_ok.mp yields
  exact mem_of_stepFrom yields

theorem blendItems_computed {position : Nat} {t : Double} {items others results : List Value}
    (each : ∀ item ∈ items, ∀ other result, blend position t item other = .ok result →
      result.Computed)
    (yields : blendItems position t items others = .ok results) :
    ∀ result ∈ results, result.Computed := by
  induction items generalizing others results with
  | nil =>
      cases yields
      intro result impossible
      cases impossible
  | cons item items ih =>
      cases others with
      | nil =>
          cases yields
          intro result impossible
          cases impossible
      | cons other others =>
          unfold blendItems at yields
          obtain ⟨first, head, yields⟩ := bind_eq_ok.mp yields
          obtain ⟨rest, tail, yields⟩ := bind_eq_ok.mp yields
          obtain rfl := pure_eq_ok.mp yields
          intro result member
          cases member with
          | head => exact each item List.mem_cons_self other first head
          | tail _ member =>
              exact ih (fun item member => each item (List.mem_cons_of_mem _ member)) tail
                result member

/-- A blend is built of numbers and arrays. -/
theorem blend_computed {position : Nat} {t : Double} {a b value : Value}
    (yields : blend position t a b = .ok value) : value.Computed := by
  induction a generalizing b value with
  | number held =>
      cases b with
      | number other =>
          unfold blend at yields
          obtain rfl := Except.ok.inj yields
          exact .number _
      | _ => simp [blend, mismatch] at yields
  | array items ih =>
      cases b with
      | array others =>
          unfold blend at yields
          split at yields
          · cases blended : blendItems position t items others with
            | error cause =>
                rw [blended] at yields
                cases yields
            | ok results =>
                rw [blended] at yields
                obtain rfl := Except.ok.inj yields
                apply Value.Computed.array
                apply blendItems_computed _ blended
                intro item member other result yields
                exact ih item member yields
          · cases yields
      | _ => simp [blend, mismatch] at yields
  | null => simp [blend, mismatch] at yields
  | boolean flag => simp [blend, mismatch] at yields
  | string content => simp [blend, mismatch] at yields
  | object entries _ => simp [blend, mismatch] at yields

theorem mem_of_knots {position : Nat} {arguments : List Outcome} {found : List (Knot Outcome)}
    (reads : knots position arguments = .ok found) : ∀ knot ∈ found, knot.output ∈ arguments := by
  induction position, arguments using knots.induct generalizing found with
  | case1 position stop output rest ih =>
      unfold knots at reads
      obtain ⟨bound, _, reads⟩ := bind_eq_ok.mp reads
      obtain ⟨others, tail, reads⟩ := bind_eq_ok.mp reads
      obtain rfl := pure_eq_ok.mp reads
      intro knot member
      cases member with
      | head => simp
      | tail _ member =>
          exact List.mem_cons_of_mem _ (List.mem_cons_of_mem _ (ih tail knot member))
  | case2 position arguments short =>
      rw [knots] at reads
      · obtain rfl := pure_eq_ok.mp reads
        intro knot impossible
        cases impossible
      · exact short

/-- The output at an input is that of some stop or a blend. -/
theorem outputAt?_origin {curve : Curve} {input : Double} {found : List (Knot Outcome)}
    {value : Value} (yields : outputAt? curve input found = some (.ok value)) :
    (∃ knot ∈ found, knot.output = .ok value) ∨ value.Computed := by
  unfold outputAt? at yields
  split at yields
  · rename_i first last headed ended
    split at yields
    · exact .inl ⟨first, List.mem_of_mem_head? headed, Option.some.inj yields⟩
    · split at yields
      · exact .inl ⟨last, List.mem_of_getLast? ended, Option.some.inj yields⟩
      · obtain ⟨segment, _, blended⟩ := Option.map_eq_some_iff.mp yields
        obtain ⟨a, _, blended⟩ := bind_eq_ok.mp blended
        obtain ⟨b, _, blended⟩ := bind_eq_ok.mp blended
        exact .inr (blend_computed blended)
  · cases yields

theorem interpolate?_origin {curve input : Outcome} {arguments : List Outcome} {value : Value}
    (yields : interpolate? curve input arguments = some (.ok value)) :
    .ok value ∈ arguments ∨ value.Computed := by
  rw [interpolate?_eq_readParts] at yields
  split at yields
  · rename_i shape x stops read
    obtain ⟨shape, _, read⟩ := bind_eq_ok.mp read
    obtain ⟨x, _, read⟩ := bind_eq_ok.mp read
    obtain ⟨found, read, same⟩ := bind_eq_ok.mp read
    cases same
    rcases outputAt?_origin yields with ⟨knot, member, output⟩ | computed
    · have present := mem_of_knots read knot member
      rw [output] at present
      exact .inl present
    · exact .inr computed
  · cases yields

end Ramp

namespace Builtin

theorem returns_unary {function : UnaryFunction} {kind : Kind}
    (declared : (Builtin.unary function).returns = some kind) : kind = .number := by
  cases function <;> cases declared <;> rfl

theorem returns_binary {function : BinaryFunction} {kind : Kind}
    (declared : (Builtin.binary function).returns = some kind) : kind = .number := by
  cases function with
  | sub => exact (Option.some.inj declared).symm
  | _ => cases declared

theorem returns_list {function : ListFunction} {kind : Kind}
    (declared : (Builtin.list function).returns = some kind) : kind = .number := by
  cases function
  all_goals exact (Option.some.inj declared).symm

theorem returns_compare {order : Comparison} {kind : Kind}
    (declared : (Builtin.compare order).returns = some kind) : kind = .boolean := by
  cases order
  all_goals exact (Option.some.inj declared).symm

/--
A value of a function is of the form that its declared class stands for.  Objects are what a source
answers, so their class is up to the source.
-/
theorem call_returns {source : Source} {builtin : Builtin} {arguments : List Outcome}
    {kind : Kind} {value : Value} (declared : builtin.returns = some kind)
    (computed : kind ≠ .object) (yields : builtin.call source arguments = .ok value) :
    value.Returned kind := by
  have applied := rule_of_call yields
  cases builtin with
  | case => cases declared
  | coalesce => cases declared
  | select => cases declared
  | geometryType => cases declared
  | featureId => cases declared
  | environment => cases declared
  | interpolate => cases declared
  | step => cases declared
  | unary function =>
      obtain rfl := returns_unary declared
      obtain ⟨argument, _, yields⟩ := Rule.answer?_one applied
      exact Arithmetic.unary_returns yields
  | binary function =>
      obtain rfl := returns_binary declared
      obtain ⟨left, right, _, yields⟩ := Rule.answer?_two applied
      exact Arithmetic.binary_returns yields
  | list function =>
      obtain rfl := returns_list declared
      exact Arithmetic.list_returns (Option.some.inj applied)
  | compare order =>
      obtain rfl := returns_compare declared
      obtain ⟨left, right, _, yields⟩ := Rule.answer?_two applied
      exact Decision.compare_returns yields
  | not =>
      cases declared
      obtain ⟨argument, _, yields⟩ := Rule.answer?_one applied
      exact Decision.not_returns yields
  | equalTo =>
      cases declared
      obtain ⟨left, right, _, yields⟩ := Rule.answer?_two applied
      exact Decision.equalTo_returns yields
  | all =>
      cases declared
      exact Decision.all_returns (Option.some.inj applied)
  | any =>
      cases declared
      exact Decision.any_returns (Option.some.inj applied)
  | listSize =>
      cases declared
      obtain ⟨argument, _, yields⟩ := Rule.answer?_one applied
      exact Conversion.listSize_returns yields
  | textLength =>
      cases declared
      obtain ⟨argument, _, yields⟩ := Rule.answer?_one applied
      exact Conversion.textLength_returns yields
  | length =>
      cases declared
      obtain ⟨argument, _, yields⟩ := Rule.answer?_one applied
      exact Conversion.length_returns yields
  | hasProperty =>
      cases declared
      obtain ⟨argument, _, yields⟩ := Rule.answer?_one applied
      exact Reading.hasProperty_returns yields
  | toNumber =>
      cases declared
      exact Conversion.toNumber_returns (Option.some.inj applied)
  | toArray =>
      cases declared
      exact (Conversion.mem_of_toArray (Option.some.inj applied)).2
  | toHex =>
      cases declared
      obtain ⟨argument, _, yields⟩ := Rule.answer?_one applied
      exact Conversion.toHex_returns yields
  | concatenate =>
      cases declared
      exact Conversion.concatenate_returns (Option.some.inj applied)
  | lowercase =>
      cases declared
      obtain ⟨argument, _, yields⟩ := Rule.answer?_one applied
      exact Conversion.lowercase_returns yields
  | uppercase =>
      cases declared
      obtain ⟨argument, _, yields⟩ := Rule.answer?_one applied
      exact Conversion.uppercase_returns yields
  | properties =>
      cases declared
      exact absurd rfl computed
  | zoomLevel =>
      cases declared
      obtain ⟨scale, system, _, yields⟩ := Rule.answer?_two applied
      exact Reading.zoomLevel_returns yields

theorem computed_of_returned {kind : Kind} {value : Value} (returned : value.Returned kind)
    (scalar : kind ≠ .array ∧ kind ≠ .object) : value.Computed := by
  cases returned with
  | boolean flag => exact .boolean flag
  | number x => exact .number x
  | string content => exact .string content
  | array items => exact absurd rfl scalar.1
  | object entries => exact absurd rfl scalar.2

/-- While nothing is known, a call yields one of its arguments or a value that it builds. -/
theorem call_origin {builtin : Builtin} {arguments : List Outcome} {value : Value}
    (yields : builtin.call .constants arguments = .ok value) :
    .ok value ∈ arguments ∨ value.Computed := by
  have applied := rule_of_call yields
  cases builtin with
  | case => exact .inl (Decision.mem_of_case (Option.some.inj applied))
  | coalesce =>
      rcases Decision.mem_of_coalesce (Option.some.inj applied) with rfl | member
      · exact .inr .null
      · exact .inl member
  | select =>
      obtain ⟨input, rest, rfl, chosen⟩ := Rule.answer?_oneAndSome applied
      exact .inl (List.mem_cons_of_mem _ (Decision.mem_of_select chosen))
  | toArray => exact .inl (Conversion.mem_of_toArray (Option.some.inj applied)).1
  | interpolate =>
      obtain ⟨curve, input, rest, rfl, found⟩ := Rule.answer?_twoAndSome applied
      rcases Ramp.interpolate?_origin found with member | computed
      · exact .inl (List.mem_cons_of_mem _ (List.mem_cons_of_mem _ member))
      · exact .inr computed
  | step =>
      obtain ⟨input, first, rest, rfl, reached⟩ := Rule.answer?_twoAndSome applied
      exact .inl (List.mem_cons_of_mem _ (Ramp.mem_of_step (Option.some.inj reached)))
  | geometryType => cases Rule.answer?_none applied
  | featureId => cases Rule.answer?_none applied
  | properties => cases Rule.answer?_none applied
  | environment =>
      obtain ⟨argument, _, yields⟩ := Rule.answer?_one applied
      obtain ⟨name, _, yields⟩ := bind_eq_ok.mp yields
      cases yields
  | unary function =>
      obtain ⟨argument, _, yields⟩ := Rule.answer?_one applied
      exact .inr (computed_of_returned (Arithmetic.unary_returns yields) (by decide))
  | binary function =>
      obtain ⟨left, right, _, yields⟩ := Rule.answer?_two applied
      exact .inr (computed_of_returned (Arithmetic.binary_returns yields) (by decide))
  | list function =>
      have returned := Arithmetic.list_returns (Option.some.inj applied)
      exact .inr (computed_of_returned returned (by decide))
  | compare order =>
      obtain ⟨left, right, _, yields⟩ := Rule.answer?_two applied
      exact .inr (computed_of_returned (Decision.compare_returns yields) (by decide))
  | _ => exact .inr (computed_of_returned (call_returns rfl (by decide) yields) (by decide))

end Builtin

end MapStyle
