import MapStyle.Proofs.Builtin.Ramp

/-!
# Agreement of calls

The functions fall into a few shapes, by how many arguments their rules take.  A call keeps
agreement whichever function it is of: argument lists that agree have one length, so both calls
are refused or neither is, and the rule of the function keeps agreement.
-/

namespace MapStyle

/-- The rule of a function, by the number of arguments that it takes. -/
inductive Rule where
  | none (answer : Outcome)
  | one (run : Outcome → Outcome)
  | two (run : Outcome → Outcome → Outcome)
  | some (run : List Outcome → Outcome)
  | oneAndSome (run : Outcome → List Outcome → Outcome)
  | twoAndSome (run? : Outcome → Outcome → List Outcome → Option Outcome)

namespace Rule

def answer? : Rule → List Outcome → Option Outcome
  | .none answer, [] => .some answer
  | .one run, [a] => .some (run a)
  | .two run, [a, b] => .some (run a b)
  | .some run, arguments => .some (run arguments)
  | .oneAndSome run, a :: rest => .some (run a rest)
  | .twoAndSome run?, a :: b :: rest => run? a b rest
  | _, _ => .none

/-- Two rules of one shape whose outcomes agree on agreeing arguments. -/
inductive Agrees (excused : Error → Prop) : Rule → Rule → Prop where
  | none {answer other : Outcome} (agrees : MapStyle.Agrees excused answer other) :
      Agrees excused (.none answer) (.none other)
  | one {run otherRun : Outcome → Outcome}
      (keeps : ∀ a b, MapStyle.Agrees excused a b →
        MapStyle.Agrees excused (run a) (otherRun b)) :
      Agrees excused (.one run) (.one otherRun)
  | two {run otherRun : Outcome → Outcome → Outcome}
      (keeps : ∀ a b c d, MapStyle.Agrees excused a b → MapStyle.Agrees excused c d →
        MapStyle.Agrees excused (run a c) (otherRun b d)) :
      Agrees excused (.two run) (.two otherRun)
  | some {run otherRun : List Outcome → Outcome}
      (keeps : ∀ as bs, List.Forall₂ (MapStyle.Agrees excused) as bs →
        MapStyle.Agrees excused (run as) (otherRun bs)) :
      Agrees excused (.some run) (.some otherRun)
  | oneAndSome {run otherRun : Outcome → List Outcome → Outcome}
      (keeps : ∀ a b as bs, MapStyle.Agrees excused a b →
        List.Forall₂ (MapStyle.Agrees excused) as bs →
        MapStyle.Agrees excused (run a as) (otherRun b bs)) :
      Agrees excused (.oneAndSome run) (.oneAndSome otherRun)
  | twoAndSome {run? otherRun? : Outcome → Outcome → List Outcome → Option Outcome}
      (keeps : ∀ a b c d as bs refusal, MapStyle.Agrees excused a b →
        MapStyle.Agrees excused c d → List.Forall₂ (MapStyle.Agrees excused) as bs →
        MapStyle.Agrees excused ((run? a c as).getD refusal) ((otherRun? b d bs).getD refusal)) :
      Agrees excused (.twoAndSome run?) (.twoAndSome otherRun?)

/-- Agreeing rules agree on agreeing argument lists; they refuse them alike. -/
theorem Agrees.answer? {excused : Error → Prop} {rule other : Rule}
    (agrees : rule.Agrees excused other) {ones others : List Outcome}
    (agree : List.Forall₂ (MapStyle.Agrees excused) ones others) (refusal : Outcome) :
    MapStyle.Agrees excused ((rule.answer? ones).getD refusal)
      ((other.answer? others).getD refusal) := by
  cases agrees with
  | none agrees =>
      rcases agree with _ | ⟨_, _⟩
      · exact agrees
      · exact .refl _
  | one keeps =>
      rcases agree with _ | ⟨first, _ | ⟨_, _⟩⟩
      · exact .refl _
      · exact keeps _ _ first
      · exact .refl _
  | two keeps =>
      rcases agree with _ | ⟨first, _ | ⟨second, _ | ⟨_, _⟩⟩⟩
      · exact .refl _
      · exact .refl _
      · exact keeps _ _ _ _ first second
      · exact .refl _
  | some keeps => exact keeps _ _ agree
  | oneAndSome keeps =>
      rcases agree with _ | ⟨first, rest⟩
      · exact .refl _
      · exact keeps _ _ _ _ first rest
  | twoAndSome keeps =>
      rcases agree with _ | ⟨first, _ | ⟨second, rest⟩⟩
      · exact .refl _
      · exact .refl _
      · exact keeps _ _ _ _ _ _ refusal first second rest

end Rule

namespace Builtin

def rule (source : Source) : Builtin → Rule
  | .not => .one Decision.not
  | .compare comparison => .two (Decision.compare comparison)
  | .equalTo => .two Decision.equalTo
  | .all => .some Decision.all
  | .any => .some Decision.any
  | .case => .some Decision.case
  | .coalesce => .some Decision.coalesce
  | .select => .oneAndSome Decision.select
  | .listSize => .one Conversion.listSize
  | .textLength => .one Conversion.textLength
  | .length => .one Conversion.length
  | .hasProperty => .one (Reading.hasProperty source)
  | .toNumber => .some Conversion.toNumber
  | .toArray => .some Conversion.toArray
  | .toHex => .one Conversion.toHex
  | .unary function => .one (Arithmetic.unary function)
  | .binary function => .two (Arithmetic.binary function)
  | .list function => .some (Arithmetic.list function)
  | .concatenate => .some Conversion.concatenate
  | .lowercase => .one Conversion.lowercase
  | .uppercase => .one Conversion.uppercase
  | .geometryType => .none source.geometryType
  | .featureId => .none source.featureId
  | .properties => .none source.properties
  | .environment => .one (Reading.environment source)
  | .zoomLevel => .two Reading.zoomLevel
  | .interpolate => .twoAndSome Ramp.interpolate?
  | .step => .twoAndSome fun input first rest => some (Ramp.step input first rest)

/-- A function answers as its rule does. -/
theorem call?_eq_rule (source : Source) (builtin : Builtin) (arguments : List Outcome) :
    builtin.call? source arguments = (builtin.rule source).answer? arguments := by
  rcases arguments with _ | ⟨a, _ | ⟨b, _ | ⟨c, rest⟩⟩⟩
  all_goals cases builtin <;> rfl

theorem forall_asNumber {excused : Error → Prop} {ones others : List Outcome}
    (agree : List.Forall₂ (Agrees excused) ones others) :
    List.Forall₂ (AgreesAsNumber excused) ones others :=
  agree.imp fun _ _ agrees => agrees.asNumber

/-- The rule of a function keeps agreement. -/
theorem rule_agrees {excused : Error → Prop} {source otherSource : Source}
    (sources : source.Agrees excused otherSource) (builtin : Builtin) :
    (builtin.rule source).Agrees excused (builtin.rule otherSource) := by
  cases builtin with
  | not => exact .one fun _ _ => Decision.not_agrees
  | compare order => exact .two fun _ _ _ _ => Decision.compare_agrees order
  | equalTo => exact .two fun _ _ _ _ => Decision.equalTo_agrees
  | all => exact .some fun _ _ => Decision.all_agrees
  | any => exact .some fun _ _ => Decision.any_agrees
  | case => exact .some fun _ _ => Decision.case_agrees
  | coalesce => exact .some fun _ _ => Decision.coalesce_agrees
  | select => exact .oneAndSome fun _ _ _ _ => Decision.select_agrees
  | listSize => exact .one fun _ _ => Conversion.listSize_agrees
  | textLength => exact .one fun _ _ => Conversion.textLength_agrees
  | length => exact .one fun _ _ => Conversion.length_agrees
  | hasProperty => exact .one fun _ _ => Reading.hasProperty_agrees sources
  | toNumber => exact .some fun _ _ => Conversion.firstOf_agrees _ _ _ _
  | toArray => exact .some fun _ _ => Conversion.firstOf_agrees _ _ _ _
  | toHex => exact .one fun _ _ => Conversion.toHex_agrees
  | unary function => exact .one fun _ _ agrees => Arithmetic.unary_agrees function agrees.asNumber
  | binary function =>
      exact .two fun _ _ _ _ left right =>
        Arithmetic.binary_agrees function left.asNumber right.asNumber
  | list function =>
      exact .some fun _ _ agree => Arithmetic.list_agrees function (forall_asNumber agree)
  | concatenate => exact .some fun _ _ => Conversion.concatenate_agrees
  | lowercase => exact .one fun _ _ => Conversion.lowercase_agrees
  | uppercase => exact .one fun _ _ => Conversion.uppercase_agrees
  | geometryType => exact .none sources.geometryType
  | featureId => exact .none sources.featureId
  | properties => exact .none sources.properties
  | environment => exact .one fun _ _ => Reading.environment_agrees sources
  | zoomLevel => exact .two fun _ _ _ _ => Reading.zoomLevel_agrees
  | interpolate =>
      exact .twoAndSome fun _ _ _ _ _ _ refusal curve input rest =>
        Ramp.interpolate?_agrees curve input.asNumber rest refusal
  | step =>
      exact .twoAndSome fun _ _ _ _ _ _ _ input first rest =>
        Ramp.step_agrees input.asNumber first rest

/-- Calls of one function on agreeing outcomes agree. -/
theorem call_agrees {excused : Error → Prop} {source otherSource : Source}
    (sources : source.Agrees excused otherSource) (builtin : Builtin)
    {ones others : List Outcome} (agree : List.Forall₂ (Agrees excused) ones others) :
    Agrees excused (builtin.call source ones) (builtin.call otherSource others) := by
  unfold call
  rw [agree.length_eq, call?_eq_rule, call?_eq_rule]
  split
  · exact (rule_agrees sources builtin).answer? agree _
  · exact .refl _

theorem accepts_of_atLeast {builtin : Builtin} {least count : Nat}
    (takes : builtin.arity = .atLeast least) (enough : least ≤ count) :
    builtin.arity.accepts count = true := by
  rw [takes]
  exact decide_eq_true enough

/-- A call with an accepted number of arguments answers by the rule of its function. -/
theorem call_eq_of_rule {source : Source} {builtin : Builtin} {arguments : List Outcome}
    {outcome : Outcome} (accepted : builtin.arity.accepts arguments.length = true)
    (applies : (builtin.rule source).answer? arguments = some outcome) :
    builtin.call source arguments = outcome := by
  unfold call
  dsimp only
  rw [call?_eq_rule, applies, if_pos accepted]
  rfl

end Builtin

end MapStyle
