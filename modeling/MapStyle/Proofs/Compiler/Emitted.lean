import MapStyle.Compiler.Expression
import MapStyle.Proofs.Builtin.Failure
import MapStyle.Proofs.Builtin.Result
import MapStyle.Proofs.Compiler.Folding

/-!
# Emitted terms

What compilations with all functions can emit: values that are written in the document or
computed from those, properties, and calls of a few forms, each with the reason for which the
call was not replaced by a value.  Statements about compiled terms are proved of these forms, one
by one, and need not look at the rules of the operators again.
-/

namespace MapStyle

namespace Value

/-- Values that come of a document: written there, or computed. -/
def Origin (written : Value → Prop) (value : Value) : Prop := written value ∨ value.Computed

namespace Origin

variable {written : Value → Prop}

theorem item (hereditary : Hereditary written) {items : List Value}
    (origin : (Value.array items).Origin written) {item : Value} (member : item ∈ items) :
    item.Origin written := by
  rcases origin with held | computed
  · exact .inl (hereditary.items items held item member)
  · exact .inr (computed.items item member)

theorem entry (hereditary : Hereditary written) {entries : Entries}
    (origin : (Value.object entries).Origin written) {entry : String × Value}
    (member : entry ∈ entries) : entry.2.Origin written := by
  rcases origin with held | computed
  · exact .inl (hereditary.entries entries held entry member)
  · exact absurd computed Computed.not_object

end Origin

end Value

def Builtin.isArithmetic : Builtin → Bool
  | .unary _ => true
  | .binary _ => true
  | .list _ => true
  | _ => false

def Options.evaluator (options : Options) : Evaluator :=
  { source := .constants, limit := options.evaluationDepth }

inductive Stops : List Term → Prop where
  | nil : Stops []
  | stop (held : Number) (output : Term) {rest : List Term} (others : Stops rest) :
      Stops (.literal (.number held) :: output :: rest)

/-- Stops come with their outputs. -/
theorem Stops.two_le_length {rest : List Term} (stops : Stops rest) (occupied : rest ≠ []) :
    2 ≤ rest.length := by
  cases stops with
  | nil => exact absurd rfl occupied
  | stop held output others => simp

/-- A call that is not folded although constants are: an argument or the outcome is not known. -/
def Undecided (options : Options) (builtin : Builtin) (arguments : List Term) : Prop :=
  options.foldConstants = true →
    (∃ argument ∈ arguments, argument.isLiteral = false) ∨
      Context.LeavesOpen (options.evaluator.evaluate 0 (builtin.applied arguments))

inductive Deferred (options : Options) : Builtin → List Term → Prop where
  | reading {builtin : Builtin} (reads : builtin ∈ [.geometryType, .featureId, .properties]) :
      Deferred options builtin []
  | named {builtin : Builtin} (reads : builtin ∈ [.hasProperty, .environment]) (name : String) :
      Deferred options builtin [.literal (.string name)]
  | zoom : Deferred options .zoomLevel
      [Compiler.renderVariable scaleDenominator, .literal (.string webMercator)]
  | conversion {term : Term} (unknown : term.kind? {} = none) : Deferred options .toNumber [term]
  | single {builtin : Builtin} {term : Term}
      (takesOne : builtin ∈ [.not, .lowercase, .uppercase, .toHex])
      (undecided : Undecided options builtin [term]) : Deferred options builtin [term]
  | measure {builtin : Builtin} {term : Term}
      (measures : builtin ∈ [.textLength, .listSize, .length])
      (unknown : term.isLiteral = false) : Deferred options builtin [term]
  | equality {left right : Term} (undecided : Undecided options .equalTo [left, right]) :
      Deferred options .equalTo [left, right]
  | comparison (order : Comparison) {left right : Term}
      (undecided : Undecided options (.compare order) [left, right]) :
      Deferred options (.compare order) [left, right]
  | concatenation {terms : List Term} (nonempty : terms ≠ [])
      (undecided : Undecided options .concatenate terms) : Deferred options .concatenate terms
  | arithmetic {builtin : Builtin} {terms : List Term} (numeric : builtin.isArithmetic = true)
      (accepted : builtin.arity.accepts terms.length = true)
      (numbers : ∀ term ∈ terms, term.kind? {} = some .number)
      (undecided : Undecided options builtin terms) : Deferred options builtin terms
  | logical (decisive : Bool) {before after : List Term} {term : Term}
      (passed : ∀ condition ∈ before, condition = .literal (.boolean !decisive))
      (unknown : term.isLiteral = false) :
      Deferred options (if decisive then .any else .all) (before ++ term :: after)
  | case {condition output : Term} {rest : List Term} (unknown : condition.isLiteral = false) :
      Deferred options .case (condition :: output :: rest)
  | coalesce {term : Term} {rest : List Term} (unknown : term.isLiteral = false) :
      Deferred options .coalesce (term :: rest)
  | select {input : Term} {rest : List Term} (unknown : input.isLiteral = false)
      (labelled : rest ≠ []) : Deferred options .select (input :: rest)
  | step {input first : Term} {rest : List Term} (stops : Stops rest)
      (waits : options.foldConstants = true → Context.LeavesOpen
        (options.evaluator.evaluate 0 (Builtin.step.applied (input :: first :: rest)))) :
      Deferred options .step (input :: first :: rest)
  | interpolate (curve : Curve) {input : Term} {rest : List Term}
      (readable : ∃ again, Curve.ofValue? curve.toValue = some again) (stops : Stops rest)
      (occupied : rest ≠ [])
      (waits : options.foldConstants = true → Context.LeavesOpen
        (options.evaluator.evaluate 0
          (Builtin.interpolate.applied (.literal curve.toValue :: input :: rest)))) :
      Deferred options .interpolate (.literal curve.toValue :: input :: rest)

/-- The terms that a compilation of documents with such values can emit. -/
inductive Emitted (options : Options) (written : Value → Prop) : Term → Prop where
  | literal {value : Value} (origin : value.Origin written) :
      Emitted options written (.literal value)
  | property (name : String) : Emitted options written (.property name)
  | call {builtin : Builtin} {arguments : List Term}
      (each : ∀ argument ∈ arguments, Emitted options written argument)
      (deferred : Deferred options builtin arguments) :
      Emitted options written (builtin.applied arguments)

namespace Emitted

variable {options : Options} {written : Value → Prop}

theorem computed {value : Value} (computed : value.Computed) :
    Emitted options written (.literal value) :=
  .literal (.inr computed)

theorem origin_of_literal {value : Value} (emitted : Emitted options written (.literal value)) :
    value.Origin written := by
  cases emitted with
  | literal origin => exact origin

/-- The value of a call is of the document or computed if those of its arguments are. -/
theorem origin_of_applied {builtin : Builtin} {arguments : List Term}
    (each : ∀ argument ∈ arguments, ∀ value, argument.meaning {} .constants = .ok value →
      value.Origin written)
    {value : Value} (means : (builtin.applied arguments).meaning {} .constants = .ok value) :
    value.Origin written := by
  rw [Term.meaning_applied] at means
  rcases Builtin.call_origin means with member | computed
  · obtain ⟨argument, present, means⟩ := List.mem_map.mp member
    exact each argument present value means
  · exact .inr computed

/-- What an emitted term comes to while nothing is known is of the document or computed. -/
theorem origin_of_meaning {term : Term} (emitted : Emitted options written term) {value : Value}
    (means : term.meaning {} .constants = .ok value) : value.Origin written := by
  induction emitted generalizing value with
  | literal origin =>
      simp only [Term.meaning] at means
      obtain rfl := Except.ok.inj means
      exact origin
  | property name => cases means
  | call each deferred ih =>
      apply origin_of_applied _ means
      intro argument member value means
      exact ih argument member means

end Emitted

/-!
## Well-formed terms

A term is well formed if each call in it is of a registered function with as many arguments as
it accepts, and if names, reference systems, curves and stops stand in it as values.  Evaluation
of such a term can fail for the data alone, or for the limit on nested calls; and each emitted
term is of this form.
-/

/-- The arguments that the form of a call fixes: names, a reference system, a curve, stops. -/
def Builtin.Shaped : Builtin → List Term → Prop
  | .environment, arguments => ∃ name, arguments = [.literal (.string name)]
  | .hasProperty, arguments => ∃ name, arguments = [.literal (.string name)]
  | .zoomLevel, arguments => ∃ scale, arguments = [scale, .literal (.string webMercator)]
  | .interpolate, arguments => ∃ shape curve input rest,
      arguments = .literal shape :: input :: rest ∧ Curve.ofValue? shape = some curve ∧ Stops rest
  | .step, arguments => ∃ input first rest, arguments = input :: first :: rest ∧ Stops rest
  | _, _ => True

namespace Term

/-- The terms whose calls are registered, accepted and of the right form throughout. -/
inductive WellFormed : Term → Prop where
  | literal (value : Value) : WellFormed (.literal value)
  | property (name : String) : WellFormed (.property name)
  | call {function : String} {builtin : Builtin} {arguments : List Term}
      (registered : Registry.find? {} function = some builtin)
      (accepted : builtin.arity.accepts arguments.length = true)
      (shaped : builtin.Shaped arguments)
      (each : ∀ argument ∈ arguments, argument.WellFormed) :
      WellFormed (.call function arguments)

/-- A call of a built-in function is well formed if its form is right and its arguments are. -/
theorem WellFormed.applied {builtin : Builtin} {arguments : List Term}
    (accepted : builtin.arity.accepts arguments.length = true)
    (shaped : builtin.Shaped arguments) (each : ∀ argument ∈ arguments, argument.WellFormed) :
    (builtin.applied arguments).WellFormed :=
  .call (Registry.find?_standard builtin) accepted shaped each

end Term

/-! ### Evaluation of well-formed terms -/

section

variable {allowed : Error → Prop}

/--
A call of the right form asks for a zoom level in web mercator only, and for an interpolation
along a curve only.
-/
theorem Builtin.Shaped.supported {builtin : Builtin} {arguments : List Term}
    (shaped : builtin.Shaped arguments) (source : Source) :
    builtin.Supported allowed (arguments.map (Term.meaning {} source)) := by
  constructor
  · rintro rfl
    obtain ⟨scale, rfl⟩ := shaped
    exact .inl ⟨scale.meaning {} source, by simp⟩
  · rintro rfl argument first
    obtain ⟨shape, curve, input, rest, rfl, reads, _⟩ := shaped
    rw [List.map_cons, Term.meaning_literal] at first
    obtain rfl := Option.some.inj first
    exact .inl ⟨shape, curve, rfl, reads⟩

/-- What a well-formed term means, it fails for the data alone, if its source does. -/
theorem Term.WellFormed.meaning_confined {source : Source}
    (data : ∀ cause, cause.blamesOperand = true → allowed cause) (known : source.Confined allowed)
    {term : Term} (wellFormed : term.WellFormed) : Confined allowed (term.meaning {} source) := by
  induction wellFormed with
  | literal value =>
      rw [meaning_literal]
      exact .ok value
  | property name =>
      rw [meaning]
      exact (known.property name).map _
  | call registered accepted shaped each ih =>
      rw [meaning, registered, meanings_eq_map]
      dsimp only
      refine Builtin.call_confined data known ?_ (shaped.supported source) (.inl ?_)
      · intro outcome member
        obtain ⟨argument, present, rfl⟩ := List.mem_map.mp member
        exact ih argument present
      · rw [List.length_map]
        exact accepted

/-- An evaluation fails as the meaning of its term does, or for the limit. -/
theorem Evaluator.evaluate_confined {evaluator : Evaluator} {term : Term}
    (means : Confined allowed (term.meaning evaluator.registry evaluator.source)) (depth : Nat) :
    Confined (fun cause => allowed cause ∨ cause.isCalledTooDeep = true)
      (evaluator.evaluate depth term) := by
  intro cause failed
  rcases (evaluate_agrees_meaning evaluator term depth).cases_eq with ⟨other, stopped, deep⟩ | same
  · rw [failed] at stopped
    cases stopped
    exact .inr deep
  · rw [failed] at same
    exact .inl (means cause same.symm)

end

/-! ### Emitted terms -/

namespace Deferred

variable {options : Options} {builtin : Builtin} {arguments : List Term}

/-- A call that is left in place has as many arguments as its function accepts. -/
theorem accepted (deferred : Deferred options builtin arguments) :
    builtin.arity.accepts arguments.length = true := by
  cases deferred with
  | reading reads =>
      simp only [List.mem_cons, List.not_mem_nil, or_false] at reads
      rcases reads with rfl | rfl | rfl <;> rfl
  | named reads name =>
      simp only [List.mem_cons, List.not_mem_nil, or_false] at reads
      rcases reads with rfl | rfl <;> rfl
  | zoom => rfl
  | conversion unknown => rfl
  | single takesOne undecided =>
      simp only [List.mem_cons, List.not_mem_nil, or_false] at takesOne
      rcases takesOne with rfl | rfl | rfl | rfl <;> rfl
  | measure measures unknown =>
      simp only [List.mem_cons, List.not_mem_nil, or_false] at measures
      rcases measures with rfl | rfl | rfl <;> rfl
  | equality undecided => rfl
  | comparison order undecided => cases order <;> rfl
  | concatenation nonempty undecided =>
      exact Builtin.accepts_of_atLeast rfl (List.length_pos_iff.mpr nonempty)
  | arithmetic numeric accepted numbers undecided => exact accepted
  | @logical decisive before after term passed unknown =>
      have occupied : 1 ≤ (before ++ term :: after).length := by
        rw [List.length_append, List.length_cons]
        omega
      cases decisive
      · exact Builtin.accepts_of_atLeast rfl occupied
      · exact Builtin.accepts_of_atLeast rfl occupied
  | case unknown => exact Builtin.accepts_of_atLeast rfl (by simp)
  | coalesce unknown => exact Builtin.accepts_of_atLeast rfl (by simp)
  | select unknown labelled =>
      exact Builtin.accepts_of_atLeast rfl (Nat.succ_le_succ (List.length_pos_iff.mpr labelled))
  | step stops waits => exact Builtin.accepts_of_atLeast rfl (by simp)
  | interpolate curve readable stops occupied waits =>
      exact Builtin.accepts_of_atLeast rfl
        (Nat.add_le_add_right (stops.two_le_length occupied) 2)

/-- A call that is left in place has the form of its function. -/
theorem shaped (deferred : Deferred options builtin arguments) : builtin.Shaped arguments := by
  cases deferred with
  | named reads name =>
      simp only [List.mem_cons, List.not_mem_nil, or_false] at reads
      rcases reads with rfl | rfl
      · exact ⟨name, rfl⟩
      · exact ⟨name, rfl⟩
  | zoom => exact ⟨_, rfl⟩
  | interpolate curve readable stops occupied waits =>
      obtain ⟨again, reads⟩ := readable
      exact ⟨_, again, _, _, rfl, reads, stops⟩
  | step stops waits => exact ⟨_, _, _, rfl, stops⟩
  | reading reads =>
      simp only [List.mem_cons, List.not_mem_nil, or_false] at reads
      rcases reads with rfl | rfl | rfl <;> trivial
  | single takesOne undecided =>
      simp only [List.mem_cons, List.not_mem_nil, or_false] at takesOne
      rcases takesOne with rfl | rfl | rfl | rfl <;> trivial
  | measure measures unknown =>
      simp only [List.mem_cons, List.not_mem_nil, or_false] at measures
      rcases measures with rfl | rfl | rfl <;> trivial
  | arithmetic numeric accepted numbers undecided =>
      cases builtin with
      | unary function => trivial
      | binary function => trivial
      | list function => trivial
      | _ => cases numeric
  | logical decisive passed unknown => cases decisive <;> trivial
  | _ => trivial

end Deferred

/-- Every emitted term is well formed. -/
theorem Emitted.wellFormed {options : Options} {written : Value → Prop} {term : Term}
    (emitted : Emitted options written term) : term.WellFormed := by
  induction emitted with
  | literal origin => exact .literal _
  | property name => exact .property name
  | call each deferred ih => exact .applied deferred.accepted deferred.shaped ih

end MapStyle
