import MapStyle.Proofs.Compiler.Emission
import MapStyle.Proofs.Compiler.Emitted

/-!
# What evaluation reads

A compiled term names each datum that it asks for, so its outcome depends on no other datum: two
sources that answer alike for the data that the term mentions cannot be told apart by it.
-/

namespace MapStyle

def Source.AnswersAs (one other : Source) : Datum → Prop
  | .property name => one.property name = other.property name
  | .featureId => one.featureId = other.featureId
  | .geometryType => one.geometryType = other.geometryType
  | .properties => one.properties = other.properties
  | .environment name => one.environment name = other.environment name

/-- The data that a call asks for besides those that its arguments ask for. -/
def Builtin.reads : Builtin → List Term → List Datum
  | .hasProperty, [.literal (.string name)] => [.property name]
  | .environment, [.literal (.string name)] => [.environment name]
  | .featureId, _ => [.featureId]
  | .geometryType, _ => [.geometryType]
  | .properties, _ => [.properties]
  | _, _ => []

namespace Term

def readsOfCall (function : String) (arguments : List Term) : List Datum :=
  match Registry.find? {} function with
  | some builtin => builtin.reads arguments
  | none => []

mutual

/-- The data that a term mentions. -/
def reads : Term → List Datum
  | .literal _ => []
  | .property name => [.property name]
  | .call function arguments => readsOfCall function arguments ++ readsAll arguments

def readsAll : List Term → List Datum
  | [] => []
  | term :: rest => reads term ++ readsAll rest

end

theorem mem_readsAll {datum : Datum} {terms : List Term} :
    datum ∈ readsAll terms ↔ ∃ term ∈ terms, datum ∈ term.reads := by
  induction terms with
  | nil => simp [readsAll]
  | cons term rest ih => simp [readsAll, ih]

end Term

section

variable {one other : Source}

/-- The rule of a call in its right form asks a source for what the call mentions only. -/
theorem Builtin.Shaped.answer?_eq {builtin : Builtin} {arguments : List Term}
    (shaped : builtin.Shaped arguments)
    (alike : ∀ datum ∈ builtin.reads arguments, one.AnswersAs other datum)
    {outcome : Term → Outcome} (literal : ∀ value, outcome (.literal value) = .ok value) :
    (builtin.rule one).answer? (arguments.map outcome) =
      (builtin.rule other).answer? (arguments.map outcome) := by
  cases builtin with
  | hasProperty =>
      obtain ⟨name, rfl⟩ := shaped
      have property : one.property name = other.property name :=
        alike (.property name) (List.mem_singleton.mpr rfl)
      have asks (source : Source) : Reading.hasProperty source (.ok (.string name)) =
          (source.property name >>= fun found => pure (.boolean found.isSome)) := rfl
      rw [List.map_singleton, literal]
      change some (Reading.hasProperty one _) = some (Reading.hasProperty other _)
      rw [asks, asks, property]
  | environment =>
      obtain ⟨name, rfl⟩ := shaped
      have environment : one.environment name = other.environment name :=
        alike (.environment name) (List.mem_singleton.mpr rfl)
      have asks (source : Source) : Reading.environment source (.ok (.string name)) =
          source.environment name := rfl
      rw [List.map_singleton, literal]
      change some (Reading.environment one _) = some (Reading.environment other _)
      rw [asks, asks, environment]
  | featureId =>
      have featureId : one.featureId = other.featureId :=
        alike .featureId (List.mem_singleton.mpr rfl)
      unfold rule
      rw [featureId]
  | geometryType =>
      have geometryType : one.geometryType = other.geometryType :=
        alike .geometryType (List.mem_singleton.mpr rfl)
      unfold rule
      rw [geometryType]
  | properties =>
      have properties : one.properties = other.properties :=
        alike .properties (List.mem_singleton.mpr rfl)
      unfold rule
      rw [properties]
  | _ => rfl

/-- Two sources cannot be told apart by a well-formed term if they answer alike for its data. -/
theorem Term.WellFormed.evaluate_eq {term : Term} (wellFormed : term.WellFormed)
    (alike : ∀ datum ∈ term.reads, one.AnswersAs other datum) (registry : Registry)
    (limit depth : Nat) :
    Evaluator.evaluate { source := one, registry, limit } depth term =
      Evaluator.evaluate { source := other, registry, limit } depth term := by
  induction wellFormed generalizing depth with
  | literal value => simp [Evaluator.evaluate]
  | property name =>
      have property : one.property name = other.property name :=
        alike (.property name) (by simp [reads])
      simp [Evaluator.evaluate, property]
  | @call function builtin arguments registered accepted shaped each ih =>
      simp only [reads, readsOfCall, registered, List.mem_append] at alike
      have same :
          arguments.map (Evaluator.evaluate { source := one, registry, limit } (depth + 1)) =
          arguments.map (Evaluator.evaluate { source := other, registry, limit } (depth + 1)) := by
        apply List.map_congr_left
        intro argument member
        apply ih argument member
        intro datum mentioned
        exact alike datum (.inr (mem_readsAll.mpr ⟨argument, member, mentioned⟩))
      unfold Evaluator.evaluate
      dsimp only
      split
      · rfl
      · cases found : registry.find? function with
        | none => rfl
        | some held =>
            obtain rfl := Registry.name_of_find? found
            obtain rfl := Option.some.inj ((Registry.find?_standard held).symm.trans registered)
            dsimp only
            rw [Evaluator.evaluateAll_eq_map, Evaluator.evaluateAll_eq_map, ← same]
            unfold Builtin.call
            rw [Builtin.call?_eq_rule, Builtin.call?_eq_rule]
            rw [shaped.answer?_eq (fun datum mentioned => alike datum (.inl mentioned))]
            intro value
            simp [Evaluator.evaluate]

end

/--
Evaluation reads what the term mentions only.  If a document compiles, then any two sources that
answer alike for the properties and variables that its term names, and for the id, geometry type and
properties if the term calls for them, bring it to the same value or the same failure.
-/
theorem evaluation_reads_mentioned {options : Options} {document : Value} {term : Term}
    (compiled : Compiler.compile { options } document = .ok term) {one other : Source}
    (alike : ∀ datum ∈ term.reads, one.AnswersAs other datum) (limit depth : Nat) :
    Evaluator.evaluate { source := one, limit } depth term =
      Evaluator.evaluate { source := other, limit } depth term := by
  have emitted := Compiler.compile_emitted Value.hereditary_true trivial compiled
  exact emitted.wellFormed.evaluate_eq alike {} limit depth

/-- A choice between a property and the id is the same for features that differ in another one. -/
theorem evaluation_reads_mentioned_case :
    Evaluator.evaluate
        { source := .scope { id := some (.ofNat 7), properties := [("name", .string "Ulm")] } []
          limit := 512 } 0
        (Builtin.case.applied
          [Builtin.hasProperty.applied [.literal (.string "name")], .property "name",
            Builtin.featureId.applied []]) =
      Evaluator.evaluate
        { source := .scope
            { id := some (.ofNat 7)
              geometryType := some "Point"
              properties := [("level", .ofNat 3), ("name", .string "Ulm")] } [("zoom", .ofNat 4)]
          limit := 512 } 0
        (Builtin.case.applied
          [Builtin.hasProperty.applied [.literal (.string "name")], .property "name",
            Builtin.featureId.applied []]) := by
  apply @evaluation_reads_mentioned {}
    (.array [.string "case", .array [.string "has", .string "name"],
      .array [.string "get", .string "name"], .array [.string "id"]])
  · rfl
  · intro datum mentioned
    have named : datum ∈ [Datum.property "name", .property "name", .featureId] := mentioned
    simp only [List.mem_cons, List.not_mem_nil, or_false] at named
    rcases named with rfl | rfl | rfl
    · rfl
    · rfl
    · rfl

end MapStyle
