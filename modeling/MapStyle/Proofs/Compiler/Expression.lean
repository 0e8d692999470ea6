import MapStyle.Compiler.Expression
import MapStyle.Proofs.Compiler.Access
import MapStyle.Proofs.Compiler.Alignment
import MapStyle.Proofs.Compiler.Choice
import MapStyle.Proofs.Compiler.Formula
import MapStyle.Proofs.Compiler.Logic

/-!
# Compilations of one document refine each other

The rule of each operator keeps refinement, so by induction on the document its sharp compilation
refines the blunt one: the arguments of a filled expression are those of the expression itself,
filled where they are compiled, and a look-up may be given the known properties besides.
-/

namespace MapStyle

variable {specialization : Specialization}

/-- The rule of an operator keeps refinement, if the arguments do. -/
theorem Operator.rule_refines {operator : Operator} {sharps blunts : Node}
    (fills : specialization.Fills operator sharps blunts)
    (accepted : operator.arity.accepts (blunts.length - 1) = true)
    (sharpEmits : sharps.Emits specialization.sharp Value.SafeZeros)
    (bluntEmits : blunts.Emits specialization.blunt Value.SafeZeros)
    {sharpContext bluntContext : Context}
    (around : specialization.Around sharpContext bluntContext) {sharpTerm bluntTerm : Term}
    (sharpCompiled : operator.rule sharps sharpContext = .ok sharpTerm)
    (bluntCompiled : operator.rule blunts bluntContext = .ok bluntTerm) :
    sharpTerm.Refines specialization.source bluntTerm := by
  cases operator with
  | get => exact Compiler.get_refines fills around sharpCompiled bluntCompiled
  | has => exact Compiler.has_refines fills around sharpCompiled bluntCompiled
  | rgb =>
      exact Compiler.rgb_refines (fills.follows rfl) (fun _ => rfl) around sharpCompiled
        bluntCompiled
  | not =>
      exact Compiler.negation_refines (fills.follows rfl) rfl around sharpCompiled bluntCompiled
  | equal | notEqual =>
      exact Compiler.equality_refines (fills.follows rfl) (fun _ => rfl) around sharpCompiled
        bluntCompiled
  | less | lessOrEqual | greater | greaterOrEqual =>
      exact Compiler.comparison_refines (fills.follows rfl) (fun _ => rfl) around sharpCompiled
        bluntCompiled
  | all =>
      have tracks := (fills.follows rfl).arguments fun _ => rfl
      exact Compiler.logical_refines false tracks around sharpCompiled bluntCompiled
  | any =>
      have tracks := (fills.follows rfl).arguments fun _ => rfl
      exact Compiler.logical_refines true tracks around sharpCompiled bluntCompiled
  | case =>
      have tracks := (fills.follows rfl).arguments fun _ => rfl
      exact Compiler.case_refines tracks around sharpCompiled bluntCompiled
  | coalesce =>
      have tracks := (fills.follows rfl).arguments fun _ => rfl
      exact Compiler.coalesce_refines tracks around sharpCompiled bluntCompiled
  | select =>
      exact Compiler.select_refines (fills.follows rfl) rfl around sharpCompiled bluntCompiled
  | «at» =>
      exact Compiler.itemAt_refines (fills.follows rfl) (fun _ => rfl) around sharpCompiled
        bluntCompiled
  | length =>
      exact Compiler.length_refines (fills.follows rfl) rfl around sharpCompiled bluntCompiled
  | subtract =>
      have follows := fills.follows rfl
      exact Compiler.difference_refines follows.length_eq (follows.arguments fun _ => rfl) around
        sharpCompiled bluntCompiled
  | interpolate =>
      exact Compiler.interpolate_refines (fills.follows rfl) rfl bluntEmits around sharpCompiled
        bluntCompiled
  | step =>
      exact Compiler.step_refines (fills.follows rfl) rfl bluntEmits around sharpCompiled
        bluntCompiled
  | concat | downcase | upcase =>
      have tracks := (fills.follows rfl).arguments fun _ => rfl
      exact Compiler.textual_refines tracks around sharpCompiled bluntCompiled
  | letIn =>
      exact Compiler.letIn_refines (fills.follows rfl) rfl accepted sharpEmits bluntEmits around
        sharpCompiled bluntCompiled
  | var =>
      exact Compiler.var_refines (fills.follows rfl) rfl around sharpCompiled bluntCompiled
  | geometryType | id | properties | heatmapDensity | e | pi | ln2 | zoom =>
      obtain rfl := pure_eq_ok.mp sharpCompiled
      obtain rfl := pure_eq_ok.mp bluntCompiled
      exact .refl _
  | rgba | toRgba | array | boolean | collator | format | literal | number | object | string
  | toBoolean | toColor | toNumber | toText | typeOf => cases bluntCompiled
  | _ =>
      have tracks := (fills.follows rfl).arguments fun _ => rfl
      exact Compiler.arithmetic_refines rfl tracks around sharpCompiled bluntCompiled

/-! ### Items of an array as arguments -/

/-- An item whose zeros can be converted safely emits such values only. -/
theorem Value.SafeZeros.argument_emits {options : Options} {value : Value}
    (safe : value.SafeZeros) : value.argument.Emits options Value.SafeZeros := by
  refine ⟨safe, ?_⟩
  intro context term around compiled
  exact Value.compile_emitted Value.hereditary_safeZeros safe around compiled

namespace Node

theorem ofItems_emits {options : Options} {items : List Value}
    (safe : ∀ item ∈ items, item.SafeZeros) : (ofItems items).Emits options Value.SafeZeros := by
  rw [ofItems_eq_map]
  intro argument member
  obtain ⟨item, present, rfl⟩ := List.mem_map.mp member
  exact (safe item present).argument_emits

end Node

namespace Specialization

/-- The filled items follow the items themselves, position by position. -/
theorem follows_ofItems {operator : Operator} {length position : Nat} {items : List Value}
    (tracks : ∀ item ∈ items,
      specialization.Tracks (item.fill specialization.known).argument item.argument) :
    specialization.Follows (operator.readsWritten length) position
      (Node.ofItems (operator.fillItems specialization.known length position items))
      (Node.ofItems items) := by
  induction items generalizing position with
  | nil =>
      rw [Operator.fillItems, Node.ofItems]
      exact .nil _
  | cons item rest ih =>
      have later := @ih (position + 1)
        fun other member => tracks other (List.mem_cons_of_mem _ member)
      rw [Operator.fillItems, Node.ofItems, Node.ofItems]
      cases skipped : operator.readsWritten length position with
      | true => exact .written skipped rfl later
      | false => exact .compiled skipped (tracks item List.mem_cons_self) later

/-- The arguments of an expression, as it is filled and as it stands. -/
theorem fills_ofItems {operator : Operator} {items : List Value}
    (tracks : ∀ item ∈ items,
      specialization.Tracks (item.fill specialization.known).argument item.argument) :
    specialization.Fills operator
      (Node.ofItems (operator.complete specialization.known
        (operator.fillItems specialization.known items.length 0 items)))
      (Node.ofItems items) := by
  have sized := Node.length_ofItems items
  have follows := @follows_ofItems specialization operator (Node.ofItems items).length 0 items
    tracks
  rw [← sized]
  unfold Operator.complete
  split
  · rename_i entries known
    split
    · rename_i given
      obtain ⟨looksUp, single⟩ := (Bool.and_eq_true _ _).mp given
      rw [beq_iff_eq, Operator.length_fillItems] at single
      rw [Node.ofItems_eq_map, List.map_append, ← Node.ofItems_eq_map]
      exact .given looksUp known rfl (sized.trans single) follows
    · exact .alike follows
  · exact .alike follows

end Specialization

/-- The filled value, compiled sharply, refines the value itself, compiled bluntly. -/
theorem Value.compile_refines {value : Value} (safe : value.SafeZeros)
    {sharpContext bluntContext : Context} {sharpTerm bluntTerm : Term}
    (around : specialization.Around sharpContext bluntContext)
    (sharpCompiled : (value.fill specialization.known).compile sharpContext = .ok sharpTerm)
    (bluntCompiled : value.compile bluntContext = .ok bluntTerm) :
    sharpTerm.Refines specialization.source bluntTerm := by
  induction value generalizing sharpContext bluntContext sharpTerm bluntTerm with
  | array items ih =>
      have itemsSafe := Value.hereditary_safeZeros.items items safe
      have filledSafe := safe.fill specialization.clean
      have sameOperator := Value.operator?_fill specialization.known (.array items)
      obtain ⟨operator, headed, accepted, bluntRuled⟩ := Value.compile_array_eq_ok bluntCompiled
      -- The blunt expression has an operator, which says what is filled in and which rule counts.
      rw [Value.fill_of_operator? headed] at sharpCompiled filledSafe sameOperator
      obtain ⟨other, filledHeaded, _, sharpRuled⟩ := Value.compile_array_eq_ok sharpCompiled
      rw [sameOperator, headed] at filledHeaded
      obtain rfl := Option.some.inj filledHeaded
      have tracks : ∀ item ∈ items,
          specialization.Tracks (item.fill specialization.known).argument item.argument := by
        intro item member
        have itemSafe := itemsSafe item member
        refine ⟨rfl, (itemSafe.fill specialization.clean).argument_emits, ?_⟩
        intro sharpContext bluntContext sharpTerm bluntTerm around sharpCompiled bluntCompiled
        exact ih item member itemSafe around sharpCompiled bluntCompiled
      exact Operator.rule_refines (Specialization.fills_ofItems tracks) accepted
        (Node.ofItems_emits (Value.hereditary_safeZeros.items _ filledSafe))
        (Node.ofItems_emits itemsSafe) around.deeper sharpRuled bluntRuled
  | _ =>
      rw [Value.fill_of_operator?_eq_none rfl] at sharpCompiled
      unfold Value.compile at sharpCompiled bluntCompiled
      obtain rfl := pure_eq_ok.mp sharpCompiled
      obtain rfl := pure_eq_ok.mp bluntCompiled
      exact .refl _

/-- The contexts of whole documents, where no variable is bound. -/
theorem Specialization.around_document (specialization : Specialization) :
    specialization.Around { options := specialization.sharp }
      { options := specialization.blunt } := by
  refine ⟨.document, .document, ?_⟩
  intro name sharpTerm bluntTerm bound
  cases bound

/-- Every compilation of a filled document refines that of the document itself. -/
theorem Compiler.compile_refines (specialization : Specialization) {document : Value}
    (safe : document.SafeZeros) {sharpTerm bluntTerm : Term}
    (sharpCompiled : Compiler.compile { options := specialization.sharp }
      (document.fill specialization.known) = .ok sharpTerm)
    (bluntCompiled : Compiler.compile { options := specialization.blunt } document =
      .ok bluntTerm) :
    sharpTerm.Refines specialization.source bluntTerm :=
  Value.compile_refines safe specialization.around_document
    (Compiler.compile_eq_ok sharpCompiled) (Compiler.compile_eq_ok bluntCompiled)

/-!
## Partial evaluation

Two uses of refinement.  A document into which the properties of a feature are written comes, for
that feature, to the value that the document itself comes to; and a document whose constants are
folded comes to the value that it has without folding.  Only the limit on nested calls can tell
the terms apart, since the one with less decided is the deeper one.
-/

/-- What a sharp term evaluates to, the blunt one does too, unless the limit stops it. -/
theorem Term.Refines.evaluates {source : Source} {sharp blunt : Term}
    (refines : sharp.Refines source blunt) {one other : Options} {value : Value}
    (yields : Compiler.evaluate { options := one } source sharp = .ok value) :
    Compiler.evaluate { options := other } source blunt = .ok value ∨
      ∃ function limit, Compiler.evaluate { options := other } source blunt =
        .error (.calledTooDeep function limit) := by
  have means := Evaluator.meaning_of_evaluate yields
  exact Evaluator.evaluate_of_meaning _ 0 (refines.carries.ok means)

/--
Partial evaluation is correct.  If a document compiles, both as it stands and with the properties
of a feature written into it, and the latter term evaluates for that feature to a value, then the
former evaluates to the same value, or its calls are nested too deep.
-/
theorem partial_evaluation_correct (document : Value) (feature : Feature) (environment : Entries)
    (written : document.hasNegativeZero = false)
    (known : (Value.object feature.properties).hasNegativeZero = false)
    {filledTerm term : Term} {value : Value}
    (filledCompiled : Compiler.compile {} (document.fill (some feature.properties)) =
      .ok filledTerm)
    (compiled : Compiler.compile {} document = .ok term)
    (yields : Compiler.evaluate {} (.scope feature environment) filledTerm = .ok value) :
    Compiler.evaluate {} (.scope feature environment) term = .ok value ∨
      ∃ function limit, Compiler.evaluate {} (.scope feature environment) term =
        .error (.calledTooDeep function limit) := by
  let specialization : Specialization :=
    { source := .scope feature environment, known := some feature.properties, maxDepth := 128,
      folds := true,
      fits := by
        rintro entries ⟨⟩ name
        rfl,
      clean := by
        rintro entries ⟨⟩
        exact known }
  have refines := Compiler.compile_refines specialization (.inl written) filledCompiled compiled
  exact refines.evaluates yields

/-- With its name known, the choice in a document is decided and its name written in. -/
theorem partial_evaluation_correct_case :
    Compiler.evaluate {} (.scope { properties := [("name", .string "Ulm")] } [])
        (Builtin.case.applied
          [Builtin.hasProperty.applied [.literal (.string "name")], .property "name",
           .literal (.string "none")]) = .ok (.string "Ulm") ∨
      ∃ function limit,
        Compiler.evaluate {} (.scope { properties := [("name", .string "Ulm")] } [])
          (Builtin.case.applied
            [Builtin.hasProperty.applied [.literal (.string "name")], .property "name",
             .literal (.string "none")]) = .error (.calledTooDeep function limit) :=
  partial_evaluation_correct
    (.array [.string "case", .array [.string "has", .string "name"],
      .array [.string "get", .string "name"], .string "none"])
    { properties := [("name", .string "Ulm")] } [] rfl rfl rfl rfl rfl

/--
Folding refines the program that is not folded.  If a document compiles with and without folding
and the folded term evaluates to a value, whatever the feature and the environment, then the other
evaluates to the same value, or its calls are nested too deep.
-/
theorem folding_refines (maxDepth : Nat) (document : Value)
    (written : document.hasNegativeZero = false) {foldedTerm term : Term}
    (foldedCompiled : Compiler.compile { options := { maxDepth, foldConstants := true } } document =
      .ok foldedTerm)
    (compiled : Compiler.compile { options := { maxDepth, foldConstants := false } } document =
      .ok term)
    (feature : Feature) (environment : Entries) {value : Value}
    (yields : Compiler.evaluate { options := { maxDepth, foldConstants := true } }
      (.scope feature environment) foldedTerm = .ok value) :
    Compiler.evaluate { options := { maxDepth, foldConstants := false } }
        (.scope feature environment) term = .ok value ∨
      ∃ function limit,
        Compiler.evaluate { options := { maxDepth, foldConstants := false } }
          (.scope feature environment) term = .error (.calledTooDeep function limit) := by
  let specialization : Specialization :=
    { source := .scope feature environment, known := none, maxDepth, folds := false,
      fits := by
        rintro entries ⟨⟩,
      clean := by
        rintro entries ⟨⟩ }
  have unfilled : document.fill specialization.known = document := document.fill_none
  rw [← unfilled] at foldedCompiled
  have refines := Compiler.compile_refines specialization (.inl written) foldedCompiled compiled
  exact refines.evaluates yields

/-- Without folding, the text that is asked for is made when the feature is drawn. -/
theorem folding_refines_case :
    Compiler.evaluate { options := { maxDepth := 8, foldConstants := false } } (.scope {} [])
        (Builtin.concatenate.applied [.literal (.string "a"), .literal (.string "b")]) =
          .ok (.string "ab") ∨
      ∃ function limit,
        Compiler.evaluate { options := { maxDepth := 8, foldConstants := false } } (.scope {} [])
          (Builtin.concatenate.applied [.literal (.string "a"), .literal (.string "b")]) =
            .error (.calledTooDeep function limit) :=
  folding_refines 8 (.array [.string "concat", .string "a", .string "b"]) rfl rfl rfl {} [] rfl

end MapStyle
