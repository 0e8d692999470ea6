import MapStyle.Proofs.Compiler.Alignment
import MapStyle.Proofs.Compiler.Refinement

/-!
# Arguments of two compilations

The arguments of an expression in a sharp and in a blunt compilation, one by one: written alike
where they are never compiled, and elsewhere such that the compiled terms refine each other.
Known arguments come to one value in both, and operands to one number.
-/

namespace MapStyle

/-- Two terms that a function of numbers cannot tell apart, where the sharp one has a value. -/
structure Term.RefinesAsNumber (source : Source) (sharp blunt : Term) : Prop where
  carries : AgreesAsNumber (fun cause => cause.isUnresolved = false) (sharp.meaning {} source)
    (blunt.meaning {} source)
  known : ∀ value, blunt = .literal value → sharp = .literal value
  depth : sharp.callDepth ≤ blunt.callDepth

namespace Term.RefinesAsNumber

variable {source : Source}

theorem of_refines {sharp blunt : Term} (refines : sharp.Refines source blunt) :
    sharp.RefinesAsNumber source blunt :=
  ⟨refines.carries.asNumber, refines.known, refines.depth⟩

theorem forall_carries {sharps blunts : List Term}
    (refine : List.Forall₂ (RefinesAsNumber source) sharps blunts) :
    List.Forall₂ (AgreesAsNumber fun cause => cause.isUnresolved = false)
      (sharps.map (meaning {} source)) (blunts.map (meaning {} source)) := by
  rw [List.forall₂_map_left_iff, List.forall₂_map_right_iff]
  exact refine.imp fun _ _ refines => refines.carries

theorem greatestDepth_le {sharps blunts : List Term}
    (refine : List.Forall₂ (RefinesAsNumber source) sharps blunts) :
    greatestDepth sharps ≤ greatestDepth blunts :=
  greatestDepth_le_of_forall₂ (refine.imp fun _ _ refines => refines.depth)

end Term.RefinesAsNumber

/-- A number that is converted once more is read as one that no function tells apart from it. -/
theorem Conversion.toNumber_reads {value : Value} {x : Double} (safe : value.SafeZeros)
    (number : value.toDouble? = some x) (function : String) (position : Nat) :
    ∃ y, Operand.number function position (toNumber [.ok value]) = .ok y ∧
      x.Interchangeable y := by
  obtain ⟨y, kept, same⟩ := safe.toDouble?_ofDouble number
  cases value with
  | number held =>
      obtain rfl := Option.some.inj number
      exact ⟨y, Operand.number_eq_ok.mpr ⟨_, rfl, kept⟩, same⟩
  | _ => cases number

/-- Of a number and the conversion of what carries it over no function tells the one apart. -/
theorem Carries.toNumber {sharp blunt : Outcome} (carries : Carries sharp blunt)
    (safe : ∀ value, sharp = .ok value → value.SafeZeros) :
    AgreesAsNumber (fun cause => cause.isUnresolved = false) sharp
      (Conversion.toNumber [blunt]) := by
  intro function position
  cases carries with
  | excuse reason => exact .excuse reason
  | error cause => exact .error cause
  | @ok value _ same =>
      subst same
      cases read : value.toDouble? with
      | none =>
          have refused : Operand.number function position (.ok value) =
              .error (.invalidArgument function position "a number" value.kind.name) := by
            unfold Operand.number
            simp only [bind, Except.bind, read]
            rfl
          rw [refused]
          exact .excuse rfl
      | some x =>
          obtain ⟨y, reads, same⟩ :=
            Conversion.toNumber_reads (safe value rfl) read function position
          rw [Operand.number_eq_ok.mpr ⟨value, rfl, read⟩, reads]
          exact .ok same

namespace Specialization

variable {specialization : Specialization} {sharpContext bluntContext : Context}

namespace Around

theorem deeper (around : specialization.Around sharpContext bluntContext) :
    specialization.Around sharpContext.deeper bluntContext.deeper :=
  ⟨around.sharpEmits.deeper, around.bluntEmits.deeper, around.bindings⟩

end Around

/-- An argument of both compilations, filled for the sharp one, with compiled terms that refine. -/
structure Tracks (specialization : Specialization) (sharp blunt : Argument) : Prop where
  raw : sharp.raw = blunt.raw.fill specialization.known
  sharpEmits : sharp.Emits specialization.sharp Value.SafeZeros
  refines : ∀ sharpContext bluntContext sharpTerm bluntTerm,
    specialization.Around sharpContext bluntContext → sharp.compile sharpContext = .ok sharpTerm →
      blunt.compile bluntContext = .ok bluntTerm → sharpTerm.Refines specialization.source bluntTerm

namespace Tracks

variable {sharp blunt : Argument} {sharpTerm bluntTerm : Term}

theorem expression (tracks : specialization.Tracks sharp blunt)
    (around : specialization.Around sharpContext bluntContext)
    (sharpCompiled : sharp.expression sharpContext = .ok sharpTerm)
    (bluntCompiled : blunt.expression bluntContext = .ok bluntTerm) :
    sharpTerm.Refines specialization.source bluntTerm := by
  unfold Argument.expression at sharpCompiled bluntCompiled
  rw [tracks.raw, Value.headName?_fill] at sharpCompiled
  split at bluntCompiled
  · rename_i headed
    rw [if_pos headed] at sharpCompiled
    exact tracks.refines _ _ _ _ around sharpCompiled bluntCompiled
  · rename_i headless
    rw [if_neg headless] at sharpCompiled
    have plain : blunt.raw.operator? = none := by
      unfold Value.operator?
      rw [Option.not_isSome_iff_eq_none.mp headless]
      rfl
    rw [Value.fill_of_operator?_eq_none plain] at sharpCompiled
    obtain rfl := pure_eq_ok.mp sharpCompiled
    obtain rfl := pure_eq_ok.mp bluntCompiled
    exact .refl _

theorem valueOrExpression (tracks : specialization.Tracks sharp blunt)
    (around : specialization.Around sharpContext bluntContext)
    (sharpCompiled : sharp.valueOrExpression sharpContext = .ok sharpTerm)
    (bluntCompiled : blunt.valueOrExpression bluntContext = .ok bluntTerm) :
    sharpTerm.Refines specialization.source bluntTerm := by
  unfold Argument.valueOrExpression at sharpCompiled bluntCompiled
  rw [tracks.raw, Value.isExpression_fill] at sharpCompiled
  split at bluntCompiled
  · rename_i expression
    rw [if_pos expression] at sharpCompiled
    exact tracks.refines _ _ _ _ around sharpCompiled bluntCompiled
  · rename_i plain
    rw [if_neg plain] at sharpCompiled
    have plain : blunt.raw.operator? = none := Option.not_isSome_iff_eq_none.mp plain
    rw [Value.fill_of_operator?_eq_none plain] at sharpCompiled
    obtain rfl := pure_eq_ok.mp sharpCompiled
    obtain rfl := pure_eq_ok.mp bluntCompiled
    exact .refl _

/-- An argument that is known in both compilations comes to one value. -/
theorem constantBy {α : Type} (tracks : specialization.Tracks sharp blunt)
    (around : specialization.Around sharpContext bluntContext) {place : Place}
    {expected : String} {read? : Value → Option α} {sharpFound bluntFound : α}
    (sharpKnown : sharp.constantBy place expected read? sharpContext = .ok sharpFound)
    (bluntKnown : blunt.constantBy place expected read? bluntContext = .ok bluntFound) :
    sharpFound = bluntFound := by
  obtain ⟨sharpTerm, sharpValue, sharpCompiled, sharpDecided, sharpReads⟩ :=
    Argument.constantBy_eq_ok sharpKnown
  obtain ⟨bluntTerm, bluntValue, bluntCompiled, bluntDecided, bluntReads⟩ :=
    Argument.constantBy_eq_ok bluntKnown
  have refines := tracks.valueOrExpression around sharpCompiled bluntCompiled
  have sharpMeans := refines.carries.ok
    (around.sharp_constant (Context.constant?_eq_some sharpDecided))
  have bluntMeans := around.blunt_constant (Context.constant?_eq_some bluntDecided)
  rw [bluntMeans] at sharpMeans
  cases sharpMeans
  rw [sharpReads] at bluntReads
  exact Option.some.inj bluntReads

/-- Operands come to one number, whichever of them a conversion is put around. -/
theorem numberExpression (tracks : specialization.Tracks sharp blunt)
    (around : specialization.Around sharpContext bluntContext) {place : Place}
    (sharpCompiled : sharp.numberExpression place sharpContext = .ok sharpTerm)
    (bluntCompiled : blunt.numberExpression place bluntContext = .ok bluntTerm) :
    sharpTerm.RefinesAsNumber specialization.source bluntTerm := by
  obtain ⟨sharpInner, sharpHead, sharpCases⟩ := Argument.numberExpression_eq_ok sharpCompiled
  obtain ⟨bluntInner, bluntHead, bluntCases⟩ := Argument.numberExpression_eq_ok bluntCompiled
  have refines := tracks.expression around sharpHead bluntHead
  rw [around.sharpEmits.kind?] at sharpCases
  rw [around.bluntEmits.kind?] at bluntCases
  rcases sharpCases with ⟨number, rfl⟩ | ⟨unknown, rfl⟩
  · rcases bluntCases with ⟨_, rfl⟩ | ⟨_, rfl⟩
    · exact .of_refines refines
    · -- The sharp operand is known to be a number; the blunt one is converted to that number.
      have emitted := tracks.sharpEmits.expression around.sharpEmits sharpHead
      refine ⟨?_, nofun, ?_⟩
      · rw [Term.meaning_applied, List.map_singleton]
        exact refines.carries.toNumber fun value means =>
          Term.safeZeros_of_number emitted number means
      · exact Nat.le_trans refines.depth (Nat.le_of_lt (Term.callDepth_lt_of_mem (by simp)))
  · rcases bluntCases with ⟨number, rfl⟩ | ⟨_, rfl⟩
    · have literal := Term.isLiteral_of_kind?_eq_none unknown
      rw [refines.kind _ literal number] at unknown
      cases unknown
    · exact .of_refines (.call (.cons refines .nil))

end Tracks

abbrev Follows (specialization : Specialization) : (Nat → Bool) → Nat → Node → Node → Prop :=
  Node.Follows specialization.Tracks

abbrev Alternates (specialization : Specialization) : Node → Node → Prop :=
  Node.Alternates specialization.Tracks

/-- An expression as it stands, and as it is filled for the sharp compilation. -/
inductive Fills (specialization : Specialization) (operator : Operator) : Node → Node → Prop where
  | alike {sharps blunts : Node}
      (follows : specialization.Follows (operator.readsWritten blunts.length) 0 sharps blunts) :
      Fills specialization operator sharps blunts
  | given {sharps blunts : Node} {properties : Argument} {entries : Entries}
      (looksUp : operator.looksUp = true) (known : specialization.known = some entries)
      (raw : properties.raw = .object entries) (single : blunts.length = 2)
      (follows : specialization.Follows (operator.readsWritten blunts.length) 0 sharps blunts) :
      Fills specialization operator (sharps ++ [properties]) blunts

/-- Only look-ups are given an argument more. -/
theorem Fills.follows {operator : Operator} {sharps blunts : Node}
    (fills : specialization.Fills operator sharps blunts) (plain : operator.looksUp = false) :
    specialization.Follows (operator.readsWritten blunts.length) 0 sharps blunts := by
  cases fills with
  | alike follows => exact follows
  | given looksUp _ _ _ _ =>
      rw [plain] at looksUp
      cases looksUp

end Specialization

end MapStyle
