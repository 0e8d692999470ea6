import MapStyle.Proofs.Compiler.Completeness
import MapStyle.Proofs.Compiler.Filling
import MapStyle.Proofs.Term.Depth

/-!
# Refinement of compiled terms

A document can be compiled twice for one source: *sharply*, with constants folded and with what
is known of the feature written into the document, and *bluntly*, as it stands.  The sharp term
has at least as much decided as the blunt one, and what it comes to, the blunt one comes to as
well.  The two terms need not be of one shape: a branch that the sharp compilation has dropped is
still there in the blunt term, and an operand whose class it can tell is converted there.
-/

namespace MapStyle

open Context (LeavesOpen)

/--
A value of a sharp term, and the want of a datum, are also those of the blunt term.  For any other
failure the two may differ, since only one of them may have a conversion or a branch.
-/
abbrev Carries {α : Type} (sharp blunt : Except Error α) : Prop :=
  Agrees (fun cause => cause.isUnresolved = false) sharp blunt

theorem Carries.of_error {α : Type} {cause : Error} {blunt : Except Error α}
    (waits : cause.isUnresolved = true → blunt = .error cause) : Carries (.error cause) blunt := by
  cases unresolved : cause.isUnresolved with
  | false => exact .excuse unresolved
  | true => exact .of_eq (waits unresolved).symm

/-- A datum that a sharp term wants is wanted by the blunt one. -/
theorem Carries.waits {α : Type} {sharp blunt : Except Error α} {cause : Error}
    (carries : Carries sharp blunt) (fails : sharp = .error cause)
    (waits : cause.isUnresolved = true) : blunt = .error cause := by
  cases carries with
  | excuse reason =>
      cases fails
      rw [waits] at reason
      cases reason
  | error => exact fails
  | ok _ => cases fails

namespace Term

/-- A blunt term for which a sharp one can stand. -/
structure Refines (source : Source) (sharp blunt : Term) : Prop where
  carries : Carries (sharp.meaning {} source) (blunt.meaning {} source)
  known : ∀ value, blunt = .literal value → sharp = .literal value
  kind : ∀ kind, sharp.isLiteral = false → blunt.kind? {} = some kind →
    sharp.kind? {} = some kind
  depth : sharp.callDepth ≤ blunt.callDepth

namespace Refines

variable {source : Source}

theorem refl (term : Term) : term.Refines source term :=
  ⟨.refl _, fun _ same => same, fun _ _ kind => kind, Nat.le_refl _⟩

/-- A value stands for every term that comes to it. -/
theorem of_literal {value : Value} {blunt : Term} (means : blunt.meaning {} source = .ok value) :
    (Term.literal value).Refines source blunt := by
  refine ⟨?_, ?_, ?_, ?_⟩
  · rw [meaning_literal, means]
    exact .refl _
  · rintro other rfl
    rw [meaning_literal] at means
    cases means
    rfl
  · intro kind impossible
    cases impossible
  · rw [callDepth_literal]
    exact Nat.zero_le _

/-- Two calls of one class, of which the second comes to what the first one does. -/
theorem applied {builtin other : Builtin} (classes : builtin.returns = other.returns)
    {sharps blunts : List Term}
    (carries : Carries ((builtin.applied sharps).meaning {} source)
      ((other.applied blunts).meaning {} source))
    (depths : greatestDepth sharps ≤ greatestDepth blunts) :
    (builtin.applied sharps).Refines source (other.applied blunts) := by
  refine ⟨carries, ?_, ?_, ?_⟩
  · intro value impossible
    cases impossible
  · intro kind _ declared
    rw [kind?_applied] at declared ⊢
    rw [classes, declared]
  · rw [callDepth_applied, callDepth_applied]
    exact Nat.succ_le_succ depths

/-- A call that has no class of its own can be refined by any term with its value. -/
theorem of_unclassed {sharp : Term} {builtin : Builtin} {blunts : List Term}
    (unclassed : builtin.returns = none)
    (carries : Carries (sharp.meaning {} source) ((builtin.applied blunts).meaning {} source))
    (depth : sharp.callDepth ≤ (builtin.applied blunts).callDepth) :
    sharp.Refines source (builtin.applied blunts) := by
  refine ⟨carries, ?_, ?_, depth⟩
  · intro value impossible
    cases impossible
  · intro kind _ declared
    rw [kind?_applied, unclassed] at declared
    cases declared

theorem forall_carries {sharps blunts : List Term}
    (refine : List.Forall₂ (Refines source) sharps blunts) :
    List.Forall₂ Carries (sharps.map (meaning {} source)) (blunts.map (meaning {} source)) := by
  rw [List.forall₂_map_left_iff, List.forall₂_map_right_iff]
  exact refine.imp fun _ _ refines => refines.carries

theorem greatestDepth_le {sharps blunts : List Term}
    (refine : List.Forall₂ (Refines source) sharps blunts) :
    greatestDepth sharps ≤ greatestDepth blunts :=
  greatestDepth_le_of_forall₂ (refine.imp fun _ _ refines => refines.depth)

/-- A call on blunt arguments comes to what the call on sharp ones does. -/
theorem call_carries {builtin : Builtin} {sharps blunts : List Term}
    (refine : List.Forall₂ (Refines source) sharps blunts) :
    Carries ((builtin.applied sharps).meaning {} source)
      ((builtin.applied blunts).meaning {} source) := by
  rw [meaning_applied, meaning_applied]
  exact Builtin.call_agrees (.refl source) builtin (forall_carries refine)

theorem call {builtin : Builtin} {sharps blunts : List Term}
    (refine : List.Forall₂ (Refines source) sharps blunts) :
    (builtin.applied sharps).Refines source (builtin.applied blunts) :=
  applied rfl (call_carries refine) (greatestDepth_le refine)

end Refines

/-- Where the blunt terms are all known, the sharp ones are the same. -/
theorem eq_of_forall_known {related : Term → Term → Prop} {sharps blunts : List Term}
    (known : ∀ sharp blunt, related sharp blunt → ∀ value, blunt = .literal value →
      sharp = .literal value)
    (all : List.Forall₂ related sharps blunts)
    (literals : ∀ blunt ∈ blunts, blunt.isLiteral = true) : sharps = blunts := by
  induction all with
  | nil => rfl
  | @cons sharp blunt sharps blunts head _ ih =>
      have same : sharp = blunt := by
        have literal := literals blunt List.mem_cons_self
        cases blunt with
        | literal value => exact known _ _ head value rfl
        | _ => cases literal
      rw [same, ih fun blunt member => literals blunt (List.mem_cons_of_mem _ member)]

/-- A value of a term that is not known beforehand is of the form that its class stands for. -/
theorem returned_of_kind? {source : Source} {term : Term} {kind : Kind} {value : Value}
    (unknown : term.isLiteral = false) (declared : term.kind? {} = some kind)
    (computed : kind ≠ .object) (means : term.meaning {} source = .ok value) :
    value.Returned kind := by
  cases term with
  | literal held => cases unknown
  | property name => cases declared
  | call function arguments =>
      obtain ⟨builtin, found, declared⟩ := Option.bind_eq_some_iff.mp declared
      unfold meaning at means
      rw [found] at means
      exact Builtin.call_returns declared computed means

/-- A term of the class of numbers comes to one that can be converted safely. -/
theorem safeZeros_of_number {source : Source} {options : Options} {term : Term} {value : Value}
    (emitted : Emitted options Value.SafeZeros term) (number : term.kind? {} = some .number)
    (means : term.meaning {} source = .ok value) : value.SafeZeros := by
  cases unknown : term.isLiteral with
  | false =>
      have returned := returned_of_kind? unknown number (by decide) means
      exact .inl (Builtin.computed_of_returned returned (by decide)).clean
  | true =>
      cases term with
      | literal held =>
          rw [meaning_literal] at means
          cases means
          rcases emitted.origin_of_literal with safe | computed
          · exact safe
          · exact .inl computed.clean
      | _ => cases unknown

end Term

/-- A document that is compiled twice: sharply, with all that is known, and bluntly. -/
structure Specialization where
  source : Source
  /-- The properties of the feature, if they are known beforehand. -/
  known : Option Entries
  maxDepth : Nat
  /-- Does the blunt compilation fold constants too? -/
  folds : Bool
  fits : ∀ entries, known = some entries → ∀ name, source.property name = .ok (entries.find? name)
  clean : ∀ entries, known = some entries → (Value.object entries).Clean

namespace Specialization

def sharp (specialization : Specialization) : Options :=
  { maxDepth := specialization.maxDepth, foldConstants := true }

def blunt (specialization : Specialization) : Options :=
  { maxDepth := specialization.maxDepth, foldConstants := specialization.folds }

/-- Contexts of the two compilations at one place, with bindings that refine each other. -/
structure Around (specialization : Specialization) (sharp blunt : Context) : Prop where
  sharpEmits : sharp.Emits specialization.sharp Value.SafeZeros
  bluntEmits : blunt.Emits specialization.blunt Value.SafeZeros
  bindings : ∀ name sharpTerm bluntTerm, sharp.lookup? name = some sharpTerm →
    blunt.lookup? name = some bluntTerm → sharpTerm.Refines specialization.source bluntTerm

namespace Around

variable {specialization : Specialization} {sharp blunt : Context}

theorem evaluator (around : specialization.Around sharp blunt) :
    sharp.evaluator = blunt.evaluator := by
  rw [around.sharpEmits.evaluator, around.bluntEmits.evaluator]
  rfl

/-- A value that the sharp compilation has computed is the one that its term comes to. -/
theorem sharp_constant (around : specialization.Around sharp blunt) {term : Term} {value : Value}
    (yields : sharp.evaluator.evaluate 0 term = .ok value) :
    term.meaning {} specialization.source = .ok value := by
  rw [← around.sharpEmits.registry]
  exact Term.meaning_of_constant yields specialization.source

theorem blunt_constant (around : specialization.Around sharp blunt) {term : Term} {value : Value}
    (yields : blunt.evaluator.evaluate 0 term = .ok value) :
    term.meaning {} specialization.source = .ok value := by
  rw [← around.bluntEmits.registry]
  exact Term.meaning_of_constant yields specialization.source

/-- Calls that are folded refine each other as the calls do, and where the blunt one is known. -/
theorem fold (around : specialization.Around sharp blunt) {builtin : Builtin}
    {sharps blunts : List Term} {sharpTerm bluntTerm : Term}
    (carries : Carries ((builtin.applied sharps).meaning {} specialization.source)
      ((builtin.applied blunts).meaning {} specialization.source))
    (depths : Term.greatestDepth sharps ≤ Term.greatestDepth blunts)
    (known : (∀ blunt ∈ blunts, blunt.isLiteral = true) → sharps = blunts)
    (sharpFolds : sharp.fold (builtin.applied sharps) = .ok sharpTerm)
    (bluntFolds : blunt.fold (builtin.applied blunts) = .ok bluntTerm) :
    sharpTerm.Refines specialization.source bluntTerm := by
  rcases Context.fold_applied_eq_ok sharpFolds with ⟨value, rfl, yields, _⟩ | ⟨rfl, undecided⟩
  · have means := carries.ok (around.sharp_constant yields)
    rcases Context.fold_applied_eq_ok bluntFolds with ⟨other, rfl, others, _⟩ | ⟨rfl, _⟩
    · rw [around.blunt_constant others] at means
      cases means
      exact .refl _
    · exact .of_literal means
  · rcases Context.fold_applied_eq_ok bluntFolds with ⟨value, rfl, yields, literals⟩ | ⟨rfl, _⟩
    · obtain rfl := known literals
      rw [around.sharpEmits.sameOptions, around.evaluator] at undecided
      rcases undecided rfl with ⟨argument, member, unknown⟩ | ⟨datum, waits⟩
      · rw [literals argument member] at unknown
        cases unknown
      · rw [yields] at waits
        cases waits
    · exact .applied rfl carries depths

/-- Folded calls of one function on arguments that refine each other refine each other. -/
theorem fold_refines (around : specialization.Around sharp blunt) {builtin : Builtin}
    {sharps blunts : List Term} {sharpTerm bluntTerm : Term}
    (refine : List.Forall₂ (Term.Refines specialization.source) sharps blunts)
    (sharpFolds : sharp.fold (builtin.applied sharps) = .ok sharpTerm)
    (bluntFolds : blunt.fold (builtin.applied blunts) = .ok bluntTerm) :
    sharpTerm.Refines specialization.source bluntTerm :=
  around.fold (Term.Refines.call_carries refine) (Term.Refines.greatestDepth_le refine)
    (Term.eq_of_forall_known (fun _ _ refines => refines.known) refine) sharpFolds bluntFolds

/-- Calls that are tried refine each other if they do so for the source and for constants. -/
theorem tryFold (around : specialization.Around sharp blunt) {builtin : Builtin}
    {sharps blunts : List Term} {sharpTerm bluntTerm : Term}
    (carries : Carries ((builtin.applied sharps).meaning {} specialization.source)
      ((builtin.applied blunts).meaning {} specialization.source))
    (depths : Term.greatestDepth sharps ≤ Term.greatestDepth blunts)
    (constant : specialization.folds = true → ∀ value,
      (builtin.applied blunts).meaning {} .constants = .ok value →
        (builtin.applied sharps).meaning {} .constants = .ok value)
    (sharpTried : sharp.tryFold (builtin.applied sharps) = .ok sharpTerm)
    (bluntTried : blunt.tryFold (builtin.applied blunts) = .ok bluntTerm) :
    sharpTerm.Refines specialization.source bluntTerm := by
  rcases Context.tryFold_eq_ok sharpTried with ⟨value, rfl, yields, _⟩ | ⟨rfl, waits⟩
  · have means := carries.ok (around.sharp_constant yields)
    rcases Context.tryFold_eq_ok bluntTried with ⟨other, rfl, others, _⟩ | ⟨rfl, _⟩
    · rw [around.blunt_constant others] at means
      cases means
      exact .refl _
    · exact .of_literal means
  · rcases Context.tryFold_eq_ok bluntTried with ⟨value, rfl, yields, impossible | folds⟩ | ⟨rfl, _⟩
    · cases impossible
    · rw [around.bluntEmits.sameOptions] at folds
      have means := constant folds value (around.bluntEmits.meaning_of_evaluate yields)
      rw [around.sharpEmits.sameOptions, around.sharpEmits.evaluator] at waits
      obtain ⟨datum, open'⟩ := Term.pending_of_evaluate (waits rfl)
      rw [means] at open'
      cases open'
    · exact .applied rfl carries depths

end Around

end Specialization

end MapStyle
