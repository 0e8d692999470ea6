import MapStyle.Proofs.Builtin.Answer
import MapStyle.Proofs.Compiler.Emission

/-!
# Completeness of folding

Where constants are folded, a call is left in place only if an argument that it looks at first is
not known.  So each part of a compiled term that is not a literal asks for some datum before it
can come to a value, or complain, and everything that can be known without a feature has been
computed.
-/

namespace MapStyle

open Context (LeavesOpen)

/-- A term that has to wait for a datum: nothing else comes of it while nothing is known. -/
def Term.Pending (term : Term) : Prop := LeavesOpen (term.meaning {} .constants)

/-- A part of a term: the term itself, or a part of an argument. -/
inductive Term.Part (part : Term) : Term → Prop where
  | self : Part part part
  | argument {function : String} {arguments : List Term} {argument : Term}
      (member : argument ∈ arguments) (inside : Part part argument) :
      Part part (.call function arguments)

/-! ## Calls that look at an argument that has to wait -/

theorem Conversion.concatenation_waits {outcomes : List Outcome}
    (each : ∀ outcome ∈ outcomes, (∃ value, outcome = .ok value) ∨ LeavesOpen outcome)
    (some : ∃ outcome ∈ outcomes, LeavesOpen outcome) : LeavesOpen (concatenation outcomes) := by
  induction outcomes with
  | nil =>
      obtain ⟨outcome, impossible, _⟩ := some
      cases impossible
  | cons first rest ih =>
      rcases each first List.mem_cons_self with ⟨value, rfl⟩ | waits
      · obtain ⟨outcome, member, waits⟩ := some
        cases member with
        | head => exact waits.bind _
        | tail _ member =>
            have later := fun outcome member => each outcome (List.mem_cons_of_mem _ member)
            exact (ih later ⟨outcome, member, waits⟩).bind _
      · exact waits.bind _

def Operand.Reads (outcome : Outcome) : Prop :=
  ∃ x, ∀ function position, number function position outcome = .ok x

theorem Operand.number_waits {outcome : Outcome} (waits : LeavesOpen outcome)
    (function : String) (position : Nat) : LeavesOpen (number function position outcome) :=
  waits.bind _

theorem Operand.Reads.not_waits {outcome : Outcome} (reads : Reads outcome) :
    ¬ LeavesOpen outcome := by
  intro waits
  obtain ⟨x, reads⟩ := reads
  obtain ⟨datum, failed⟩ := number_waits waits "" 0
  rw [reads] at failed
  cases failed

theorem Operand.numbers_waits {function : String} {position : Nat} {outcomes : List Outcome}
    (each : ∀ outcome ∈ outcomes, Reads outcome ∨ LeavesOpen outcome)
    (some : ∃ outcome ∈ outcomes, LeavesOpen outcome) :
    LeavesOpen (numbers function position outcomes) := by
  induction outcomes generalizing position with
  | nil =>
      obtain ⟨outcome, impossible, _⟩ := some
      cases impossible
  | cons first rest ih =>
      unfold numbers
      rcases each first List.mem_cons_self with ⟨x, reads⟩ | waits
      · obtain ⟨outcome, member, waits⟩ := some
        cases member with
        | head => exact (number_waits waits function position).bind _
        | tail _ member =>
            have later := fun outcome member => each outcome (List.mem_cons_of_mem _ member)
            rw [reads]
            exact (ih later ⟨outcome, member, waits⟩).bind _
      · exact (number_waits waits function position).bind _

theorem Decision.all_waits {before after : List Outcome} {outcome : Outcome}
    (passed : ∀ condition ∈ before, condition = .ok (.boolean true))
    (waits : LeavesOpen outcome) : LeavesOpen (all (before ++ outcome :: after)) := by
  induction before with
  | nil => exact waits.bind _
  | cons condition rest ih =>
      obtain rfl := passed condition List.mem_cons_self
      exact ih fun condition member => passed condition (List.mem_cons_of_mem _ member)

theorem Decision.any_waits {before after : List Outcome} {outcome : Outcome}
    (passed : ∀ condition ∈ before, condition = .ok (.boolean false))
    (waits : LeavesOpen outcome) : LeavesOpen (any (before ++ outcome :: after)) := by
  induction before with
  | nil => exact waits.bind _
  | cons condition rest ih =>
      obtain rfl := passed condition List.mem_cons_self
      exact ih fun condition member => passed condition (List.mem_cons_of_mem _ member)

/-! ## Terms that have to wait -/

namespace Term

variable {options : Options}

def AllPending (terms : List Term) : Prop :=
  ∀ term ∈ terms, term.isLiteral = false → term.Pending

theorem outcome_of_pending {term : Term} (pending : term.isLiteral = false → term.Pending) :
    (∃ value, term.meaning {} .constants = .ok value) ∨
      LeavesOpen (term.meaning {} .constants) := by
  cases term with
  | literal value => exact .inl ⟨value, meaning_literal _ _ _⟩
  | property name => exact .inr (pending rfl)
  | call function arguments => exact .inr (pending rfl)

/-- A term of the class of numbers is read as one or has to wait. -/
theorem reads_of_pending {term : Term} (number : term.kind? {} = some .number)
    (pending : term.isLiteral = false → term.Pending) :
    Operand.Reads (term.meaning {} .constants) ∨ LeavesOpen (term.meaning {} .constants) := by
  cases term with
  | literal value =>
      cases value with
      | number held =>
          refine .inl ⟨held.toDouble, ?_⟩
          intro function position
          rw [meaning_literal]
          rfl
      | _ => cases number
  | property name => exact .inr (pending rfl)
  | call function arguments => exact .inr (pending rfl)

/-- What an evaluation leaves open has to wait. -/
theorem pending_of_evaluate {term : Term} {limit depth : Nat}
    (waits : LeavesOpen (Evaluator.evaluate { source := .constants, limit } depth term)) :
    term.Pending := by
  obtain ⟨datum, failed⟩ := waits
  rcases (Evaluator.evaluate_agrees_meaning { source := .constants, limit } term depth).cases_eq
      with
      ⟨cause, stopped, deep⟩ | same
  · rw [failed] at stopped
    cases stopped
    cases deep
  · exact ⟨datum, same.symm.trans failed⟩

/-- A call that is left in place, all constants being folded, has an argument that has to wait. -/
theorem pending_or_of_undecided (folds : options.foldConstants = true) {builtin : Builtin}
    {arguments : List Term} (undecided : Undecided options builtin arguments)
    (each : AllPending arguments) :
    (∃ argument ∈ arguments, argument.Pending) ∨ (builtin.applied arguments).Pending := by
  rcases undecided folds with ⟨argument, member, unknown⟩ | waits
  · exact .inl ⟨argument, member, each argument member unknown⟩
  · exact .inr (pending_of_evaluate waits)

theorem pending_of_rule {builtin : Builtin} {arguments : List Term} {outcome : Outcome}
    (accepted : builtin.arity.accepts arguments.length = true)
    (applies : (builtin.rule .constants).answer? (arguments.map (meaning {} .constants)) =
      some outcome)
    (waits : LeavesOpen outcome) : (builtin.applied arguments).Pending := by
  unfold Pending
  rw [meaning_of_rule accepted applies]
  exact waits

theorem isLiteral_of_kind?_eq_none {term : Term} (unknown : term.kind? {} = none) :
    term.isLiteral = false := by
  cases term with
  | literal value => cases unknown
  | _ => rfl

end Term

namespace Deferred

variable {options : Options}

open Term (AllPending pending_of_rule pending_or_of_undecided)

/-- Arithmetic on numbers waits for the first of them that is not known. -/
theorem arithmetic_pending {builtin : Builtin} {terms : List Term}
    (numeric : builtin.isArithmetic = true)
    (accepted : builtin.arity.accepts terms.length = true)
    (numbers : ∀ term ∈ terms, term.kind? {} = some .number) (each : AllPending terms)
    (some : ∃ term ∈ terms, term.Pending) : (builtin.applied terms).Pending := by
  have reads : ∀ outcome ∈ terms.map (Term.meaning {} .constants),
      Operand.Reads outcome ∨ LeavesOpen outcome := by
    intro outcome member
    obtain ⟨term, present, rfl⟩ := List.mem_map.mp member
    exact Term.reads_of_pending (numbers term present) (each term present)
  have waits : ∃ outcome ∈ terms.map (Term.meaning {} .constants), LeavesOpen outcome := by
    obtain ⟨term, present, pending⟩ := some
    exact ⟨_, List.mem_map_of_mem present, pending⟩
  cases builtin with
  | unary function =>
      obtain ⟨term, rfl⟩ := List.length_eq_one_iff.mp (Builtin.accepts_one accepted)
      refine pending_of_rule accepted rfl ?_
      obtain ⟨outcome, member, waits⟩ := waits
      obtain rfl := List.mem_singleton.mp member
      exact (Operand.number_waits waits _ _).bind _
  | binary function =>
      obtain ⟨left, right, rfl⟩ := List.length_eq_two.mp (Builtin.accepts_two accepted)
      refine pending_of_rule accepted rfl ?_
      rcases reads _ List.mem_cons_self with leftReads | leftWaits
      · obtain ⟨outcome, member, waits⟩ := waits
        cases member with
        | head => exact absurd waits leftReads.not_waits
        | tail _ member =>
            obtain rfl := List.mem_singleton.mp member
            obtain ⟨x, leftReads⟩ := leftReads
            unfold Arithmetic.binary
            rw [leftReads]
            exact (Operand.number_waits waits _ _).bind _
      · exact (Operand.number_waits leftWaits _ _).bind _
  | list function =>
      refine pending_of_rule accepted rfl ?_
      exact (Operand.numbers_waits reads waits).bind _
  | _ => cases numeric

/-- A function that reads both arguments before anything else waits for either. -/
theorem pair_pending {builtin : Builtin} {left right : Term}
    {after : Value → Value → Outcome} (accepted : builtin.arity.accepts 2 = true)
    (shape : builtin.rule .constants = .two fun one other => do after (← one) (← other))
    (each : AllPending [left, right]) (some : ∃ term ∈ [left, right], term.Pending) :
    (builtin.applied [left, right]).Pending := by
  refine pending_of_rule accepted (by rw [shape]; rfl) ?_
  rcases Term.outcome_of_pending (each left (by simp)) with ⟨value, known⟩ | waits
  · obtain ⟨term, member, pending⟩ := some
    dsimp only
    rw [known]
    cases member with
    | head =>
        obtain ⟨datum, failed⟩ := pending
        rw [known] at failed
        cases failed
    | tail _ member =>
        obtain rfl := List.mem_singleton.mp member
        exact pending.bind _
  · exact waits.bind _

theorem concatenation_pending {terms : List Term} (nonempty : terms ≠ [])
    (each : AllPending terms) (some : ∃ term ∈ terms, term.Pending) :
    (Builtin.concatenate.applied terms).Pending := by
  have positive : 1 ≤ terms.length := List.length_pos_iff.mpr nonempty
  refine pending_of_rule (Builtin.accepts_of_atLeast rfl positive) rfl ?_
  have outcomes : ∀ outcome ∈ terms.map (Term.meaning {} .constants),
      (∃ value, outcome = .ok value) ∨ LeavesOpen outcome := by
    intro outcome member
    obtain ⟨term, present, rfl⟩ := List.mem_map.mp member
    exact Term.outcome_of_pending (each term present)
  obtain ⟨term, present, pending⟩ := some
  obtain ⟨datum, failed⟩ := Conversion.concatenation_waits outcomes
    ⟨_, List.mem_map_of_mem present, pending⟩
  unfold Conversion.concatenate
  rw [failed]
  exact ⟨datum, rfl⟩

theorem logical_pending (decisive : Bool) {before after : List Term} {term : Term}
    (passed : ∀ condition ∈ before, condition = .literal (.boolean !decisive))
    (pending : term.Pending) :
    ((if decisive then Builtin.any else .all).applied (before ++ term :: after)).Pending := by
  have outcomes : ∀ outcome ∈ before.map (Term.meaning {} .constants),
      outcome = .ok (.boolean !decisive) := by
    intro outcome member
    obtain ⟨condition, present, rfl⟩ := List.mem_map.mp member
    rw [passed condition present, Term.meaning_literal]
  have positive : 1 ≤ (before ++ term :: after).length := List.length_pos_iff.mpr (by simp)
  cases decisive with
  | true =>
      refine pending_of_rule (Builtin.accepts_of_atLeast rfl positive) rfl ?_
      rw [List.map_append]
      exact Decision.any_waits outcomes pending
  | false =>
      refine pending_of_rule (Builtin.accepts_of_atLeast rfl positive) rfl ?_
      rw [List.map_append]
      exact Decision.all_waits outcomes pending

/-- With constants folded, a call that is left in place waits if its arguments do. -/
theorem pending {builtin : Builtin} {arguments : List Term}
    (folds : options.foldConstants = true) (deferred : Deferred options builtin arguments)
    (each : AllPending arguments) : (builtin.applied arguments).Pending := by
  cases deferred with
  | reading reads =>
      simp only [List.mem_cons, List.not_mem_nil, or_false] at reads
      rcases reads with rfl | rfl | rfl
      · exact pending_of_rule rfl rfl ⟨_, rfl⟩
      · exact pending_of_rule rfl rfl ⟨_, rfl⟩
      · exact pending_of_rule rfl rfl ⟨_, rfl⟩
  | named reads name =>
      simp only [List.mem_cons, List.not_mem_nil, or_false] at reads
      rcases reads with rfl | rfl
      · exact pending_of_rule rfl rfl ⟨_, rfl⟩
      · exact pending_of_rule rfl rfl ⟨_, rfl⟩
  | zoom =>
      have scale := each (Compiler.renderVariable scaleDenominator) (by simp) rfl
      refine pending_of_rule rfl rfl ?_
      exact (Operand.number_waits scale _ _).bind _
  | @conversion term unknown =>
      have waits := each term (by simp) (Term.isLiteral_of_kind?_eq_none unknown)
      exact pending_of_rule rfl rfl (waits.bind _)
  | @single _ term takesOne undecided =>
      rcases pending_or_of_undecided folds undecided each with ⟨argument, member, waits⟩ | decided
      · obtain rfl := List.mem_singleton.mp member
        simp only [List.mem_cons, List.not_mem_nil, or_false] at takesOne
        rcases takesOne with rfl | rfl | rfl | rfl
        · exact pending_of_rule rfl rfl (waits.bind _)
        · exact pending_of_rule rfl rfl ((waits.bind _).bind _)
        · exact pending_of_rule rfl rfl ((waits.bind _).bind _)
        · exact pending_of_rule rfl rfl ((waits.bind _).bind _)
      · exact decided
  | @measure _ term measures unknown =>
      have waits := each term (by simp) unknown
      simp only [List.mem_cons, List.not_mem_nil, or_false] at measures
      rcases measures with rfl | rfl | rfl
      · exact pending_of_rule rfl rfl ((waits.bind _).bind _)
      · exact pending_of_rule rfl rfl (waits.bind _)
      · exact pending_of_rule rfl rfl (waits.bind _)
  | equality undecided =>
      rcases pending_or_of_undecided folds undecided each with some | decided
      · exact pair_pending rfl rfl each some
      · exact decided
  | comparison order undecided =>
      rcases pending_or_of_undecided folds undecided each with some | decided
      · exact pair_pending (by cases order <;> rfl) rfl each some
      · exact decided
  | concatenation nonempty undecided =>
      rcases pending_or_of_undecided folds undecided each with some | decided
      · exact concatenation_pending nonempty each some
      · exact decided
  | arithmetic numeric accepted numbers undecided =>
      rcases pending_or_of_undecided folds undecided each with some | decided
      · exact arithmetic_pending numeric accepted numbers each some
      · exact decided
  | logical decisive passed unknown =>
      exact logical_pending decisive passed (each _ (by simp) unknown)
  | case unknown =>
      refine pending_of_rule (Builtin.accepts_of_atLeast rfl (by simp)) rfl ?_
      exact (each _ (by simp) unknown).bind _
  | coalesce unknown =>
      refine pending_of_rule (Builtin.accepts_of_atLeast rfl (by simp)) rfl ?_
      exact (each _ (by simp) unknown).bind _
  | @select input rest unknown labelled =>
      have several : 2 ≤ (input :: rest).length :=
        Nat.succ_le_succ (List.length_pos_iff.mpr labelled)
      refine pending_of_rule (Builtin.accepts_of_atLeast rfl several) rfl ?_
      exact (each _ (by simp) unknown).bind _
  | step stops waits => exact Term.pending_of_evaluate (waits folds)
  | interpolate curve readable stops occupied waits => exact Term.pending_of_evaluate (waits folds)

end Deferred

/-- With constants folded, an emitted term is a literal or has to wait, and so are its parts. -/
theorem Emitted.pending {options : Options} {written : Value → Prop} {term part : Term}
    (folds : options.foldConstants = true) (emitted : Emitted options written term)
    (inside : part.Part term) (unknown : part.isLiteral = false) : part.Pending := by
  induction emitted generalizing part with
  | literal origin =>
      cases inside with
      | self => cases unknown
  | property name =>
      cases inside with
      | self => exact ⟨_, rfl⟩
  | call each deferred ih =>
      cases inside with
      | self => exact deferred.pending folds fun argument member => ih argument member .self
      | argument member inside => exact ih _ member inside unknown

/--
Folding is complete.  Whatever part of a compiled term is no literal, an evaluation that knows
nothing of the feature fails for want of a datum or, under a limit, for being too deep; it yields
no value and makes no other complaint.
-/
theorem constant_folding_complete (maxDepth : Nat) (document : Value) (term part : Term)
    (compiled : Compiler.compile { options := { maxDepth, foldConstants := true } } document =
      .ok term)
    (inside : part.Part term) (unknown : part.isLiteral = false) (limit depth : Nat) :
    (∃ datum, Evaluator.evaluate { source := .constants, limit } depth part =
        .error (.unresolved datum)) ∨
      ∃ function bound, Evaluator.evaluate { source := .constants, limit } depth part =
        .error (.calledTooDeep function bound) := by
  have emitted := Compiler.compile_emitted Value.hereditary_true trivial compiled
  obtain ⟨datum, means⟩ := emitted.pending rfl inside unknown
  let evaluator : Evaluator := { source := .constants, limit }
  rcases evaluator.evaluate_of_meaning depth means with waits | deep
  · exact .inl ⟨datum, waits⟩
  · exact .inr deep

/-- A choice that hangs on a property waits for it, and its outputs wait for theirs. -/
theorem constant_folding_complete_case :
    (∃ datum, Evaluator.evaluate { source := .constants, limit := 512 } 0
      (Builtin.case.applied [.property "x", .property "y", .literal (.string "z")]) =
        .error (.unresolved datum)) ∨
      ∃ function bound, Evaluator.evaluate { source := .constants, limit := 512 } 0
        (Builtin.case.applied [.property "x", .property "y", .literal (.string "z")]) =
          .error (.calledTooDeep function bound) :=
  constant_folding_complete 128
    (.array [.string "case", .array [.string "get", .string "x"],
      .array [.string "get", .string "y"], .string "z"]) _ _ rfl .self rfl 512 0

end MapStyle
