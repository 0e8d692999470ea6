import MapStyle.Proofs.Compiler.Argument

/-!
# Comparison and logic keep refinement

An equality that is decided sharply is the one that the blunt term computes.  A list of conditions
ends at the first that is known to decide it.  If that is so for the sharp list only, the blunt one
goes on, but its evaluation stops at the same place.
-/

namespace MapStyle

/-- A conjunction, which false decides, or a disjunction, which true decides. -/
def Decision.settle (decisive : Bool) : List Outcome → Outcome
  | [] => return .boolean !decisive
  | argument :: rest => do
      let value ← argument
      if value.isTrue = decisive then return .boolean decisive else settle decisive rest

theorem Decision.all_eq_settle (arguments : List Outcome) :
    all arguments = settle false arguments := by
  induction arguments with
  | nil => rfl
  | cons argument rest ih =>
      unfold all settle
      rw [ih]
      congr 1
      funext value
      cases value.isTrue with
      | true => rfl
      | false => rfl

theorem Decision.any_eq_settle (arguments : List Outcome) :
    any arguments = settle true arguments := by
  induction arguments with
  | nil => rfl
  | cons argument rest ih =>
      unfold any settle
      rw [ih]

namespace Compiler

variable {specialization : Specialization} {sharpContext bluntContext : Context}
  {sharps blunts : Node} {sharpTerm bluntTerm : Term} {written : Nat → Bool}

/-! ## Comparison -/

theorem negation_refines {operator : Operator}
    (follows : specialization.Follows written 0 sharps blunts) (reached : written 1 = false)
    (around : specialization.Around sharpContext bluntContext)
    (sharpCompiled : negation operator sharps sharpContext = .ok sharpTerm)
    (bluntCompiled : negation operator blunts bluntContext = .ok bluntTerm) :
    sharpTerm.Refines specialization.source bluntTerm := by
  obtain ⟨sharp, sharpFound, sharpCompiled⟩ := bind_eq_ok.mp sharpCompiled
  obtain ⟨sharpInner, sharpOperand, sharpFolds⟩ := bind_eq_ok.mp sharpCompiled
  obtain ⟨blunt, bluntFound, bluntCompiled⟩ := bind_eq_ok.mp bluntCompiled
  obtain ⟨bluntInner, bluntOperand, bluntFolds⟩ := bind_eq_ok.mp bluntCompiled
  have tracks := follows.tracks_of_argument reached sharpFound bluntFound
  exact around.fold_refines (.cons (tracks.expression around sharpOperand bluntOperand) .nil)
    sharpFolds bluntFolds

theorem bothArguments_refine {operator : Operator}
    (follows : specialization.Follows written 0 sharps blunts)
    (reached : ∀ position, written position = false)
    (around : specialization.Around sharpContext bluntContext)
    {sharpLeft sharpRight bluntLeft bluntRight : Term}
    (sharpCompiled : bothArguments operator sharps sharpContext = .ok (sharpLeft, sharpRight))
    (bluntCompiled : bothArguments operator blunts bluntContext = .ok (bluntLeft, bluntRight)) :
    sharpLeft.Refines specialization.source bluntLeft ∧
      sharpRight.Refines specialization.source bluntRight := by
  obtain ⟨sharpOne, sharpFirst, sharpCompiled⟩ := bind_eq_ok.mp sharpCompiled
  obtain ⟨left, sharpLeft, sharpCompiled⟩ := bind_eq_ok.mp sharpCompiled
  obtain ⟨sharpOther, sharpSecond, sharpCompiled⟩ := bind_eq_ok.mp sharpCompiled
  obtain ⟨right, sharpRight, same⟩ := bind_eq_ok.mp sharpCompiled
  cases same
  obtain ⟨bluntOne, bluntFirst, bluntCompiled⟩ := bind_eq_ok.mp bluntCompiled
  obtain ⟨left, bluntLeft, bluntCompiled⟩ := bind_eq_ok.mp bluntCompiled
  obtain ⟨bluntOther, bluntSecond, bluntCompiled⟩ := bind_eq_ok.mp bluntCompiled
  obtain ⟨right, bluntRight, same⟩ := bind_eq_ok.mp bluntCompiled
  cases same
  have first := follows.tracks_of_argument (reached _) sharpFirst bluntFirst
  have second := follows.tracks_of_argument (reached _) sharpSecond bluntSecond
  constructor
  · exact first.expression around sharpLeft bluntLeft
  · exact second.expression around sharpRight bluntRight

theorem comparison_refines {operator : Operator} {order : Comparison}
    (follows : specialization.Follows written 0 sharps blunts)
    (reached : ∀ position, written position = false)
    (around : specialization.Around sharpContext bluntContext)
    (sharpCompiled : comparison operator order sharps sharpContext = .ok sharpTerm)
    (bluntCompiled : comparison operator order blunts bluntContext = .ok bluntTerm) :
    sharpTerm.Refines specialization.source bluntTerm := by
  obtain ⟨⟨sharpLeft, sharpRight⟩, sharpBoth, sharpFolds⟩ := bind_eq_ok.mp sharpCompiled
  obtain ⟨⟨bluntLeft, bluntRight⟩, bluntBoth, bluntFolds⟩ := bind_eq_ok.mp bluntCompiled
  obtain ⟨left, right⟩ := bothArguments_refine follows reached around sharpBoth bluntBoth
  exact around.fold_refines (.cons left (.cons right .nil)) sharpFolds bluntFolds

def equalityCall (negated : Bool) (left right : Term) : Term :=
  if negated then Builtin.not.applied [Builtin.equalTo.applied [left, right]]
  else Builtin.equalTo.applied [left, right]

theorem equalityCall_refines {source : Source} (negated : Bool)
    {sharpLeft sharpRight bluntLeft bluntRight : Term}
    (left : sharpLeft.Refines source bluntLeft) (right : sharpRight.Refines source bluntRight) :
    (equalityCall negated sharpLeft sharpRight).Refines source
      (equalityCall negated bluntLeft bluntRight) := by
  have equal : (Builtin.equalTo.applied [sharpLeft, sharpRight]).Refines source
      (Builtin.equalTo.applied [bluntLeft, bluntRight]) := .call (.cons left (.cons right .nil))
  cases negated with
  | true => exact .call (.cons equal .nil)
  | false => exact equal

/-- The call for an equality comes to the answer that is given at once for known values. -/
theorem equalityCall_means {source : Source} (negated : Bool) {left right : Term} {a b : Value}
    (leftMeans : left.meaning {} source = .ok a) (rightMeans : right.meaning {} source = .ok b) :
    (equalityCall negated left right).meaning {} source =
      .ok (.boolean (Value.equal a b != negated)) := by
  have equal : (Builtin.equalTo.applied [left, right]).meaning {} source =
      .ok (.boolean (Value.equal a b)) := by
    apply Term.meaning_of_rule rfl
    rw [List.map_cons, List.map_singleton, leftMeans, rightMeans]
    rfl
  cases negated with
  | true =>
      apply Term.meaning_of_rule rfl
      rw [List.map_singleton, equal, Bool.bne_true]
      rfl
  | false =>
      rw [Bool.bne_false]
      exact equal

theorem equality_refines {operator : Operator} {negated : Bool}
    (follows : specialization.Follows written 0 sharps blunts)
    (reached : ∀ position, written position = false)
    (around : specialization.Around sharpContext bluntContext)
    (sharpCompiled : equality operator negated sharps sharpContext = .ok sharpTerm)
    (bluntCompiled : equality operator negated blunts bluntContext = .ok bluntTerm) :
    sharpTerm.Refines specialization.source bluntTerm := by
  obtain ⟨sharpLeft, sharpRight, sharpBoth, sharpCases⟩ := equality_cases sharpCompiled
  obtain ⟨bluntLeft, bluntRight, bluntBoth, bluntCases⟩ := equality_cases bluntCompiled
  obtain ⟨left, right⟩ := bothArguments_refine follows reached around sharpBoth bluntBoth
  rcases sharpCases with ⟨a, b, rfl, rfl, _, rfl⟩ | ⟨undecided, rfl⟩
  · have leftMeans := left.carries.ok (Term.meaning_literal _ _ _)
    have rightMeans := right.carries.ok (Term.meaning_literal _ _ _)
    rcases bluntCases with ⟨c, d, rfl, rfl, _, rfl⟩ | ⟨_, rfl⟩
    · cases left.known c rfl
      cases right.known d rfl
      exact .refl _
    · exact .of_literal (equalityCall_means negated leftMeans rightMeans)
  · rcases bluntCases with ⟨c, d, rfl, rfl, _, rfl⟩ | ⟨_, rfl⟩
    · obtain rfl := left.known c rfl
      obtain rfl := right.known d rfl
      rw [around.sharpEmits.sameOptions] at undecided
      obtain ⟨argument, member, unknown⟩ := undecided rfl
      simp only [List.mem_cons, List.not_mem_nil, or_false] at member
      rcases member with rfl | rfl
      · cases unknown
      · cases unknown
    · exact equalityCall_refines negated left right

/-! ## Logic -/

/-- Conditions of both compilations; the sharp list may end at one that decides it. -/
inductive ConditionsRefine (source : Source) (decisive : Bool) : List Term → List Term → Prop where
  | nil : ConditionsRefine source decisive [] []
  | settled {blunt : Term} {rest : List Term}
      (means : blunt.meaning {} source = .ok (.boolean decisive))
      (ends : blunt.isLiteral = true → rest = []) :
      ConditionsRefine source decisive [.literal (.boolean decisive)] (blunt :: rest)
  | cons {sharp blunt : Term} {sharps blunts : List Term} (head : sharp.Refines source blunt)
      (tail : ConditionsRefine source decisive sharps blunts) :
      ConditionsRefine source decisive (sharp :: sharps) (blunt :: blunts)

theorem conditions_refine {decisive : Bool}
    (tracks : List.Forall₂ specialization.Tracks sharps blunts)
    (around : specialization.Around sharpContext bluntContext) {place : Place}
    {sharpTerms bluntTerms : List Term}
    (sharpCompiled : conditions decisive sharpContext place sharps = .ok sharpTerms)
    (bluntCompiled : conditions decisive bluntContext place blunts = .ok bluntTerms) :
    ConditionsRefine specialization.source decisive sharpTerms bluntTerms := by
  induction tracks generalizing place sharpTerms bluntTerms with
  | nil =>
      obtain rfl := pure_eq_ok.mp sharpCompiled
      obtain rfl := pure_eq_ok.mp bluntCompiled
      exact .nil
  | cons head _ ih =>
      obtain ⟨sharp, sharpHead, sharpCases⟩ := conditions_cons sharpCompiled
      obtain ⟨blunt, bluntHead, bluntCases⟩ := conditions_cons bluntCompiled
      have refines := head.expression around sharpHead bluntHead
      rcases sharpCases with ⟨rfl, rfl⟩ | ⟨sharpRest, sharpTail, rfl, sharpPasses⟩
      · have means := refines.carries.ok (Term.meaning_literal _ _ _)
        rcases bluntCases with ⟨rfl, rfl⟩ | ⟨bluntRest, _, rfl, bluntPasses⟩
        · exact .settled means fun _ => rfl
        · refine .settled means fun literal => ?_
          rcases bluntPasses with rfl | unknown
          · cases decisive <;> cases refines.known _ rfl
          · rw [literal] at unknown
            cases unknown
      · rcases bluntCases with ⟨rfl, rfl⟩ | ⟨bluntRest, bluntTail, rfl, _⟩
        · obtain rfl := refines.known _ rfl
          rcases sharpPasses with same | unknown
          · cases decisive <;> cases same
          · cases unknown
        · exact .cons refines (ih sharpTail bluntTail)

namespace ConditionsRefine

variable {source : Source} {decisive : Bool} {sharps blunts : List Term}

theorem carries (refine : ConditionsRefine source decisive sharps blunts) :
    Carries (Decision.settle decisive (sharps.map (Term.meaning {} source)))
      (Decision.settle decisive (blunts.map (Term.meaning {} source))) := by
  induction refine with
  | nil => exact .refl _
  | @settled blunt rest settles _ =>
      have decided : (Value.boolean decisive).isTrue = decisive := rfl
      rw [List.map_cons, List.map_cons]
      unfold Decision.settle
      rw [Term.meaning_literal, settles]
      refine .of_eq ?_
      simp [bind, Except.bind, decided]
  | cons head _ ih =>
      rw [List.map_cons, List.map_cons]
      unfold Decision.settle
      refine head.carries.bind fun held => ?_
      split
      · exact .refl _
      · exact ih

theorem greatestDepth_le (refine : ConditionsRefine source decisive sharps blunts) :
    Term.greatestDepth sharps ≤ Term.greatestDepth blunts := by
  induction refine with
  | nil => exact Nat.le_refl _
  | settled _ _ => simp [Term.greatestDepth]
  | cons head _ ih => exact Term.greatestDepth_cons_le head.depth ih

/-- Where all blunt conditions are known, the sharp ones are the same. -/
theorem eq_of_known (refine : ConditionsRefine source decisive sharps blunts)
    (literals : ∀ blunt ∈ blunts, blunt.isLiteral = true) : sharps = blunts := by
  induction refine with
  | nil => rfl
  | @settled blunt rest means ends =>
      have literal := literals blunt List.mem_cons_self
      obtain rfl := ends literal
      cases blunt with
      | literal value =>
          rw [Term.meaning_literal] at means
          cases means
          rfl
      | _ => cases literal
  | @cons sharp blunt sharps blunts head _ ih =>
      have rest := ih fun blunt member => literals blunt (List.mem_cons_of_mem _ member)
      have literal := literals blunt List.mem_cons_self
      cases blunt with
      | literal value => rw [head.known value rfl, rest]
      | _ => cases literal

end ConditionsRefine

/-- Conditions that are all known are settled as the flags among them say. -/
theorem settle_of_conditions {decisive : Bool} {context : Context} {place : Place} {node : Node}
    {terms : List Term} (compiled : conditions decisive context place node = .ok terms)
    (literals : ∀ term ∈ terms, term.isLiteral = true) (registry : Registry) (source : Source) :
    Decision.settle decisive (terms.map (Term.meaning registry source)) =
      .ok (.boolean (if terms.any (isFlag decisive) then decisive else !decisive)) := by
  induction node generalizing place terms with
  | nil =>
      obtain rfl := pure_eq_ok.mp compiled
      rfl
  | cons argument rest ih =>
      obtain ⟨term, _, ⟨rfl, rfl⟩ | ⟨others, tail, rfl, passes⟩⟩ := conditions_cons compiled
      · cases decisive <;> rfl
      · have literal := literals term List.mem_cons_self
        have later := ih tail fun term member => literals term (List.mem_cons_of_mem _ member)
        rcases passes with rfl | unknown
        · cases decisive <;> exact later
        · rw [literal] at unknown
          cases unknown

/-- The call of a conjunction or disjunction settles its conditions. -/
theorem logicalCall_means {registry : Registry} {source : Source} {decisive : Bool}
    (registered : registry.find? (if decisive then Builtin.any else .all).name =
      some (if decisive then Builtin.any else .all)) {terms : List Term} (nonempty : terms ≠ []) :
    ((if decisive then Builtin.any else .all).applied terms).meaning registry source =
      Decision.settle decisive (terms.map (Term.meaning registry source)) := by
  have occupied : 1 ≤ terms.length := List.length_pos_iff.mpr nonempty
  cases decisive with
  | true =>
      rw [← Decision.any_eq_settle]
      exact Term.meaning_of_registered_rule registered
        (Builtin.accepts_of_atLeast rfl occupied) rfl
  | false =>
      rw [← Decision.all_eq_settle]
      exact Term.meaning_of_registered_rule registered
        (Builtin.accepts_of_atLeast rfl occupied) rfl

theorem logical_refines {operator : Operator} (decisive : Bool)
    (tracks : List.Forall₂ specialization.Tracks sharps.tail blunts.tail)
    (around : specialization.Around sharpContext bluntContext)
    (sharpCompiled : logical operator (if decisive then .any else .all) decisive sharps
      sharpContext = .ok sharpTerm)
    (bluntCompiled : logical operator (if decisive then .any else .all) decisive blunts
      bluntContext = .ok bluntTerm) : sharpTerm.Refines specialization.source bluntTerm := by
  obtain ⟨sharpTerms, sharpInner, sharpCases⟩ := logical_eq_ok sharpCompiled
  obtain ⟨bluntTerms, bluntInner, bluntCases⟩ := logical_eq_ok bluntCompiled
  have refine := conditions_refine tracks around sharpInner bluntInner
  rcases sharpCases with ⟨sharpKnown, rfl⟩ | ⟨⟨condition, member, unknown⟩, rfl⟩
  · rcases bluntCases with ⟨bluntKnown, rfl⟩ | ⟨⟨other, present, _⟩, rfl⟩
    · rw [refine.eq_of_known bluntKnown]
      exact .refl _
    · apply Term.Refines.of_literal
      rw [logicalCall_means (Registry.find?_standard _) (List.ne_nil_of_mem present)]
      exact refine.carries.ok (settle_of_conditions sharpInner sharpKnown _ _)
  · rcases bluntCases with ⟨bluntKnown, rfl⟩ | ⟨⟨other, present, _⟩, rfl⟩
    · obtain rfl := refine.eq_of_known bluntKnown
      rw [bluntKnown condition member] at unknown
      cases unknown
    · refine .applied rfl ?_ refine.greatestDepth_le
      rw [logicalCall_means (Registry.find?_standard _) (List.ne_nil_of_mem member),
        logicalCall_means (Registry.find?_standard _) (List.ne_nil_of_mem present)]
      exact refine.carries

end Compiler

end MapStyle
