import MapStyle.Proofs.Compiler.Argument

/-!
# Choices keep refinement

A choice drops what is known not to be taken and ends at what is known to be taken.  Where only
the sharp compilation knows, the blunt choice still holds the other branches, and its evaluation
passes over them or ends before them.
-/

namespace MapStyle

/-- Whether a value is a label does not depend on the message that refuses it. -/
theorem Label.check_of_check {function other : String} {position otherPosition : Nat}
    {label : Value} (checked : check function position label = .ok ()) :
    check other otherPosition label = .ok () := by
  unfold check at checked ⊢
  split at checked
  · rfl
  · rfl
  · split at checked
    · cases checked
    · rfl
  · cases checked

namespace Compiler

variable {specialization : Specialization} {sharpContext bluntContext : Context}
  {sharps blunts : Node} {sharpTerm bluntTerm : Term} {source : Source}

/-! ## Choices by conditions -/

/-- Branches of both compilations; the sharp ones may be fewer by what is known of conditions. -/
inductive BranchesRefine (source : Source) : List Term → List Term → Prop where
  | nil : BranchesRefine source [] []
  | single {sharp blunt : Term} (refines : sharp.Refines source blunt) :
      BranchesRefine source [sharp] [blunt]
  | taken {sharp condition blunt : Term} {rest : List Term}
      (means : condition.meaning {} source = .ok (.boolean true))
      (refines : sharp.Refines source blunt) :
      BranchesRefine source [sharp] (condition :: blunt :: rest)
  | dropped {condition blunt : Term} {sharps blunts : List Term}
      (means : condition.meaning {} source = .ok (.boolean false))
      (others : BranchesRefine source sharps blunts) :
      BranchesRefine source sharps (condition :: blunt :: blunts)
  | kept {sharpCondition condition sharp blunt : Term} {sharps blunts : List Term}
      (head : sharpCondition.Refines source condition) (refines : sharp.Refines source blunt)
      (others : BranchesRefine source sharps blunts) :
      BranchesRefine source (sharpCondition :: sharp :: sharps) (condition :: blunt :: blunts)

theorem branches_refine (tracks : List.Forall₂ specialization.Tracks sharps blunts)
    (around : specialization.Around sharpContext bluntContext) {place : Place}
    {sharpTerms bluntTerms : List Term}
    (sharpCompiled : branches sharpContext place sharps = .ok sharpTerms)
    (bluntCompiled : branches bluntContext place blunts = .ok bluntTerms) :
    BranchesRefine specialization.source sharpTerms bluntTerms := by
  induction place, blunts using branches.induct generalizing sharps sharpTerms bluntTerms with
  | case1 place condition output rest ih =>
      rcases tracks with _ | ⟨head, _ | ⟨second, tracks⟩⟩
      obtain ⟨sharp, sharpHead, sharpCases⟩ := branches_cons sharpCompiled
      obtain ⟨blunt, bluntHead, bluntCases⟩ := branches_cons bluntCompiled
      have refines := head.expression around sharpHead bluntHead
      -- A condition that the blunt compilation knows is known sharply, and as the same flag.
      rcases sharpCases with
          ⟨chosen, rfl, sharpTaken, rfl⟩ | ⟨rfl, sharpTail⟩ |
          ⟨chosen, sharpRest, sharpUnknown, sharpTaken, sharpTail, rfl⟩
      · have means := refines.carries.ok (Term.meaning_literal _ _ _)
        rcases bluntCases with
            ⟨other, rfl, bluntTaken, rfl⟩ | ⟨rfl, _⟩ | ⟨other, bluntRest, _, bluntTaken, _, rfl⟩
        · exact .single (second.expression around sharpTaken bluntTaken)
        · cases refines.known _ rfl
        · exact .taken means (second.expression around sharpTaken bluntTaken)
      · have means := refines.carries.ok (Term.meaning_literal _ _ _)
        rcases bluntCases with
            ⟨other, rfl, _, _⟩ | ⟨rfl, bluntTail⟩ | ⟨other, bluntRest, _, _, bluntTail, rfl⟩
        · cases refines.known _ rfl
        · exact ih tracks sharpTail bluntTail
        · exact .dropped means (ih tracks sharpTail bluntTail)
      · rcases bluntCases with
            ⟨other, rfl, _, _⟩ | ⟨rfl, _⟩ | ⟨other, bluntRest, _, bluntTaken, bluntTail, rfl⟩
        · rw [refines.known _ rfl] at sharpUnknown
          cases sharpUnknown
        · rw [refines.known _ rfl] at sharpUnknown
          cases sharpUnknown
        · exact .kept refines (second.expression around sharpTaken bluntTaken)
            (ih tracks sharpTail bluntTail)
  | case2 place default =>
      rcases tracks with _ | ⟨head, _ | _⟩
      obtain ⟨sharp, sharpHead, rfl⟩ := branches_default sharpCompiled
      obtain ⟨blunt, bluntHead, rfl⟩ := branches_default bluntCompiled
      exact .single (head.expression around sharpHead bluntHead)
  | case3 place =>
      cases tracks
      unfold branches at sharpCompiled bluntCompiled
      obtain rfl := pure_eq_ok.mp sharpCompiled
      obtain rfl := pure_eq_ok.mp bluntCompiled
      exact .nil

namespace BranchesRefine

variable {sharpTerms bluntTerms : List Term}

theorem carries (refine : BranchesRefine source sharpTerms bluntTerms) :
    Carries (Decision.case (sharpTerms.map (Term.meaning {} source)))
      (Decision.case (bluntTerms.map (Term.meaning {} source))) := by
  induction refine with
  | nil => exact .refl _
  | single refines => exact refines.carries
  | taken settles refines =>
      rw [List.map_cons, List.map_cons]
      unfold Decision.case
      rw [settles]
      exact refines.carries
  | @dropped condition blunt _ blunts passes _ ih =>
      have others : Decision.case ((condition :: blunt :: blunts).map (Term.meaning {} source)) =
          Decision.case (blunts.map (Term.meaning {} source)) := by
        rw [List.map_cons, List.map_cons, Decision.case, passes]
        rfl
      rw [others]
      exact ih
  | kept head refines _ ih =>
      rw [List.map_cons, List.map_cons, List.map_cons, List.map_cons]
      unfold Decision.case
      refine head.carries.bind fun held => ?_
      split
      · exact refines.carries
      · exact ih

/-- What the sharp branches come to, they come to no less deep. -/
theorem greatestDepth_le (refine : BranchesRefine source sharpTerms bluntTerms) :
    Term.greatestDepth sharpTerms ≤ Term.greatestDepth bluntTerms := by
  induction refine with
  | nil => exact Nat.le_refl _
  | single refines => simpa [Term.greatestDepth] using refines.depth
  | taken _ refines =>
      have depth := refines.depth
      simp only [Term.greatestDepth]
      omega
  | dropped _ _ ih =>
      simp only [Term.greatestDepth]
      omega
  | kept head refines _ ih =>
      exact Term.greatestDepth_cons_le head.depth (Term.greatestDepth_cons_le refines.depth ih)

/-- Where a single blunt branch is left, a single sharp one is. -/
theorem single_of_single {blunt : Term} (refine : BranchesRefine source sharpTerms [blunt]) :
    ∃ sharp, sharpTerms = [sharp] ∧ sharp.Refines source blunt := by
  cases refine with
  | single refines => exact ⟨_, rfl, refines⟩

end BranchesRefine

/-- A choice by conditions comes to what its branches do, even if a single one is left. -/
theorem case_means {registry : Registry}
    (registered : registry.find? Builtin.case.name = some .case) {context : Context} {node : Node}
    {term : Term} (compiled : case node context = .ok term) (source : Source) :
    ∃ terms, branches context ⟨Operator.case.name, 1⟩ node.tail = .ok terms ∧
      term.meaning registry source = Decision.case (terms.map (Term.meaning registry source)) ∧
      ((∀ only, terms = [only] → term = only) ∧
        (terms = [term] ∨ term = Builtin.case.applied terms)) := by
  obtain ⟨terms, inner, rfl | ⟨first, second, rest, rfl, rfl⟩⟩ := case_eq_ok compiled
  · refine ⟨_, inner, rfl, ?_, .inl rfl⟩
    rintro only same
    cases same
    rfl
  · refine ⟨_, inner, ?_, ?_, .inr rfl⟩
    · exact Term.meaning_of_registered_rule registered
        (Builtin.accepts_of_atLeast rfl (by simp)) rfl
    · intro only impossible
      cases impossible

theorem case_refines (tracks : List.Forall₂ specialization.Tracks sharps.tail blunts.tail)
    (around : specialization.Around sharpContext bluntContext)
    (sharpCompiled : case sharps sharpContext = .ok sharpTerm)
    (bluntCompiled : case blunts bluntContext = .ok bluntTerm) :
    sharpTerm.Refines specialization.source bluntTerm := by
  obtain ⟨sharpTerms, sharpInner, sharpMeans, only, sharpShape⟩ :=
    case_means (Registry.find?_standard _) sharpCompiled specialization.source
  obtain ⟨bluntTerms, bluntInner, bluntMeans, _, shape⟩ :=
    case_means (Registry.find?_standard _) bluntCompiled specialization.source
  have refine := branches_refine tracks around sharpInner bluntInner
  rcases shape with rfl | rfl
  · obtain ⟨sharp, rfl, refines⟩ := refine.single_of_single
    rw [only sharp rfl]
    exact refines
  · refine .of_unclassed rfl ?_ ?_
    · rw [sharpMeans, bluntMeans]
      exact refine.carries
    · have shallow : sharpTerm.callDepth ≤ Term.greatestDepth sharpTerms + 1 := by
        rcases sharpShape with rfl | rfl
        · simp [Term.greatestDepth]
        · exact Nat.le_of_eq (Term.callDepth_applied _ _)
      rw [Term.callDepth_applied]
      exact Nat.le_trans shallow (Nat.succ_le_succ refine.greatestDepth_le)

/-! ## The first value that is not null -/

inductive CandidatesRefine (source : Source) : List Term → List Term → Prop where
  | nil : CandidatesRefine source [] []
  | taken {value : Value} {blunt : Term} {rest : List Term} (present : value.isNull = false)
      (means : blunt.meaning {} source = .ok value) (ends : blunt.isLiteral = true → rest = []) :
      CandidatesRefine source [.literal value] (blunt :: rest)
  | dropped {blunt : Term} {sharps blunts : List Term} (unknown : blunt.isLiteral = false)
      (means : blunt.meaning {} source = .ok .null)
      (others : CandidatesRefine source sharps blunts) :
      CandidatesRefine source sharps (blunt :: blunts)
  | kept {sharp blunt : Term} {sharps blunts : List Term} (unknown : sharp.isLiteral = false)
      (refines : sharp.Refines source blunt) (others : CandidatesRefine source sharps blunts) :
      CandidatesRefine source (sharp :: sharps) (blunt :: blunts)

theorem candidates_refine (tracks : List.Forall₂ specialization.Tracks sharps blunts)
    (around : specialization.Around sharpContext bluntContext) {sharpTerms bluntTerms : List Term}
    (sharpCompiled : candidates sharpContext sharps = .ok sharpTerms)
    (bluntCompiled : candidates bluntContext blunts = .ok bluntTerms) :
    CandidatesRefine specialization.source sharpTerms bluntTerms := by
  induction tracks generalizing sharpTerms bluntTerms with
  | nil =>
      obtain rfl := pure_eq_ok.mp sharpCompiled
      obtain rfl := pure_eq_ok.mp bluntCompiled
      exact .nil
  | cons head _ ih =>
      obtain ⟨sharp, sharpHead, sharpCases⟩ := candidates_cons sharpCompiled
      obtain ⟨blunt, bluntHead, bluntCases⟩ := candidates_cons bluntCompiled
      have refines := head.expression around sharpHead bluntHead
      -- A candidate that is known bluntly is the same value sharply, present or null in both.
      rcases sharpCases with
          ⟨rfl, sharpTail⟩ | ⟨value, rfl, present, rfl⟩ | ⟨sharpRest, sharpUnknown, sharpTail, rfl⟩
      · have means := refines.carries.ok (Term.meaning_literal _ _ _)
        rcases bluntCases with
            ⟨rfl, bluntTail⟩ | ⟨other, rfl, otherPresent, rfl⟩ |
            ⟨bluntRest, bluntUnknown, bluntTail, rfl⟩
        · exact ih sharpTail bluntTail
        · cases refines.known _ rfl
          cases otherPresent
        · exact .dropped bluntUnknown means (ih sharpTail bluntTail)
      · have means := refines.carries.ok (Term.meaning_literal _ _ _)
        rcases bluntCases with ⟨rfl, _⟩ | ⟨other, rfl, _, rfl⟩ | ⟨bluntRest, bluntUnknown, _, rfl⟩
        · cases refines.known _ rfl
          cases present
        · exact .taken present means fun _ => rfl
        · refine .taken present means fun literal => ?_
          rw [bluntUnknown] at literal
          cases literal
      · rcases bluntCases with
            ⟨rfl, _⟩ | ⟨other, rfl, _, rfl⟩ | ⟨bluntRest, bluntUnknown, bluntTail, rfl⟩
        · rw [refines.known _ rfl] at sharpUnknown
          cases sharpUnknown
        · rw [refines.known _ rfl] at sharpUnknown
          cases sharpUnknown
        · exact .kept sharpUnknown refines (ih sharpTail bluntTail)

namespace CandidatesRefine

variable {sharpTerms bluntTerms : List Term}

theorem carries (refine : CandidatesRefine source sharpTerms bluntTerms) :
    Carries (Decision.coalesce (sharpTerms.map (Term.meaning {} source)))
      (Decision.coalesce (bluntTerms.map (Term.meaning {} source))) := by
  induction refine with
  | nil => exact .refl _
  | taken present bluntMeans _ =>
      rw [List.map_cons, List.map_cons]
      unfold Decision.coalesce
      rw [Term.meaning_literal, bluntMeans]
      refine .of_eq ?_
      simp [bind, Except.bind, present]
  | @dropped blunt _ blunts _ bluntMeans _ ih =>
      have others : Decision.coalesce ((blunt :: blunts).map (Term.meaning {} source)) =
          Decision.coalesce (blunts.map (Term.meaning {} source)) := by
        rw [List.map_cons, Decision.coalesce, bluntMeans]
        rfl
      rw [others]
      exact ih
  | kept _ refines _ ih =>
      rw [List.map_cons, List.map_cons]
      unfold Decision.coalesce
      refine refines.carries.bind fun held => ?_
      split
      · exact ih
      · exact .refl _

theorem greatestDepth_le (refine : CandidatesRefine source sharpTerms bluntTerms) :
    Term.greatestDepth sharpTerms ≤ Term.greatestDepth bluntTerms := by
  induction refine with
  | nil => exact Nat.le_refl _
  | taken _ _ _ => simp [Term.greatestDepth]
  | dropped _ _ _ ih =>
      simp only [Term.greatestDepth]
      omega
  | kept _ refines _ ih => exact Term.greatestDepth_cons_le refines.depth ih

theorem nil_of_nil (refine : CandidatesRefine source sharpTerms []) : sharpTerms = [] := by
  cases refine with
  | nil => rfl

/-- Where a single known candidate is left of the blunt ones, it is left of the sharp ones. -/
theorem literal_of_literal {value : Value}
    (refine : CandidatesRefine source sharpTerms [.literal value]) :
    sharpTerms = [.literal value] := by
  cases refine with
  | taken present means ends =>
      rw [Term.meaning_literal] at means
      cases means
      rfl
  | dropped unknown _ _ => cases unknown
  | kept unknown refines _ =>
      rw [refines.known value rfl] at unknown
      cases unknown

end CandidatesRefine

/-- A coalescence comes to what its candidates do, even if at most one is left. -/
theorem coalesce_means {registry : Registry}
    (registered : registry.find? Builtin.coalesce.name = some .coalesce) {context : Context}
    {node : Node} {term : Term} (compiled : coalesce node context = .ok term) (source : Source) :
    ∃ terms, candidates context node.tail = .ok terms ∧
      term.meaning registry source = Decision.coalesce (terms.map (Term.meaning registry source)) ∧
      (terms = [] ∧ term = .literal .null ∨
        (∃ value, terms = [.literal value] ∧ term = .literal value) ∨
        terms ≠ [] ∧ (∀ value, terms ≠ [.literal value]) ∧
          term = Builtin.coalesce.applied terms) := by
  obtain ⟨terms, inner, shape⟩ := coalesce_eq_ok compiled
  refine ⟨terms, inner, ?_, shape⟩
  rcases shape with ⟨rfl, rfl⟩ | ⟨value, rfl, rfl⟩ | ⟨occupied, _, rfl⟩
  · exact Term.meaning_literal _ _ _
  · rw [List.map_singleton, Term.meaning_literal]
    cases value with
    | null => rfl
    | _ => rfl
  · have positive : 1 ≤ terms.length := List.length_pos_iff.mpr occupied
    exact Term.meaning_of_registered_rule registered (Builtin.accepts_of_atLeast rfl positive) rfl

theorem coalesce_refines (tracks : List.Forall₂ specialization.Tracks sharps.tail blunts.tail)
    (around : specialization.Around sharpContext bluntContext)
    (sharpCompiled : coalesce sharps sharpContext = .ok sharpTerm)
    (bluntCompiled : coalesce blunts bluntContext = .ok bluntTerm) :
    sharpTerm.Refines specialization.source bluntTerm := by
  obtain ⟨sharpTerms, sharpInner, sharpMeans, sharpShape⟩ :=
    coalesce_means (Registry.find?_standard _) sharpCompiled specialization.source
  obtain ⟨bluntTerms, bluntInner, bluntMeans, bluntShape⟩ :=
    coalesce_means (Registry.find?_standard _) bluntCompiled specialization.source
  have refine := candidates_refine tracks around sharpInner bluntInner
  rcases bluntShape with ⟨rfl, rfl⟩ | ⟨value, rfl, rfl⟩ | ⟨_, _, rfl⟩
  · rcases sharpShape with ⟨_, rfl⟩ | ⟨other, impossible, _⟩ | ⟨occupied, _⟩
    · exact .refl _
    · rw [refine.nil_of_nil] at impossible
      cases impossible
    · exact absurd refine.nil_of_nil occupied
  · rcases sharpShape with ⟨impossible, _⟩ | ⟨other, same, rfl⟩ | ⟨_, several, _⟩
    · rw [refine.literal_of_literal] at impossible
      cases impossible
    · rw [refine.literal_of_literal] at same
      cases same
      exact .refl _
    · exact absurd refine.literal_of_literal (several value)
  · refine .of_unclassed rfl ?_ ?_
    · rw [sharpMeans, bluntMeans]
      exact refine.carries
    · have shallow : sharpTerm.callDepth ≤ Term.greatestDepth sharpTerms + 1 := by
        rcases sharpShape with ⟨_, rfl⟩ | ⟨_, _, rfl⟩ | ⟨_, _, rfl⟩
        · simp
        · simp
        · exact Nat.le_of_eq (Term.callDepth_applied _ _)
      rw [Term.callDepth_applied]
      exact Nat.le_trans shallow (Nat.succ_le_succ refine.greatestDepth_le)

/-! ## Choices by labels -/

/-- A known input is matched with known labels alike in a document and at evaluation. -/
theorem selectKnown_refines_of_labelled (position : Nat) {input : Value}
    (alternates : specialization.Alternates sharps blunts)
    (around : specialization.Around sharpContext bluntContext) {sharpPlace bluntPlace : Place}
    {bluntTerms : List Term}
    (chosen : selectKnown input sharpContext sharpPlace sharps = .ok sharpTerm)
    (bluntCompiled : labelled bluntContext bluntPlace blunts = .ok bluntTerms) :
    bluntTerms ≠ [] ∧ sharpTerm.callDepth ≤ Term.greatestDepth bluntTerms ∧
      Carries (sharpTerm.meaning {} specialization.source)
        (Decision.selectFrom input position
          (bluntTerms.map (Term.meaning {} specialization.source))) := by
  induction alternates generalizing sharpPlace bluntPlace position bluntTerms with
  | nil => cases chosen
  | last tracks =>
      obtain ⟨term, head, rfl⟩ := labelled_default bluntCompiled
      have refines := tracks.expression around chosen head
      exact ⟨List.cons_ne_nil _ _, by simpa [Term.greatestDepth] using refines.depth,
        refines.carries⟩
  | @pair sharpLabel bluntLabel sharp blunt sharps blunts raw tracks _ ih =>
      obtain ⟨checked, taken⟩ := selectKnown_cons chosen
      obtain ⟨_, output, others, head, tail, rfl⟩ := labelled_cons bluntCompiled
      have matched : Label.matchesInput Builtin.select.name position bluntLabel.raw input =
          .ok (Label.covers bluntLabel.raw input) := by
        rw [← raw]
        exact bind_eq_ok.mpr ⟨(), Label.check_of_check checked, rfl⟩
      have matches' : Decision.selectFrom input position
          ((Term.literal bluntLabel.raw :: output :: others).map
            (Term.meaning {} specialization.source)) =
          if Label.covers bluntLabel.raw input then output.meaning {} specialization.source
          else Decision.selectFrom input (position + 2)
            (others.map (Term.meaning {} specialization.source)) := by
        rw [List.map_cons, List.map_cons, Term.meaning_literal, Decision.selectFrom]
        simp only [bind, Except.bind, matched]
      rw [matches', ← raw]
      rcases taken with ⟨covers, chosen⟩ | ⟨passes, chosen⟩
      · have refines := tracks.expression around chosen head
        have depth := refines.depth
        rw [if_pos covers]
        refine ⟨List.cons_ne_nil _ _, ?_, refines.carries⟩
        simp only [Term.greatestDepth]
        omega
      · obtain ⟨_, depth, carries⟩ := ih (position + 2) chosen tail
        rw [passes]
        refine ⟨List.cons_ne_nil _ _, ?_, carries⟩
        simp only [Term.greatestDepth]
        omega

theorem selectKnown_refines {input : Value}
    (alternates : specialization.Alternates sharps blunts)
    (around : specialization.Around sharpContext bluntContext) {sharpPlace bluntPlace : Place}
    (sharpChosen : selectKnown input sharpContext sharpPlace sharps = .ok sharpTerm)
    (bluntChosen : selectKnown input bluntContext bluntPlace blunts = .ok bluntTerm) :
    sharpTerm.Refines specialization.source bluntTerm := by
  induction alternates generalizing sharpPlace bluntPlace with
  | nil => cases sharpChosen
  | last tracks => exact tracks.expression around sharpChosen bluntChosen
  | pair raw tracks _ ih =>
      obtain ⟨_, sharpTaken⟩ := selectKnown_cons sharpChosen
      obtain ⟨_, bluntTaken⟩ := selectKnown_cons bluntChosen
      rw [raw] at sharpTaken
      rcases sharpTaken with ⟨sharpCovers, sharpChosen⟩ | ⟨sharpPasses, sharpChosen⟩
      · rcases bluntTaken with ⟨_, bluntChosen⟩ | ⟨bluntPasses, _⟩
        · exact tracks.expression around sharpChosen bluntChosen
        · rw [sharpCovers] at bluntPasses
          cases bluntPasses
      · rcases bluntTaken with ⟨bluntCovers, _⟩ | ⟨_, bluntChosen⟩
        · rw [sharpPasses] at bluntCovers
          cases bluntCovers
        · exact ih sharpChosen bluntChosen

theorem labelled_refine (alternates : specialization.Alternates sharps blunts)
    (around : specialization.Around sharpContext bluntContext) {sharpPlace bluntPlace : Place}
    {sharpTerms bluntTerms : List Term}
    (sharpCompiled : labelled sharpContext sharpPlace sharps = .ok sharpTerms)
    (bluntCompiled : labelled bluntContext bluntPlace blunts = .ok bluntTerms) :
    List.Forall₂ (Term.Refines specialization.source) sharpTerms bluntTerms := by
  induction alternates generalizing sharpPlace bluntPlace sharpTerms bluntTerms with
  | nil =>
      unfold labelled at sharpCompiled bluntCompiled
      obtain rfl := pure_eq_ok.mp sharpCompiled
      obtain rfl := pure_eq_ok.mp bluntCompiled
      exact .nil
  | last tracks =>
      obtain ⟨sharp, sharpHead, rfl⟩ := labelled_default sharpCompiled
      obtain ⟨blunt, bluntHead, rfl⟩ := labelled_default bluntCompiled
      exact .cons (tracks.expression around sharpHead bluntHead) .nil
  | pair raw tracks _ ih =>
      obtain ⟨_, sharp, sharpRest, sharpHead, sharpTail, rfl⟩ := labelled_cons sharpCompiled
      obtain ⟨_, blunt, bluntRest, bluntHead, bluntTail, rfl⟩ := labelled_cons bluntCompiled
      rw [raw]
      exact .cons (.refl _)
        (.cons (tracks.expression around sharpHead bluntHead) (ih sharpTail bluntTail))

/-- A call of a choice by labels comes to what is chosen for a known input. -/
theorem select_means {input : Term} {others : List Term} {known : Value}
    (inputMeans : input.meaning {} source = .ok known) (checked : Label.checkInput known = .ok ())
    (occupied : others ≠ []) :
    (Builtin.select.applied (input :: others)).meaning {} source =
      Decision.selectFrom known 1 (others.map (Term.meaning {} source)) := by
  have positive : 1 ≤ others.length := List.length_pos_iff.mpr occupied
  have means : (Builtin.select.applied (input :: others)).meaning {} source =
      Decision.select (input.meaning {} source) (others.map (Term.meaning {} source)) :=
    Term.meaning_of_rule (Builtin.accepts_of_atLeast rfl (Nat.succ_le_succ positive)) rfl
  rw [means, inputMeans, Decision.select]
  simp only [bind, Except.bind, checked]

theorem select_refines {length : Nat}
    (follows : specialization.Follows (Operator.alternates 2 length) 0 sharps blunts)
    (sized : blunts.length = length)
    (around : specialization.Around sharpContext bluntContext)
    (sharpCompiled : select sharps sharpContext = .ok sharpTerm)
    (bluntCompiled : select blunts bluntContext = .ok bluntTerm) :
    sharpTerm.Refines specialization.source bluntTerm := by
  obtain ⟨sharp, sharpInput, sharpFound, sharpHead, sharpCases⟩ := select_eq_ok sharpCompiled
  obtain ⟨blunt, bluntInput, bluntFound, bluntHead, bluntCases⟩ := select_eq_ok bluntCompiled
  have refines := (follows.tracks_of_argument rfl sharpFound bluntFound).expression around
    sharpHead bluntHead
  have long : 1 < blunts.length :=
    (List.getElem?_eq_some_iff.mp (Node.getElem?_of_argument bluntFound)).1
  have alternates := (follows.drop 2).alternates (by omega) (by omega)
    (by rw [List.length_drop]; omega)
  rcases sharpCases with ⟨known, rfl, checked, sharpChosen⟩ | ⟨sharpRest, unknown, sharpTail, rfl⟩
  · rcases bluntCases with ⟨other, rfl, _, bluntChosen⟩ | ⟨bluntRest, _, bluntTail, rfl⟩
    · cases refines.known other rfl
      exact selectKnown_refines alternates around sharpChosen bluntChosen
    · have inputMeans := refines.carries.ok (Term.meaning_literal _ _ _)
      obtain ⟨occupied, depth, carries⟩ :=
        selectKnown_refines_of_labelled 1 alternates around sharpChosen bluntTail
      refine .of_unclassed rfl ?_ ?_
      · rw [select_means inputMeans checked occupied]
        exact carries
      · rw [Term.callDepth_applied]
        simp only [Term.greatestDepth]
        omega
  · rcases bluntCases with ⟨other, rfl, _, _⟩ | ⟨bluntRest, _, bluntTail, rfl⟩
    · rw [refines.known other rfl] at unknown
      cases unknown
    · exact .call (.cons refines (labelled_refine alternates around sharpTail bluntTail))

end Compiler

end MapStyle
