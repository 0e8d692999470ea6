import MapStyle.Proofs.Compiler.Argument

/-!
# Access and variables keep refinement

Operators that compile nothing of their own: they look something up.
-/

namespace MapStyle

/-!
## Access to data keeps refinement

A key that is looked up in the feature has the value that is found in its known properties, and a
length is one number whether the value is known or counted by the function of its class.
-/

namespace Conversion

/-- A length does not depend on the function that is asked for it. -/
theorem lengthOf_ok {function : String} {value counted : Value}
    (counts : lengthOf function value = .ok counted) (other : String) :
    lengthOf other value = .ok counted := by
  cases value with
  | string content => exact counts
  | array items => exact counts
  | _ => cases counts

theorem lengthOf_of_textLength {outcome : Outcome} {counted : Value}
    (counts : textLength outcome = .ok counted) (function : String) :
    ∃ value, outcome = .ok value ∧ lengthOf function value = .ok counted := by
  obtain ⟨content, reads, counts⟩ := bind_eq_ok.mp counts
  obtain rfl := Operand.text_eq_ok.mp reads
  exact ⟨_, rfl, counts⟩

theorem lengthOf_of_listSize {outcome : Outcome} {counted : Value}
    (counts : listSize outcome = .ok counted) (function : String) :
    ∃ value, outcome = .ok value ∧ lengthOf function value = .ok counted := by
  obtain ⟨value, rfl, counts⟩ := bind_eq_ok.mp counts
  cases value with
  | array items => exact ⟨_, rfl, counts⟩
  | _ => cases counts

end Conversion

namespace Builtin

/-- The function that counts values of a class, or of one that cannot be told. -/
def counting : Option Kind → Builtin
  | some .string => .textLength
  | some .array => .listSize
  | _ => .length

theorem returns_counting (kind : Option Kind) : (counting kind).returns = some .number := by
  unfold counting
  split
  · rfl
  · rfl
  · rfl

end Builtin

namespace Term

variable {source : Source} {inner : Term}

/-- What a call counts is a value that has this length. -/
theorem lengthOf_of_counting {kind : Option Kind} {counted : Value}
    (means : ((Builtin.counting kind).applied [inner]).meaning {} source = .ok counted)
    (function : String) :
    ∃ value, inner.meaning {} source = .ok value ∧
      Conversion.lengthOf function value = .ok counted := by
  rw [meaning_applied] at means
  have applies := Builtin.rule_of_call means
  unfold Builtin.counting at applies
  split at applies
  · exact Conversion.lengthOf_of_textLength (Option.some.inj applies) function
  · exact Conversion.lengthOf_of_listSize (Option.some.inj applies) function
  · obtain ⟨value, means, counts⟩ := bind_eq_ok.mp (Option.some.inj applies)
    exact ⟨value, means, Conversion.lengthOf_ok counts function⟩

/-- The length of a value is counted by the function of its class. -/
theorem meaning_counting (unknown : inner.isLiteral = false) {value counted : Value}
    (means : inner.meaning {} source = .ok value) {function : String}
    (counts : Conversion.lengthOf function value = .ok counted) :
    ((Builtin.counting (inner.kind? {})).applied [inner]).meaning {} source = .ok counted := by
  cases declared : inner.kind? {} with
  | none =>
      apply meaning_of_rule rfl
      rw [List.map_singleton, means]
      exact congrArg some (Conversion.lengthOf_ok counts Builtin.length.name)
  | some kind =>
      by_cases object : kind = .object
      · subst object
        apply meaning_of_rule rfl
        rw [List.map_singleton, means]
        exact congrArg some (Conversion.lengthOf_ok counts Builtin.length.name)
      have returned := returned_of_kind? unknown declared object means
      cases returned with
      | number x =>
          unfold Value.ofDouble at counts
          split at counts
          · cases counts
          · cases counts
      | string content =>
          apply meaning_of_rule rfl
          rw [List.map_singleton, means]
          exact congrArg some counts
      | array items =>
          apply meaning_of_rule rfl
          rw [List.map_singleton, means]
          exact congrArg some counts
      | _ => cases counts

/-- A count wants a datum only where what it counts does. -/
theorem error_of_counting {kind : Option Kind} {cause : Error}
    (fails : ((Builtin.counting kind).applied [inner]).meaning {} source = .error cause)
    (waits : cause.isUnresolved = true) : inner.meaning {} source = .error cause := by
  rw [meaning_applied, List.map_singleton] at fails
  generalize inner.meaning {} source = outcome at fails ⊢
  cases outcome with
  | error other =>
      rw [← fails]
      unfold Builtin.counting
      split <;> rfl
  | ok value =>
      unfold Builtin.counting at fails
      split at fails
      all_goals
        cases value <;> cases fails <;> cases waits

/-- Counts carry over, whatever the functions are that count. -/
theorem counting_carries {kind : Option Kind} {sharp : Term} (unknown : inner.isLiteral = false)
    (carries : Carries (sharp.meaning {} source) (inner.meaning {} source)) :
    Carries (((Builtin.counting kind).applied [sharp]).meaning {} source)
      (((Builtin.counting (inner.kind? {})).applied [inner]).meaning {} source) := by
  cases outcome : ((Builtin.counting kind).applied [sharp]).meaning {} source with
  | ok counted =>
      obtain ⟨value, means, counts⟩ := lengthOf_of_counting outcome Operator.length.name
      exact .of_eq (meaning_counting unknown (carries.ok means) counts).symm
  | error cause =>
      refine .of_error fun waits => ?_
      have sharpWaits := error_of_counting outcome waits
      rw [meaning_applied, List.map_singleton, carries.waits sharpWaits waits]
      unfold Builtin.counting
      split <;> rfl

end Term

namespace Compiler

variable {specialization : Specialization} {sharpContext bluntContext : Context}
  {sharps blunts : Node} {sharpTerm bluntTerm : Term}

/-! ### Items and keys -/

theorem itemAt_refines {written : Nat → Bool}
    (follows : specialization.Follows written 0 sharps blunts)
    (reached : ∀ position, written position = false)
    (around : specialization.Around sharpContext bluntContext)
    (sharpCompiled : itemAt sharps sharpContext = .ok sharpTerm)
    (bluntCompiled : itemAt blunts bluntContext = .ok bluntTerm) :
    sharpTerm.Refines specialization.source bluntTerm := by
  obtain ⟨sharpFirst, sharpSecond, sharpIndex, sharpItems, sharpValue, sharpFound, sharpKnown,
    sharpFoundSecond, sharpKnownItems, sharpPresent, rfl⟩ := itemAt_eq_ok sharpCompiled
  obtain ⟨bluntFirst, bluntSecond, bluntIndex, bluntItems, bluntValue, bluntFound, bluntKnown,
    bluntFoundSecond, bluntKnownItems, bluntPresent, rfl⟩ := itemAt_eq_ok bluntCompiled
  have indices := (follows.tracks_of_argument (reached _) sharpFound bluntFound).constantBy around
    sharpKnown bluntKnown
  have items := (follows.tracks_of_argument (reached _) sharpFoundSecond
    bluntFoundSecond).constantBy around sharpKnownItems bluntKnownItems
  rw [indices, items, bluntPresent] at sharpPresent
  obtain rfl := Option.some.inj sharpPresent
  exact .refl _

/-- The entries of an object that is written as an argument. -/
theorem constantEntries_of_object {argument : Argument} {entries found : Entries}
    {context : Context} {place : Place} (raw : argument.raw = .object entries)
    (known : argument.constantEntries place context = .ok found) : found = entries := by
  obtain ⟨term, value, compiled, decided, reads⟩ := Argument.constantBy_eq_ok known
  unfold Argument.valueOrExpression at compiled
  rw [raw] at compiled
  obtain rfl := pure_eq_ok.mp compiled
  have means := Evaluator.meaning_of_evaluate (Context.constant?_eq_some decided)
  rw [Term.meaning_literal] at means
  cases means
  exact (Option.some.inj reads).symm

section Keyed

variable {operator : Operator} {ofFeature : String → Term} {ofObject : String → Entries → Value}
  {written : Nat → Bool} (follows : specialization.Follows written 0 sharps blunts)
  (reached : ∀ position, written position = false)
  (around : specialization.Around sharpContext bluntContext)

include follows reached around

/-- Look-ups with the same arguments, in the feature or in an object, are the same. -/
theorem keyed_refines_of_follows
    (sharpCompiled : keyed operator ofFeature ofObject sharps sharpContext = .ok sharpTerm)
    (bluntCompiled : keyed operator ofFeature ofObject blunts bluntContext = .ok bluntTerm) :
    sharpTerm.Refines specialization.source bluntTerm := by
  obtain ⟨sharp, sharpKey, sharpFound, sharpKnown, sharpCases⟩ := keyed_eq_ok sharpCompiled
  obtain ⟨blunt, bluntKey, bluntFound, bluntKnown, bluntCases⟩ := keyed_eq_ok bluntCompiled
  obtain rfl := (follows.tracks_of_argument (reached _) sharpFound bluntFound).constantBy around
    sharpKnown bluntKnown
  rw [follows.length_eq] at sharpCases
  rcases sharpCases with
      ⟨single, rfl⟩ | ⟨sharpObject, sharpEntries, double, sharpHeld, sharpReads, rfl⟩
  · rcases bluntCases with ⟨_, rfl⟩ | ⟨_, _, double, _⟩
    · exact .refl _
    · exact absurd single double
  · rcases bluntCases with
        ⟨single, rfl⟩ | ⟨bluntObject, bluntEntries, _, bluntHeld, bluntReads, rfl⟩
    · exact absurd single double
    · obtain rfl := (follows.tracks_of_argument (reached _) sharpHeld bluntHeld).constantBy around
        sharpReads bluntReads
      exact .refl _

/-- A look-up in the known properties is decided; one in the feature comes to the same value. -/
theorem keyed_refines_of_known
    (agree : ∀ key entries, specialization.known = some entries →
      (ofFeature key).meaning {} specialization.source = .ok (ofObject key entries))
    {properties : Argument} {entries : Entries} (known : specialization.known = some entries)
    (raw : properties.raw = .object entries) (single : blunts.length = 2)
    (sharpCompiled : keyed operator ofFeature ofObject (sharps ++ [properties]) sharpContext =
      .ok sharpTerm)
    (bluntCompiled : keyed operator ofFeature ofObject blunts bluntContext = .ok bluntTerm) :
    sharpTerm.Refines specialization.source bluntTerm := by
  obtain ⟨sharp, sharpKey, sharpFound, sharpKnown, sharpCases⟩ := keyed_eq_ok sharpCompiled
  obtain ⟨blunt, bluntKey, bluntFound, bluntKnown, bluntCases⟩ := keyed_eq_ok bluntCompiled
  have lengths : sharps.length = 2 := by rw [follows.length_eq, single]
  have first : (sharps ++ [properties])[1]? = some sharp := Node.getElem?_of_argument sharpFound
  rw [List.getElem?_append_left (by omega)] at first
  have tracks := follows.tracks_at (reached _) first (Node.getElem?_of_argument bluntFound)
  obtain rfl := tracks.constantBy around sharpKnown bluntKnown
  rcases sharpCases with ⟨impossible, _⟩ | ⟨object, held, _, found, reads, rfl⟩
  · rw [List.length_append, lengths] at impossible
    cases impossible
  · have last : (sharps ++ [properties])[2]? = some object := Node.getElem?_of_argument found
    rw [List.getElem?_append_right (by omega), lengths] at last
    obtain rfl := Option.some.inj last
    obtain rfl := constantEntries_of_object raw reads
    rcases bluntCases with ⟨_, rfl⟩ | ⟨_, _, double, _⟩
    · exact .of_literal (agree _ _ known)
    · exact absurd single double

end Keyed

theorem keyed_refines {operator : Operator} {ofFeature : String → Term}
    {ofObject : String → Entries → Value}
    (agree : ∀ key entries, specialization.known = some entries →
      (ofFeature key).meaning {} specialization.source = .ok (ofObject key entries))
    (fills : specialization.Fills operator sharps blunts)
    (reached : ∀ position, operator.readsWritten blunts.length position = false)
    (around : specialization.Around sharpContext bluntContext)
    (sharpCompiled : keyed operator ofFeature ofObject sharps sharpContext = .ok sharpTerm)
    (bluntCompiled : keyed operator ofFeature ofObject blunts bluntContext = .ok bluntTerm) :
    sharpTerm.Refines specialization.source bluntTerm := by
  cases fills with
  | alike follows =>
      exact keyed_refines_of_follows follows reached around sharpCompiled bluntCompiled
  | given _ known raw single follows =>
      exact keyed_refines_of_known follows reached around agree known raw single sharpCompiled
        bluntCompiled

theorem get_refines (fills : specialization.Fills .get sharps blunts)
    (around : specialization.Around sharpContext bluntContext)
    (sharpCompiled : get sharps sharpContext = .ok sharpTerm)
    (bluntCompiled : get blunts bluntContext = .ok bluntTerm) :
    sharpTerm.Refines specialization.source bluntTerm := by
  refine keyed_refines ?_ fills (fun _ => rfl) around sharpCompiled bluntCompiled
  intro key entries known
  unfold Term.meaning
  rw [specialization.fits entries known]
  rfl

theorem has_refines (fills : specialization.Fills .has sharps blunts)
    (around : specialization.Around sharpContext bluntContext)
    (sharpCompiled : has sharps sharpContext = .ok sharpTerm)
    (bluntCompiled : has blunts bluntContext = .ok bluntTerm) :
    sharpTerm.Refines specialization.source bluntTerm := by
  refine keyed_refines ?_ fills (fun _ => rfl) around sharpCompiled bluntCompiled
  intro key entries known
  apply Term.meaning_of_rule rfl
  rw [List.map_singleton, Term.meaning_literal]
  show some (Reading.hasProperty specialization.source (.ok (.string key))) = _
  unfold Reading.hasProperty
  have found := specialization.fits entries known key
  exact congrArg some (bind_eq_ok.mpr ⟨key, rfl, bind_eq_ok.mpr ⟨_, found, rfl⟩⟩)

/-! ### Lengths -/

/-- A length is known, or a call of the function that counts values of the class. -/
theorem length_cases {options : Options} {written : Value → Prop} {node : Node}
    {context : Context} {term : Term} (emits : context.Emits options written)
    (compiled : length node context = .ok term) :
    ∃ argument inner, node.argument ⟨Operator.length.name, 1⟩ = .ok argument ∧
      argument.valueOrExpression context = .ok inner ∧
      ((∃ value counted, inner = .literal value ∧
          Conversion.lengthOf Operator.length.name value = .ok counted ∧
          term = .literal counted) ∨
        inner.isLiteral = false ∧
          term = (Builtin.counting (inner.kind? {})).applied [inner]) := by
  obtain ⟨argument, inner, found, head, cases⟩ := length_eq_ok compiled
  refine ⟨argument, inner, found, head, ?_⟩
  rcases cases with known | ⟨unknown, cases⟩
  · exact .inl known
  · refine .inr ⟨unknown, ?_⟩
    rw [emits.kind?] at cases
    rcases cases with ⟨declared, rfl⟩ | ⟨declared, rfl⟩ | ⟨declared, rfl⟩
    all_goals
      rw [declared]
      rfl

theorem length_refines {written : Nat → Bool}
    (follows : specialization.Follows written 0 sharps blunts) (reached : written 1 = false)
    (around : specialization.Around sharpContext bluntContext)
    (sharpCompiled : length sharps sharpContext = .ok sharpTerm)
    (bluntCompiled : length blunts bluntContext = .ok bluntTerm) :
    sharpTerm.Refines specialization.source bluntTerm := by
  obtain ⟨sharp, sharpInner, sharpFound, sharpHead, sharpCases⟩ :=
    length_cases around.sharpEmits sharpCompiled
  obtain ⟨blunt, bluntInner, bluntFound, bluntHead, bluntCases⟩ :=
    length_cases around.bluntEmits bluntCompiled
  have tracks := follows.tracks_of_argument reached sharpFound bluntFound
  have refines := tracks.valueOrExpression around sharpHead bluntHead
  rcases bluntCases with ⟨value, counted, rfl, counts, rfl⟩ | ⟨bluntUnknown, rfl⟩
  · obtain rfl := refines.known value rfl
    rcases sharpCases with ⟨_, _, same, others, rfl⟩ | ⟨impossible, _⟩
    · cases same
      rw [counts] at others
      cases others
      exact .refl _
    · cases impossible
  · rcases sharpCases with ⟨value, counted, rfl, counts, rfl⟩ | ⟨_, rfl⟩
    · have means := refines.carries.ok (Term.meaning_literal _ _ value)
      exact .of_literal (Term.meaning_counting bluntUnknown means counts)
    · refine .applied ?_ ?_ (Term.Refines.greatestDepth_le (.cons refines .nil))
      · rw [Builtin.returns_counting, Builtin.returns_counting]
      · exact Term.counting_carries bluntUnknown refines.carries

end Compiler

/-!
## Variables keep refinement

A binding holds the same names in both compilations, with terms that refine each other, so a
variable stands for such terms wherever it is used.
-/

namespace Specialization

variable {specialization : Specialization}

/-- Bindings of the same names, in the same order, to terms that refine each other. -/
def ScopesRefine (source : Source) (sharp blunt : Scope) : Prop :=
  List.Forall₂ (fun one other => one.1 = other.1 ∧ one.2.Refines source other.2) sharp blunt

/-- A name is bound in both scopes or in neither. -/
theorem ScopesRefine.lookup {source : Source} {sharp blunt : Scope}
    (refine : ScopesRefine source sharp blunt) (name : String) :
    (sharp.lookup name = none ∧ blunt.lookup name = none) ∨
      ∃ sharpTerm bluntTerm, sharp.lookup name = some sharpTerm ∧
        blunt.lookup name = some bluntTerm ∧ sharpTerm.Refines source bluntTerm := by
  induction refine with
  | nil => exact .inl ⟨rfl, rfl⟩
  | @cons one other sharp blunt head _ ih =>
      obtain ⟨key, sharpTerm⟩ := one
      obtain ⟨otherKey, bluntTerm⟩ := other
      obtain ⟨rfl, refines⟩ := head
      rw [List.lookup_cons, List.lookup_cons]
      cases name == key with
      | true => exact .inr ⟨sharpTerm, bluntTerm, rfl, rfl, refines⟩
      | false => exact ih

/-- Inside bindings that refine each other, variables do. -/
theorem Around.push {sharp blunt : Context} (around : specialization.Around sharp blunt)
    {sharpScope bluntScope : Scope}
    (sharpBound : ∀ entry ∈ sharpScope, Emitted specialization.sharp Value.SafeZeros entry.2)
    (bluntBound : ∀ entry ∈ bluntScope, Emitted specialization.blunt Value.SafeZeros entry.2)
    (refine : ScopesRefine specialization.source sharpScope bluntScope) :
    specialization.Around (sharp.push sharpScope) (blunt.push bluntScope) := by
  refine ⟨around.sharpEmits.push sharpBound, around.bluntEmits.push bluntBound, ?_⟩
  intro name sharpTerm bluntTerm sharpFound bluntFound
  rcases refine.lookup name with
      ⟨sharpFree, bluntFree⟩ | ⟨one, other, sharpHeld, bluntHeld, refines⟩
  · rw [sharp.lookup?_push_of_not_mem sharpFree] at sharpFound
    rw [blunt.lookup?_push_of_not_mem bluntFree] at bluntFound
    exact around.bindings name sharpTerm bluntTerm sharpFound bluntFound
  · rw [sharp.lookup?_push_of_mem sharpHeld] at sharpFound
    rw [blunt.lookup?_push_of_mem bluntHeld] at bluntFound
    cases sharpFound
    cases bluntFound
    exact refines

end Specialization

namespace Compiler

variable {specialization : Specialization} {sharpContext bluntContext : Context}
  {sharps blunts : Node} {sharpTerm bluntTerm : Term}

theorem variableName_eq {sharp blunt : Argument} (raw : sharp.raw = blunt.raw)
    {sharpPlace bluntPlace : Place} {sharpName bluntName : String}
    (sharpWritten : variableName sharp sharpPlace = .ok sharpName)
    (bluntWritten : variableName blunt bluntPlace = .ok bluntName) : sharpName = bluntName := by
  unfold variableName at sharpWritten bluntWritten
  rw [raw] at sharpWritten
  cases held : blunt.raw.toText? with
  | none =>
      rw [held] at sharpWritten
      cases sharpWritten
  | some name =>
      rw [held] at sharpWritten bluntWritten
      obtain rfl := pure_eq_ok.mp sharpWritten
      exact pure_eq_ok.mp bluntWritten

theorem bindings_refine (alternates : specialization.Alternates sharps blunts)
    (around : specialization.Around sharpContext bluntContext) {sharpPlace bluntPlace : Place}
    {sharpScope bluntScope sharpResult bluntResult : Scope}
    (held : Specialization.ScopesRefine specialization.source sharpScope bluntScope)
    (sharpBound : bindings sharpContext sharpPlace sharpScope sharps = .ok sharpResult)
    (bluntBound : bindings bluntContext bluntPlace bluntScope blunts = .ok bluntResult) :
    Specialization.ScopesRefine specialization.source sharpResult bluntResult := by
  induction alternates generalizing sharpPlace bluntPlace sharpScope bluntScope with
  | nil =>
      unfold bindings at sharpBound bluntBound
      obtain rfl := pure_eq_ok.mp sharpBound
      obtain rfl := pure_eq_ok.mp bluntBound
      exact held
  | last tracks =>
      unfold bindings at sharpBound bluntBound
      obtain rfl := pure_eq_ok.mp sharpBound
      obtain rfl := pure_eq_ok.mp bluntBound
      exact held
  | pair raw tracks _ ih =>
      obtain ⟨sharpName, sharp, sharpWritten, sharpHead, sharpTail⟩ := bindings_cons sharpBound
      obtain ⟨bluntName, blunt, bluntWritten, bluntHead, bluntTail⟩ := bindings_cons bluntBound
      have names := variableName_eq raw sharpWritten bluntWritten
      have refines := tracks.expression around sharpHead bluntHead
      exact ih (.cons ⟨names, refines⟩ held) sharpTail bluntTail

theorem letIn_refines {length : Nat}
    (follows : specialization.Follows (Operator.alternates 1 length) 0 sharps blunts)
    (sized : blunts.length = length)
    (accepted : Operator.letIn.arity.accepts (blunts.length - 1) = true)
    (sharpEmits : sharps.Emits specialization.sharp Value.SafeZeros)
    (bluntEmits : blunts.Emits specialization.blunt Value.SafeZeros)
    (around : specialization.Around sharpContext bluntContext)
    (sharpCompiled : letIn sharps sharpContext = .ok sharpTerm)
    (bluntCompiled : letIn blunts bluntContext = .ok bluntTerm) :
    sharpTerm.Refines specialization.source bluntTerm := by
  obtain ⟨_, sharpScope, sharp, sharpBound, sharpFound, sharpInner⟩ := letIn_eq_ok sharpCompiled
  obtain ⟨paired, bluntScope, blunt, bluntBound, bluntFound, bluntInner⟩ :=
    letIn_eq_ok bluntCompiled
  have long : 3 ≤ blunts.length - 1 := by
    simpa [Operator.arity, Operator.entry, Arity.accepts] using accepted
  have lengths := follows.length_eq
  have alternates := (follows.drop 1).alternates (by omega) (by omega)
    (by rw [List.length_drop]; omega)
  have names := alternates.dropLast (by rw [List.length_drop]; omega)
  rw [List.drop_one, List.drop_one, ← List.tail_dropLast, ← List.tail_dropLast,
    ← List.drop_one, ← List.drop_one] at names
  have refine := bindings_refine names around .nil sharpBound bluntBound
  have inside (node : Node) : (node.dropLast.drop 1).Sublist node :=
    (List.drop_sublist 1 _).trans (List.dropLast_sublist node)
  have sharpHeld := bindings_emitted (sharpEmits.sublist (inside sharps)) around.sharpEmits
    (by simp) sharpBound
  have bluntHeld := bindings_emitted (bluntEmits.sublist (inside blunts)) around.bluntEmits
    (by simp) bluntBound
  have reached : Operator.alternates 1 length (blunts.length - 1) = false := by
    unfold Operator.alternates
    have ends : ¬ blunts.length - 1 + 1 < length := by omega
    simp [ends]
  rw [lengths] at sharpFound
  have tracks := follows.tracks_of_argument reached sharpFound bluntFound
  exact tracks.expression (around.push sharpHeld bluntHeld refine) sharpInner bluntInner

theorem var_refines {written : Nat → Bool}
    (follows : specialization.Follows written 0 sharps blunts) (skipped : written 1 = true)
    (around : specialization.Around sharpContext bluntContext)
    (sharpCompiled : var sharps sharpContext = .ok sharpTerm)
    (bluntCompiled : var blunts bluntContext = .ok bluntTerm) :
    sharpTerm.Refines specialization.source bluntTerm := by
  obtain ⟨sharp, sharpName, sharpFound, sharpWritten, sharpBound⟩ := var_eq_ok sharpCompiled
  obtain ⟨blunt, bluntName, bluntFound, bluntWritten, bluntBound⟩ := var_eq_ok bluntCompiled
  have raw := follows.raw_at (by rwa [Nat.zero_add]) (Node.getElem?_of_argument sharpFound)
    (Node.getElem?_of_argument bluntFound)
  obtain rfl := variableName_eq raw sharpWritten bluntWritten
  exact around.bindings sharpName sharpTerm bluntTerm sharpBound bluntBound

end Compiler

end MapStyle
