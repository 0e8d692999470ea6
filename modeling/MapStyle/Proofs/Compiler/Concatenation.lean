import MapStyle.Proofs.Compiler.Alignment
import MapStyle.Proofs.Compiler.Folding
import MapStyle.Proofs.Spelling

/-!
# Concatenations

A concatenation shows the values of its items one after the other, whether it was folded or is
computed for the data of a feature.  It looks at nothing of a value but its text, so two
concatenations whose items come to the same numbers, spelled in ways that have one text, are the
same text.
-/

namespace MapStyle

namespace Value

def plainTexts : List Value → String
  | [] => ""
  | value :: rest => value.plainText ++ plainTexts rest

/--
Values that a concatenation shows alike: the same, or one number in two spellings that are of one
form or below the bound on digits alone.
-/
inductive Respelled : Value → Value → Prop where
  | refl (value : Value) : Respelled value value
  | number {a b : Number} (same : a.denoted = b.denoted) (form : a.isWhole = b.isWhole ∨ a.IsSmall) :
      Respelled (.number a) (.number b)

theorem Respelled.plainText_eq {value other : Value} (respelled : value.Respelled other) :
    value.plainText = other.plainText := by
  cases respelled with
  | refl => rfl
  | number same form => exact (Number.plainText_eq_iff same).mpr form

theorem plainTexts_respelled {values others : List Value}
    (respelled : List.Forall₂ Respelled values others) : plainTexts values = plainTexts others := by
  induction respelled with
  | nil => rfl
  | cons head _ ih => rw [plainTexts, plainTexts, head.plainText_eq, ih]

def Yields (context : Context) (source : Source) (item value : Value) : Prop :=
  ∃ part, item.argument.expression context = .ok part ∧
    part.meaning context.registry source = .ok value

end Value

/-- Values are concatenated to their texts. -/
theorem Conversion.concatenate_values (values : List Value) :
    concatenate (values.map .ok) = .ok (.string (Value.plainTexts values)) := by
  have joined : concatenation (values.map .ok) = .ok (Value.plainTexts values) := by
    induction values with
    | nil => rfl
    | cons value rest ih =>
        rw [List.map_cons, concatenation, ih]
        rfl
  rw [concatenate, joined]
  rfl

namespace Compiler

variable {context : Context} {source : Source} {items values : List Value}

/-- Items that come to values are compiled to terms that mean these values. -/
theorem meanings_of_yields (each : List.Forall₂ (Value.Yields context source) items values)
    {parts : List Term} (compiled : expressions context (Node.ofItems items) = .ok parts) :
    parts.map (Term.meaning context.registry source) = values.map .ok := by
  induction each generalizing parts with
  | nil =>
      obtain rfl := pure_eq_ok.mp compiled
      rfl
  | cons head _ ih =>
      obtain ⟨part, first, compiled⟩ := bind_eq_ok.mp compiled
      obtain ⟨others, rest, compiled⟩ := bind_eq_ok.mp compiled
      obtain rfl := pure_eq_ok.mp compiled
      obtain ⟨other, found, comes⟩ := head
      obtain rfl := Except.ok.inj (first.symm.trans found)
      rw [List.map_cons, List.map_cons, comes, ih rest]

/-- A concatenation of items that come to values means their texts, folded or not. -/
theorem concat_means {term : Term}
    (registered : context.registry.find? Builtin.concatenate.name = some .concatenate)
    (compiled : (Value.array (.string Operator.concat.name :: items)).compile context = .ok term)
    (each : List.Forall₂ (Value.Yields context.deeper source) items values) :
    term.meaning context.registry source = .ok (.string (Value.plainTexts values)) := by
  obtain ⟨accepted, ruled⟩ := Value.compile_headed_eq_ok compiled
  obtain ⟨parts, inner, folded⟩ := bind_eq_ok.mp ruled
  have means := meanings_of_yields each inner
  have counted : parts.length = items.length := by
    have sized := congrArg List.length means
    rw [List.length_map, List.length_map] at sized
    exact sized.trans each.length_eq.symm
  calc term.meaning context.registry source
      = (Builtin.concatenate.applied parts).meaning context.registry source :=
        Context.meaning_fold folded source
    _ = Conversion.concatenate (values.map .ok) :=
        Term.meaning_of_registered_rule registered (counted ▸ accepted)
          (congrArg (fun outcomes => some (Conversion.concatenate outcomes)) means)
    _ = .ok (.string (Value.plainTexts values)) := Conversion.concatenate_values values

end Compiler

def Evaluator.ComesTo (evaluator : Evaluator) (depth : Nat) (term : Term) (outcome : Outcome) :
    Prop :=
  evaluator.evaluate depth term = outcome ∨
    ∃ function limit, evaluator.evaluate depth term = .error (.calledTooDeep function limit)

/-- A concatenation that compiles, and an evaluator for which its items come to values. -/
structure Concatenation where
  context : Context
  items : List Value
  term : Term
  compiled : (Value.array (.string Operator.concat.name :: items)).compile context = .ok term
  evaluator : Evaluator
  registry : evaluator.registry = context.registry
  registered : context.registry.find? Builtin.concatenate.name = some .concatenate
  values : List Value
  yields : List.Forall₂ (Value.Yields context.deeper evaluator.source) items values

/-- A concatenation comes to the texts of its values. -/
theorem Concatenation.shows (concatenation : Concatenation) (depth : Nat) :
    concatenation.evaluator.ComesTo depth concatenation.term
      (.ok (.string (Value.plainTexts concatenation.values))) := by
  apply Evaluator.evaluate_of_meaning
  rw [concatenation.registry]
  exact Compiler.concat_means concatenation.registered concatenation.compiled concatenation.yields

/--
A concatenation shows a number by its value, up to the bound on digits alone.  Two spellings of one
number have one text if both are whole or both binary64, or if the number is below the bound; from
there on the two forms are told apart.  What is computed denotes the number that was computed, in
the whole form as far as binary64 keeps whole numbers apart.  So concatenations whose items come to
the same values, or to such spellings of the same numbers, come to one text, each of them unless
the limit stops it.
-/
theorem concatenation_prints_values :
    (∀ a b : Number, a.denoted = b.denoted →
      (a.plainText = b.plainText ↔ a.isWhole = b.isWhole ∨ a.IsSmall)) ∧
    (∀ x : FiniteDouble, ∃ computed, Number.ofDouble? (.finite x) = some computed ∧
      computed.denoted = (Number.double x).denoted ∧
      (computed.isWhole = true ↔
        x.isIntegral = true ∧ |(Number.double x).denoted| ≤ Number.greatestExact)) ∧
    ∀ (one other : Concatenation) (depth otherDepth : Nat),
      List.Forall₂ Value.Respelled one.values other.values →
      one.evaluator.ComesTo depth one.term (.ok (.string (Value.plainTexts one.values))) ∧
        other.evaluator.ComesTo otherDepth other.term
          (.ok (.string (Value.plainTexts one.values))) := by
  refine ⟨fun a b => Number.plainText_eq_iff, Number.ofDouble?_spelled, ?_⟩
  intro one other depth otherDepth respelled
  refine ⟨one.shows depth, ?_⟩
  rw [Value.plainTexts_respelled respelled]
  exact other.shows otherDepth

def Concatenation.ofProperty (size : Nat) (small : size ≤ 2 ^ 53) : Concatenation where
  context := {}
  items := [.number (.inWholeForm size small), .array [.string "get", .string "x"]]
  term := Builtin.concatenate.applied
    [.literal (.number (.inWholeForm size small)), .property "x"]
  compiled := rfl
  evaluator :=
    { source := .scope { properties := [("x", .number (.inDoubleForm size small))] } []
      limit := 512 }
  registry := rfl
  registered := Registry.find?_standard .concatenate
  values := [.number (.inWholeForm size small), .number (.inDoubleForm size small)]
  yields := .cons ⟨_, rfl, rfl⟩ (.cons ⟨_, rfl, rfl⟩ .nil)

/-- Two in both forms has one text, and so have a deferred concatenation of it and a folded one. -/
theorem concatenation_prints_values_case :
    (Number.inWholeForm 2 (by decide)).plainText = (Number.inDoubleForm 2 (by decide)).plainText ∧
      ∃ term, (Value.array [.string "concat", .number (.inDoubleForm 2 (by decide)),
          .number (.inWholeForm 2 (by decide))]).compile {} = .ok term ∧
        (Concatenation.ofProperty 2 (by decide)).evaluator.ComesTo 0
          (Concatenation.ofProperty 2 (by decide)).term (.ok (.string "22")) ∧
        Evaluator.ComesTo { source := .constants, limit := 512 } 0 term (.ok (.string "22")) := by
  obtain ⟨spelled, _, shown⟩ := concatenation_prints_values
  have same := Number.denoted_inForms 2 (by decide)
  have small : (Number.inWholeForm 2 (by decide)).IsSmall := Number.isSmall_whole.mpr (by decide)
  have otherSmall : (Number.inDoubleForm 2 (by decide)).IsSmall := by
    unfold Number.IsSmall
    rw [← same]
    exact small
  have compiles : ((Value.array [.string "concat", .number (.inDoubleForm 2 (by decide)),
      .number (.inWholeForm 2 (by decide))]).compile {}).isOk = true := by decide +kernel
  obtain ⟨term, compiled⟩ := eq_ok_of_isOk compiles
  have texts : Value.plainTexts (Concatenation.ofProperty 2 (by decide)).values = "22" := by
    decide +kernel
  refine ⟨(spelled _ _ same).mpr (.inr small), term, compiled, ?_⟩
  rw [← texts]
  exact shown (.ofProperty 2 (by decide))
    { context := {}
      items := [.number (.inDoubleForm 2 (by decide)), .number (.inWholeForm 2 (by decide))]
      term
      compiled
      evaluator := { source := .constants, limit := 512 }
      registry := rfl
      registered := Registry.find?_standard .concatenate
      values := [.number (.inDoubleForm 2 (by decide)), .number (.inWholeForm 2 (by decide))]
      yields := .cons ⟨_, rfl, rfl⟩ (.cons ⟨_, rfl, rfl⟩ .nil) } 0 0
    (.cons (.number same (.inr small)) (.cons (.number same.symm (.inr otherSmall)) .nil))

/-- At the bound the two forms of one number are told apart, and so are their concatenations. -/
theorem concatenation_shows_form :
    (Number.inWholeForm (10 ^ 15) (by decide)).denoted =
        (Number.inDoubleForm (10 ^ 15) (by decide)).denoted ∧
      (Number.inWholeForm (10 ^ 15) (by decide)).plainText = "1000000000000000" ∧
      (Number.inDoubleForm (10 ^ 15) (by decide)).plainText = "1000000000000000.0" ∧
      (∃ term, (Value.array [.string "concat",
          .number (.inWholeForm (10 ^ 15) (by decide))]).compile {} = .ok term ∧
        Evaluator.evaluate { source := .scope {} [], limit := 512 } 0 term =
          .ok (.string "1000000000000000")) ∧
      ∃ term, (Value.array [.string "concat",
          .number (.inDoubleForm (10 ^ 15) (by decide))]).compile {} = .ok term ∧
        Evaluator.evaluate { source := .scope {} [], limit := 512 } 0 term =
          .ok (.string "1000000000000000.0") := by
  refine ⟨Number.denoted_inForms _ _, by decide +kernel, by decide +kernel, ?_, ?_⟩
  · exact Value.compiled_of_text (by decide +kernel)
  · exact Value.compiled_of_text (by decide +kernel)

end MapStyle
