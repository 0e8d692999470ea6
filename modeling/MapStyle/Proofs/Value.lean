import MapStyle.Proofs.Number
import MapStyle.Value.Basic

/-!
# Values and their parts

Induction over values; the forms that computed values have, by the class that is declared for
them; and values in which negative zero does not occur, which nothing computed does either.
-/

namespace MapStyle

namespace Value

/-- Values are proved about by their form, containers from what is known of each part. -/
@[elab_as_elim, induction_eliminator]
theorem inductionOn {holds : Value → Prop} (null : holds .null)
    (boolean : ∀ flag, holds (.boolean flag)) (number : ∀ held, holds (.number held))
    (string : ∀ content, holds (.string content))
    (array : ∀ items, (∀ item ∈ items, holds item) → holds (.array items))
    (object : ∀ entries : Entries, (∀ entry ∈ entries, holds entry.2) → holds (.object entries))
    (value : Value) : holds value := by
  apply @Value.rec holds (fun items => ∀ item ∈ items, holds item)
    (fun entries => ∀ entry ∈ entries, holds entry.2) fun entry => holds entry.2
  · exact null
  · exact boolean
  · exact number
  · exact string
  · exact array
  · exact object
  · intro item impossible
    cases impossible
  · intro head tail first rest item member
    cases member with
    | head => exact first
    | tail _ member => exact rest item member
  · intro entry impossible
    cases impossible
  · intro head tail first rest entry member
    cases member with
    | head => exact first
    | tail _ member => exact rest entry member
  · intro key value holds
    exact holds

/-- The number of a value is finite. -/
theorem toDouble?_finite {value : Value} {x : Double} (number : value.toDouble? = some x) :
    ∃ y, x = .finite y := by
  cases value with
  | number held =>
      obtain rfl := Option.some.inj number
      exact held.toDouble_eq_finite
  | _ => cases number

/-- A finite result of a computation is a number and not null. -/
theorem ofDouble_finite (x : FiniteDouble) : ∃ held, ofDouble (.finite x) = .number held := by
  obtain ⟨held, found⟩ := Number.ofDouble?_finite x
  refine ⟨held, ?_⟩
  unfold ofDouble
  rw [found]

/-- Values that are computed, by the class that their function declares. -/
inductive Returned : Kind → Value → Prop where
  | boolean (flag : Bool) : Returned .boolean (.boolean flag)
  | number (x : Double) : Returned .number (.ofDouble x)
  | string (content : String) : Returned .string (.string content)
  | array (items : List Value) : Returned .array (.array items)
  | object (entries : Entries) : Returned .object (.object entries)

/-- Values that functions build: null, flags, numbers, strings, and arrays of such. -/
inductive Computed : Value → Prop where
  | null : Computed .null
  | boolean (flag : Bool) : Computed (.boolean flag)
  | number (x : Double) : Computed (.ofDouble x)
  | string (content : String) : Computed (.string content)
  | array {items : List Value} (each : ∀ item ∈ items, Computed item) : Computed (.array items)

namespace Computed

theorem items {items : List Value} (computed : (Value.array items).Computed) :
    ∀ item ∈ items, item.Computed := by
  generalize same : Value.array items = value at computed
  cases computed with
  | array each =>
      cases same
      exact each
  | number x =>
      have kinds := kind_ofDouble x
      rw [← same] at kinds
      simp [kind] at kinds
  | _ => cases same

theorem not_object {entries : Entries} : ¬ (Value.object entries).Computed := by
  intro computed
  generalize same : Value.object entries = value at computed
  cases computed with
  | number x =>
      have kinds := kind_ofDouble x
      rw [← same] at kinds
      simp [kind] at kinds
  | _ => cases same

end Computed

/-- A property of values that passes on to their parts. -/
structure Hereditary (written : Value → Prop) : Prop where
  items : ∀ items, written (.array items) → ∀ item ∈ items, written item
  entries : ∀ entries : Entries, written (.object entries) → ∀ entry ∈ entries, written entry.2

theorem hereditary_true : Hereditary fun _ => True :=
  ⟨fun _ _ _ _ => trivial, fun _ _ _ _ => trivial⟩

/-! ## Negative zero -/

mutual

def hasNegativeZero : Value → Bool
  | .null => false
  | .boolean _ => false
  | .number held => held.isNegativeZero
  | .string _ => false
  | .array items => someHasNegativeZero items
  | .object entries => someEntryHasNegativeZero entries

def someHasNegativeZero : List Value → Bool
  | [] => false
  | item :: rest => item.hasNegativeZero || someHasNegativeZero rest

def someEntryHasNegativeZero : List (String × Value) → Bool
  | [] => false
  | (_, value) :: rest => value.hasNegativeZero || someEntryHasNegativeZero rest

end

theorem someHasNegativeZero_eq_any (items : List Value) :
    someHasNegativeZero items = items.any hasNegativeZero := by
  induction items with
  | nil => simp [someHasNegativeZero]
  | cons item rest ih => simp [someHasNegativeZero, ih]

theorem someEntryHasNegativeZero_eq_any (entries : Entries) :
    someEntryHasNegativeZero entries = entries.any fun entry => entry.2.hasNegativeZero := by
  induction entries with
  | nil => simp [someEntryHasNegativeZero]
  | cons entry rest ih => simp [someEntryHasNegativeZero, ih]

def Clean (value : Value) : Prop := value.hasNegativeZero = false

theorem clean_array_iff {items : List Value} :
    (Value.array items).Clean ↔ ∀ item ∈ items, item.Clean := by
  unfold Clean
  rw [hasNegativeZero, someHasNegativeZero_eq_any]
  simp

theorem clean_object_iff {entries : Entries} :
    (Value.object entries).Clean ↔ ∀ entry ∈ entries, entry.2.Clean := by
  unfold Clean
  rw [hasNegativeZero, someEntryHasNegativeZero_eq_any]
  simp

theorem hereditary_clean : Hereditary Clean :=
  ⟨fun _ => clean_array_iff.mp, fun _ => clean_object_iff.mp⟩

theorem clean_ofDouble (x : Double) : (ofDouble x).Clean := by
  unfold ofDouble
  split
  · rename_i number found
    have clean := Number.ofDouble?_clean found
    simpa [Clean, hasNegativeZero] using clean
  · simp [Clean, hasNegativeZero]

/-- No computed value holds negative zero. -/
theorem Computed.clean {value : Value} (computed : value.Computed) : value.Clean := by
  induction computed with
  | null => simp [Clean, hasNegativeZero]
  | boolean flag => simp [Clean, hasNegativeZero]
  | number x => exact clean_ofDouble x
  | string content => simp [Clean, hasNegativeZero]
  | array each ih => exact clean_array_iff.mpr ih

/-- A number other than negative zero is the number that it is converted to. -/
theorem toDouble?_ofDouble {value : Value} {x : Double} (clean : value.Clean)
    (number : value.toDouble? = some x) : (ofDouble x).toDouble? = some x := by
  cases value with
  | number held =>
      obtain rfl := Option.some.inj number
      have heldClean : held.isNegativeZero = false := by
        simpa [Clean, hasNegativeZero] using clean
      obtain ⟨result, found, same⟩ := Number.ofDouble?_toDouble heldClean
      unfold ofDouble
      rw [found]
      exact congrArg some same
  | _ => cases number

end Value

end MapStyle
