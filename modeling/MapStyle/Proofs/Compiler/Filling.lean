import MapStyle.Compiler.Expression
import MapStyle.Proofs.Zero

/-!
# Documents filled with known properties

When the properties of the feature are known beforehand, they can be written into the document:
a key that is looked up in the feature is then looked up in an object instead.  This is done
wherever an argument is compiled, and nowhere else: labels, stops, curves, names, and arrays and
objects that stand for themselves are left as they are written.
-/

namespace MapStyle

def Value.operator? (value : Value) : Option Operator :=
  value.headName?.bind Operator.ofName?

namespace Operator

/-- Does a position lie at an even distance behind the first one, with another argument next? -/
def alternates (first length position : Nat) : Bool :=
  first ≤ position && (position - first) % 2 == 0 && position + 1 < length

/-- Is the argument at a position read as it is written, so that it is never compiled? -/
def readsWritten (operator : Operator) (length position : Nat) : Bool :=
  match operator with
  | .letIn => alternates 1 length position
  | .var => position == 1
  | .select => alternates 2 length position
  | .step => alternates 3 length position
  | .interpolate => position == 1 || alternates 3 length position
  | _ => false

def looksUp : Operator → Bool
  | .get => true
  | .has => true
  | _ => false

/-- An expression that looks a key up in the feature is given the known properties instead. -/
def complete (operator : Operator) (known : Option Entries) (items : List Value) : List Value :=
  match known with
  | some entries =>
      if operator.looksUp && items.length == 2 then items ++ [.object entries] else items
  | none => items

end Operator

mutual

/-- The document with what is known of the properties of the feature written into it. -/
def Value.fill (known : Option Entries) : Value → Value
  | .array items =>
      match (Value.array items).operator? with
      | some operator =>
          .array (operator.complete known (Operator.fillItems known operator items.length 0 items))
      | none => .array items
  | value => value

def Operator.fillItems (known : Option Entries) (operator : Operator) (length : Nat) :
    Nat → List Value → List Value
  | _, [] => []
  | position, item :: rest =>
      (if operator.readsWritten length position then item else item.fill known) ::
        Operator.fillItems known operator length (position + 1) rest

end

namespace Operator

/-- Behind its input, an interpolation alternates as a step function does. -/
theorem readsWritten_interpolate (length : Nat) {position : Nat} (behind : 3 ≤ position) :
    interpolate.readsWritten length position = alternates 3 length position := by
  have other : (position == 1) = false := beq_eq_false_iff_ne.mpr (by omega)
  unfold readsWritten
  dsimp only
  rw [other, Bool.false_or]

theorem length_fillItems (known : Option Entries) (operator : Operator) (length position : Nat)
    (items : List Value) :
    (fillItems known operator length position items).length = items.length := by
  induction items generalizing position with
  | nil => simp [fillItems]
  | cons item rest ih => simp [fillItems, ih]

/-- Each item that is filled in comes of one that is written. -/
theorem mem_fillItems {known : Option Entries} {operator : Operator} {length position : Nat}
    {items : List Value} {value : Value}
    (member : value ∈ fillItems known operator length position items) :
    ∃ item ∈ items, value = item ∨ value = item.fill known := by
  induction items generalizing position with
  | nil => simp [fillItems] at member
  | cons item rest ih =>
      rw [fillItems] at member
      cases member with
      | head =>
          refine ⟨item, List.mem_cons_self, ?_⟩
          split
          · exact .inl rfl
          · exact .inr rfl
      | tail _ member =>
          obtain ⟨other, present, comes⟩ := ih member
          exact ⟨other, List.mem_cons_of_mem _ present, comes⟩

theorem fillItems_eq_self {operator : Operator} {length position : Nat} {items : List Value}
    (each : ∀ item ∈ items, item.fill none = item) :
    fillItems none operator length position items = items := by
  induction items generalizing position with
  | nil => simp [fillItems]
  | cons item rest ih =>
      have later : fillItems none operator length (position + 1) rest = rest :=
        ih fun other member => each other (List.mem_cons_of_mem _ member)
      simp [fillItems, later, each item List.mem_cons_self]

end Operator

namespace Value

theorem operator?_eq_some {value : Value} {operator : Operator}
    (found : value.operator? = some operator) :
    ∃ rest, value = .array (.string operator.name :: rest) := by
  unfold operator? at found
  obtain ⟨name, named, found⟩ := Option.bind_eq_some_iff.mp found
  unfold headName? at named
  split at named
  · rename_i head rest
    cases named
    rw [Operator.name_of_ofName? found]
    exact ⟨rest, rfl⟩
  · cases named

/-- A value that is no expression stands for itself and is not filled. -/
theorem fill_of_operator?_eq_none {value : Value} (none : value.operator? = none)
    (known : Option Entries) : value.fill known = value := by
  cases value with
  | array items => simp [fill, none]
  | _ => simp [fill]

/-- The operator of an expression says where it is filled. -/
theorem fill_of_operator? {items : List Value} {operator : Operator}
    (headed : (Value.array items).operator? = some operator) (known : Option Entries) :
    (Value.array items).fill known =
      .array (operator.complete known (operator.fillItems known items.length 0 items)) := by
  rw [fill, headed]

/-- Filling leaves the head of an array as it is. -/
theorem headName?_fill (known : Option Entries) (value : Value) :
    (value.fill known).headName? = value.headName? := by
  cases found : value.operator? with
  | none => rw [fill_of_operator?_eq_none found]
  | some operator =>
      obtain ⟨rest, rfl⟩ := operator?_eq_some found
      have head : (Value.string operator.name).fill known = .string operator.name := by
        simp [fill]
      rw [fill, found]
      dsimp only
      rw [Operator.fillItems, head, ite_self]
      unfold Operator.complete
      cases known with
      | none => rfl
      | some entries =>
          dsimp only
          split
          · rfl
          · rfl

theorem operator?_fill (known : Option Entries) (value : Value) :
    (value.fill known).operator? = value.operator? := by
  unfold operator?
  rw [headName?_fill]

theorem isExpression_fill (known : Option Entries) (value : Value) :
    (value.fill known).isExpression = value.isExpression :=
  congrArg Option.isSome (operator?_fill known value)

/-- Where nothing is known, nothing is written into a document. -/
theorem fill_none (value : Value) : value.fill none = value := by
  induction value with
  | array items ih =>
      rw [fill]
      split
      · rw [Operator.fillItems_eq_self ih]
        rfl
      · rfl
  | _ => simp [fill]

/-- A document without negative zero is filled without it. -/
theorem Clean.fill {value : Value} (clean : value.Clean) {known : Option Entries}
    (knownClean : ∀ entries, known = some entries → (Value.object entries).Clean) :
    (value.fill known).Clean := by
  induction value with
  | array items ih =>
      have itemsClean := clean_array_iff.mp clean
      rw [Value.fill]
      split
      · rename_i operator found
        have filled : ∀ item ∈ Operator.fillItems known operator items.length 0 items,
            item.Clean := by
          intro item member
          obtain ⟨written, present, rfl | rfl⟩ := Operator.mem_fillItems member
          · exact itemsClean item present
          · exact ih written present (itemsClean written present)
        apply clean_array_iff.mpr
        unfold Operator.complete
        cases known with
        | none => exact filled
        | some entries =>
            dsimp only
            split
            · intro item member
              rcases List.mem_append.mp member with member | member
              · exact filled item member
              · obtain rfl := List.mem_singleton.mp member
                exact knownClean entries rfl
            · exact filled
      · exact clean
  | _ => simpa [Value.fill] using clean

theorem SafeZeros.fill {value : Value} (safe : value.SafeZeros) {known : Option Entries}
    (knownClean : ∀ entries, known = some entries → (Value.object entries).Clean) :
    (value.fill known).SafeZeros :=
  safe.imp (fun clean => clean.fill knownClean) id

end Value

end MapStyle
