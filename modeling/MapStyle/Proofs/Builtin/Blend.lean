import MapStyle.Builtin.Ramp
import MapStyle.Proofs.Agreement
import MapStyle.Proofs.Builtin.Failure
import MapStyle.Proofs.Value

/-!
# Blended values

A blend goes through two values of one shape together.  Where both are numbers it has the number
between them, or null if the arithmetic leaves the range of finite numbers; where both are arrays
it has an array of the same length.  Two values of different shapes have no blend.
-/

namespace MapStyle

/-- Numbers, and arrays of such values; null may stand in the place of a number if allowed. -/
inductive Value.Numeric (gaps : Bool) : Value → Prop where
  | number (held : Number) : Numeric gaps (.number held)
  | null (allowed : gaps = true) : Numeric gaps .null
  | array {items : List Value} (each : ∀ item ∈ items, Numeric gaps item) :
      Numeric gaps (.array items)

/-- An array is numeric if what stands at each place is. -/
theorem Value.Numeric.of_places {gaps : Bool} {items : List Value}
    (each : ∀ (place : Nat) (within : place < items.length), items[place].Numeric gaps) :
    (Value.array items).Numeric gaps := by
  refine .array fun item member => ?_
  obtain ⟨place, within, rfl⟩ := List.getElem_of_mem member
  exact each place within

/-- Where null may stand, numbers still may. -/
theorem Value.Numeric.gaps {value : Value} (numeric : value.Numeric false) : value.Numeric true := by
  induction numeric with
  | number held => exact .number held
  | null allowed => cases allowed
  | array _ ih => exact .array ih

namespace Ramp

/-- The third value lies between the first two, place by place, moved by a factor. -/
inductive Blended (t : Double) : Value → Value → Value → Prop where
  | number {a b c : Number}
      (finite : Number.ofDouble? (between a.toDouble b.toDouble t) = some c) :
      Blended t (.number a) (.number b) (.number c)
  | null {a b : Number} (infinite : Number.ofDouble? (between a.toDouble b.toDouble t) = none) :
      Blended t (.number a) (.number b) .null
  | array {xs ys zs : List Value} (length : ys.length = xs.length)
      (sameLength : zs.length = xs.length)
      (each : ∀ (place : Nat) (x y z : Value), xs[place]? = some x → ys[place]? = some y →
        zs[place]? = some z → Blended t x y z) : Blended t (.array xs) (.array ys) (.array zs)

/-- Two numbers are blended to what their arithmetic gives. -/
theorem blended_numbers (t : Double) (a b : Number) :
    Blended t (.number a) (.number b) (.ofDouble (between a.toDouble b.toDouble t)) := by
  unfold Value.ofDouble
  split
  · rename_i finite
    exact .number finite
  · rename_i infinite
    exact .null infinite

/-- Two lists of one length are blended place by place. -/
theorem blended_items {position : Nat} {t : Double} {xs : List Value}
    (each : ∀ x ∈ xs, ∀ y z, blend position t x y = .ok z → Blended t x y z) {ys zs : List Value}
    (length : ys.length = xs.length) (yields : blendItems position t xs ys = .ok zs) :
    zs.length = xs.length ∧ ∀ (place : Nat) (x y z : Value), xs[place]? = some x →
      ys[place]? = some y → zs[place]? = some z → Blended t x y z := by
  induction xs generalizing ys zs with
  | nil =>
      cases yields
      exact ⟨rfl, by simp⟩
  | cons x xs ih =>
      obtain ⟨y, ys, rfl⟩ := List.exists_cons_of_length_eq_add_one length
      rw [blendItems] at yields
      obtain ⟨z, head, yields⟩ := bind_eq_ok.mp yields
      obtain ⟨others, tail, yields⟩ := bind_eq_ok.mp yields
      obtain rfl := pure_eq_ok.mp yields
      obtain ⟨sameLength, rest⟩ := ih (fun item member => each item (List.mem_cons_of_mem _ member))
        (Nat.succ.inj length) tail
      refine ⟨congrArg Nat.succ sameLength, fun place a b c first second third => ?_⟩
      cases place with
      | zero =>
          cases first
          cases second
          cases third
          exact each x List.mem_cons_self y z head
      | succ place => exact rest place a b c first second third

/-- What two values are blended to lies between them. -/
theorem blended_of_blend {position : Nat} {t : Double} {a b c : Value}
    (yields : blend position t a b = .ok c) : Blended t a b c := by
  induction a generalizing b c with
  | number held =>
      cases b with
      | number other =>
          obtain rfl := Except.ok.inj yields
          exact blended_numbers t held other
      | _ => cases yields
  | array items ih =>
      cases b with
      | array others =>
          rw [blend] at yields
          split at yields
          · rename_i length
            cases inner : blendItems position t items others with
            | error cause =>
                rw [inner] at yields
                cases yields
            | ok results =>
                rw [inner] at yields
                cases yields
                obtain ⟨sameLength, each⟩ := blended_items (fun x member y z =>
                  ih x member) length.symm inner
                exact .array length.symm sameLength each
          · cases yields
      | _ => cases yields
  | _ => cases yields

/-- Only numeric values are blended, and only to numbers and null. -/
theorem Blended.numeric {t : Double} {a b c : Value} (blended : Blended t a b c) :
    a.Numeric false ∧ b.Numeric false ∧ c.Numeric true := by
  induction blended with
  | number => exact ⟨.number _, .number _, .number _⟩
  | null => exact ⟨.number _, .number _, .null rfl⟩
  | @array xs ys zs length sameLength _ ih =>
      have inner (place : Nat) (within : place < xs.length) :=
        ih place xs[place] ys[place] zs[place] (List.getElem?_eq_getElem within)
          (List.getElem?_eq_getElem (by omega)) (List.getElem?_eq_getElem (by omega))
      exact ⟨.of_places fun place within => (inner place within).1,
        .of_places fun place within => (inner place (by omega)).2.1,
        .of_places fun place within => (inner place (by omega)).2.2⟩

/-!
## Shapes of blended values

Which values can be blended is a matter of their shapes alone, not of the factor: two numbers, or
two arrays of one length that can be blended place by place.  No array is cut down to the length of
the other, and a place where the shapes differ spoils the whole, however deep it lies.
-/

/-- Two numbers, or two arrays of one length with such values at each place. -/
inductive Blendable : Value → Value → Prop where
  | number (a b : Number) : Blendable (.number a) (.number b)
  | array {xs ys : List Value} (length : xs.length = ys.length)
      (each : ∀ (place : Nat) (x y : Value), xs[place]? = some x → ys[place]? = some y →
        Blendable x y) : Blendable (.array xs) (.array ys)

variable {position : Nat} {t : Double}

/-- Lists have a blend if what stands at each place of both has one. -/
theorem blendItems_isOk {xs ys : List Value}
    (each : ∀ (place : Nat) (x y : Value), xs[place]? = some x → ys[place]? = some y →
      ∃ z, blend position t x y = .ok z) : ∃ zs, blendItems position t xs ys = .ok zs := by
  induction xs generalizing ys with
  | nil =>
      unfold blendItems
      exact ⟨[], rfl⟩
  | cons x xs ih =>
      cases ys with
      | nil =>
          unfold blendItems
          exact ⟨[], rfl⟩
      | cons y ys =>
          obtain ⟨z, head⟩ := each 0 x y rfl rfl
          obtain ⟨zs, tail⟩ := @ih ys fun place => each (place + 1)
          refine ⟨z :: zs, ?_⟩
          rw [blendItems, head, bind_eq_ok]
          exact ⟨z, rfl, bind_eq_ok.mpr ⟨zs, tail, rfl⟩⟩

/-- Values that fit together have a blend. -/
theorem blend_of_blendable {a b : Value} (fits : Blendable a b) :
    ∃ c, blend position t a b = .ok c := by
  induction fits with
  | number a b =>
      rw [blend]
      exact ⟨_, rfl⟩
  | @array xs ys length _ ih =>
      obtain ⟨zs, blended⟩ := blendItems_isOk ih
      rw [blend, if_pos length, blended]
      exact ⟨.array zs, rfl⟩

/-- What lies between two values shows that they fit together. -/
theorem blendable_of_blended {a b c : Value} (blended : Blended t a b c) : Blendable a b := by
  induction blended with
  | number => exact .number _ _
  | null => exact .number _ _
  | @array xs ys zs length sameLength _ ih =>
      refine .array length.symm fun place x y first second => ?_
      obtain ⟨within, _⟩ := List.getElem?_eq_some_iff.mp first
      exact ih place x y _ first second (List.getElem?_eq_getElem (sameLength ▸ within))

end Ramp

/--
A blend keeps the shape of its values.  If these fit together there is a blend for every factor,
an array of the same length wherever both are arrays, with the number between them wherever both
are numbers, or null if that is not finite.  If they do not, the failure names the position.
-/
theorem blends_keep_shape (position : Nat) (t : Double) (a b : Value) :
    (Ramp.Blendable a b ∧ ∃ c, Ramp.blend position t a b = .ok c ∧ Ramp.Blended t a b c) ∨
    (¬Ramp.Blendable a b ∧ ∃ found : Kind, Ramp.blend position t a b =
      .error (.invalidArgument Builtin.interpolate.name position "a number or array of numbers"
        found.name)) := by
  cases outcome : Ramp.blend position t a b with
  | ok c =>
      have blended := Ramp.blended_of_blend outcome
      exact .inl ⟨Ramp.blendable_of_blended blended, c, rfl, blended⟩
  | error cause =>
      refine .inr ⟨fun fits => ?_, ?_⟩
      · obtain ⟨c, succeeds⟩ := Ramp.blend_of_blendable fits
        rw [outcome] at succeeds
        cases succeeds
      · have confined : Confined (fun cause => ∃ found : Kind, cause = .invalidArgument
            "interpolate" position "a number or array of numbers" found.name)
            (Ramp.blend position t a b) :=
          Ramp.blend_confined (fun found => ⟨found, rfl⟩) t a b
        obtain ⟨found, rfl⟩ := confined cause outcome
        exact ⟨found, rfl⟩

end MapStyle
