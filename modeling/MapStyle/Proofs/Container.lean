import Mathlib.Data.List.Forall2
import Mathlib.Data.List.Perm.Subperm
import MapStyle.Proofs.Entries
import MapStyle.Proofs.Equality
import MapStyle.Proofs.Value
import MapStyle.Value.Text

/-!
# Equality of containers

Every value equals itself, and equality does not depend on which value comes first.  Equal values
are of one class wherever one looks: arrays have one length, and objects have the same keys.

The entries of one object are looked up in the other, and not the other way round.  That is enough
as long as both have equally many, each key once: distinct keys that are all found among as many
distinct keys leave none of these over.
-/

namespace MapStyle

namespace Number

/-- Which number is compared with which other one does not matter to binary64. -/
theorem eq_toDouble_comm (a b : Number) :
    Double.eq a.toDouble b.toDouble = Double.eq b.toDouble a.toDouble := by
  obtain ⟨x, first⟩ := a.toDouble_eq_finite
  obtain ⟨y, second⟩ := b.toDouble_eq_finite
  rw [first, second, Double.eq_finite, Double.eq_finite, decide_eq_decide]
  exact eq_comm

theorem Confused.symm {a b : Number} (confused : a.Confused b) : b.Confused a := by
  refine ⟨⟨Ne.symm confused.different, ?_⟩, confused.unsigned.symm⟩
  rw [eq_toDouble_comm]
  exact confused.nearest

theorem equal_self (a : Number) : equal a a = true := (equal_iff a a).mpr (.inl rfl)

theorem equal_comm (a b : Number) : equal a b = equal b a := by
  have turns {a b : Number} (same : equal a b = true) : equal b a = true := by
    rcases (equal_iff a b).mp same with denoted | confused
    · exact (equal_iff b a).mpr (.inl denoted.symm)
    · exact (equal_iff b a).mpr (.inr confused.symm)
  exact Bool.eq_iff_iff.mpr ⟨turns, turns⟩

end Number

namespace Value

/-! ## Distinct keys -/

/-- In each object inside the value every key stands once. -/
inductive Distinct : Value → Prop where
  | leaf {value : Value} (plain : value.kind ≠ .array ∧ value.kind ≠ .object) : Distinct value
  | array {items : List Value} (each : ∀ item ∈ items, Distinct item) : Distinct (.array items)
  | object {entries : Entries} (keys : entries.keys.Nodup)
      (each : ∀ entry ∈ entries, Distinct entry.2) : Distinct (.object entries)

namespace Distinct

theorem items {items : List Value} (distinct : Distinct (.array items)) :
    ∀ item ∈ items, Distinct item := by
  cases distinct with
  | leaf plain => exact absurd rfl plain.1
  | array each => exact each

theorem keys {entries : Entries} (distinct : Distinct (.object entries)) :
    entries.keys.Nodup := by
  cases distinct with
  | leaf plain => exact absurd rfl plain.2
  | object keys _ => exact keys

theorem entries {entries : Entries} (distinct : Distinct (.object entries)) :
    ∀ entry ∈ entries, Distinct entry.2 := by
  cases distinct with
  | leaf plain => exact absurd rfl plain.2
  | object _ each => exact each

theorem ofDouble (x : Double) : Distinct (Value.ofDouble x) := by
  rcases kind_ofDouble x with number | null
  · exact .leaf (by simp [number])
  · exact .leaf (by simp [null, kind])

/-- Entries that are given in any order, with any keys, become an object of distinct keys. -/
theorem ofList {given : List (String × Value)} (each : ∀ entry ∈ given, Distinct entry.2) :
    Distinct (.object (Entries.ofList given)) :=
  .object (Entries.ordered_ofList given).nodup fun entry member =>
    each entry (Entries.mem_of_mem_ofList member)

end Distinct

end Value

namespace Reader

/-- What the three readers take off a text with so much fuel has distinct keys throughout. -/
structure ReadsDistinct (fuel : Nat) : Prop where
  value : ∀ {text tail : List Char} {value : Value},
    takeValue fuel text = some (value, tail) → value.Distinct
  items : ∀ {text tail : List Char} {items : List Value},
    takeItems fuel text = some (items, tail) → ∀ item ∈ items, item.Distinct
  entries : ∀ {text tail : List Char} {entries : List (String × Value)},
    takeEntries fuel text = some (entries, tail) → ∀ entry ∈ entries, entry.2.Distinct

theorem readsDistinct (fuel : Nat) : ReadsDistinct fuel := by
  induction fuel with
  | zero =>
      constructor
      · intro text tail value impossible
        cases impossible
      · intro text tail items impossible
        cases impossible
      · intro text tail entries impossible
        cases impossible
  | succ fuel ih =>
      constructor
      · intro text tail value found
        unfold takeValue at found
        split at found
        · obtain ⟨_, _, same⟩ := Option.map_eq_some_iff.mp found
          cases same
          exact .leaf (by simp [Value.kind])
        · obtain ⟨_, _, same⟩ := Option.map_eq_some_iff.mp found
          cases same
          exact .leaf (by simp [Value.kind])
        · obtain ⟨_, _, same⟩ := Option.map_eq_some_iff.mp found
          cases same
          exact .leaf (by simp [Value.kind])
        · obtain ⟨_, _, same⟩ := Option.map_eq_some_iff.mp found
          cases same
          exact .leaf (by simp [Value.kind])
        · split at found
          · cases found
            exact .array (List.forall_mem_nil _)
          · obtain ⟨_, inner, same⟩ := Option.map_eq_some_iff.mp found
            cases same
            exact .array (ih.items inner)
        · split at found
          · cases found
            exact .object List.nodup_nil (List.forall_mem_nil _)
          · obtain ⟨_, inner, same⟩ := Option.map_eq_some_iff.mp found
            cases same
            exact .ofList (ih.entries inner)
        · obtain ⟨_, _, same⟩ := Option.map_eq_some_iff.mp found
          cases same
          exact .leaf (by simp [Value.kind])
      · intro text tail items found
        unfold takeItems at found
        split at found
        · cases found
        · rename_i item behind first
          split at found
          · cases found
            exact List.forall_mem_singleton.mpr (ih.value first)
          · obtain ⟨_, rest, same⟩ := Option.map_eq_some_iff.mp found
            cases same
            exact List.forall_mem_cons.mpr ⟨ih.value first, ih.items rest⟩
          · cases found
      · intro text tail entries found
        unfold takeEntries at found
        split at found
        · split at found
          · cases found
          · split at found
            · split at found
              · cases found
              · rename_i first
                split at found
                · cases found
                  exact List.forall_mem_singleton.mpr (ih.value first)
                · obtain ⟨_, rest, same⟩ := Option.map_eq_some_iff.mp found
                  cases same
                  exact List.forall_mem_cons.mpr ⟨ih.value first, ih.entries rest⟩
                · cases found
            · cases found
        · cases found

end Reader

/-- Whatever a text spells, each key stands once in every object of it. -/
theorem Value.distinct_of_ofText? {text : String} {value : Value}
    (read : ofText? text = some value) : value.Distinct := by
  unfold ofText? at read
  dsimp only at read
  split at read
  · rename_i found
    split at read
    · cases read
      exact (Reader.readsDistinct _).value found
    · cases read
  · cases read

namespace Value

/-! ## Items and entries -/

/-- Arrays are equal when they have one length and their items are equal, place by place. -/
theorem equal_array_iff {xs ys : List Value} :
    equal (.array xs) (.array ys) = true ↔ List.Forall₂ (fun x y => equal x y = true) xs ys := by
  rw [equal, Bool.and_eq_true, beq_iff_eq]
  induction xs generalizing ys with
  | nil => cases ys <;> simp [equalItems]
  | cons x xs ih =>
      cases ys with
      | nil => simp
      | cons y ys =>
          rw [List.forall₂_cons, ← ih, equalItems, Bool.and_eq_true, List.length_cons,
            List.length_cons, Nat.succ_inj]
          exact and_left_comm

theorem coversEntries_iff {xs ys : Entries} :
    coversEntries xs ys = true ↔
      ∀ entry ∈ xs, ∃ y, ys.find? entry.1 = some y ∧ equal entry.2 y = true := by
  induction xs with
  | nil => simp [coversEntries]
  | cons entry xs ih => simp [coversEntries, ih, Option.any_eq_true]

/-- Objects are equal when they have equally many entries, and each one is found in the other. -/
theorem equal_object_iff {xs ys : Entries} :
    equal (.object xs) (.object ys) = true ↔ xs.length = ys.length ∧
      ∀ entry ∈ xs, ∃ y, ys.find? entry.1 = some y ∧ equal entry.2 y = true := by
  rw [equal, Bool.and_eq_true, beq_iff_eq, coversEntries_iff]

/-- Values of different classes are never equal. -/
theorem kind_eq_of_equal {a b : Value} (same : equal a b = true) : a.kind = b.kind := by
  unfold equal at same
  split at same
  · rfl
  · rfl
  · rfl
  · rfl
  · rfl
  · rfl
  · cases same

/-- As many distinct keys, all of which are found in the other object, are its keys. -/
theorem keys_perm_of_equal {xs ys : Entries} (distinct : xs.keys.Nodup)
    (same : equal (.object xs) (.object ys) = true) : xs.keys.Perm ys.keys := by
  obtain ⟨length, found⟩ := equal_object_iff.mp same
  have subset : xs.keys ⊆ ys.keys := by
    intro key member
    obtain ⟨entry, present, rfl⟩ := List.mem_map.mp member
    obtain ⟨y, held, _⟩ := found entry present
    exact List.mem_map.mpr ⟨_, Entries.mem_of_find? held, rfl⟩
  apply (distinct.subperm subset).perm_of_length_le
  simp [Entries.keys, length]

/-! ## Both sides -/

/-- Every value equals itself. -/
theorem equal_self {a : Value} (distinct : a.Distinct) : equal a a = true := by
  induction a with
  | null => rw [equal]
  | boolean flag => rw [equal, beq_self_eq_true]
  | number held => rw [equal, held.equal_self]
  | string content => rw [equal, beq_self_eq_true]
  | array items ih =>
      rw [equal_array_iff, List.forall₂_same]
      exact fun item member => ih item member (distinct.items item member)
  | object entries ih =>
      refine equal_object_iff.mpr ⟨rfl, fun entry member => ⟨entry.2, ?_, ?_⟩⟩
      · exact (Entries.lookup_eq_some_iff_mem distinct.keys _ _).mpr member
      · exact ih entry member (distinct.entries entry member)

/-- If the entries of one object are found in the other, so are those of the other in the one. -/
theorem equal_object_turn {xs ys : Entries} (distinct : xs.keys.Nodup)
    (otherDistinct : ys.keys.Nodup)
    (each : ∀ entry ∈ xs, ∀ other ∈ ys, equal entry.2 other.2 = true →
      equal other.2 entry.2 = true)
    (same : equal (.object xs) (.object ys) = true) :
    equal (.object ys) (.object xs) = true := by
  obtain ⟨length, found⟩ := equal_object_iff.mp same
  refine equal_object_iff.mpr ⟨length.symm, fun other present => ?_⟩
  have key : other.1 ∈ xs.keys :=
    (keys_perm_of_equal distinct same).mem_iff.mpr (List.mem_map_of_mem present)
  obtain ⟨entry, member, named⟩ := List.mem_map.mp key
  obtain ⟨y, held, values⟩ := found entry member
  have beside : ys.find? other.1 = some other.2 :=
    (Entries.lookup_eq_some_iff_mem otherDistinct _ _).mpr present
  rw [named, beside] at held
  obtain rfl := Option.some.inj held
  refine ⟨entry.2, ?_, each entry member other present values⟩
  rw [← named]
  exact (Entries.lookup_eq_some_iff_mem distinct _ _).mpr member

theorem equal_turn {a b : Value} (distinct : a.Distinct) (otherDistinct : b.Distinct)
    (same : equal a b = true) : equal b a = true := by
  induction a generalizing b with
  | null =>
      cases b with
      | null => exact same
      | _ => cases kind_eq_of_equal same
  | boolean flag =>
      cases b with
      | boolean other => rwa [equal, BEq.comm, ← equal]
      | _ => cases kind_eq_of_equal same
  | number held =>
      cases b with
      | number other => rwa [equal, Number.equal_comm, ← equal]
      | _ => cases kind_eq_of_equal same
  | string content =>
      cases b with
      | string other => rwa [equal, BEq.comm, ← equal]
      | _ => cases kind_eq_of_equal same
  | array items ih =>
      cases b with
      | array others =>
          have places := equal_array_iff.mp same
          refine equal_array_iff.mpr (List.forall₂_iff_get.mpr ⟨places.length_eq.symm, ?_⟩)
          intro place within within'
          have first := List.getElem_mem within'
          have second := List.getElem_mem within
          exact ih _ first (distinct.items _ first) (otherDistinct.items _ second)
            (places.get within' within)
      | _ => cases kind_eq_of_equal same
  | object entries ih =>
      cases b with
      | object others =>
          refine equal_object_turn distinct.keys otherDistinct.keys ?_ same
          intro entry member other present
          exact ih entry member (distinct.entries entry member) (otherDistinct.entries other present)
      | _ => cases kind_eq_of_equal same

/-- Equality does not depend on which value comes first. -/
theorem equal_comm {a b : Value} (distinct : a.Distinct) (otherDistinct : b.Distinct) :
    equal a b = equal b a :=
  Bool.eq_iff_iff.mpr ⟨equal_turn distinct otherDistinct, equal_turn otherDistinct distinct⟩

/-! ## Shapes -/

/--
Two values of one class at every position: arrays of one length with alike items at each place,
and objects with the same keys and alike values under each of them.
-/
inductive Alike : Value → Value → Prop where
  | leaf {a b : Value} (kinds : a.kind = b.kind) (plain : a.kind ≠ .array ∧ a.kind ≠ .object) :
      Alike a b
  | array {xs ys : List Value} (length : xs.length = ys.length)
      (each : ∀ (place : Nat) (x y : Value), xs[place]? = some x → ys[place]? = some y →
        Alike x y) : Alike (.array xs) (.array ys)
  | object {xs ys : Entries} (keys : ∀ key, (xs.find? key).isSome = (ys.find? key).isSome)
      (each : ∀ (key : String) (x y : Value), xs.find? key = some x → ys.find? key = some y →
        Alike x y) : Alike (.object xs) (.object ys)

/-- Equal values are alike. -/
theorem alike_of_equal {a b : Value} (distinct : a.Distinct) (otherDistinct : b.Distinct)
    (same : equal a b = true) : a.Alike b := by
  induction a generalizing b with
  | array items ih =>
      cases b with
      | array others =>
          have places := equal_array_iff.mp same
          refine .array places.length_eq fun place x y first second => ?_
          have member := List.mem_of_getElem? first
          have present := List.mem_of_getElem? second
          obtain ⟨within, rfl⟩ := List.getElem?_eq_some_iff.mp first
          obtain ⟨within', rfl⟩ := List.getElem?_eq_some_iff.mp second
          exact ih _ member (distinct.items _ member) (otherDistinct.items _ present)
            (places.get within within')
      | _ => cases kind_eq_of_equal same
  | object entries ih =>
      cases b with
      | object others =>
          have perm := keys_perm_of_equal distinct.keys same
          refine .object (fun key => ?_) fun key x y first second => ?_
          · rw [Bool.eq_iff_iff, Entries.find?_isSome_iff, Entries.find?_isSome_iff]
            exact perm.mem_iff
          · have member := Entries.mem_of_find? first
            have present := Entries.mem_of_find? second
            obtain ⟨found, held, values⟩ := (equal_object_iff.mp same).2 _ member
            obtain rfl := Option.some.inj (held.symm.trans second)
            exact ih _ member (distinct.entries _ member) (otherDistinct.entries _ present) values
      | _ => cases kind_eq_of_equal same
  | _ => exact .leaf (kind_eq_of_equal same) (by simp [kind])

/-! ## Entries place by place -/

/-- Do two objects list the same keys at the same places, with equal values? -/
def equalEntries : Entries → Entries → Bool
  | [], [] => true
  | (key, x) :: xs, (other, y) :: ys => key == other && equal x y && equalEntries xs ys
  | _, _ => false

theorem equalEntries_iff {xs ys : Entries} :
    equalEntries xs ys = true ↔
      List.Forall₂ (fun x y => x.1 = y.1 ∧ equal x.2 y.2 = true) xs ys := by
  induction xs generalizing ys with
  | nil => cases ys <;> simp [equalEntries]
  | cons x xs ih => cases ys <;> simp [equalEntries, ih, and_assoc]

/-- In the order of their keys objects can be compared place by place: nothing is looked up. -/
theorem equalEntries_eq_covers {xs ys : Entries} (ordered : xs.Ordered) (ordered' : ys.Ordered) :
    equalEntries xs ys = equal (.object xs) (.object ys) := by
  rw [Bool.eq_iff_iff]
  constructor
  · intro same
    have places := equalEntries_iff.mp same
    refine equal_object_iff.mpr ⟨places.length_eq, fun entry member => ?_⟩
    obtain ⟨place, within, rfl⟩ := List.getElem_of_mem member
    have within' : place < ys.length := places.length_eq ▸ within
    obtain ⟨named, values⟩ := places.get within within'
    refine ⟨ys[place].2, ?_, values⟩
    rw [show xs[place].1 = ys[place].1 from named]
    exact ordered'.find?_eq_some_iff_mem.mpr (List.getElem_mem within')
  · intro same
    obtain ⟨length, found⟩ := equal_object_iff.mp same
    have keys : xs.keys = ys.keys := by
      refine (keys_perm_of_equal ordered.nodup same).eq_of_pairwise ?_ ordered ordered'
      intro first second _ _ before after
      exact absurd (String.lt_trans before after) (String.lt_irrefl first)
    refine equalEntries_iff.mpr (List.forall₂_iff_get.mpr ⟨length, fun place within within' => ?_⟩)
    have key : xs[place].1 = ys[place].1 := by
      have same := List.getElem_of_eq keys (by simpa [Entries.keys] using within)
      simpa [Entries.keys] using same
    have beside : ys.find? ys[place].1 = some ys[place].2 :=
      ordered'.find?_eq_some_iff_mem.mpr (List.getElem_mem within')
    obtain ⟨y, held, values⟩ := found xs[place] (List.getElem_mem within)
    rw [key, beside] at held
    obtain rfl := Option.some.inj held
    exact ⟨key, values⟩

end Value

/--
Equality of values is two-sided.  Of values in whose objects each key stands once, every one equals
itself, two are equal whichever of them comes first, and equal ones are of one class at every
position, with arrays of one length and objects of the same keys.  And as long as the entries of two
objects stand in the order of their keys, looking one's entries up in the other comes to comparing
them place by place.
-/
theorem equality_is_two_sided :
    (∀ a : Value, a.Distinct → a.equal a = true) ∧
    (∀ a b : Value, a.Distinct → b.Distinct → a.equal b = b.equal a) ∧
    (∀ a b : Value, a.Distinct → b.Distinct → a.equal b = true → a.Alike b) ∧
    ∀ xs ys : Entries, xs.Ordered → ys.Ordered →
      Value.equal (.object xs) (.object ys) = Value.equalEntries xs ys :=
  ⟨fun _ => Value.equal_self, fun _ _ => Value.equal_comm, fun _ _ => Value.alike_of_equal,
    fun _ _ ordered ordered' => (Value.equalEntries_eq_covers ordered ordered').symm⟩

def Entries.written : Entries :=
  .ofList [("name", .string "Ulm"), ("list", .array [.ofNat 1])]

def Entries.rewritten : Entries :=
  .ofList [("list", .array ((Double.ofInt 1).finite?.toList.map fun x => .number (.double x))),
    ("name", .string "Ulm")]

theorem Entries.distinct_written : (Value.object Entries.written).Distinct := by
  refine .ofList fun entry member => ?_
  simp only [List.mem_cons, List.not_mem_nil, or_false] at member
  rcases member with rfl | rfl
  · exact .leaf (by simp [Value.kind])
  · refine .array fun item member => ?_
    rw [List.mem_singleton.mp member]
    exact .ofDouble _

theorem Entries.distinct_rewritten : (Value.object Entries.rewritten).Distinct := by
  refine .ofList fun entry member => ?_
  simp only [List.mem_cons, List.not_mem_nil, or_false] at member
  rcases member with rfl | rfl
  · refine .array fun item member => ?_
    obtain ⟨x, _, rfl⟩ := List.mem_map.mp member
    exact .leaf (by simp [Value.kind])
  · exact .leaf (by simp [Value.kind])

/-- Two spellings of one object are equal on both sides. -/
theorem equality_is_two_sided_case :
    Value.equal (.object Entries.written) (.object Entries.rewritten) = true ∧
      Value.equal (.object Entries.rewritten) (.object Entries.written) = true ∧
      Value.Alike (.object Entries.written) (.object Entries.rewritten) := by
  obtain ⟨_, turned, alike, placed⟩ := equality_is_two_sided
  have places : Value.equalEntries Entries.written Entries.rewritten = true := by decide +kernel
  have same : Value.equal (.object Entries.written) (.object Entries.rewritten) = true :=
    (placed _ _ (Entries.ordered_ofList _) (Entries.ordered_ofList _)).trans places
  exact ⟨same, (turned _ _ Entries.distinct_written Entries.distinct_rewritten).symm.trans same,
    alike _ _ Entries.distinct_written Entries.distinct_rewritten same⟩

end MapStyle
