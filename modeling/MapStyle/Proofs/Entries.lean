import Mathlib.Data.List.Nodup
import MapStyle.Value.Basic

/-!
# Entries of objects

The entries of an object stand in the order of their keys, each key once.  Setting the value of a
key keeps that order, so entries that are given in any order are ordered as an object.  Among
distinct keys the value that is found for a key is the one that stands beside it.
-/

namespace MapStyle

namespace Entries

variable {entries : Entries} {key other : String} {value : Value}

def keys (entries : Entries) : List String := entries.map Prod.fst

/-- The entries stand in the order of their keys, each key once. -/
def Ordered (entries : Entries) : Prop := entries.keys.Pairwise (· < ·)

instance (entries : Entries) : Decidable entries.Ordered :=
  inferInstanceAs (Decidable (List.Pairwise _ _))

@[simp] theorem keys_nil : keys [] = [] := rfl

@[simp] theorem keys_cons (entry : String × Value) (rest : Entries) :
    keys (entry :: rest) = entry.1 :: keys rest := rfl

theorem ordered_cons {entry : String × Value} {rest : Entries} :
    Ordered (entry :: rest) ↔ (∀ key ∈ rest.keys, entry.1 < key) ∧ rest.Ordered :=
  List.pairwise_cons

/-- No key stands twice in an object. -/
theorem Ordered.nodup (ordered : entries.Ordered) : entries.keys.Nodup := by
  refine ordered.imp fun {first second} less same => ?_
  subst same
  exact String.lt_irrefl first less

/-! ## Setting keys -/

theorem mem_keys_insert (found : other ∈ (entries.insert key value).keys) :
    other = key ∨ other ∈ entries.keys := by
  induction entries with
  | nil => simpa [insert] using found
  | cons entry rest ih =>
      unfold insert at found
      split at found
      · simpa using found
      · split at found
        · rw [keys_cons, List.mem_cons] at found
          exact found.imp_right fun behind => List.mem_cons_of_mem _ behind
        · rw [keys_cons, List.mem_cons] at found
          rcases found with rfl | behind
          · exact .inr List.mem_cons_self
          · exact (ih behind).imp_right fun held => List.mem_cons_of_mem _ held

/-- Setting a key keeps the order of the keys. -/
theorem Ordered.insert (ordered : entries.Ordered) (key : String) (value : Value) :
    (entries.insert key value).Ordered := by
  induction entries with
  | nil => simp [Entries.insert, Ordered]
  | cons entry rest ih =>
      obtain ⟨first, least⟩ := ordered_cons.mp ordered
      unfold Entries.insert
      split
      · rename_i before
        refine ordered_cons.mpr ⟨fun other member => ?_, ordered⟩
        rcases List.mem_cons.mp member with rfl | behind
        · exact before
        · exact String.lt_trans before (first other behind)
      · rename_i notBefore
        split
        · rename_i same
          subst same
          exact ordered_cons.mpr ⟨first, least⟩
        · rename_i different
          refine ordered_cons.mpr ⟨fun other member => ?_, ih least⟩
          rcases mem_keys_insert member with rfl | behind
          · exact Std.lt_of_le_of_ne (String.not_lt.mp notBefore) fun same => different same.symm
          · exact first other behind

/-- Entries that are given in any order become an object. -/
theorem ordered_ofList (given : List (String × Value)) : (ofList given).Ordered := by
  have kept (held : Entries) (ordered : held.Ordered) :
      (given.foldl (fun held entry => insert entry.1 entry.2 held) held).Ordered := by
    induction given generalizing held with
    | nil => exact ordered
    | cons entry rest ih => exact ih _ (ordered.insert entry.1 entry.2)
  exact kept [] List.Pairwise.nil

/-- Setting a key brings no other entry in. -/
theorem mem_of_mem_insert {entry : String × Value} (found : entry ∈ entries.insert key value) :
    entry = (key, value) ∨ entry ∈ entries := by
  induction entries with
  | nil => simpa [insert] using found
  | cons first rest ih =>
      unfold insert at found
      split at found
      · simpa using found
      · split at found
        · exact (List.mem_cons.mp found).imp_right fun behind => List.mem_cons_of_mem _ behind
        · rcases List.mem_cons.mp found with rfl | behind
          · exact .inr List.mem_cons_self
          · exact (ih behind).imp_right fun held => List.mem_cons_of_mem _ held

theorem mem_of_mem_ofList {given : List (String × Value)} {entry : String × Value}
    (found : entry ∈ ofList given) : entry ∈ given := by
  have kept (held : Entries) :
      entry ∈ given.foldl (fun held entry => insert entry.1 entry.2 held) held →
        entry ∈ held ∨ entry ∈ given := by
    clear found
    induction given generalizing held with
    | nil => exact .inl
    | cons first rest ih =>
        intro found
        rcases ih _ found with before | behind
        · rcases mem_of_mem_insert before with rfl | earlier
          · exact .inr List.mem_cons_self
          · exact .inl earlier
        · exact .inr (List.mem_cons_of_mem _ behind)
  exact (kept [] found).resolve_left List.not_mem_nil

/-! ## Finding keys -/

/-- What is found stands among the entries. -/
theorem mem_of_find? (found : entries.find? key = some value) : (key, value) ∈ entries := by
  induction entries with
  | nil => cases found
  | cons entry rest ih =>
      obtain ⟨head, first⟩ := entry
      rw [find?, List.lookup_cons] at found
      cases same : key == head with
      | true =>
          obtain rfl := beq_iff_eq.mp same
          rw [same] at found
          cases found
          exact List.mem_cons_self
      | false =>
          rw [same] at found
          exact List.mem_cons_of_mem _ (ih found)

/-- Something is found for the keys of an object, and for no others. -/
theorem find?_isSome_iff : (entries.find? key).isSome = true ↔ key ∈ entries.keys := by
  induction entries with
  | nil => simp [find?]
  | cons entry rest ih =>
      obtain ⟨head, first⟩ := entry
      rw [find?, List.lookup_cons, keys_cons, List.mem_cons, ← ih]
      cases same : key == head with
      | true => simp [beq_iff_eq.mp same]
      | false => simp [beq_eq_false_iff_ne.mp same, find?]

/-- Of distinct keys, each is found with the value beside it. -/
theorem lookup_eq_some_iff_mem (distinct : (entries.map Prod.fst).Nodup) (key : String)
    (value : Value) : entries.lookup key = some value ↔ (key, value) ∈ entries := by
  induction entries with
  | nil => simp
  | cons entry rest ih =>
      obtain ⟨head, first⟩ := entry
      obtain ⟨fresh, distinct⟩ := List.nodup_cons.mp distinct
      rw [List.lookup_cons, List.mem_cons, Prod.mk.injEq]
      cases same : key == head with
      | true =>
          obtain rfl := beq_iff_eq.mp same
          have absent : (key, value) ∉ rest := fun member =>
            fresh (List.mem_map.mpr ⟨(key, value), member, rfl⟩)
          simp [absent, eq_comm]
      | false => simp [beq_eq_false_iff_ne.mp same, ih distinct]

/-- In an object each key is found with the value beside it. -/
theorem Ordered.find?_eq_some_iff_mem (ordered : entries.Ordered) :
    entries.find? key = some value ↔ (key, value) ∈ entries :=
  lookup_eq_some_iff_mem ordered.nodup key value

end Entries

end MapStyle
