import BatchAuction.AddressMap
import BatchAuction.Proofs.Entries
import Mathlib.Data.List.Perm.Basic

/-!
# Tables keyed by address

What is found in a table after an insertion, and which tables are the same: those whose
entries are, in whatever order they were put in.
-/

set_option autoImplicit false

namespace BatchAuction.AddressMap

variable {α : Type}

private theorem find?_insertEntry (key other : Address) (value : α)
    (entries : List (Address × α)) :
    (insertEntry key value entries).find? (fun entry => entry.1 = other) =
      if other = key then some (key, value) else entries.find? fun entry => entry.1 = other := by
  induction entries with
  | nil =>
      by_cases same : other = key
      · simp [insertEntry, same]
      · simp [insertEntry, same, Ne.symm same]
  | cons head rest ih =>
      obtain ⟨first, held⟩ := head
      unfold insertEntry
      split
      · by_cases same : other = key
        · simp [same]
        · simp [same, Ne.symm same]
      · split
        · rename_i replaced
          by_cases same : other = key
          · simp [same]
          · have apart : ¬ first = other := fun equal => same (equal ▸ replaced.symm)
            simp [same, Ne.symm same, apart]
        · rename_i different
          by_cases found : first = other
          · have apart : ¬ other = key := fun equal => different (equal ▸ found.symm)
            simp [found, apart]
          · rw [List.find?_cons_of_neg (by simpa using found), ih]
            simp [found]

/-- An insertion changes what is found at one address. -/
theorem get?_insert (map : AddressMap α) (key other : Address) (value : α) :
    (map.insert key value).get? other = if other = key then some value else map.get? other := by
  unfold get? insert
  dsimp only
  rw [find?_insertEntry]
  split <;> rfl

@[simp] theorem get?_empty (key : Address) : (empty : AddressMap α).get? key = none := rfl

theorem nodup_keys (map : AddressMap α) : map.keys.Nodup :=
  List.pairwise_map.mpr <| map.ascending.imp fun less same => by
    rw [same] at less
    exact Nat.lt_irrefl _ less

theorem ascending_keys (map : AddressMap α) :
    map.keys.Pairwise fun earlier later => earlier.toNat < later.toNat :=
  List.pairwise_map.mpr map.ascending

theorem get?_eq_some_iff {map : AddressMap α} {key : Address} {value : α} :
    map.get? key = some value ↔ (key, value) ∈ map.entries :=
  Entries.find?_eq_some_iff map.nodup_keys

theorem contains_iff_mem_keys {map : AddressMap α} {key : Address} :
    map.contains key = true ↔ key ∈ map.keys := by
  rw [contains, Option.isSome_iff_exists, keys, List.mem_map]
  constructor
  · rintro ⟨value, found⟩
    exact ⟨(key, value), get?_eq_some_iff.mp found, rfl⟩
  · rintro ⟨entry, held, rfl⟩
    exact ⟨entry.2, get?_eq_some_iff.mpr held⟩

/-- What is found at a key is the value in its place. -/
theorem get?_of_getElem?_keys {map : AddressMap α} {place : Nat} {key : Address}
    (keyed : map.keys[place]? = some key) : map.get? key = map.values[place]? := by
  rw [keys, List.getElem?_map] at keyed
  obtain ⟨entry, inPlace, rfl⟩ := Option.map_eq_some_iff.mp keyed
  rw [values, List.getElem?_map, inPlace]
  exact get?_eq_some_iff.mpr (List.mem_of_getElem? inPlace)

/-!
## Entries in any order
-/

/-- Two tables with the same entries are one. -/
theorem eq_of_entries_perm {left right : AddressMap α}
    (order : left.entries.Perm right.entries) : left = right := by
  refine eq_of_entries_eq (order.eq_of_pairwise ?_ left.ascending right.ascending)
  intro entry other _ _ less greater
  exact absurd (Nat.lt_trans less greater) (Nat.lt_irrefl _)

theorem insertEntry_perm {key : Address} (value : α) {entries : List (Address × α)}
    (fresh : key ∉ entries.map (·.1)) :
    (insertEntry key value entries).Perm ((key, value) :: entries) := by
  induction entries with
  | nil => exact .refl _
  | cons head rest ih =>
      obtain ⟨other, held⟩ := head
      rw [List.map_cons, List.mem_cons, not_or] at fresh
      obtain ⟨different, restFresh⟩ := fresh
      unfold insertEntry
      split
      · exact .refl _
      · exact ((ih restFresh).cons (other, held)).trans (.swap ..)

/-- Puts entries into a table one after another. -/
def insertAll (map : AddressMap α) (entries : List (Address × α)) : AddressMap α :=
  entries.foldl (fun map entry => map.insert entry.1 entry.2) map

theorem entries_insertAll_perm {map : AddressMap α} {entries : List (Address × α)}
    (distinct : ((entries ++ map.entries).map (·.1)).Nodup) :
    (map.insertAll entries).entries.Perm (entries ++ map.entries) := by
  induction entries generalizing map with
  | nil => exact .refl _
  | cons head rest ih =>
      obtain ⟨fresh, _⟩ := List.nodup_cons.mp distinct
      have inserted : (map.insert head.1 head.2).entries.Perm (head :: map.entries) :=
        insertEntry_perm head.2 fun among => fresh <| by
          obtain ⟨entry, held, same⟩ := List.mem_map.mp among
          exact List.mem_map.mpr ⟨entry, List.mem_append_right _ held, same⟩
      have moved : (rest ++ (map.insert head.1 head.2).entries).Perm
          (head :: (rest ++ map.entries)) :=
        (inserted.append_left rest).trans List.perm_middle
      exact (ih ((moved.map _).nodup_iff.mpr distinct)).trans moved

theorem entries_ofList_perm {entries : List (Address × α)}
    (distinct : (entries.map (·.1)).Nodup) : (ofList entries).entries.Perm entries := by
  have held : (insertAll empty entries).entries.Perm (entries ++ []) :=
    entries_insertAll_perm (by simpa [empty])
  rw [List.append_nil] at held
  exact held

theorem keys_ofList_perm {entries : List (Address × α)} (distinct : (entries.map (·.1)).Nodup) :
    (ofList entries).keys.Perm (entries.map (·.1)) :=
  (entries_ofList_perm distinct).map _

/-- Entries of different addresses make the same table in every order. -/
theorem ofList_eq_of_perm {entries others : List (Address × α)}
    (distinct : (entries.map (·.1)).Nodup) (order : entries.Perm others) :
    ofList entries = ofList others := by
  have otherDistinct := (order.map _).nodup_iff.mp distinct
  exact eq_of_entries_perm <|
    (entries_ofList_perm distinct).trans (order.trans (entries_ofList_perm otherDistinct).symm)

/-- The entries of a table make the table again. -/
theorem ofList_entries (map : AddressMap α) : ofList map.entries = map :=
  eq_of_entries_perm (entries_ofList_perm map.nodup_keys)

end BatchAuction.AddressMap
