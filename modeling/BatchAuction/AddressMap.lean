import BatchAuction.Bytes

/-!
# Tables keyed by address

Entries are held in ascending order of their addresses, one for each address, so
two tables with the same entries are the same.
-/

set_option autoImplicit false

namespace BatchAuction

/-- A table from addresses to values of another kind. -/
structure AddressMap (α : Type) where
  entries : List (Address × α)
  ascending : entries.Pairwise fun earlier later => earlier.1.toNat < later.1.toNat

namespace AddressMap

variable {α β : Type}

theorem eq_of_entries_eq {left right : AddressMap α} (same : left.entries = right.entries) :
    left = right := by
  cases left; cases right; cases same; rfl

instance [DecidableEq α] : DecidableEq (AddressMap α) := fun left right =>
  if same : left.entries = right.entries then isTrue (eq_of_entries_eq same)
  else isFalse fun equal => same (congrArg entries equal)

def empty : AddressMap α := ⟨[], .nil⟩

instance : Inhabited (AddressMap α) := ⟨empty⟩

/-- Puts an entry in its place among ascending ones; an entry of the same address
gives way. -/
def insertEntry (key : Address) (value : α) : List (Address × α) → List (Address × α)
  | [] => [(key, value)]
  | (other, held) :: rest =>
      if key.toNat < other.toNat then (key, value) :: (other, held) :: rest
      else if key = other then (key, value) :: rest
      else (other, held) :: insertEntry key value rest

theorem mem_insertEntry {key : Address} {value : α} {entries : List (Address × α)}
    {entry : Address × α} (member : entry ∈ insertEntry key value entries) :
    entry = (key, value) ∨ entry ∈ entries := by
  fun_induction insertEntry key value entries with
  | case1 => exact .inl (List.mem_singleton.mp member)
  | case2 other held rest before => exact List.mem_cons.mp member
  | case3 held rest =>
    rcases List.mem_cons.mp member with rfl | among
    · exact .inl rfl
    · exact .inr (List.mem_cons_of_mem _ among)
  | case4 other held rest before different found =>
    rcases List.mem_cons.mp member with rfl | among
    · exact .inr List.mem_cons_self
    · exact (found among).imp_right (List.mem_cons_of_mem _)

theorem ascending_insertEntry (key : Address) (value : α) {entries : List (Address × α)}
    (ascending : entries.Pairwise fun earlier later => earlier.1.toNat < later.1.toNat) :
    (insertEntry key value entries).Pairwise
      fun earlier later => earlier.1.toNat < later.1.toNat := by
  induction entries with
  | nil => simp [insertEntry]
  | cons head rest ih =>
      obtain ⟨other, held⟩ := head
      rw [List.pairwise_cons] at ascending
      obtain ⟨below, restAscending⟩ := ascending
      unfold insertEntry
      split
      · rename_i less
        rw [List.pairwise_cons, List.pairwise_cons]
        refine ⟨?_, below, restAscending⟩
        intro entry member
        rcases List.mem_cons.mp member with rfl | member
        · exact less
        · exact Nat.lt_trans less (below entry member)
      · rename_i notLess
        split
        · rename_i same
          subst same
          exact List.pairwise_cons.mpr ⟨below, restAscending⟩
        · rename_i different
          refine List.pairwise_cons.mpr ⟨?_, ih restAscending⟩
          intro entry member
          rcases mem_insertEntry member with rfl | member
          · have unequal : key.toNat ≠ other.toNat := fun same =>
              different (FixedBytes.toNat_inj.mp same)
            show other.toNat < key.toNat
            omega
          · exact below entry member

/-- The table with one entry more, or with the value at its address replaced. -/
def insert (map : AddressMap α) (key : Address) (value : α) : AddressMap α :=
  ⟨insertEntry key value map.entries, ascending_insertEntry key value map.ascending⟩

def get? (map : AddressMap α) (key : Address) : Option α :=
  (map.entries.find? fun entry => entry.1 = key).map (·.2)

/-- Whether an address has a value. -/
def contains (map : AddressMap α) (key : Address) : Bool := (map.get? key).isSome

/-- The addresses, in ascending order. -/
def keys (map : AddressMap α) : List Address := map.entries.map (·.1)

/-- The values, in the order of their addresses. -/
def values (map : AddressMap α) : List α := map.entries.map (·.2)

/-- The table of the same addresses with changed values. -/
def map (change : α → β) (map : AddressMap α) : AddressMap β :=
  ⟨map.entries.map fun entry => (entry.1, change entry.2), List.pairwise_map.mpr map.ascending⟩

/-- The table of some entries; of those with one address the last one counts. -/
def ofList (entries : List (Address × α)) : AddressMap α :=
  entries.foldl (fun map entry => map.insert entry.1 entry.2) empty

end AddressMap

end BatchAuction
