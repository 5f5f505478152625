import Mathlib.Data.List.Nodup

/-!
# Entries with distinct keys

If no key is used twice, an entry is found by its key exactly if it is in the list, and
removing a key takes one entry away.
-/

set_option autoImplicit false

namespace BatchAuction.Entries

variable {κ α : Type} [DecidableEq κ] {entries : List (κ × α)}

theorem find?_eq_some_iff (distinct : (entries.map (·.1)).Nodup) {key : κ} {value : α} :
    (entries.find? fun held => held.1 = key).map (·.2) = some value ↔ (key, value) ∈ entries := by
  induction entries with
  | nil => simp
  | cons head rest ih =>
      obtain ⟨first, held⟩ := head
      obtain ⟨fresh, restDistinct⟩ := List.nodup_cons.mp distinct
      by_cases same : first = key
      · subst same
        simp only [List.find?_cons, decide_true, Option.map_some, Option.some.injEq,
          List.mem_cons, Prod.mk.injEq, true_and]
        constructor
        · exact fun equal => .inl equal.symm
        · rintro (equal | member)
          · exact equal.symm
          · exact absurd (List.mem_map.mpr ⟨_, member, rfl⟩) fresh
      · have others : ¬ key = first := fun equal => same equal.symm
        simpa [List.find?_cons, same, others] using ih restDistinct

theorem length_filter_ne (distinct : (entries.map (·.1)).Nodup) {entry : κ × α}
    (member : entry ∈ entries) :
    (entries.filter fun held => held.1 ≠ entry.1).length + 1 = entries.length := by
  induction entries with
  | nil => cases member
  | cons head rest ih =>
      obtain ⟨fresh, restDistinct⟩ := List.nodup_cons.mp distinct
      rcases List.mem_cons.mp member with rfl | member
      · have others : rest.filter (fun held => held.1 ≠ entry.1) = rest := by
          refine List.filter_eq_self.mpr fun held heldMember => decide_eq_true ?_
          intro same
          exact fresh (List.mem_map.mpr ⟨held, heldMember, same⟩)
        rw [List.filter_cons_of_neg (by simp), others, List.length_cons]
      · have apart : head.1 ≠ entry.1 := by
          intro same
          exact fresh (List.mem_map.mpr ⟨entry, member, same.symm⟩)
        rw [List.filter_cons_of_pos (by simp [apart]), List.length_cons, List.length_cons,
          ih restDistinct member]

end BatchAuction.Entries
