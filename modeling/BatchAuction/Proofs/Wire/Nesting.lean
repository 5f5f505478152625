import BatchAuction.Proofs.Wire.Agreement
import BatchAuction.Proofs.Wire.Alternative
import BatchAuction.Proofs.Wire.Location
import BatchAuction.Proofs.Wire.Members

/-!
# Values that nest too deep

A text is not read where too many containers are inside each other, while a value in memory
is. A member that no variant of a union wants is read nevertheless, so one that nests too
deep is refused in a text and makes no difference in memory.
-/

set_option autoImplicit false

namespace BatchAuction.Wire

open Json

/-- Null inside of the given number of lists. -/
def nested : Nat → Json
  | 0 => .null
  | depth + 1 => .list [nested depth]

theorem reals_nested (depth : Nat) : (nested depth).reals = [] := by
  induction depth with
  | zero => rfl
  | succ depth ih => rw [nested, reals, itemReals, ih]; rfl

theorem nested_fits (depth : Nat) : (nested depth).Fits depth := by
  induction depth with
  | zero => exact .null
  | succ depth ih => exact .list (List.forall_mem_singleton.mpr ih)

/-- A list that reaches beyond the greatest depth is not read. -/
theorem exists_readValue_nested {outer depth : Nat} (deep : maxDepth ≤ outer + depth) :
    ∃ error, readValue ((nested (depth + 1)).documentAt outer) = .error error := by
  induction depth generalizing outer with
  | zero =>
      have full : decide (maxDepth ≤ outer) = true := decide_eq_true deep
      rw [nested, documentAt, full]
      exact ⟨_, rfl⟩
  | succ depth ih =>
      obtain ⟨error, refused⟩ := ih (show maxDepth ≤ outer + 1 + depth by omega)
      rw [nested, documentAt, itemDocumentsAt, readValue, readItems, refused]
      cases decide (maxDepth ≤ outer) <;> exact ⟨_, rfl⟩

/-- A fee on the volume with a member that no fee has. -/
def feeWith (extra : Json) : Json :=
  .object [("extra", extra), ("factor", .natural 1), ("kind", .text "volume")]

theorem feeWith_fits {extra : Json} {depth : Nat} (fits : extra.Fits depth) :
    (feeWith extra).Fits (depth + 1) := by
  refine .object (by simp) ?_
  rw [List.forall_mem_cons, List.forall_mem_cons, List.forall_mem_singleton]
  exact ⟨fits, .integer (by decide) (by decide), .text "volume"⟩

theorem reals_feeWith {extra : Json} (plain : extra.reals = []) : (feeWith extra).reals = [] := by
  rw [feeWith, reals, memberReals, plain]
  rfl

/-- In memory the member makes no difference. -/
theorem decodeValue_feeWith {extra : Json} {depth : Nat} (fits : extra.Fits depth) :
    decodeValue feePolicy.decode (feeWith extra) = .ok (.volume (Binary64.ofInt 1)) := by
  have fee := (feeWith_fits fits).distinctKeys
  have same := feePolicy_stable (.refl .value) fee trivial fee.reordered_sorted
  rw [decodeValue_eq_ok_iff, ← same]
  have named : List.lookup Decoder.tagName
      [("extra", extra), ("factor", .natural 1), ("kind", .text "volume")] =
        some (.text "volume") := by simp [Decoder.tagName, lookup_cons_eq_ite]
  have others : Decoder.withoutTag
      [("extra", extra), ("factor", .natural 1), ("kind", .text "volume")] =
        [("extra", extra), ("factor", .natural 1)] := by
    simp [Decoder.withoutTag, Decoder.tagName]
  have factor : List.lookup "factor" [("extra", extra), ("factor", .natural 1)] =
      some (.natural 1) := by simp [lookup_cons_eq_ite]
  change (Decoder.union "FeePolicy" _).outcome? .value (.object _) = _
  rw [Decoder.outcome?_union_object _ _ fee.keys_nodup, named, others, Option.bind_some,
    Decoder.outcome?_tag]
  simp only [named?, List.find?, String.reduceEq, decide_false, decide_true, Option.map_some,
    Option.bind_some]
  rw [Fields.outcome?_decoder_object, volumeFields, Fields.ofMembers?_seq, Fields.required,
    Fields.ofMembers?_member _ _ _ _ (by simp), factor]
  rfl

/-- In a text the member is read, wherever the fee stands. -/
theorem exists_feePolicy_feeWith_nested {outer depth : Nat} (deep : maxDepth ≤ outer + 1 + depth) :
    ∃ error, feePolicy.decode .text ((feeWith (nested (depth + 1))).documentAt outer) =
      .error error := by
  obtain ⟨error, refused⟩ := exists_readValue_nested deep
  rw [feeWith, documentAt, memberDocumentsAt]
  cases decide (maxDepth ≤ outer) with
  | true => exact ⟨_, rfl⟩
  | false =>
      refine ⟨error.under (.member "extra"), ?_⟩
      change (Decoder.untag Decoder.tagName _ .text _ none (("extra", _) :: _) >>= _) = _
      rw [Decoder.untag, if_neg (by decide), refused]
      rfl

/-!
## Lists with such a value in front
-/

theorem exists_decodeValue_list_singleton {α : Type} {decoder : Decoder α} {item : Json}
    (accepted : ∃ found, decodeValue decoder item = .ok found) :
    ∃ found, decodeValue decoder.list (.list [item]) = .ok found :=
  exists_list_eq_ok_iff.mpr ⟨_, rfl, List.forall_mem_singleton.mpr accepted⟩

/-- What is wrong with the first item of a list is found before anything else in it. -/
theorem exists_list_of_refused {α : Type} {decoder : Decoder α} {item : Json} {items : List Json}
    {outer : Nat}
    (refused : ∃ error, decoder .text (item.documentAt (outer + 1)) = .error error) :
    ∃ error, decoder.list .text ((Json.list (item :: items)).documentAt outer) = .error error ∧
      ∀ index rest, error.path = .element index :: rest → index = 0 := by
  obtain ⟨error, refused⟩ := refused
  rw [documentAt, itemDocumentsAt]
  cases decide (maxDepth ≤ outer) with
  | true =>
      exact ⟨.here (.fault .tooDeep), rfl, fun _ _ same => absurd same.symm (List.cons_ne_nil _ _)⟩
  | false =>
      refine ⟨error.under (.element 0), ?_, fun index rest same => ?_⟩
      · change decoder.itemsFrom .text .closed 0 ([] ++ _ :: _) = _
        rw [itemsFrom_of_refused (List.forall_mem_nil _) refused]
        rfl
      · cases same
        rfl

/-- Fees with a member of so many lists inside each other. -/
def deepFees (depth : Nat) : Json := .list [feeWith (nested depth)]

theorem deepFees_fits (depth : Nat) : (deepFees depth).Fits (depth + 2) :=
  .list (List.forall_mem_singleton.mpr (feeWith_fits (nested_fits depth)))

theorem reals_deepFees (depth : Nat) : (deepFees depth).reals = [] := by
  rw [deepFees, reals, itemReals, reals_feeWith (reals_nested depth)]
  rfl

theorem exists_decodeValue_deepFees (depth : Nat) :
    ∃ found, decodeValue feePolicy.list.decode (deepFees depth) = .ok found :=
  exists_decodeValue_list_singleton ⟨_, decodeValue_feeWith (nested_fits depth)⟩

theorem exists_deepFees_of_refused {depth : Nat} (deep : maxDepth ≤ depth + 2) (outer : Nat) :
    ∃ error, feePolicy.list.decode .text ((deepFees (depth + 1)).documentAt outer) =
      .error error := by
  have reached : maxDepth ≤ outer + 1 + 1 + depth := by omega
  obtain ⟨error, refused, -⟩ := exists_list_of_refused (exists_feePolicy_feeWith_nested reached)
  exact ⟨error, refused⟩

end BatchAuction.Wire
