import BatchAuction.Proofs.AddressMap
import BatchAuction.Proofs.Wire.Outcome

/-!
# What tables make of objects

A table takes every key for an address and reads every value. Whether a second key of one
address is refused or replaces the first one, the order of the members has no part in
what becomes of an object whose keys are different addresses.
-/

set_option autoImplicit false

namespace BatchAuction.Wire

open Json

variable {α β : Type} {medium : Medium} {repetition : Repetition}
  {members others : List (String × Json)}

/-- The entry of a table that a member makes. -/
def entryOf? (decode : Decoder α) (medium : Medium) (member : String × Json) :
    Option (Address × α) :=
  (Codec.parseAddress member.1).toOption.bind fun address =>
    (decode.outcome? medium member.2).map (address, ·)

/-- A table accepts entries of different addresses; entries of one address only if it lets
the later one replace the earlier. -/
def Repetition.Accepts (repetition : Repetition) (addresses : List Address) : Prop :=
  repetition = .replaces ∨ addresses.Nodup

instance (repetition : Repetition) (addresses : List Address) :
    Decidable (repetition.Accepts addresses) :=
  inferInstanceAs (Decidable (_ ∨ _))

/-- One member makes an entry, which is put into the table unless it is refused there. -/
private theorem toOption_readTable_cons (decode : Decoder α) (table : AddressMap α)
    (member : String × Json) (rest : List (String × Document)) :
    (readTable repetition decode medium none table
        ((member.1, member.2.toDocument) :: rest)).toOption =
      (entryOf? decode medium member).bind fun entry =>
        if repetition = .refused && table.contains entry.1 then none
        else
          (readTable repetition decode medium none (table.insert entry.1 entry.2) rest).toOption := by
  rw [readTable]
  unfold entryOf? Decoder.outcome?
  rw [toOption_bind, toOption_mapError]
  cases Codec.parseAddress member.1 with
  | error cause => rfl
  | ok address =>
      rw [toOption_ok, Option.bind_some, toOption_bind, toOption_mapError]
      cases (decode medium member.2.toDocument).toOption with
      | none => rfl
      | some value =>
          simp only [Option.bind_some, Option.map_some]
          cases (repetition = .refused && table.contains address : Bool) <;> rfl

/-- Whether entries are accepted can be told one by one. -/
theorem accepts_cons_iff (repetition : Repetition) (table : AddressMap α) (entry : Address × α)
    (entries : List (Address × α)) :
    repetition.Accepts ((entry :: entries ++ table.entries).map (·.1)) ↔
      ¬ (repetition = .refused && table.contains entry.1) = true ∧
        repetition.Accepts
          ((entries ++ (table.insert entry.1 entry.2).entries).map (·.1)) := by
  cases repetition with
  | replaces => simp [Repetition.Accepts]
  | refused =>
      by_cases known : entry.1 ∈ table.keys
      · have contained := AddressMap.contains_iff_mem_keys.mpr known
        have repeated : ¬ ((entry :: entries ++ table.entries).map (·.1)).Nodup := by
          intro distinct
          obtain ⟨other, held, same⟩ := List.mem_map.mp known
          exact (List.nodup_cons.mp distinct).1 <|
            List.mem_map.mpr ⟨other, List.mem_append_right _ held, same⟩
        exact iff_of_false (fun accepts => accepts.elim nofun repeated) fun fresh =>
          fresh.1 (by simp [contained])
      · have fresh : ¬ table.contains entry.1 = true :=
          mt AddressMap.contains_iff_mem_keys.mp known
        have inserted := AddressMap.insertEntry_perm entry.2 known
        have moved := ((inserted.append_left entries).trans List.perm_middle).map (·.1)
        have same := moved.nodup_iff
        simp only [Repetition.Accepts, reduceCtorEq, false_or, fresh, Bool.and_false,
          Bool.false_eq_true, not_false_eq_true, true_and]
        exact same.symm

theorem toOption_readTable (decode : Decoder α) (table : AddressMap α)
    (members : List (String × Json)) :
    (readTable repetition decode medium none table (Members.held members).entries).toOption =
      (members.mapM (entryOf? decode medium)).bind fun entries =>
        if repetition.Accepts ((entries ++ table.entries).map (·.1)) then
          some (table.insertAll entries)
        else none := by
  unfold Members.held
  induction members generalizing table with
  | nil =>
      have accepted : repetition.Accepts (table.entries.map (·.1)) := .inr table.nodup_keys
      simp [readTable, accepted, AddressMap.insertAll]
  | cons head rest ih =>
      dsimp only at ih
      simp only [List.map_cons, toOption_readTable_cons, List.mapM_cons, ih]
      cases entryOf? decode medium head with
      | none => rfl
      | some entry =>
          cases rest.mapM (entryOf? decode medium) with
          | none => simp
          | some entries =>
              have told := accepts_cons_iff repetition table entry entries
              change (if (repetition = .refused && table.contains entry.1) = true then none else
                if repetition.Accepts _ then some _ else none) =
                  if repetition.Accepts ((entry :: entries ++ table.entries).map (·.1)) then some _
                  else none
              by_cases refused : (repetition = .refused && table.contains entry.1) = true
              · rw [if_pos refused, if_neg fun accepts => (told.mp accepts).1 refused]
              · rw [if_neg refused]
                exact if_congr (told.trans (and_iff_right refused)).symm rfl rfl

/-- A table reads the entries of all members and puts them in one after another. -/
theorem outcome?_table (codec : Codec α) (members : List (String × Json)) :
    (Codec.table repetition codec).decode.outcome? medium (.object members) =
      (members.mapM (entryOf? codec.decode medium)).bind fun entries =>
        if repetition.Accepts (entries.map (·.1)) then some (.ofList entries) else none := by
  have reads : (Codec.table repetition codec).decode.outcome? medium (.object members) =
      (readTable repetition codec.decode medium
        (tableTail (Members.of .closed (memberDocuments members))) .empty
        (Members.of .closed (memberDocuments members)).entries).toOption := rfl
  have none_eq : tableTail (Members.held members) = none := rfl
  rw [reads, Members.of_memberDocuments, none_eq, toOption_readTable]
  simp only [AddressMap.empty, List.append_nil]
  rfl

/-!
## The order of the members
-/

/-- No two keys of an object are texts of one address. -/
def AddressesApart : Json → Prop
  | .object members => members.Pairwise fun earlier later => ∀ address,
      Codec.parseAddress earlier.1 = .ok address → Codec.parseAddress later.1 ≠ .ok address
  | _ => True

theorem Repetition.accepts_iff_of_perm {addresses others : List Address}
    (order : addresses.Perm others) :
    repetition.Accepts addresses ↔ repetition.Accepts others :=
  or_congr_right order.nodup_iff

theorem fst_of_entryOf? {decode : Decoder α} {member : String × Json} {entry : Address × α}
    (made : entryOf? decode medium member = some entry) :
    Codec.parseAddress member.1 = .ok entry.1 := by
  unfold entryOf? at made
  cases parsed : Codec.parseAddress member.1 with
  | error cause => rw [parsed] at made; cases made
  | ok address =>
      rw [parsed] at made
      obtain ⟨value, _, rfl⟩ := Option.map_eq_some_iff.mp made
      rfl

/-- Keys that are apart make entries of different addresses. -/
theorem AddressesApart.nodup {decode : Decoder α} {entries : List (Address × α)}
    (apart : AddressesApart (.object members))
    (made : members.mapM (entryOf? decode medium) = some entries) :
    (entries.map (·.1)).Nodup := by
  rw [mapM_eq_some_iff] at made
  induction made with
  | nil => exact .nil
  | @cons member entry rest others entryMade othersMade ih =>
      obtain ⟨memberApart, restApart⟩ := List.pairwise_cons.mp apart
      refine List.nodup_cons.mpr ⟨fun among => ?_, ih restApart⟩
      obtain ⟨other, held, same⟩ := List.mem_map.mp among
      obtain ⟨later, laterHeld, laterMade⟩ := exists_of_mem_mapM (mapM_eq_some_iff.mpr othersMade) held
      exact memberApart later laterHeld entry.1 (fst_of_entryOf? entryMade)
        ((fst_of_entryOf? laterMade).trans (congrArg Except.ok same))

end BatchAuction.Wire
