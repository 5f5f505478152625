import BatchAuction.Json.Value
import Mathlib.Data.List.Nodup

/-!
# Sorted members

Sorted members ascend by key, so no key is repeated among them, and a key leads to the last
member that was written with it. This holds of all members, those with repeated keys too.
-/

set_option autoImplicit false

namespace BatchAuction.Json

variable {members : List (String × Json)} {value : Json}

/-!
## Values that are the same sorted
-/

theorem sorted_eq_text_iff {name : String} : value.sorted = .text name ↔ value = .text name := by
  cases value <;> simp [sorted]

theorem sorted_eq_natural_iff {place : Nat} :
    value.sorted = .natural place ↔ value = .natural place := by
  cases value <;> simp [sorted, natural]

theorem sorted_eq_null_iff : value.sorted = .null ↔ value = .null := by
  cases value <;> simp [sorted]

/-!
## Looking members up
-/

theorem lookup_cons_eq_ite {β : Type} (key other : String) (value : β)
    (members : List (String × β)) :
    ((key, value) :: members).lookup other =
      if other = key then some value else members.lookup other := by
  rw [List.lookup_cons]
  by_cases same : other = key
  · simp [same]
  · rw [beq_eq_false_iff_ne.mpr same, if_neg same]

/-- An insertion changes what one key leads to. -/
theorem lookup_insertMember (key other : String) (value : Json)
    (members : List (String × Json)) :
    (insertMember key value members).lookup other =
      if other = key then some value else members.lookup other := by
  induction members with
  | nil => exact lookup_cons_eq_ite ..
  | cons head rest ih =>
      obtain ⟨first, held⟩ := head
      unfold insertMember
      split
      · exact lookup_cons_eq_ite ..
      · split
        · rename_i replaced
          subst replaced
          rw [lookup_cons_eq_ite, lookup_cons_eq_ite]
          split <;> rfl
        · rename_i different
          rw [lookup_cons_eq_ite, lookup_cons_eq_ite, ih]
          by_cases found : other = first
          · have apart : ¬ other = key := fun equal => different (equal.symm.trans found)
            rw [if_pos found, if_neg apart, if_pos found]
          · rw [if_neg found, if_neg found]

private theorem lookup?_cons (key other : String) (value : Json)
    (members : List (String × Json)) :
    lookup? ((other, value) :: members) key =
      (lookup? members key).or (if key = other then some value else none) := by
  unfold lookup?
  rw [List.reverse_cons, List.find?_append]
  cases found : members.reverse.find? fun member => member.1 = key with
  | some member => rfl
  | none =>
      by_cases same : key = other
      · simp [same]
      · simp [same, Ne.symm same]

private theorem lookup_foldl_insertMember (members placed : List (String × Json))
    (key : String) :
    (members.foldl (fun sorted member => insertMember member.1 member.2 sorted) placed).lookup
        key = (lookup? members key).or (placed.lookup key) := by
  induction members generalizing placed with
  | nil => rfl
  | cons head rest ih =>
      rw [List.foldl_cons, ih, lookup_insertMember, lookup?_cons, Option.or_assoc]
      split <;> rfl

/-- Among sorted members a key leads to the last one that was written. -/
theorem lookup_sortMembers (members : List (String × Json)) (key : String) :
    (sortMembers members).lookup key = lookup? members key := by
  rw [sortMembers, lookup_foldl_insertMember]
  cases lookup? members key <;> rfl

theorem lookup?_sortedMembers (members : List (String × Json)) (key : String) :
    lookup? (sortedMembers members) key = (lookup? members key).map sorted := by
  induction members with
  | nil => rfl
  | cons head rest ih =>
      rw [sortedMembers, lookup?_cons, lookup?_cons, ih]
      split <;> cases lookup? rest key <;> rfl

theorem lookup_sorted (members : List (String × Json)) (key : String) :
    (sortMembers (sortedMembers members)).lookup key =
      ((Json.object members).member? key).map sorted := by
  rw [lookup_sortMembers, lookup?_sortedMembers]
  rfl

theorem lookup_filter_key (members : List (String × Json)) (keep : String → Bool)
    (key : String) :
    (members.filter (keep ·.1)).lookup key = if keep key then members.lookup key else none := by
  induction members with
  | nil => split <;> rfl
  | cons head rest ih =>
      obtain ⟨first, held⟩ := head
      rw [List.filter_cons, lookup_cons_eq_ite]
      by_cases same : key = first
      · subst same
        cases kept : keep key with
        | true => simp
        | false => simp [ih, kept]
      · cases kept : keep first <;> simp [ih, same, lookup_cons_eq_ite]

theorem lookup?_filter_key (members : List (String × Json)) (keep : String → Bool)
    (key : String) :
    lookup? (members.filter (keep ·.1)) key = if keep key then lookup? members key else none := by
  induction members with
  | nil => split <;> rfl
  | cons head rest ih =>
      obtain ⟨first, held⟩ := head
      rw [List.filter_cons, lookup?_cons]
      cases kept : keep first with
      | true =>
          rw [if_pos rfl, lookup?_cons, ih]
          by_cases same : key = first
          · rw [if_pos same, same, kept, if_pos rfl, if_pos rfl]
          · rw [if_neg same]
            split <;> simp
      | false =>
          rw [if_neg nofun, ih]
          by_cases same : key = first
          · rw [same, kept, if_neg nofun, if_neg nofun]
          · rw [if_neg same, Option.or_none]

/-!
## The order of the keys
-/

private theorem mem_insertMember {key : String} {value : Json} {member : String × Json}
    (among : member ∈ insertMember key value members) :
    member = (key, value) ∨ member ∈ members := by
  fun_induction insertMember key value members with
  | case1 => exact .inl (List.mem_singleton.mp among)
  | case2 other held rest before => exact List.mem_cons.mp among
  | case3 held rest =>
    rcases List.mem_cons.mp among with rfl | kept
    · exact .inl rfl
    · exact .inr (List.mem_cons_of_mem _ kept)
  | case4 other held rest before different found =>
    rcases List.mem_cons.mp among with rfl | kept
    · exact .inr List.mem_cons_self
    · exact (found kept).imp_right (List.mem_cons_of_mem _)

/-- Keys ascend, which leaves no room for a repetition. -/
def Ascends (members : List (String × Json)) : Prop :=
  members.Pairwise fun earlier later => earlier.1 < later.1

private theorem Ascends.insertMember (ascends : Ascends members) (key : String) (value : Json) :
    Ascends (insertMember key value members) := by
  induction members with
  | nil => exact List.pairwise_singleton ..
  | cons head rest ih =>
      obtain ⟨other, held⟩ := head
      obtain ⟨below, restAscends⟩ := List.pairwise_cons.mp ascends
      unfold Json.insertMember
      split
      · rename_i less
        refine List.pairwise_cons.mpr ⟨fun member among => ?_, ascends⟩
        rcases List.mem_cons.mp among with rfl | among
        · exact less
        · exact String.lt_trans less (below member among)
      · split
        · rename_i same
          subst same
          exact List.pairwise_cons.mpr ⟨below, restAscends⟩
        · rename_i notLess different
          refine List.pairwise_cons.mpr ⟨fun member among => ?_, ih restAscends⟩
          rcases mem_insertMember among with rfl | among
          · rcases Std.lt_trichotomy key other with less | same | greater
            · exact absurd less notLess
            · exact absurd same different
            · exact greater
          · exact below member among

private theorem ascends_foldl_insertMember {placed : List (String × Json)}
    (ascends : Ascends placed) :
    Ascends (members.foldl (fun sorted member => insertMember member.1 member.2 sorted)
      placed) := by
  induction members generalizing placed with
  | nil => exact ascends
  | cons head rest ih => exact ih (ascends.insertMember head.1 head.2)

theorem ascends_sortMembers (members : List (String × Json)) : Ascends (sortMembers members) :=
  ascends_foldl_insertMember .nil

theorem Ascends.keys_nodup (ascends : Ascends members) : (members.map (·.1)).Nodup :=
  List.pairwise_map.mpr <| ascends.imp fun less same => by
    rw [same] at less
    exact String.lt_irrefl _ less

theorem keys_nodup_sortMembers (members : List (String × Json)) :
    ((sortMembers members).map (·.1)).Nodup :=
  (ascends_sortMembers members).keys_nodup

/-!
## Where members are put
-/

/-- Sorting puts a member at a place that its value has no part in. -/
theorem exists_insertMember_split {key : String} (members : List (String × Json)) :
    ∃ before after, ∀ value, insertMember key value members = before ++ (key, value) :: after := by
  induction members with
  | nil => exact ⟨[], [], fun _ => rfl⟩
  | cons member rest ih =>
      obtain ⟨other, held⟩ := member
      unfold insertMember
      split
      · exact ⟨[], (other, held) :: rest, fun _ => rfl⟩
      · split
        · exact ⟨[], rest, fun _ => rfl⟩
        · obtain ⟨before, after, placed⟩ := ih
          exact ⟨(other, held) :: before, after, fun value => congrArg _ (placed value)⟩

/-- A member stays among those that are put in beside it. -/
theorem exists_insertMember_append {key other : String} (apart : key ≠ other) (held : Json)
    (before after : List (String × Json)) :
    ∃ front back, ∀ value, insertMember other held (before ++ (key, value) :: after) =
      front ++ (key, value) :: back := by
  induction before with
  | nil =>
      by_cases less : other < key
      · exact ⟨[(other, held)], after, fun value => if_pos less⟩
      · refine ⟨[], insertMember other held after, fun value => ?_⟩
        rw [List.nil_append, insertMember, if_neg less, if_neg (Ne.symm apart)]
        rfl
  | cons member before ih =>
      obtain ⟨first, own⟩ := member
      by_cases less : other < first
      · exact ⟨(other, held) :: (first, own) :: before, after, fun value => if_pos less⟩
      · by_cases same : other = first
        · refine ⟨(other, held) :: before, after, fun value => ?_⟩
          rw [List.cons_append, insertMember, if_neg less, if_pos same]
          rfl
        · obtain ⟨front, back, placed⟩ := ih
          refine ⟨(first, own) :: front, back, fun value => ?_⟩
          rw [List.cons_append, insertMember, if_neg less, if_neg same, placed value]
          rfl

/-- Sorting takes a member that is the last one of its key to a place that its value has no
part in. -/
theorem exists_sortMembers_split {key : String} (before : List (String × Json))
    {after : List (String × Json)} (fresh : key ∉ after.map (·.1)) :
    ∃ front back, ∀ value, sortMembers (before ++ (key, value) :: after) =
      front ++ (key, value) :: back := by
  have settled : ∀ {front back : List (String × Json)}, ∃ front' back', ∀ value,
      after.foldl (fun sorted member => insertMember member.1 member.2 sorted)
        (front ++ (key, value) :: back) = front' ++ (key, value) :: back' := by
    intro front back
    induction after generalizing front back with
    | nil => exact ⟨front, back, fun _ => rfl⟩
    | cons member rest ih =>
        rw [List.map_cons, List.mem_cons, not_or] at fresh
        obtain ⟨apart, fresh⟩ := fresh
        obtain ⟨front, back, placed⟩ := exists_insertMember_append apart member.2 front back
        obtain ⟨front, back, settled⟩ := ih fresh
        exact ⟨front, back, fun value => by rw [List.foldl_cons, placed, settled]⟩
  obtain ⟨front, back, placed⟩ := exists_insertMember_split (sortMembers before)
  obtain ⟨front, back, settled⟩ := settled
  refine ⟨front, back, fun value => ?_⟩
  rw [← settled value, ← placed value, sortMembers, List.foldl_append]
  rfl

/-- It makes no difference which of two keys is put in first. -/
theorem insertMember_comm {key other : String} (apart : key ≠ other) (value held : Json)
    (members : List (String × Json)) :
    insertMember key value (insertMember other held members) =
      insertMember other held (insertMember key value members) := by
  have through : ∀ {first second third : String}, first < second → second < third →
      first < third := String.lt_trans
  have irreflexive : ∀ first : String, ¬ first < first := String.lt_irrefl
  have total : ∀ first second : String, first < second ∨ first = second ∨ second < first :=
    Std.lt_trichotomy
  induction members with
  | nil => grind [insertMember]
  | cons member rest ih => grind [insertMember]

/-- A member that is the last one of its key may as well be put in at the end. -/
theorem sortMembers_split {key : String} (before : List (String × Json))
    {after : List (String × Json)} (fresh : key ∉ after.map (·.1)) (value : Json) :
    sortMembers (before ++ (key, value) :: after) =
      insertMember key value (sortMembers (before ++ after)) := by
  have moved : ∀ placed : List (String × Json),
      after.foldl (fun sorted member => insertMember member.1 member.2 sorted)
        (insertMember key value placed) =
      insertMember key value
        (after.foldl (fun sorted member => insertMember member.1 member.2 sorted) placed) := by
    intro placed
    induction after generalizing placed with
    | nil => rfl
    | cons member rest ih =>
        rw [List.map_cons, List.mem_cons, not_or] at fresh
        rw [List.foldl_cons, List.foldl_cons, ← insertMember_comm fresh.1, ih fresh.2]
  rw [sortMembers, sortMembers, List.foldl_append, List.foldl_append, List.foldl_cons]
  exact moved _

private theorem mem_foldl_insertMember {member : String × Json} {placed : List (String × Json)}
    (among : member ∈ members.foldl (fun sorted member => insertMember member.1 member.2 sorted)
      placed) : member ∈ members ∨ member ∈ placed := by
  induction members generalizing placed with
  | nil => exact .inr among
  | cons head rest ih =>
      rcases ih among with among | among
      · exact .inl (.tail _ among)
      · rcases mem_insertMember among with rfl | among
        · exact .inl List.mem_cons_self
        · exact .inr among

theorem mem_of_mem_sortMembers {member : String × Json} (among : member ∈ sortMembers members) :
    member ∈ members :=
  (mem_foldl_insertMember among).resolve_right List.not_mem_nil

/-- A member of a new key is put between the others. -/
theorem exists_sortMembers_between {key : String} {before after : List (String × Json)}
    (fresh : key ∉ (before ++ after).map (·.1)) :
    ∃ front back, sortMembers (before ++ after) = front ++ back ∧
      key ∉ (front ++ back).map (·.1) ∧ ∀ value,
        sortMembers (before ++ (key, value) :: after) = front ++ (key, value) :: back := by
  have between : ∀ sorted : List (String × Json), key ∉ sorted.map (·.1) →
      ∃ front back, sorted = front ++ back ∧
        ∀ value, insertMember key value sorted = front ++ (key, value) :: back := by
    intro sorted fresh
    induction sorted with
    | nil => exact ⟨[], [], rfl, fun _ => rfl⟩
    | cons member rest ih =>
        rw [List.map_cons, List.mem_cons, not_or] at fresh
        by_cases less : key < member.1
        · exact ⟨[], member :: rest, rfl, fun _ => if_pos less⟩
        · obtain ⟨front, back, rfl, placed⟩ := ih fresh.2
          refine ⟨member :: front, back, rfl, fun value => ?_⟩
          rw [insertMember, if_neg less, if_neg fresh.1, placed value]
          rfl
  have sortedFresh : key ∉ (sortMembers (before ++ after)).map (·.1) := fun among => by
    obtain ⟨member, held, same⟩ := List.mem_map.mp among
    exact fresh (List.mem_map.mpr ⟨member, mem_of_mem_sortMembers held, same⟩)
  obtain ⟨front, back, same, placed⟩ := between _ sortedFresh
  have last : key ∉ after.map (·.1) := fun among =>
    fresh (List.map_append ▸ List.mem_append_right _ among)
  exact ⟨front, back, same, same ▸ sortedFresh, fun value => by
    rw [sortMembers_split before last, placed]⟩

end BatchAuction.Json
