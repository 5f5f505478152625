import BatchAuction.Abi.Layout
import BatchAuction.Proofs.Bytes

/-!
# Reading a sequence of components

The head of a component stands after the heads before it. If the component is in the
tail, its head is the word that leads to it, as long as the sequence is not too long for
such a word.
-/

set_option autoImplicit false

namespace BatchAuction.Abi

@[simp] theorem length_word (value : Nat) : (word value).length = wordSize :=
  length_bigEndianBytes wordSize value

theorem wordAt?_eq_drop (bytes : List UInt8) (position : Nat) :
    wordAt? bytes position = wordAt? (bytes.drop position) 0 := rfl

theorem wordAt?_word {value : Nat} (fits : value < Amount.limit) (rest : List UInt8) :
    wordAt? (word value ++ rest) 0 = some value := by
  have found : ((word value ++ rest).drop 0).take wordSize = word value := by
    rw [List.drop_zero, List.take_left' (length_word value)]
  unfold wordAt?
  simp only [found, length_word, if_true]
  exact congrArg some ((bigEndian_bigEndianBytes wordSize value).trans (Nat.mod_eq_of_lt fits))

theorem headsSize_append (first second : List Part) :
    headsSize (first ++ second) = headsSize first + headsSize second := by
  induction first with
  | nil => simp [headsSize]
  | cons part rest ih => simp only [List.cons_append, headsSize, ih, Nat.add_assoc]

theorem tails_append (first second : List Part) :
    tails (first ++ second) = tails first ++ tails second :=
  List.flatMap_append

theorem heads_append (offset : Nat) (first second : List Part) :
    heads offset (first ++ second) =
      heads offset first ++ heads (offset + (tails first).length) second := by
  induction first generalizing offset with
  | nil => simp [heads, tails]
  | cons part rest ih =>
      simp only [List.cons_append, heads, ih, List.append_assoc, tails, List.flatMap_cons,
        List.length_append, Nat.add_assoc]

@[simp] theorem length_heads (offset : Nat) (parts : List Part) :
    (heads offset parts).length = headsSize parts := by
  induction parts generalizing offset with
  | nil => rfl
  | cons part rest ih =>
      simp only [heads, headsSize, List.length_append, ih, Part.headSize]
      split <;> simp

theorem length_assemble (parts : List Part) :
    (assemble parts).length = headsSize parts + (tails parts).length := by
  simp [assemble]

theorem tails_eq_nil {parts : List Part} (static : ∀ part ∈ parts, part.dynamic = false) :
    tails parts = [] := by
  refine List.flatMap_eq_nil_iff.mpr ?_
  intro part member
  simp [Part.tail, static part member]

theorem length_bytes_le_assemble {part : Part} {parts : List Part} (member : part ∈ parts) :
    part.bytes.length ≤ (assemble parts).length := by
  obtain ⟨before, after, rfl⟩ := List.append_of_mem member
  rw [length_assemble, headsSize_append, tails_append, List.length_append]
  cases placed : part.dynamic with
  | true =>
      have inTail : (tails (part :: after)).length = part.bytes.length + (tails after).length := by
        simp [tails, Part.tail, placed]
      omega
  | false =>
      have inHead : headsSize (part :: after) = part.bytes.length + headsSize after := by
        simp [headsSize, Part.headSize, placed]
      omega

theorem assemble_aligned {parts : List Part}
    (aligned : ∀ part ∈ parts, wordSize ∣ part.bytes.length) :
    wordSize ∣ (assemble parts).length := by
  rw [length_assemble]
  induction parts with
  | nil => simp [headsSize, tails]
  | cons part rest ih =>
      have own := aligned part List.mem_cons_self
      have others := ih fun part member => aligned part (List.mem_cons_of_mem _ member)
      have split : headsSize (part :: rest) + (tails (part :: rest)).length =
          (part.headSize + part.tail.length) + (headsSize rest + (tails rest).length) := by
        simp only [headsSize, tails, List.flatMap_cons, List.length_append]
        omega
      rw [split]
      refine Nat.dvd_add ?_ others
      cases placed : part.dynamic with
      | true =>
          simp only [Part.headSize, Part.tail, placed, if_true]
          exact Nat.dvd_add (Nat.dvd_refl _) own
      | false => simpa [Part.headSize, Part.tail, placed] using own

/-- Where the tail of a component stands that follows some others. -/
def tailOffset (before : List Part) (part : Part) (after : List Part) : Nat :=
  headsSize (before ++ part :: after) + (tails before).length

variable {before after : List Part} {part : Part}

/-- A component of fixed size is found in its head. -/
theorem drop_static (placed : part.dynamic = false) (rest : List UInt8) :
    ∃ following, (assemble (before ++ part :: after) ++ rest).drop (headsSize before) =
      part.bytes ++ following := by
  unfold assemble
  rw [heads_append, List.append_assoc, List.append_assoc,
    List.drop_left' (length_heads _ before), heads, placed, List.append_assoc]
  exact ⟨_, rfl⟩

/-- The head of any other component leads to its tail. -/
theorem wordAt?_dynamic (placed : part.dynamic = true) (rest : List UInt8)
    (fits : (assemble (before ++ part :: after)).length < Amount.limit) :
    wordAt? (assemble (before ++ part :: after) ++ rest) (headsSize before) =
      some (tailOffset before part after) := by
  have reached : tailOffset before part after ≤ (assemble (before ++ part :: after)).length := by
    rw [length_assemble, tails_append, List.length_append]
    unfold tailOffset
    omega
  rw [wordAt?_eq_drop]
  unfold assemble
  rw [heads_append, List.append_assoc, List.append_assoc,
    List.drop_left' (length_heads _ before), heads, placed, List.append_assoc]
  exact wordAt?_word (Nat.lt_of_le_of_lt reached fits) _

theorem drop_dynamic (placed : part.dynamic = true) (rest : List UInt8) :
    (assemble (before ++ part :: after) ++ rest).drop (tailOffset before part after) =
      part.bytes ++ (tails after ++ rest) := by
  have split : assemble (before ++ part :: after) ++ rest =
      (heads (headsSize (before ++ part :: after)) (before ++ part :: after) ++ tails before) ++
        (part.bytes ++ (tails after ++ rest)) := by
    unfold assemble
    rw [tails_append]
    simp [tails, Part.tail, placed]
  have reached : (heads (headsSize (before ++ part :: after)) (before ++ part :: after) ++
      tails before).length = tailOffset before part after := by
    rw [List.length_append, length_heads]
    rfl
  rw [split, List.drop_left' reached]

end BatchAuction.Abi
