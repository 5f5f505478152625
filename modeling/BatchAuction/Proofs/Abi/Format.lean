import BatchAuction.Abi.Format
import BatchAuction.Proofs.Abi.Layout

/-!
# What is encoded is read back

A format is lawful if it reads every value back, whatever follows its bytes, and if its
values fill whole words. Both are closed under lists and records. The number of bytes of
a value is bounded throughout by the first number that does not fit a word: beyond it the
word that leads to a tail would lead elsewhere.
-/

set_option autoImplicit false

namespace BatchAuction.Abi

variable {α β σ : Type}

/-- A format that reads back what it writes. -/
structure Format.Lawful (format : Format α) : Prop where
  headSize_pos : 0 < format.headSize
  length_encode : format.dynamic = false → ∀ value, (format.encode value).length = format.size
  aligned : ∀ value, wordSize ∣ (format.encode value).length
  decode_encode : ∀ value rest, (format.encode value).length < Amount.limit →
    format.decode (format.encode value ++ rest) = some value

namespace Format

theorem ofWord_encode (encode : α → Nat) (decode : Nat → Option α) (value : α) :
    (ofWord encode decode).encode value = word (encode value) := rfl

theorem ofWord_decode (encode : α → Nat) (decode : Nat → Option α) (found : List UInt8) :
    (ofWord encode decode).decode found = (wordAt? found 0).bind decode := rfl

theorem ofWord_lawful {encode : α → Nat} {decode : Nat → Option α}
    (bounded : ∀ value, encode value < Amount.limit)
    (inverse : ∀ value, decode (encode value) = some value) : (ofWord encode decode).Lawful where
  headSize_pos := Nat.succ_pos 31
  length_encode _ value := length_word (encode value)
  aligned value := ⟨1, length_word (encode value)⟩
  decode_encode value rest _ := by
    rw [ofWord_encode, ofWord_decode, wordAt?_word (bounded value), Option.bind_some]
    exact inverse value

theorem amount_lawful : amount.Lawful :=
  ofWord_lawful (fun value => value.value_lt_limit) fun _ => Amount.ofNat?_eq_some_iff.mpr rfl

theorem unsigned32_lawful : unsigned32.Lawful := by
  have small : UInt32.size ≤ Amount.limit := by decide
  refine ofWord_lawful (fun value => Nat.lt_of_lt_of_le value.toNat_lt small) ?_
  intro value
  rw [if_pos value.toNat_lt, UInt32.ofNat_toNat]

theorem address_lawful : address.Lawful := by
  have small : byteWeight 20 ≤ Amount.limit := by decide
  refine ofWord_lawful (fun value => Nat.lt_of_lt_of_le value.toNat_lt small) ?_
  intro value
  rw [if_pos value.toNat_lt, FixedBytes.ofNat_toNat]

theorem digest_lawful : digest.Lawful :=
  ofWord_lawful FixedBytes.toNat_lt fun value => congrArg some value.ofNat_toNat

theorem length_encode_bytes (value : List UInt8) :
    (bytes.encode value).length =
      wordSize + (value.length + (wordSize - value.length % wordSize) % wordSize) := by
  simp [bytes, padding]

theorem bytes_lawful : bytes.Lawful where
  headSize_pos := by decide
  length_encode placed := by cases placed
  aligned value := by
    rw [length_encode_bytes]
    unfold wordSize
    omega
  decode_encode value rest fits := by
    have counted : value.length < Amount.limit := by
      rw [length_encode_bytes] at fits
      omega
    have laidOut : bytes.encode value ++ rest =
        word value.length ++ (value ++ (padding value.length ++ rest)) := by
      simp [bytes]
    have content : (bytes.encode value ++ rest).drop wordSize =
        value ++ (padding value.length ++ rest) := by
      rw [laidOut, List.drop_left' (length_word _)]
    have filler : (bytes.encode value ++ rest).drop (wordSize + value.length) =
        padding value.length ++ rest := by
      rw [← List.drop_drop, content, List.drop_left]
    have length : wordAt? (bytes.encode value ++ rest) 0 = some value.length := by
      rw [laidOut]
      exact wordAt?_word counted _
    unfold bytes at content filler length ⊢
    simp only [length, Option.bind_some, content, filler, List.take_left]
    exact if_pos ⟨trivial, trivial⟩

theorem list_encode (format : Format α) (values : List α) :
    format.list.encode values = word values.length ++ assemble (values.map format.part) := rfl

theorem tail_list_part (format : Format α) (values : List α) :
    (format.list.part values).tail = format.list.encode values := rfl

theorem headSize_list_part (format : Format α) (values : List α) :
    (format.list.part values).headSize = wordSize := rfl

theorem length_encode_list_nil (format : Format α) :
    (format.list.encode []).length = wordSize := by
  rw [list_encode, List.length_append, length_word]
  rfl

/-- Of two lists in one, the word that counts the items is written once. -/
theorem length_encode_list_append (format : Format α) (first second : List α) :
    (format.list.encode (first ++ second)).length + wordSize =
      (format.list.encode first).length + (format.list.encode second).length := by
  simp only [list_encode, List.map_append, List.length_append, length_word, length_assemble,
    headsSize_append, tails_append]
  omega

theorem length_encode_list_singleton {format : Format α} (placed : format.dynamic = true)
    (value : α) :
    (format.list.encode [value]).length = 2 * wordSize + (format.encode value).length := by
  rw [list_encode, List.length_append, length_word, length_assemble]
  simp only [List.map_cons, List.map_nil, headsSize, tails, List.flatMap_cons, List.flatMap_nil,
    List.append_nil, Part.headSize, Part.tail, part, placed, if_true]
  omega

theorem list_decode (format : Format α) (found : List UInt8) :
    format.list.decode found = (wordAt? found 0).bind fun count =>
      format.readMany (found.drop wordSize) count 0 := rfl

namespace Lawful

variable {format : Format α}

theorem headSize_part (lawful : format.Lawful) (value : α) :
    (format.part value).headSize = format.headSize := by
  unfold Part.headSize Format.headSize
  cases placed : format.dynamic with
  | true => simp [part, placed]
  | false => simp [part, placed, lawful.length_encode placed value]

theorem headsSize_map_part (lawful : format.Lawful) (values : List α) :
    headsSize (values.map format.part) = values.length * format.headSize := by
  induction values with
  | nil => simp [headsSize]
  | cons value rest ih =>
      rw [List.map_cons, headsSize, lawful.headSize_part, ih, List.length_cons, Nat.succ_mul,
        Nat.add_comm]

theorem length_encode_list (lawful : format.Lawful) (static : format.dynamic = false)
    (values : List α) :
    (format.list.encode values).length = wordSize + values.length * format.headSize := by
  have noTails : tails (values.map format.part) = [] := by
    refine tails_eq_nil ?_
    intro part member
    obtain ⟨value, -, rfl⟩ := List.mem_map.mp member
    exact static
  rw [list_encode, List.length_append, length_word, length_assemble, lawful.headsSize_map_part,
    noTails]
  rfl

/-- A value is read back from any place of a sequence. -/
theorem read_assemble (lawful : format.Lawful) (value : α) (before after : List Part)
    (rest : List UInt8)
    (fits : (assemble (before ++ format.part value :: after)).length < Amount.limit) :
    format.read (assemble (before ++ format.part value :: after) ++ rest) (headsSize before) =
      some value := by
  have member : format.part value ∈ before ++ format.part value :: after := by simp
  have ownFits : (format.encode value).length < Amount.limit :=
    Nat.lt_of_le_of_lt (length_bytes_le_assemble member) fits
  unfold Format.read
  cases placed : format.dynamic with
  | true =>
      have inTail : (format.part value).dynamic = true := placed
      rw [if_pos rfl, wordAt?_dynamic inTail rest fits, Option.bind_some,
        drop_dynamic inTail rest]
      exact lawful.decode_encode value _ ownFits
  | false =>
      have inHead : (format.part value).dynamic = false := placed
      obtain ⟨following, found⟩ := drop_static inHead rest
      rw [if_neg Bool.false_ne_true, found]
      exact lawful.decode_encode value _ ownFits

theorem readMany_assemble (lawful : format.Lawful) (values : List α) (before : List Part)
    (rest : List UInt8)
    (fits : (assemble (before ++ values.map format.part)).length < Amount.limit) :
    format.readMany (assemble (before ++ values.map format.part) ++ rest) values.length
      (headsSize before) = some values := by
  induction values generalizing before with
  | nil => rfl
  | cons value values ih =>
      have next : headsSize before + format.headSize =
          headsSize (before ++ [format.part value]) := by
        rw [headsSize_append, headsSize, lawful.headSize_part]
        rfl
      have others := ih (before ++ [format.part value])
      rw [List.append_assoc, List.singleton_append] at others
      have read := lawful.read_assemble value before (values.map format.part) rest fits
      rw [List.map_cons, List.length_cons, readMany, read, next, others fits]
      rfl

end Lawful

theorem list_lawful {format : Format α} (lawful : format.Lawful) : format.list.Lawful where
  headSize_pos := Nat.succ_pos 31
  length_encode placed := by cases placed
  aligned values := by
    have items : ∀ part ∈ values.map format.part, wordSize ∣ part.bytes.length := by
      intro part member
      obtain ⟨value, -, rfl⟩ := List.mem_map.mp member
      exact lawful.aligned value
    rw [list_encode, List.length_append, length_word]
    exact Nat.dvd_add (Nat.dvd_refl _) (assemble_aligned items)
  decode_encode values rest fits := by
    have items : (assemble (values.map format.part)).length < Amount.limit := by
      rw [list_encode, List.length_append] at fits
      omega
    -- Every item takes some room, so a sequence that fits a word has a length that does.
    have counted : values.length < Amount.limit := by
      have room := Nat.le_mul_of_pos_right values.length lawful.headSize_pos
      rw [length_assemble, lawful.headsSize_map_part] at items
      omega
    rw [list_encode, list_decode, List.append_assoc, wordAt?_word counted, Option.bind_some,
      List.drop_left' (length_word _)]
    exact lawful.readMany_assemble values [] rest items

end Format

/-- Members that read back what they write, as the value `get` makes of a record. -/
structure Members.Lawful (members : Members σ α) (get : σ → α) : Prop where
  headsSize_parts : ∀ record, headsSize (members.parts record) = members.size
  static_parts : members.dynamic = false →
    ∀ record, ∀ part ∈ members.parts record, part.dynamic = false
  aligned : ∀ record, ∀ part ∈ members.parts record, wordSize ∣ part.bytes.length
  read_parts : ∀ record before after rest,
    (assemble (before ++ (members.parts record ++ after))).length < Amount.limit →
      members.read (assemble (before ++ (members.parts record ++ after)) ++ rest)
        (headsSize before) = some (get record)

namespace Members.Lawful

theorem const (value : α) : (pure value : Members σ α).Lawful fun _ => value where
  headsSize_parts _ := rfl
  static_parts _ _ _ member := by cases member
  aligned _ _ member := by cases member
  read_parts _ _ _ _ _ := rfl

theorem member {format : Format α} (lawful : format.Lawful) (get : σ → α) :
    (Members.member format get).Lawful get where
  headsSize_parts record := lawful.headSize_part (get record)
  static_parts placed record part found := by
    cases List.mem_singleton.mp found
    exact placed
  aligned record part found := by
    cases List.mem_singleton.mp found
    exact lawful.aligned (get record)
  read_parts record before after rest fits :=
    lawful.read_assemble (get record) before after rest fits

theorem seq {first : Members σ (α → β)} {second : Members σ α} {getFirst : σ → α → β}
    {getSecond : σ → α} (firstLawful : first.Lawful getFirst)
    (secondLawful : second.Lawful getSecond) :
    (first <*> second).Lawful fun record => getFirst record (getSecond record) where
  headsSize_parts record := by
    show headsSize (first.parts record ++ second.parts record) = first.size + second.size
    rw [headsSize_append, firstLawful.headsSize_parts, secondLawful.headsSize_parts]
  static_parts placed record part found := by
    have both : first.dynamic = false ∧ second.dynamic = false := Bool.or_eq_false_iff.mp placed
    rcases List.mem_append.mp found with found | found
    · exact firstLawful.static_parts both.1 record part found
    · exact secondLawful.static_parts both.2 record part found
  aligned record part found := by
    rcases List.mem_append.mp found with found | found
    · exact firstLawful.aligned record part found
    · exact secondLawful.aligned record part found
  read_parts record before after rest fits := by
    have parts : (first <*> second).parts record = first.parts record ++ second.parts record := rfl
    rw [parts, List.append_assoc] at fits ⊢
    have firstRead := firstLawful.read_parts record before (second.parts record ++ after) rest fits
    have secondRead := secondLawful.read_parts record (before ++ first.parts record) after rest
    rw [List.append_assoc, headsSize_append, firstLawful.headsSize_parts] at secondRead
    show (first.read _ _).bind (fun f => (second.read _ (headsSize before + first.size)).bind
      fun x => some (f x)) = _
    rw [firstRead, Option.bind_some, secondRead fits, Option.bind_some]

theorem format {members : Members α α} (lawful : members.Lawful fun record => record)
    (size_pos : 0 < members.size) : members.format.Lawful where
  headSize_pos := by
    unfold Format.headSize
    split
    · decide
    · exact size_pos
  length_encode placed record := by
    show (assemble (members.parts record)).length = members.size
    rw [length_assemble, lawful.headsSize_parts, tails_eq_nil (lawful.static_parts placed record)]
    rfl
  aligned record := assemble_aligned (lawful.aligned record)
  decode_encode record rest fits := by
    have read := lawful.read_parts record [] [] rest
    rw [List.append_nil, List.nil_append] at read
    exact read fits

end Members.Lawful

end BatchAuction.Abi
