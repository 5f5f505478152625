import BatchAuction.Proofs.Clock.Timestamp
import BatchAuction.Proofs.Decimal.Scaled
import BatchAuction.Proofs.Hex
import BatchAuction.Proofs.Json.Spelling
import BatchAuction.Proofs.Wire.Alternative
import BatchAuction.Proofs.Wire.Table

/-!
# What is written is read back

A codec restores what it writes if a text can hold the written value and the decoder makes
the same of it again, up to a change that most codecs do without. Each way of building a
codec keeps this.
-/

set_option autoImplicit false

namespace BatchAuction.Wire

open Json Fields

variable {α β σ : Type} {depth : Nat}

/-- What is written has no more than the given number of containers inside each other, and
what is read from it is what was written, up to a change. -/
structure Codec.Restores (codec : Codec α) (depth : Nat) (restored : α → α) : Prop where
  fits : ∀ value, (codec.encode value).Fits depth
  reads : ∀ medium value,
    codec.decode.outcome? medium (codec.encode value) = some (restored value)

/-- What is read from a written value is the value itself. -/
abbrev Codec.Lossless (codec : Codec α) (depth : Nat) : Prop := codec.Restores depth id

/-- The fields write members of their own names, each at most once, and restore the record
from any members that lead from their names to what was written. -/
structure Fields.Restores (fields : Fields σ α) (depth : Nat) (restored : σ → α) : Prop where
  written : ∀ record, ((fields.write record).map (·.1)).Sublist fields.names
  fits : ∀ record, ∀ member ∈ fields.write record, member.2.Fits depth
  reads : fields.names.Nodup → ∀ medium record members, (members.map (·.1)).Nodup →
    (∀ name ∈ fields.names, members.lookup name = (fields.write record).lookup name) →
    fields.ofMembers? medium members = some (restored record)

/-- A value is read back from the text of what was written for it, as far as the doubles in
it are the ones that their own texts denote. -/
theorem Codec.Restores.decodeText_print {codec : Codec α} {restored : α → α}
    (restores : codec.Restores depth restored) (shallow : depth ≤ maxDepth) {value : α}
    (back : ∀ x ∈ (codec.encode value).reals, x.ReadsBack) :
    decodeText codec.decode (Text.Utf8.ofString (codec.encode value).print) =
      .ok (restored value) := by
  rw [decodeText_of_spells _ ((restores.fits value).spells_print shallow back)]
  exact Decoder.outcome?_eq_some_iff.mp (restores.reads .text value)

/-!
## Plain values
-/

namespace Codec

theorem text_lossless : text.Lossless depth where
  fits value := .text value
  reads _ _ := rfl

theorem boolean_lossless : boolean.Lossless depth where
  fits value := .boolean value
  reads _ _ := rfl

theorem real_lossless : real.Lossless depth where
  fits value := .real value
  reads _ _ := rfl

/-- Integers of a range that stays exact are read back if the conversions between them and
the values are inverse. -/
theorem integer_lossless {least greatest : Int} {read : Int → α} {write : α → Int}
    (expected : Expected) (exactLeast : Number.least ≤ least)
    (exactGreatest : greatest ≤ Number.greatest) (lower : ∀ value, least ≤ write value)
    (upper : ∀ value, write value ≤ greatest) (back : ∀ value, read (write value) = value) :
    Lossless ⟨(Decoder.integer least greatest expected).map read,
      fun value => .integer (write value)⟩ depth where
  fits value := .integer (Int.le_trans exactLeast (lower value))
    (Int.le_trans (upper value) exactGreatest)
  reads medium value := by
    have accepted : Decoder.integer least greatest expected medium
        (Json.integer (write value)).toDocument = .ok (write value) :=
      if_pos ⟨lower value, upper value⟩
    rw [Decoder.outcome?_map, Decoder.outcome?_eq_some_iff.mpr accepted, Option.map_some, back]
    rfl

theorem unsigned64_lossless : unsigned64.Lossless depth :=
  integer_lossless (.unsigned 64) (by decide) (by decide) (fun _ => Int.natCast_nonneg _)
    (fun value => Int.le_sub_one_of_lt (Int.ofNat_lt.mpr value.toNat_lt)) fun _ =>
      UInt64.ofNat_toNat

theorem unsigned32_lossless : unsigned32.Lossless depth :=
  integer_lossless (.unsigned 32) (by decide) (by decide) (fun _ => Int.natCast_nonneg _)
    (fun value => Int.le_sub_one_of_lt (Int.ofNat_lt.mpr value.toNat_lt)) fun _ =>
      UInt32.ofNat_toNat

theorem unsigned8_lossless : unsigned8.Lossless depth :=
  integer_lossless (.unsigned 8) (by decide) (by decide) (fun _ => Int.natCast_nonneg _)
    (fun value => Int.le_sub_one_of_lt (Int.ofNat_lt.mpr value.toNat_lt)) fun _ =>
      UInt8.ofNat_toNat

theorem signed64_lossless : signed64.Lossless depth :=
  integer_lossless (.signed 64) (by decide) (by decide) (fun value => value.minValue_le_toInt)
    (fun value => value.toInt_le) fun _ => Int64.ofInt_toInt _

/-- Texts are read back if their check accepts what was printed. -/
theorem text_lossless_of {check : String → Except Cause α} {print : α → String}
    (expected : Expected) {restored : α → α}
    (back : ∀ value, check (print value) = .ok (restored value)) :
    Restores ⟨(Decoder.textAs expected).refine check, fun value => .text (print value)⟩ depth
      restored where
  fits value := .text (print value)
  reads medium value := by
    have read : (Decoder.textAs expected).outcome? medium (.text (print value)) =
        some (print value) := rfl
    rw [Decoder.outcome?_refine, read, Option.bind_some, back]
    rfl

theorem signedText_lossless : signedText.Lossless depth :=
  text_lossless_of .text fun value => by
    have read : Decimal.parseSigned Int64.maxValue.toNatClampNeg (Json.printInteger value.toInt) =
        .ok value.toInt :=
      Decimal.parseSigned_printInteger value.minValue_le_toInt value.toInt_le
    rw [read]
    exact congrArg Except.ok (Int64.ofInt_toInt value)

theorem amount_lossless : amount.Lossless depth :=
  text_lossless_of .amount fun value => by
    rw [Decimal.parseAmount_print]
    rfl

theorem bytes_lossless : bytes.Lossless depth :=
  text_lossless_of .text fun value => by
    rw [Hex.parse_print]
    rfl

theorem fixedBytes_lossless (size : Nat) : (fixedBytes size).Lossless depth :=
  text_lossless_of .text fun value => by
    rw [Hex.parseFixed_print]
    rfl

theorem parseAddress_print (address : Address) : parseAddress address.print = .ok address := by
  unfold parseAddress
  rw [Hex.parseAddress_print]
  rfl

theorem address_lossless : address.Lossless depth :=
  text_lossless_of .text parseAddress_print

theorem timestamp_lossless : timestamp.Lossless depth :=
  text_lossless_of .timestamp fun value => by
    rw [Clock.Timestamp.parse_print]
    rfl

/-- A scaled decimal comes back as the same number, perhaps in another scale. -/
theorem scaled_restores : scaled.Restores depth Decimal.Scaled.restored where
  fits value := .text value.print
  reads medium value := by
    have accepted : scaled.decode medium (scaled.encode value).toDocument =
        .ok value.restored := by
      change (Decimal.Scaled.parse value.print).mapError _ = _
      rw [Decimal.Scaled.parse_print]
      rfl
    exact Decoder.outcome?_eq_some_iff.mpr accepted

theorem named?_of_mem {name : String} {value : α} {entries : List (String × α)}
    (distinct : (entries.map (·.1)).Nodup) (among : (name, value) ∈ entries) :
    named? name entries = some value := by
  induction entries with
  | nil => cases among
  | cons head rest ih =>
      obtain ⟨fresh, restDistinct⟩ := List.nodup_cons.mp distinct
      unfold named?
      rw [List.find?_cons]
      rcases List.mem_cons.mp among with rfl | later
      · simp
      · have other : head.1 ≠ name := fun same =>
          fresh (List.mem_map.mpr ⟨(name, value), later, same.symm⟩)
        rw [decide_eq_false other]
        exact ih restDistinct later

/-- An enumeration is read back if every value has a name and no name stands twice. -/
theorem oneOf_lossless [DecidableEq α] {entries : List (String × α)}
    (named : ∀ value, value ∈ entries.map (·.2)) (distinct : (entries.map (·.1)).Nodup) :
    (oneOf entries).Lossless depth := by
  have written : ∀ value, ∃ name, (name, value) ∈ entries ∧
      (oneOf entries).encode value = .text name := by
    intro value
    obtain ⟨entry, held, same⟩ := List.mem_map.mp (named value)
    cases found : entries.find? fun entry => entry.2 = value with
    | none => exact absurd same (by simpa using List.find?_eq_none.mp found entry held)
    | some first =>
        have is : first.2 = value := by simpa using List.find?_some found
        refine ⟨first.1, is ▸ List.mem_of_find?_eq_some found, ?_⟩
        unfold oneOf
        dsimp only
        rw [found]
  constructor
  · intro value
    obtain ⟨name, _, encoded⟩ := written value
    rw [encoded]
    exact .text name
  · intro medium value
    obtain ⟨name, held, encoded⟩ := written value
    have read := Decoder.outcome?_oneOf entries medium (.text name)
    rw [encoded]
    exact read.trans (named?_of_mem distinct held)

/-!
## Options, lists, tables and alternatives
-/

variable {codec : Codec α} {restored : α → α}

/-- Where null is no written value, an option of it reads what is written. -/
theorem Restores.outcome?_option (restores : codec.Restores depth restored)
    (present : ∀ value, codec.encode value ≠ .null) (medium : Medium) (value : α) :
    codec.decode.option.outcome? medium (codec.encode value) = some (some (restored value)) := by
  have read := restores.reads medium value
  have written := present value
  cases encoded : codec.encode value with
  | null => exact absurd encoded written
  | _ =>
      rw [encoded] at read
      rw [Decoder.outcome?_option]
      dsimp only
      rw [read, Option.map_some]

theorem Lossless.option (lossless : codec.Lossless depth)
    (present : ∀ value, codec.encode value ≠ .null) : codec.option.Lossless depth where
  fits
    | none => .null
    | some value => lossless.fits value
  reads
    | _, none => rfl
    | medium, some value => lossless.outcome?_option present medium value

/-- Items that are restored one by one are restored together. -/
theorem mapM_outcome? {γ : Type} {encode : β → γ} {read : γ → Option α} {restored : β → α}
    (each : ∀ value, read (encode value) = some (restored value)) (values : List β) :
    (values.map encode).mapM read = some (values.map restored) := by
  rw [mapM_eq_some_iff, List.forall₂_map_left_iff, List.forall₂_map_right_iff]
  exact List.forall₂_same.mpr fun value _ => each value

theorem Restores.list (restores : codec.Restores depth restored) :
    codec.list.Restores (depth + 1) (List.map restored) where
  fits values := .list fun item among => by
    obtain ⟨value, _, rfl⟩ := List.mem_map.mp among
    exact restores.fits value
  reads medium values :=
    (Decoder.outcome?_list codec.decode (values.map codec.encode)).trans
      (mapM_outcome? (restores.reads medium) values)

theorem Lossless.list (lossless : codec.Lossless depth) : codec.list.Lossless (depth + 1) := by
  have restores := Restores.list lossless
  rwa [List.map_id_fun] at restores

/-- The key of an address leads back to it. -/
theorem entryOf?_print (lossless : codec.Lossless depth) (medium : Medium)
    (entry : Address × α) :
    entryOf? codec.decode medium (entry.1.print, codec.encode entry.2) = some entry := by
  unfold entryOf?
  rw [parseAddress_print, lossless.reads]
  rfl

theorem print_injective : Function.Injective (FixedBytes.print : Address → String) := by
  intro address other same
  have read := parseAddress_print address
  rw [same, parseAddress_print other] at read
  exact (Except.ok.inj read).symm

theorem printedKeys_nodup (table : AddressMap α) (encode : α → Json) :
    ((table.entries.map fun entry => (entry.1.print, encode entry.2)).map (·.1)).Nodup := by
  have keys : (table.entries.map fun entry => (entry.1.print, encode entry.2)).map (·.1) =
      table.keys.map FixedBytes.print := by
    rw [AddressMap.keys, List.map_map, List.map_map]
    rfl
  rw [keys]
  exact table.nodup_keys.map print_injective

theorem Lossless.table (lossless : codec.Lossless depth) (repetition : Repetition) :
    (table repetition codec).Lossless (depth + 1) where
  fits table := .object (printedKeys_nodup table codec.encode) fun member among => by
    obtain ⟨entry, _, rfl⟩ := List.mem_map.mp among
    exact lossless.fits entry.2
  reads medium table := by
    have accepts : repetition.Accepts (table.entries.map (·.1)) := .inr table.nodup_keys
    have entries := mapM_outcome? (entryOf?_print lossless medium) table.entries
    rw [List.map_id'] at entries
    refine (outcome?_table codec _).trans ?_
    rw [entries, Option.bind_some, if_pos accepts, AddressMap.ofList_entries]
    rfl

theorem Lossless.either (lossless : codec.Lossless depth) (second : Codec α) :
    (either codec second).Lossless depth where
  fits := lossless.fits
  reads medium value := by
    have read : codec.decode.outcome? .buffer (codec.encode value) = some value :=
      lossless.reads .buffer value
    refine (Decoder.outcome?_either codec.decode second.decode (codec.encode value)).trans ?_
    rw [read]
    rfl

end Codec

/-!
## Records
-/

namespace Fields

variable {codec : Codec α} {restored : α → α} {members : List (String × Json)} {name : String}

theorem restores_pure (value : α) : (pure value : Fields σ α).Restores depth fun _ => value where
  written _ := .refl _
  fits _ _ among := nomatch among
  reads _ _ _ _ _ _ := rfl

theorem Restores.seq {fields : Fields σ (α → β)} {next : Fields σ α} {f : σ → α → β} {x : σ → α}
    (restores : fields.Restores depth f) (nextRestores : next.Restores depth x) :
    (fields <*> next).Restores depth fun record => f record (x record) where
  written record := by
    have both := (restores.written record).append (nextRestores.written record)
    rw [← List.map_append] at both
    exact both
  fits record member among := by
    rcases List.mem_append.mp among with first | later
    · exact restores.fits record member first
    · exact nextRestores.fits record member later
  reads distinct medium record members keys leads := by
    obtain ⟨firstDistinct, nextDistinct, apart⟩ := List.nodup_append.mp distinct
    have wrote : (fields <*> next).write record = fields.write record ++ next.write record := rfl
    -- The names on one side are missing among what the other side writes, so each side
    -- meets exactly its own members.
    have first := restores.reads firstDistinct medium record members keys fun name among => by
      have absent : name ∉ (next.write record).map (·.1) := fun later =>
        apart name among name ((nextRestores.written record).subset later) rfl
      rw [leads name (List.mem_append_left _ among), wrote, List.lookup_append,
        lookup_eq_none_iff_notMem.mpr absent, Option.or_none]
    have second := nextRestores.reads nextDistinct medium record members keys fun name among => by
      have absent : name ∉ (fields.write record).map (·.1) := fun earlier =>
        apart name ((restores.written record).subset earlier) name among rfl
      rw [leads name (List.mem_append_right _ among), wrote, List.lookup_append,
        lookup_eq_none_iff_notMem.mpr absent, Option.none_or]
    rw [ofMembers?_seq, first, second]
    rfl

/-- A member that is always written is read back, whatever stands for a missing one. -/
theorem member_restores (name : String) (absent : Option α) (get : σ → α)
    (restores : codec.Restores depth restored) :
    (member name codec.decode absent fun record : σ =>
      [(name, codec.encode (get record))]).Restores depth fun record => restored (get record) where
  written _ := .refl _
  fits record member among := by
    rw [List.mem_singleton.mp among]
    exact restores.fits (get record)
  reads _ medium record members keys leads := by
    have held : members.lookup name = some (codec.encode (get record)) :=
      (leads name List.mem_cons_self).trans (by simp [member])
    rw [ofMembers?_member name codec.decode absent _ keys, held]
    exact restores.reads medium (get record)

theorem required_restores (name : String) (get : σ → α)
    (restores : codec.Restores depth restored) :
    (required name codec get).Restores depth fun record => restored (get record) :=
  member_restores name none get restores

theorem defaulted_restores (name : String) (absent : α) (get : σ → α)
    (restores : codec.Restores depth restored) :
    (defaulted name codec absent get).Restores depth fun record => restored (get record) :=
  member_restores name (some absent) get restores

/-- A member that is left out where it has no value is read back if no value is null. -/
theorem optional_restores (name : String) (get : σ → Option α)
    (lossless : codec.Lossless depth) (present : ∀ value, codec.encode value ≠ .null) :
    (optional name codec get).Restores depth get where
  written record := by
    unfold optional member
    dsimp only
    cases get record with
    | none => exact List.nil_sublist _
    | some value => exact .refl _
  fits record member among := by
    unfold optional Fields.member at among
    dsimp only at among
    cases has : get record with
    | none => rw [has] at among; cases among
    | some value =>
        rw [has] at among
        rw [List.mem_singleton.mp among]
        exact lossless.fits value
  reads _ medium record members keys leads := by
    have held := leads name List.mem_cons_self
    unfold optional at held ⊢
    rw [ofMembers?_member name codec.decode.option (some none) _ keys, held]
    unfold member
    dsimp only
    cases get record with
    | none => rfl
    | some value =>
        simp only [List.lookup_cons_self]
        exact lossless.outcome?_option present medium value

variable {fields : Fields σ α} {change : σ → α}

theorem Restores.keys_nodup (restores : fields.Restores depth change)
    (distinct : fields.names.Nodup) (record : σ) : ((fields.write record).map (·.1)).Nodup :=
  distinct.sublist (restores.written record)

theorem Restores.outcome?_object (restores : fields.Restores depth change)
    (distinct : fields.names.Nodup) (owner : Owner) (medium : Medium) (record : σ) :
    (fields.decoder owner).outcome? medium (.object (fields.write record)) =
      some (change record) := by
  rw [outcome?_decoder_object]
  exact restores.reads distinct medium record _ (restores.keys_nodup distinct record)
    fun _ _ => rfl

theorem Restores.outcome?_object_map (restores : fields.Restores depth change)
    (distinct : fields.names.Nodup) (owner : Owner) (wrap : α → β) (medium : Medium)
    (record : σ) :
    ((fields.decoder owner).map wrap).outcome? medium (.object (fields.write record)) =
      some (wrap (change record)) := by
  rw [Decoder.outcome?_map, restores.outcome?_object distinct, Option.map_some]

theorem Restores.record {fields : Fields α α} {change : α → α}
    (restores : fields.Restores depth change) (name : String) (distinct : fields.names.Nodup) :
    (Codec.record name fields).Restores (depth + 1) change where
  fits record := .object (restores.keys_nodup distinct record) (restores.fits record)
  reads medium record := restores.outcome?_object distinct (.record name) medium record

/-!
## Unions
-/

/-- With a tag in front the members of a variant are still told apart by their keys. -/
theorem Restores.taggedKeys_nodup (restores : fields.Restores depth change)
    (distinct : (Decoder.tagName :: fields.names).Nodup) (record : σ) (tag : Json) :
    (((Decoder.tagName, tag) :: fields.write record).map (·.1)).Nodup := by
  obtain ⟨fresh, distinct⟩ := List.nodup_cons.mp distinct
  exact List.nodup_cons.mpr ⟨fun among => fresh ((restores.written record).subset among),
    restores.keys_nodup distinct record⟩

theorem Restores.fits_tagged (restores : fields.Restores depth change)
    (distinct : (Decoder.tagName :: fields.names).Nodup) (tag : String) (record : σ) :
    (tagged tag (fields.write record)).Fits (depth + 1) :=
  .object (restores.taggedKeys_nodup distinct record (.text tag)) fun member among => by
    rcases List.mem_cons.mp among with rfl | among
    · exact .text tag
    · exact restores.fits record member among

/-- A union reads what was written by the variant that its tag names. -/
theorem Restores.outcome?_tagged (restores : fields.Restores depth change)
    (distinct : (Decoder.tagName :: fields.names).Nodup) {variants : List (String × Decoder β)}
    {tag : String} {variant : Decoder β} (named : named? tag variants = some variant)
    (name : String) (medium : Medium) (record : σ) :
    (Decoder.union name variants).outcome? medium (tagged tag (fields.write record)) =
      variant.outcome? .buffer (.object (fields.write record)) := by
  have fresh : Decoder.tagName ∉ (fields.write record).map (·.1) := fun among =>
    (List.nodup_cons.mp distinct).1 ((restores.written record).subset among)
  have chosen : (Decoder.tag variants).outcome? medium (.text tag) = some variant :=
    (Decoder.outcome?_tag variants medium (.text tag)).trans named
  have others : Decoder.withoutTag ((Decoder.tagName, .text tag) :: fields.write record) =
      fields.write record :=
    (List.filter_cons_of_neg (by simp)).trans (Decoder.withoutTag_of_notMem fresh)
  rw [tagged, Decoder.outcome?_union_object name variants
    (restores.taggedKeys_nodup distinct record (.text tag)), List.lookup_cons_self,
    Option.bind_some, chosen, Option.bind_some, others]

end Fields

end BatchAuction.Wire
