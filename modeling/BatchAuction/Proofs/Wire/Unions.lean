import BatchAuction.Proofs.Wire.Alternative
import BatchAuction.Proofs.Wire.Buffering
import BatchAuction.Proofs.Wire.Members
import BatchAuction.Proofs.Wire.Records
import BatchAuction.Proofs.Wire.Replacement
import BatchAuction.Wire.Announcement
import BatchAuction.Wire.Auction

/-!
# Unions that are told apart by their tag

A value of a union is an object that holds the tag and the members of the variant, whatever
else it holds, or a list of the tag and exactly the members of the variant in the order of
declaration. The variants are described by their members alone, which are decoded by
themselves, and each union accepts what fits one of its variants and nothing else.
-/

set_option autoImplicit false

namespace BatchAuction.Wire

open Json Fields

variable {α β σ : Type} {value : Json} {parts : String → Option Json} {name : String}
  {decode : Decoder α}

/-!
## What a variant holds
-/

/-- The part is there and decodes. -/
def Given (part : Option Json) (decode : Decoder α) (found : α) : Prop :=
  ∃ written, part = some written ∧ decodeValue decode written = .ok found

/-- The part decodes, or it is null or missing. -/
def MayBeGiven (part : Option Json) (decode : Decoder α) : Option α → Prop
  | some found => Given part decode found
  | none => part = none ∨ part = some .null

/-- The value has the tag, and `held` is what it holds under the names of the variant: in an
object by name, in a list by place behind the tag. -/
def HoldsVariant (value : Json) (tag : String) (names : List String)
    (held : (String → Option Json) → Prop) : Prop :=
  match value with
  | .object _ => value.member? "kind" = some (.text tag) ∧ held value.member?
  | .list items => ∃ rest, items = .text tag :: rest ∧ rest.length ≤ names.length ∧
      held fun name => rest[names.idxOf name]?
  | _ => False

def FeePolicyIn (value : Json) : FeePolicy → Prop
  | .surplus factor maxVolumeFactor =>
      HoldsVariant value "surplus" ["factor", "maxVolumeFactor"] fun part =>
        Given (part "factor") Codec.real.decode factor ∧
        Given (part "maxVolumeFactor") Codec.real.decode maxVolumeFactor
  | .priceImprovement factor maxVolumeFactor quote =>
      HoldsVariant value "priceImprovement" ["factor", "maxVolumeFactor", "quote"] fun part =>
        Given (part "factor") Codec.real.decode factor ∧
        Given (part "maxVolumeFactor") Codec.real.decode maxVolumeFactor ∧
        Given (part "quote") quotedTerms.decode quote
  | .volume factor =>
      HoldsVariant value "volume" ["factor"] fun part => Given (part "factor") Codec.real.decode factor

def TradeIn (value : Json) : AnnouncedTrade → Prop
  | .fulfillment trade =>
      HoldsVariant value "fulfillment" ["order", "executedAmount", "fee"] fun part =>
        Given (part "order") orderUid.decode trade.order ∧
        Given (part "executedAmount") Codec.amount.decode trade.executedAmount ∧
        MayBeGiven (part "fee") Codec.amount.decode trade.fee

def InteractionIn (value : Json) : AnnouncedInteraction → Prop
  | .liquidity swap =>
      HoldsVariant value "liquidity"
        ["internalize", "id", "inputToken", "outputToken", "inputAmount", "outputAmount"]
        fun part =>
          Given (part "internalize") Codec.boolean.decode swap.internalize ∧
          Given (part "id") Codec.text.decode swap.id ∧
          Given (part "inputToken") Codec.address.decode swap.inputToken ∧
          Given (part "outputToken") Codec.address.decode swap.outputToken ∧
          Given (part "inputAmount") Codec.amount.decode swap.inputAmount ∧
          Given (part "outputAmount") Codec.amount.decode swap.outputAmount

/-!
## Variants that read their parts
-/

/-- A part as the buffer of a union holds it. -/
def buffered (parts : String → Option Json) (name : String) : Option Document :=
  (parts name).map fun part => part.sorted.toDocument

theorem takes_buffered_iff (ignores : decode.IgnoresMedium) {found : α} :
    Takes decode .buffer none (buffered parts name) found ↔ Given (parts name) decode found := by
  unfold buffered Given
  cases parts name with
  | none => simp [Takes]
  | some part =>
      have same := ignores.outcome?_eq .buffer .value part.sorted
      simp only [Option.map_some, Takes, Option.some.injEq, exists_eq_left',
        decodeValue_eq_ok_iff, ← Decoder.outcome?_eq_some_iff, same]

theorem takes_option_buffered_iff (ignores : decode.IgnoresMedium)
    (refused : ∀ found, decodeValue decode .null ≠ .ok found) {found : Option α} :
    Takes decode.option .buffer (some none) (buffered parts name) found ↔
      MayBeGiven (parts name) decode found := by
  have given := @takes_buffered_iff _ parts name _ ignores.option found
  unfold buffered at given ⊢
  cases part : parts name with
  | none => cases found <;> simp [Takes, MayBeGiven, Given]
  | some part =>
      rw [part] at given
      refine given.trans ?_
      unfold Given
      simp only [decodeValue_option_eq_ok_iff refused]
      cases found <;> simp [MayBeGiven, Given]

/-- A variant reads the parts of the names, from the other members of an object or from the
other items of a list. -/
structure ReadsParts (variant : Decoder α) (names : List String)
    (held : (String → Option Json) → α → Prop) : Prop where
  ofObject : ∀ members result,
    variant.outcome? .buffer
        (.object (Decoder.withoutTag (sortMembers (sortedMembers members)))) = some result ↔
      held (lookup? members) result
  ofList : ∀ items result,
    variant.outcome? .buffer (.list (sortedItems items)) = some result ↔
      items.length ≤ names.length ∧ held (fun name => items[names.idxOf name]?) result

theorem sortedItems_eq_map (items : List Json) : sortedItems items = items.map sorted := by
  induction items with
  | nil => rfl
  | cons item rest ih => rw [sortedItems, ih, List.map_cons]

theorem lookup_withoutTag {members : List (String × Json)} (own : name ≠ Decoder.tagName) :
    (Decoder.withoutTag (sortMembers (sortedMembers members))).lookup name =
      (lookup? members name).map sorted := by
  rw [Decoder.withoutTag, lookup_filter_key _ (· != Decoder.tagName), lookup_sorted]
  exact if_pos (bne_iff_ne.mpr own)

theorem nodup_keys_withoutTag (members : List (String × Json)) :
    ((Decoder.withoutTag (sortMembers members)).map (·.1)).Nodup :=
  (keys_nodup_sortMembers members).sublist (List.filter_sublist.map _)

/-- Fields that read documents by name read the parts of a variant, as long as none has the
name of the tag. -/
theorem Fields.Reads.readsParts {fields : Fields σ α}
    {made : (String → Option Document) → α → Prop} (reads : fields.Reads .buffer made)
    (distinct : fields.names.Nodup) (untagged : Decoder.tagName ∉ fields.names) (owner : Owner) :
    ReadsParts (fields.decoder owner) fields.names fun parts => made (buffered parts) where
  ofObject members result := by
    have keys := nodup_keys_withoutTag (sortedMembers members)
    have leads : made ((heldEntries (Decoder.withoutTag
        (sortMembers (sortedMembers members)))).lookup ·) =
        made (buffered (lookup? members)) := by
      apply reads.local_parts
      intro name among
      have apart : name ≠ Decoder.tagName := fun same => untagged (same ▸ among)
      rw [lookup_heldEntries, lookup_withoutTag apart, Option.map_map]
      rfl
    have own := reads.ofMembers
      (heldEntries (Decoder.withoutTag (sortMembers (sortedMembers members)))) result
    rw [leads, map_fst_heldEntries] at own
    rw [outcome?_decoder_object, ofMembers?, ← own.trans
      (and_iff_right fun name _ => List.nodup_iff_count_le_one.mp keys name)]
    exact toOption_eq_some_iff
  ofList items result := by
    have accepted : fields.readList owner .buffer .closed (itemDocuments (sortedItems items)) =
        .ok result ↔ _ := reads.readList_eq_ok_iff distinct owner
    rw [Decoder.outcome?_eq_some_iff]
    refine accepted.trans ?_
    have parts : (fun name => (itemDocuments (sortedItems items))[fields.names.idxOf name]?) =
        buffered fun name => items[fields.names.idxOf name]? := by
      funext name
      unfold buffered
      rw [itemDocuments_eq_map, sortedItems_eq_map, List.map_map, List.getElem?_map]
      rfl
    rw [parts]
    simp [itemDocuments_eq_map, sortedItems_eq_map]

theorem ReadsParts.map {variant : Decoder α} {names : List String}
    {held : (String → Option Json) → α → Prop} (reads : ReadsParts variant names held)
    (change : α → β) :
    ReadsParts (variant.map change) names fun parts result =>
      ∃ found, held parts found ∧ change found = result where
  ofObject members result := by
    simp only [Decoder.outcome?_map, Option.map_eq_some_iff, reads.ofObject]
  ofList items result := by
    simp only [Decoder.outcome?_map, Option.map_eq_some_iff, reads.ofList, and_assoc,
      exists_and_left]

theorem ReadsParts.congr {variant : Decoder α} {names : List String}
    {held other : (String → Option Json) → α → Prop} (reads : ReadsParts variant names held)
    (same : ∀ parts result, held parts result ↔ other parts result) :
    ReadsParts variant names other where
  ofObject members result := (reads.ofObject members result).trans (same _ _)
  ofList items result := (reads.ofList items result).trans (and_congr_right' (same _ _))

/-!
## Unions
-/

/-- The tag of the value is that of the variant, which reads the rest from a buffer. -/
def Chooses (value : Json) (tag : String) (variant : Decoder α) (result : α) : Prop :=
  match value with
  | .object members => value.member? Decoder.tagName = some (.text tag) ∧
      variant.outcome? .buffer
        (.object (Decoder.withoutTag (sortMembers (sortedMembers members)))) = some result
  | .list items => ∃ rest, items = .text tag :: rest ∧
      variant.outcome? .buffer (.list (sortedItems rest)) = some result
  | _ => False

/-- A tag in memory chooses the variant of a name just if it is the name. -/
theorem outcome?_tag_value_eq_some_iff {entries : List (String × α)}
    (distinct : (entries.map (·.1)).Nodup) {tag : Json} {chosen : α} :
    (Decoder.tag entries).outcome? .value tag.sorted = some chosen ↔
      ∃ entry ∈ entries, tag = .text entry.1 ∧ entry.2 = chosen := by
  rw [Decoder.outcome?_tag]
  constructor
  · intro chooses
    split at chooses
    · rename_i named
      exact ⟨_, mem_of_named? chooses, sorted_eq_text_iff.mp named, rfl⟩
    · simp at chooses
    · cases chooses
  · intro holds
    obtain ⟨entry, among, rfl, rfl⟩ := holds
    exact (Entries.find?_eq_some_iff distinct).mpr among

theorem decodeValue_union_eq_ok_iff {name : String} {variants : List (String × Decoder α)}
    (distinct : (variants.map (·.1)).Nodup) {result : α} :
    decodeValue (Decoder.union name variants) value = .ok result ↔
      ∃ entry ∈ variants, Chooses value entry.1 entry.2 result := by
  rw [decodeValue_eq_ok_iff]
  cases value with
  | object members =>
      have keys := keys_nodup_sortMembers (sortedMembers members)
      rw [sorted, Decoder.outcome?_union_object _ _ keys, lookup_sorted]
      unfold Chooses
      cases (Json.object members).member? Decoder.tagName with
      | none => simp
      | some tag =>
          simp only [Option.map_some, Option.bind_some, Option.bind_eq_some_iff,
            outcome?_tag_value_eq_some_iff distinct, Option.some.injEq]
          constructor
          · intro accepted
            obtain ⟨_, ⟨entry, among, tagged, rfl⟩, read⟩ := accepted
            exact ⟨entry, among, tagged, read⟩
          · intro chooses
            obtain ⟨entry, among, tagged, read⟩ := chooses
            exact ⟨entry.2, ⟨entry, among, tagged, rfl⟩, read⟩
  | list items =>
      rw [sorted, Decoder.outcome?_union_list]
      unfold Chooses
      cases items with
      | nil => simp [sortedItems]
      | cons tag rest =>
          simp only [sortedItems, Option.bind_eq_some_iff, outcome?_tag_value_eq_some_iff distinct,
            List.cons.injEq]
          constructor
          · intro accepted
            obtain ⟨_, ⟨entry, among, tagged, rfl⟩, read⟩ := accepted
            exact ⟨entry, among, rest, ⟨tagged, rfl⟩, read⟩
          · intro chooses
            obtain ⟨entry, among, _, ⟨tagged, rfl⟩, read⟩ := chooses
            exact ⟨entry.2, ⟨entry, among, tagged, rfl⟩, read⟩
  | _ => simp [Chooses, sorted, Decoder.outcome?, Decoder.union, toDocument]

theorem ReadsParts.chooses_iff {variant : Decoder α} {names : List String}
    {held : (String → Option Json) → α → Prop} (reads : ReadsParts variant names held)
    {tag : String} {result : α} :
    Chooses value tag variant result ↔ HoldsVariant value tag names fun parts => held parts result := by
  cases value with
  | object members => exact and_congr_right' (reads.ofObject members result)
  | list items => simp only [Chooses, HoldsVariant, reads.ofList]
  | _ => exact Iff.rfl

@[simp] theorem holdsVariant_false {tag : String} {names : List String} :
    HoldsVariant value tag names (fun _ => False) ↔ False := by
  cases value <;> simp [HoldsVariant]

/-!
## Formats
-/

theorem real_ignoresMedium : Codec.real.decode.IgnoresMedium := fun _ _ _ => rfl

theorem boolean_ignoresMedium : Codec.boolean.decode.IgnoresMedium := fun _ _ _ => rfl

theorem text_ignoresMedium : Codec.text.decode.IgnoresMedium := fun _ _ _ => rfl

theorem amount_refuses_null (found : Amount) :
    decodeValue Codec.amount.decode .null ≠ .ok found := nofun

theorem quotedTerms_ignoresMedium : quotedTerms.decode.IgnoresMedium :=
  (Fields.pure_ignoresMedium _)
    |>.seq (Fields.required_ignoresMedium "sellAmount" _ Codec.amount_ignoresMedium)
    |>.seq (Fields.required_ignoresMedium "buyAmount" _ Codec.amount_ignoresMedium)
    |>.seq (Fields.required_ignoresMedium "fee" _ Codec.amount_ignoresMedium)
    |>.seq (Fields.member_ignoresMedium "solver" _ _ Codec.address_ignoresMedium.option)
    |>.decoder _

theorem surplus_readsParts (owner : Owner) :
    ReadsParts (surplusFields.decoder owner) ["factor", "maxVolumeFactor"]
      fun part policy => ∃ factor maxVolumeFactor, (Given (part "factor") Codec.real.decode factor ∧
        Given (part "maxVolumeFactor") Codec.real.decode maxVolumeFactor) ∧
        .surplus factor maxVolumeFactor = policy := by
  apply ((reads_pure _).field.field.readsParts (by decide) (by decide) _).congr
  intro parts policy
  simp only [takes_buffered_iff real_ignoresMedium]
  constructor
  · intro read
    obtain ⟨_, ⟨_, rfl, factor, factorGiven, rfl⟩, most, mostGiven, rfl⟩ := read
    exact ⟨factor, most, ⟨factorGiven, mostGiven⟩, rfl⟩
  · intro holds
    obtain ⟨factor, most, ⟨factorGiven, mostGiven⟩, rfl⟩ := holds
    exact ⟨_, ⟨_, rfl, factor, factorGiven, rfl⟩, most, mostGiven, rfl⟩

theorem priceImprovement_readsParts (owner : Owner) :
    ReadsParts (priceImprovementFields.decoder owner) ["factor", "maxVolumeFactor", "quote"]
      fun part policy => ∃ factor maxVolumeFactor quote,
        (Given (part "factor") Codec.real.decode factor ∧
          Given (part "maxVolumeFactor") Codec.real.decode maxVolumeFactor ∧
          Given (part "quote") quotedTerms.decode quote) ∧
        .priceImprovement factor maxVolumeFactor quote = policy := by
  apply ((reads_pure _).field.field.field.readsParts (by decide) (by decide) _).congr
  intro parts policy
  simp only [takes_buffered_iff real_ignoresMedium, takes_buffered_iff quotedTerms_ignoresMedium]
  constructor
  · intro read
    obtain ⟨_, ⟨_, ⟨_, rfl, factor, factorGiven, rfl⟩, most, mostGiven, rfl⟩, quote, quoteGiven,
      rfl⟩ := read
    exact ⟨factor, most, quote, ⟨factorGiven, mostGiven, quoteGiven⟩, rfl⟩
  · intro holds
    obtain ⟨factor, most, quote, ⟨factorGiven, mostGiven, quoteGiven⟩, rfl⟩ := holds
    exact ⟨_, ⟨_, ⟨_, rfl, factor, factorGiven, rfl⟩, most, mostGiven, rfl⟩, quote, quoteGiven,
      rfl⟩

theorem volume_readsParts (owner : Owner) :
    ReadsParts (volumeFields.decoder owner) ["factor"]
      fun part policy => ∃ factor, Given (part "factor") Codec.real.decode factor ∧
        .volume factor = policy := by
  apply ((reads_pure _).field.readsParts (by decide) (by decide) _).congr
  intro parts policy
  simp only [takes_buffered_iff real_ignoresMedium, exists_eq_left']

theorem fulfillment_readsParts (owner : Owner) :
    ReadsParts (fulfillmentFields.decoder owner) ["order", "executedAmount", "fee"]
      fun part trade => Given (part "order") orderUid.decode trade.order ∧
        Given (part "executedAmount") Codec.amount.decode trade.executedAmount ∧
        MayBeGiven (part "fee") Codec.amount.decode trade.fee := by
  apply ((reads_pure _).field.field.field.readsParts (by decide) (by decide) _).congr
  intro parts trade
  simp only [orderUid, takes_buffered_iff (Codec.fixedBytes_ignoresMedium 56),
    takes_buffered_iff Codec.amount_ignoresMedium,
    takes_option_buffered_iff Codec.amount_ignoresMedium amount_refuses_null]
  constructor
  · intro read
    obtain ⟨_, ⟨_, ⟨_, rfl, _, order, rfl⟩, _, amount, rfl⟩, _, fee, rfl⟩ := read
    exact ⟨order, amount, fee⟩
  · intro holds
    obtain ⟨order, amount, fee⟩ := holds
    exact ⟨_, ⟨_, ⟨_, rfl, _, order, rfl⟩, _, amount, rfl⟩, _, fee, rfl⟩

theorem swap_readsParts (owner : Owner) :
    ReadsParts (swapFields.decoder owner)
      ["internalize", "id", "inputToken", "outputToken", "inputAmount", "outputAmount"]
      fun part swap => Given (part "internalize") Codec.boolean.decode swap.internalize ∧
        Given (part "id") Codec.text.decode swap.id ∧
        Given (part "inputToken") Codec.address.decode swap.inputToken ∧
        Given (part "outputToken") Codec.address.decode swap.outputToken ∧
        Given (part "inputAmount") Codec.amount.decode swap.inputAmount ∧
        Given (part "outputAmount") Codec.amount.decode swap.outputAmount := by
  apply ((reads_pure _).field.field.field.field.field.field.readsParts (by decide) (by decide)
    _).congr
  intro parts swap
  simp only [takes_buffered_iff boolean_ignoresMedium, takes_buffered_iff text_ignoresMedium,
    takes_buffered_iff Codec.address_ignoresMedium, takes_buffered_iff Codec.amount_ignoresMedium]
  constructor
  · intro read
    obtain ⟨_, ⟨_, ⟨_, ⟨_, ⟨_, ⟨_, rfl, _, internalize, rfl⟩, _, id, rfl⟩, _, inputToken, rfl⟩, _,
      outputToken, rfl⟩, _, inputAmount, rfl⟩, _, outputAmount, rfl⟩ := read
    exact ⟨internalize, id, inputToken, outputToken, inputAmount, outputAmount⟩
  · intro holds
    obtain ⟨internalize, id, inputToken, outputToken, inputAmount, outputAmount⟩ := holds
    exact ⟨_, ⟨_, ⟨_, ⟨_, ⟨_, ⟨_, rfl, _, internalize, rfl⟩, _, id, rfl⟩, _, inputToken, rfl⟩, _,
      outputToken, rfl⟩, _, inputAmount, rfl⟩, _, outputAmount, rfl⟩

theorem decodeValue_feePolicy_iff {policy : FeePolicy} :
    decodeValue feePolicy.decode value = .ok policy ↔ FeePolicyIn value policy := by
  change decodeValue (Decoder.union _ _) value = _ ↔ _
  rw [decodeValue_union_eq_ok_iff (by decide)]
  simp only [List.mem_cons, List.not_mem_nil, or_false, exists_eq_or_imp, exists_eq_left,
    (surplus_readsParts _).chooses_iff, (priceImprovement_readsParts _).chooses_iff,
    (volume_readsParts _).chooses_iff]
  cases policy <;> simp [FeePolicyIn]

theorem decodeValue_trade_iff {trade : AnnouncedTrade} :
    decodeValue Wire.trade.decode value = .ok trade ↔ TradeIn value trade := by
  change decodeValue (Decoder.union _ _) value = _ ↔ _
  rw [decodeValue_union_eq_ok_iff (by decide)]
  simp only [List.mem_singleton, exists_eq_left,
    ((fulfillment_readsParts _).map _).chooses_iff]
  cases trade
  simp [TradeIn]

theorem decodeValue_interaction_iff {interaction : AnnouncedInteraction} :
    decodeValue Wire.interaction.decode value = .ok interaction ↔
      InteractionIn value interaction := by
  change decodeValue (Decoder.union _ _) value = _ ↔ _
  rw [decodeValue_union_eq_ok_iff (by decide)]
  simp only [List.mem_singleton, exists_eq_left, ((swap_readsParts _).map _).chooses_iff]
  cases interaction
  simp [InteractionIn]

/-- Each union accepts the values that hold one of its variants, and nothing else. -/
theorem unions_accept_just_their_variants (value : Json) :
    (∀ policy, decodeValue feePolicy.decode value = .ok policy ↔ FeePolicyIn value policy) ∧
    (∀ found, decodeValue trade.decode value = .ok found ↔ TradeIn value found) ∧
    (∀ found, decodeValue interaction.decode value = .ok found ↔ InteractionIn value found) :=
  ⟨fun _ => decodeValue_feePolicy_iff, fun _ => decodeValue_trade_iff,
    fun _ => decodeValue_interaction_iff⟩

end BatchAuction.Wire
