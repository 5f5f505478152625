import BatchAuction.Proofs.Hex
import BatchAuction.Proofs.Wire.Records
import BatchAuction.Wire.Auction

/-!
# Token tables

Auctions and pools hold tables of tokens. A table is accepted just if every key is an
address, every value decodes and no two keys are texts of one address, in whatever letter
case; then it has one entry for each member. An auction is accepted just if its parts are, so
nothing else decides about its tables.
-/

set_option autoImplicit false

namespace BatchAuction.Wire

open Json

variable {α : Type} {medium : Medium}

/-!
## One table
-/

/-- Both keys are texts of one address. -/
def SameAddress (key other : String) : Prop :=
  ∃ address, Codec.parseAddress key = .ok address ∧ Codec.parseAddress other = .ok address

/-- A key is a text of an address just if it is the one that is written for it, up to the
letter case of its digits. -/
theorem parseAddress_eq_ok_iff {key : String} {address : Address} :
    Codec.parseAddress key = .ok address ↔
      key.toList.map Hex.lowered = address.print.toList := by
  rw [← Hex.parseAddress_eq_ok_iff]
  unfold Codec.parseAddress
  cases Hex.parseAddress key <;> simp [Except.mapError]

theorem sameAddress_iff {key other : String} {address : Address}
    (parsed : Codec.parseAddress key = .ok address) :
    SameAddress key other ↔ Codec.parseAddress key = Codec.parseAddress other := by
  constructor
  · rintro ⟨shared, first, second⟩
    exact first.trans second.symm
  · exact fun same => ⟨address, parsed, same.symm.trans parsed⟩

/-- The entries have different addresses just if no two keys are texts of one. -/
theorem nodup_addresses_iff {decode : Decoder α} {members : List (String × Document)}
    {entries : List (Address × α)} (each : List.Forall₂ (EntryOf decode medium) members entries) :
    (entries.map (·.1)).Nodup ↔
      (members.map (·.1)).Pairwise fun first second => ¬ SameAddress first second := by
  have parsed : members.map (Codec.parseAddress ·.1) = (entries.map (·.1)).map .ok := by
    rw [← List.forall₂_eq_eq_eq, List.forall₂_map_left_iff, List.forall₂_map_right_iff,
      List.forall₂_map_right_iff]
    exact each.imp fun _ _ made => made.1
  have distinct : (entries.map (·.1)).Nodup ↔ (members.map (Codec.parseAddress ·.1)).Nodup := by
    rw [parsed]
    exact (List.nodup_map_iff fun _ _ same => Except.ok.inj same).symm
  rw [distinct, List.Nodup, List.pairwise_map, List.pairwise_map]
  refine List.Pairwise.iff_of_mem fun {first second} among _ => not_congr ?_
  have made : Codec.parseAddress first.1 ∈ (entries.map (·.1)).map .ok :=
    parsed ▸ List.mem_map_of_mem among
  obtain ⟨address, _, same⟩ := List.mem_map.mp made
  exact (sameAddress_iff same.symm).symm

/-- Whether there is a table for an object is a matter of its keys and of its values by
themselves. -/
theorem exists_tableOf_iff {decode : Decoder α} {members : List (String × Document)} :
    (∃ table, TableOf decode medium (.object (spelled members) .closed false) table) ↔
      (∀ member ∈ members, (∃ address, Codec.parseAddress member.1 = .ok address) ∧
        ∃ value, decode medium member.2 = .ok value) ∧
      (members.map (·.1)).Pairwise fun first second => ¬ SameAddress first second := by
  constructor
  · rintro ⟨table, others, entries, same, each, distinct, _⟩
    obtain rfl := spelled_injective (Document.object.inj same).1
    refine ⟨fun member among => ?_, (nodup_addresses_iff each).mp distinct⟩
    obtain ⟨entry, _, parsed, decoded⟩ := exists_of_mem_forall₂ each.flip among
    exact ⟨⟨entry.1, parsed⟩, entry.2, decoded⟩
  · rintro ⟨each, apart⟩
    have entry : ∀ member ∈ members, ∃ entry, EntryOf decode medium member entry := by
      intro member among
      obtain ⟨⟨address, parsed⟩, value, decoded⟩ := each member among
      exact ⟨(address, value), parsed, decoded⟩
    obtain ⟨entries, made⟩ := exists_forall₂ entry
    have distinct := (nodup_addresses_iff made).mpr apart
    exact ⟨.ofList entries, members, entries, rfl, made, distinct,
      AddressMap.entries_ofList_perm distinct⟩

/-!
## Pools
-/

def liquidityNames : List String :=
  ["id", "address", "router", "fee", "gasEstimate", "kind", "tokens"]

/-- The document is accepted as the pool, part by part. -/
structure LiquidityIn (medium : Medium) (document : Document) (pool : PostedLiquidity) : Prop where
  record : HoldsRecord liquidityNames document
  id : Takes Codec.text.decode medium none (part? liquidityNames document "id") pool.id
  address : Takes Codec.address.decode medium none (part? liquidityNames document "address")
    pool.address
  router : Takes Codec.address.decode medium none (part? liquidityNames document "router")
    pool.router
  fee : Takes Codec.scaled.decode medium none (part? liquidityNames document "fee") pool.fee
  gasEstimate : Takes Codec.amount.decode medium none
    (part? liquidityNames document "gasEstimate") pool.gasEstimate
  kind : Takes Codec.text.decode medium none (part? liquidityNames document "kind") pool.kind
  tokens : ∃ part, part? liquidityNames document "tokens" = some part ∧
    TableOf reserve.decode medium part pool.tokens

theorem takes_table_iff {codec : Codec α} {part : Option Document} {table : AddressMap α} :
    Takes (Codec.table .refused codec).decode medium none part table ↔
      ∃ document, part = some document ∧ TableOf codec.decode medium document table := by
  cases part with
  | none => exact iff_of_false nofun nofun
  | some document => simp [Takes, table_refused_eq_ok_iff]

theorem liquidity_eq_ok_iff {document : Document} {pool : PostedLiquidity} :
    liquidity.decode medium document = .ok pool ↔ LiquidityIn medium document pool := by
  change Fields.decoder _ (.record "Liquidity") medium document = _ ↔ _
  refine ((Fields.reads_pure _).field.field.field.field.field.field.field.decoder_eq_ok_iff
    (by decide) _).trans ?_
  constructor
  · rintro ⟨record, _, ⟨_, ⟨_, ⟨_, ⟨_, ⟨_, ⟨_, rfl, _, id, rfl⟩, _, address, rfl⟩, _, router, rfl⟩,
      _, fee, rfl⟩, _, gasEstimate, rfl⟩, _, kind, rfl⟩, _, tokens, rfl⟩
    exact ⟨record, id, address, router, fee, gasEstimate, kind, takes_table_iff.mp tokens⟩
  · rintro ⟨record, id, address, router, fee, gasEstimate, kind, tokens⟩
    exact ⟨record, _, ⟨_, ⟨_, ⟨_, ⟨_, ⟨_, ⟨_, rfl, _, id, rfl⟩, _, address, rfl⟩, _, router, rfl⟩,
      _, fee, rfl⟩, _, gasEstimate, rfl⟩, _, kind, rfl⟩, _, takes_table_iff.mpr tokens, rfl⟩

/-!
## Auctions
-/

def auctionNames : List String :=
  ["id", "tokens", "orders", "liquidity", "effectiveGasPrice", "deadline",
    "surplusCapturingJitOrderOwners"]

/-- The document is accepted as the auction, part by part. -/
structure AuctionIn (medium : Medium) (document : Document) (auction : PostedAuction) : Prop where
  record : HoldsRecord auctionNames document
  id : Takes Codec.auctionId.option.decode medium (some none) (part? auctionNames document "id")
    auction.id
  tokens : ∃ part, part? auctionNames document "tokens" = some part ∧
    TableOf token.decode medium part auction.tokens
  orders : Takes order.list.decode medium none (part? auctionNames document "orders")
    auction.orders
  liquidity : ∃ items, part? auctionNames document "liquidity" = some (.list items .closed false) ∧
    List.Forall₂ (LiquidityIn medium) items auction.liquidity
  effectiveGasPrice : Takes Codec.amount.decode medium none
    (part? auctionNames document "effectiveGasPrice") auction.effectiveGasPrice
  deadline : Takes Codec.timestamp.decode medium none (part? auctionNames document "deadline")
    auction.deadline
  surplusCapturingOwners : Takes Codec.address.list.decode medium (some [])
    (part? auctionNames document "surplusCapturingJitOrderOwners")
    auction.surplusCapturingOwners

theorem takes_pools_iff {part : Option Document} {pools : List PostedLiquidity} :
    Takes liquidity.list.decode medium none part pools ↔
      ∃ items, part = some (.list items .closed false) ∧
        List.Forall₂ (LiquidityIn medium) items pools := by
  cases part with
  | none => exact iff_of_false nofun nofun
  | some document =>
      change liquidity.decode.list medium document = .ok pools ↔ _
      simp only [list_eq_ok_iff, liquidity_eq_ok_iff, Option.some.injEq]

theorem auction_eq_ok_iff {document : Document} {found : PostedAuction} :
    auction.decode medium document = .ok found ↔ AuctionIn medium document found := by
  change Fields.decoder _ (.record "Auction") medium document = _ ↔ _
  refine ((Fields.reads_pure _).field.field.field.field.field.field.field.decoder_eq_ok_iff
    (by decide) _).trans ?_
  constructor
  · rintro ⟨record, _, ⟨_, ⟨_, ⟨_, ⟨_, ⟨_, ⟨_, rfl, _, id, rfl⟩, _, tokens, rfl⟩, _, orders, rfl⟩,
      _, pools, rfl⟩, _, gasPrice, rfl⟩, _, deadline, rfl⟩, _, owners, rfl⟩
    exact ⟨record, id, takes_table_iff.mp tokens, orders, takes_pools_iff.mp pools, gasPrice,
      deadline, owners⟩
  · rintro ⟨record, id, tokens, orders, pools, gasPrice, deadline, owners⟩
    exact ⟨record, _, ⟨_, ⟨_, ⟨_, ⟨_, ⟨_, ⟨_, rfl, _, id, rfl⟩, _, takes_table_iff.mpr tokens, rfl⟩,
      _, orders, rfl⟩, _, takes_pools_iff.mpr pools, rfl⟩, _, gasPrice, rfl⟩, _, deadline, rfl⟩,
      _, owners, rfl⟩

/-!
## What becomes of the tables
-/

/-- A table of tokens in an auction: its own or that of a pool. -/
inductive TokenTable (document : Document) : Document → Prop where
  | tokens {part : Document} : part? auctionNames document "tokens" = some part →
      TokenTable document part
  | pool {items : List Document} {ending : ListEnd} {tooDeep : Bool} {item part : Document} :
      part? auctionNames document "liquidity" = some (.list items ending tooDeep) →
      item ∈ items → part? liquidityNames item "tokens" = some part → TokenTable document part

/-- Two members of the object have keys that are texts of one address. -/
def Repeats (part : Document) : Prop :=
  ∃ members ending tooDeep first second firstValue secondValue,
    part = .object members ending tooDeep ∧
      [(.ok first, firstValue), (.ok second, secondValue)].Sublist members ∧
      SameAddress first second

theorem TableOf.not_repeats {decode : Decoder α} {part : Document} {table : AddressMap α}
    (accepted : TableOf decode medium part table) : ¬ Repeats part := by
  rintro ⟨_, _, _, first, second, firstValue, secondValue, rfl, among, same⟩
  obtain ⟨members, entries, whole, each, distinct, _⟩ := accepted
  obtain ⟨rfl, rfl, rfl⟩ := Document.object.inj whole
  obtain ⟨both, bothAmong, spelt⟩ := List.sublist_map_iff.mp among
  obtain rfl : [(first, firstValue), (second, secondValue)] = both := spelled_injective spelt
  have apart := ((nodup_addresses_iff each).mp distinct).sublist (bothAmong.map (·.1))
  exact List.rel_of_pairwise_cons apart List.mem_cons_self same

theorem LiquidityIn.not_repeats {document part : Document} {pool : PostedLiquidity}
    (accepted : LiquidityIn medium document pool)
    (held : part? liquidityNames document "tokens" = some part) : ¬ Repeats part := by
  obtain ⟨own, ownHeld, accepted⟩ := accepted.tokens
  cases held.symm.trans ownHeld
  exact accepted.not_repeats

/-- An auction whose tables are accepted has no repetition in any of them. -/
theorem AuctionIn.not_repeats {document part : Document} {found : PostedAuction}
    (accepted : AuctionIn medium document found) (table : TokenTable document part) :
    ¬ Repeats part := by
  cases table with
  | tokens held =>
      obtain ⟨own, ownHeld, accepted⟩ := accepted.tokens
      cases held.symm.trans ownHeld
      exact accepted.not_repeats
  | pool held among partHeld =>
      obtain ⟨items, ownHeld, each⟩ := accepted.liquidity
      cases held.symm.trans ownHeld
      obtain ⟨pool, _, poolIn⟩ := exists_of_mem_forall₂ each.flip among
      exact poolIn.not_repeats partHeld

/-- An auction and a pool are accepted just if their parts are. A part is accepted as a table
just if it is an object whose keys are texts of different addresses, in whatever letter case,
and whose values decode; the table has one entry for each member. Of an auction or a pool
with a repetition in a table nothing is made. -/
theorem token_tables_keep_every_entry (bytes : List UInt8) :
    (∀ found, decodeText auction.decode bytes = .ok found ↔
      (read bytes).trailing = false ∧ AuctionIn .text (read bytes).document found) ∧
    (∀ pool, decodeText liquidity.decode bytes = .ok pool ↔
      (read bytes).trailing = false ∧ LiquidityIn .text (read bytes).document pool) ∧
    (∀ (β : Type) (decode : Decoder β) (members : List (String × Document)),
      (∃ table, TableOf decode .text (.object (spelled members) .closed false) table) ↔
        (∀ member ∈ members, (∃ address, Codec.parseAddress member.1 = .ok address) ∧
          ∃ value, decode .text member.2 = .ok value) ∧
        (members.map (·.1)).Pairwise fun first second => ¬ SameAddress first second) ∧
    (∀ key address, Codec.parseAddress key = .ok address ↔
      key.toList.map Hex.lowered = address.print.toList) ∧
    ((∃ error, decodeText auction.decode bytes = .error error) ∨
      ¬ ∃ part, TokenTable (read bytes).document part ∧ Repeats part) ∧
    ((∃ error, decodeText liquidity.decode bytes = .error error) ∨
      ¬ ∃ part, part? liquidityNames (read bytes).document "tokens" = some part ∧
        Repeats part) := by
  refine ⟨?auctions, ?pools, fun _ _ _ => exists_tableOf_iff, fun _ _ => parseAddress_eq_ok_iff,
    ?inAuctions, ?inPools⟩
  case auctions => exact fun found => decodeText_eq_ok_iff.trans (and_congr_right' auction_eq_ok_iff)
  case pools => exact fun pool => decodeText_eq_ok_iff.trans (and_congr_right' liquidity_eq_ok_iff)
  case inAuctions =>
    refine refused_or_not fun found read ⟨part, table, repeated⟩ => ?_
    have accepted := auction_eq_ok_iff.mp (decodeText_eq_ok_iff.mp read).2
    exact accepted.not_repeats table repeated
  case inPools =>
    refine refused_or_not fun pool read ⟨part, held, repeated⟩ => ?_
    have accepted := liquidity_eq_ok_iff.mp (decodeText_eq_ok_iff.mp read).2
    exact accepted.not_repeats held repeated

end BatchAuction.Wire
