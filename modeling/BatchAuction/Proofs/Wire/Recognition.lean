import BatchAuction.Proofs.Entries
import BatchAuction.Proofs.Wire.Alternative
import BatchAuction.Proofs.Wire.Members

/-!
# Which notifications are recognized

A notification of a known kind is an object whose tag tells the kind, whose members of the
kind decode, and whose identifiers are missing, null or decodable. Every other object is
kept as a notification of unrecognized kind. The tag is read from a buffer, where the
number of a name stands for the name.
-/

set_option autoImplicit false

namespace BatchAuction.NotificationKind

open Wire

/-- The object holds the members of the kind. Only whether a simulation succeeded once may
be missing. -/
def MembersIn (value : Json) : NotificationKind → Prop
  | .timeout | .emptySolution | .duplicatedSolutionId | .invalidClearingPrices
  | .invalidExecutedAmount | .cancelled | .fail | .postprocessingTimedOut => True
  | .simulationFailed block transaction succeededOnce =>
      Holds value "block" Codec.unsigned64.decode block ∧
      Holds value "tx" Wire.transaction.decode transaction ∧
      (Holds value "succeededOnce" Decoder.boolean succeededOnce ∨
        value.member? "succeededOnce" = none ∧ succeededOnce = false)
  | .missingPrice token => Holds value "tokenAddress" Codec.address.decode token
  | .nonBufferableTokensUsed tokens => Holds value "tokens" Codec.addressSet.decode tokens
  | .solverAccountInsufficientBalance required =>
      Holds value "required" Codec.amount.decode required
  | .success transaction | .revert transaction =>
      Holds value "transaction" (Codec.fixedBytes 32).decode transaction
  | .driverError reason => Holds value "reason" Decoder.text reason
  | .banned reason lastBlock =>
      Holds value "reason" Decoder.text reason ∧
      Holds value "until" Codec.unsigned64.decode lastBlock
  | .unrecognized _ => False

/-- The tag is the name of the kind, or the number of the name. -/
def NamedBy (kind : NotificationKind) (tag : Json) : Prop :=
  tag = .text kind.label ∨
    ∃ place : Nat, tag = .natural place ∧
      (notificationKinds.map (·.1))[place]? = some kind.label

end BatchAuction.NotificationKind

namespace BatchAuction.Wire

open Json Fields

variable {α β σ : Type} {medium : Medium} {members : List (String × Json)} {value : Json}

/-- The object is a notification of a known kind. -/
structure Recognized (value : Json) (notification : Notification) : Prop where
  tag : ∃ tag, value.member? Decoder.tagName = some tag ∧ notification.kind.NamedBy tag
  members : notification.kind.MembersIn value
  auctionId : MayHold value "auctionId" Codec.auctionId.decode notification.auctionId
  solution : MayHold value "solutionId" solutionReference notification.solution

/-!
## The members of a kind
-/

/-- The members lead to what the object holds under every name that no identifier and no
tag has. -/
def LeadsToMembers (members : List (String × Json)) (value : Json) : Prop :=
  ∀ name, name ∉ ["kind", "auctionId", "solutionId"] →
    members.lookup name = (value.member? name).map sorted

section Kinds

variable {kind : NotificationKind}

private theorem read_kindMembers_iff {name : String} {fields : Fields Unit NotificationKind} :
    (kindMembers name fields).outcome? medium (.object members) = some kind ↔
      fields.ofMembers? medium members = some kind := by
  rw [kindMembers, outcome?_decoder_object]

/-- A kind with one member takes what the object holds under its name. -/
private theorem read_single_iff {name variant : String} {make : α → NotificationKind}
    {decode : Decoder α} (distinct : (members.map (·.1)).Nodup)
    (ignores : decode.IgnoresMedium)
    (leads : members.lookup name = (value.member? name).map sorted) :
    (kindMembers variant (pure make <*> given name decode)).outcome? medium
        (.object members) = some kind ↔
      ∃ part, Holds value name decode part ∧ make part = kind := by
  rw [read_kindMembers_iff, ofMembers?_seq_eq_some_iff]
  simp only [ofMembers?_pure_eq_some_iff, exists_eq_left',
    ofMembers?_given_eq_some_iff ignores distinct leads]

private theorem read_banned_iff (distinct : (members.map (·.1)).Nodup)
    (leads : LeadsToMembers members value) {variant : String} :
    (kindMembers variant
        (pure NotificationKind.banned
          <*> given "reason" Decoder.text
          <*> given "until" Codec.unsigned64.decode)).outcome? medium (.object members) =
        some kind ↔
      ∃ reason lastBlock, (Holds value "reason" Decoder.text reason ∧
        Holds value "until" Codec.unsigned64.decode lastBlock) ∧
          .banned reason lastBlock = kind := by
  rw [read_kindMembers_iff]
  simp only [ofMembers?_seq_eq_some_iff, ofMembers?_pure_eq_some_iff, exists_eq_left',
    ofMembers?_given_eq_some_iff Decoder.text_ignoresMedium distinct
      (leads "reason" (by decide)),
    ofMembers?_given_eq_some_iff Codec.unsigned64_ignoresMedium distinct
      (leads "until" (by decide))]
  constructor
  · rintro ⟨_, ⟨reason, reasonHeld, rfl⟩, lastBlock, blockHeld, made⟩
    exact ⟨reason, lastBlock, ⟨reasonHeld, blockHeld⟩, made⟩
  · rintro ⟨reason, lastBlock, ⟨reasonHeld, blockHeld⟩, made⟩
    exact ⟨_, ⟨reason, reasonHeld, rfl⟩, lastBlock, blockHeld, made⟩

private theorem read_simulationFailed_iff (distinct : (members.map (·.1)).Nodup)
    (leads : LeadsToMembers members value) {variant : String} :
    (kindMembers variant
        (pure NotificationKind.simulationFailed
          <*> given "block" Codec.unsigned64.decode
          <*> given "tx" transaction.decode
          <*> member "succeededOnce" Decoder.boolean (some false) fun _ => [])).outcome?
        medium (.object members) = some kind ↔
      ∃ block transaction succeededOnce,
        NotificationKind.MembersIn value (.simulationFailed block transaction succeededOnce) ∧
          .simulationFailed block transaction succeededOnce = kind := by
  rw [read_kindMembers_iff]
  simp only [ofMembers?_seq_eq_some_iff, ofMembers?_pure_eq_some_iff, exists_eq_left',
    ofMembers?_given_eq_some_iff Codec.unsigned64_ignoresMedium distinct
      (leads "block" (by decide)),
    ofMembers?_given_eq_some_iff transaction_ignoresMedium distinct (leads "tx" (by decide)),
    ofMembers?_member_eq_some_iff Decoder.boolean_ignoresMedium _ _ distinct
      (leads "succeededOnce" (by decide)), Option.some_inj]
  constructor
  · rintro ⟨_, ⟨_, ⟨block, blockHeld, rfl⟩, transaction, transactionHeld, rfl⟩, once, onceHeld,
      made⟩
    exact ⟨block, transaction, once,
      ⟨blockHeld, transactionHeld, onceHeld.imp_right (.imp_right Eq.symm)⟩, made⟩
  · rintro ⟨block, transaction, once, ⟨blockHeld, transactionHeld, onceHeld⟩, made⟩
    exact ⟨_, ⟨_, ⟨block, blockHeld, rfl⟩, transaction, transactionHeld, rfl⟩, once,
      onceHeld.imp_right (.imp_right Eq.symm), made⟩

/-- What a variant makes of an object is a kind of the name of the variant. -/
theorem membersIn_of_read (distinct : (members.map (·.1)).Nodup)
    (leads : LeadsToMembers members value) {entry : String × Decoder NotificationKind}
    (among : entry ∈ notificationKinds)
    (made : entry.2.outcome? .buffer (.object members) = some kind) :
    entry.1 = kind.label ∧ kind.MembersIn value := by
  have constant : ∀ {read : NotificationKind} {name : String}, name = read.label →
      read.MembersIn value →
      (Decoder.constant read).outcome? .buffer (.object members) = some kind →
      name = kind.label ∧ kind.MembersIn value := by
    rintro read _ rfl within made
    cases made
    exact ⟨rfl, within⟩
  have single : ∀ {α : Type} {make : α → NotificationKind} {decode : Decoder α}
      {label name variant : String}, decode.IgnoresMedium →
      name ∉ ["kind", "auctionId", "solutionId"] →
      (∀ part, Holds value name decode part →
        label = (make part).label ∧ (make part).MembersIn value) →
      (kindMembers variant (pure make <*> given name decode)).outcome? .buffer
        (.object members) = some kind →
      label = kind.label ∧ kind.MembersIn value := by
    intro α make decode label name variant ignores own within made
    obtain ⟨part, held, rfl⟩ := (read_single_iff distinct ignores (leads name own)).mp made
    exact within part held
  revert entry
  simp only [notificationKinds, List.forall_mem_cons, List.not_mem_nil, false_imp_iff,
    implies_true, and_true]
  refine ⟨constant rfl trivial, constant rfl trivial, constant rfl trivial, ?simulationFailed,
    constant rfl trivial,
    single Codec.address_ignoresMedium (by decide) fun _ held => ⟨rfl, held⟩,
    constant rfl trivial,
    single Codec.addressSet_ignoresMedium (by decide) fun _ held => ⟨rfl, held⟩,
    single Codec.amount_ignoresMedium (by decide) fun _ held => ⟨rfl, held⟩,
    single (Codec.fixedBytes_ignoresMedium 32) (by decide) fun _ held => ⟨rfl, held⟩,
    single (Codec.fixedBytes_ignoresMedium 32) (by decide) fun _ held => ⟨rfl, held⟩,
    single Decoder.text_ignoresMedium (by decide) fun _ held => ⟨rfl, held⟩,
    constant rfl trivial, constant rfl trivial, constant rfl trivial, ?banned⟩
  case simulationFailed =>
    intro made
    obtain ⟨block, transaction, once, within, rfl⟩ :=
      (read_simulationFailed_iff distinct leads).mp made
    exact ⟨rfl, within⟩
  case banned =>
    intro made
    obtain ⟨reason, lastBlock, within, rfl⟩ := (read_banned_iff distinct leads).mp made
    exact ⟨rfl, within⟩

/-- A kind whose members an object holds is what the variant of its name makes of it. -/
theorem read_of_membersIn (distinct : (members.map (·.1)).Nodup)
    (leads : LeadsToMembers members value) (within : kind.MembersIn value) :
    ∃ variant, (kind.label, variant) ∈ notificationKinds ∧
      variant.outcome? .buffer (.object members) = some kind := by
  cases kind with
  | timeout => exact ⟨_, List.mem_of_getElem? (i := 0) rfl, rfl⟩
  | emptySolution => exact ⟨_, List.mem_of_getElem? (i := 1) rfl, rfl⟩
  | duplicatedSolutionId => exact ⟨_, List.mem_of_getElem? (i := 2) rfl, rfl⟩
  | simulationFailed block transaction once =>
      exact ⟨_, List.mem_of_getElem? (i := 3) rfl,
        (read_simulationFailed_iff distinct leads).mpr ⟨_, _, _, within, rfl⟩⟩
  | invalidClearingPrices => exact ⟨_, List.mem_of_getElem? (i := 4) rfl, rfl⟩
  | missingPrice token =>
      exact ⟨_, List.mem_of_getElem? (i := 5) rfl, (read_single_iff distinct
        Codec.address_ignoresMedium (leads _ (by decide))).mpr ⟨_, within, rfl⟩⟩
  | invalidExecutedAmount => exact ⟨_, List.mem_of_getElem? (i := 6) rfl, rfl⟩
  | nonBufferableTokensUsed tokens =>
      exact ⟨_, List.mem_of_getElem? (i := 7) rfl, (read_single_iff distinct
        Codec.addressSet_ignoresMedium (leads _ (by decide))).mpr ⟨_, within, rfl⟩⟩
  | solverAccountInsufficientBalance required =>
      exact ⟨_, List.mem_of_getElem? (i := 8) rfl, (read_single_iff distinct
        Codec.amount_ignoresMedium (leads _ (by decide))).mpr ⟨_, within, rfl⟩⟩
  | success transaction =>
      exact ⟨_, List.mem_of_getElem? (i := 9) rfl, (read_single_iff distinct
        (Codec.fixedBytes_ignoresMedium 32) (leads _ (by decide))).mpr ⟨_, within, rfl⟩⟩
  | revert transaction =>
      exact ⟨_, List.mem_of_getElem? (i := 10) rfl, (read_single_iff distinct
        (Codec.fixedBytes_ignoresMedium 32) (leads _ (by decide))).mpr ⟨_, within, rfl⟩⟩
  | driverError reason =>
      exact ⟨_, List.mem_of_getElem? (i := 11) rfl, (read_single_iff distinct
        Decoder.text_ignoresMedium (leads _ (by decide))).mpr ⟨_, within, rfl⟩⟩
  | cancelled => exact ⟨_, List.mem_of_getElem? (i := 12) rfl, rfl⟩
  | fail => exact ⟨_, List.mem_of_getElem? (i := 13) rfl, rfl⟩
  | postprocessingTimedOut => exact ⟨_, List.mem_of_getElem? (i := 14) rfl, rfl⟩
  | banned reason lastBlock =>
      exact ⟨_, List.mem_of_getElem? (i := 15) rfl,
        (read_banned_iff distinct leads).mpr ⟨_, _, within, rfl⟩⟩
  | unrecognized name => exact within.elim

end Kinds

/-!
## The tag
-/

/-- In a buffer a tag is one of the names or the number of one. -/
theorem outcome?_tag_buffer_eq_some_iff {entries : List (String × α)}
    (distinct : (entries.map (·.1)).Nodup) {tag : Json} {chosen : α} :
    (Decoder.tag entries).outcome? .buffer tag = some chosen ↔
      ∃ name, (name, chosen) ∈ entries ∧
        (tag = .text name ∨
          ∃ place : Nat, tag = .natural place ∧ (entries.map (·.1))[place]? = some name) := by
  rw [Decoder.outcome?_tag]
  constructor
  · intro chooses
    split at chooses
    · exact ⟨_, mem_of_named? chooses, .inl rfl⟩
    · rename_i index
      obtain ⟨⟨_, positive⟩, chooses⟩ := Option.ite_none_right_eq_some.mp chooses
      obtain ⟨entry, found, rfl⟩ := Option.map_eq_some_iff.mp chooses
      refine ⟨entry.1, List.mem_of_getElem? found, .inr ⟨index.toNat, ?_, ?_⟩⟩
      · rw [natural, Int.toNat_of_nonneg positive]
      · rw [List.getElem?_map, found]
        rfl
    · cases chooses
  · rintro ⟨name, among, rfl | ⟨place, rfl, named⟩⟩
    · exact (Entries.find?_eq_some_iff distinct).mpr among
    · rw [List.getElem?_map] at named
      obtain ⟨entry, found, rfl⟩ := Option.map_eq_some_iff.mp named
      have same : entry.2 = chosen := by
        have first := (Entries.find?_eq_some_iff distinct).mpr (List.mem_of_getElem? found)
        have second := (Entries.find?_eq_some_iff distinct).mpr among
        exact Option.some_inj.mp (first.symm.trans second)
      simp [natural, found, same]

theorem notificationKinds_nodup : (notificationKinds.map (·.1)).Nodup := by decide

/-- A tag chooses the variant of a name just if it is the name or its number. -/
theorem notificationTag_iff {tag : Json} {chosen : Decoder NotificationKind} :
    (Decoder.tag notificationKinds).outcome? .buffer tag.sorted = some chosen ↔
      ∃ name, (name, chosen) ∈ notificationKinds ∧
        (tag = .text name ∨ ∃ place : Nat, tag = .natural place ∧
          (notificationKinds.map (·.1))[place]? = some name) := by
  rw [outcome?_tag_buffer_eq_some_iff notificationKinds_nodup]
  simp only [sorted_eq_text_iff, sorted_eq_natural_iff]

/-!
## Notifications
-/

/-- The kind is read from what the identifiers leave. -/
theorem notificationKind_read_iff {kind : NotificationKind}
    (distinct : (members.map (·.1)).Nodup)
    (leads : ∀ name, name ∉ ["auctionId", "solutionId"] →
      members.lookup name = (value.member? name).map sorted) :
    (Decoder.union "Kind" notificationKinds).outcome? .buffer (.object members) = some kind ↔
      (∃ tag, value.member? Decoder.tagName = some tag ∧ kind.NamedBy tag) ∧
        kind.MembersIn value := by
  have restDistinct : ((Decoder.withoutTag members).map (·.1)).Nodup :=
    distinct.sublist (List.filter_sublist.map _)
  have restLeads : LeadsToMembers (Decoder.withoutTag members) value := by
    intro name own
    simp only [List.mem_cons, not_or] at own
    rw [Decoder.withoutTag, lookup_filter_key members (· != Decoder.tagName),
      leads name (by simp [own])]
    exact if_pos (bne_iff_ne.mpr own.1)
  rw [Decoder.outcome?_union_object _ _ distinct, leads Decoder.tagName (by decide)]
  constructor
  · intro made
    obtain ⟨tag, found, made⟩ := Option.bind_eq_some_iff.mp made
    obtain ⟨written, held, rfl⟩ := Option.map_eq_some_iff.mp found
    obtain ⟨variant, chosen, made⟩ := Option.bind_eq_some_iff.mp made
    obtain ⟨name, among, named⟩ := notificationTag_iff.mp chosen
    obtain ⟨rfl, within⟩ := membersIn_of_read restDistinct restLeads among made
    exact ⟨⟨written, held, named⟩, within⟩
  · rintro ⟨⟨tag, held, named⟩, within⟩
    obtain ⟨variant, among, made⟩ := read_of_membersIn restDistinct restLeads within
    have chosen := notificationTag_iff.mpr ⟨kind.label, among, named⟩
    rw [held, Option.map_some, Option.bind_some, chosen, Option.bind_some, made]

theorem auctionId_refuses_null (part : Int64) :
    decodeValue Codec.auctionId.decode .null ≠ .ok part := nofun

theorem solutionReference_refuses_null (part : SolutionReference) :
    decodeValue solutionReference .null ≠ .ok part := nofun

theorem notificationFields_eq_some_iff {combine : NotificationKind → Notification}
    (distinct : (members.map (·.1)).Nodup)
    (leads : ∀ name, members.lookup name = (value.member? name).map sorted) :
    notificationFields.ofMembers? medium members = some combine ↔
      ∃ auctionId solution, MayHold value "auctionId" Codec.auctionId.decode auctionId ∧
        MayHold value "solutionId" solutionReference solution ∧
        (fun kind => Notification.mk auctionId solution kind) = combine := by
  unfold notificationFields
  simp only [ofMembers?_seq_eq_some_iff, ofMembers?_pure_eq_some_iff, exists_eq_left',
    ofMembers?_mayHold_iff Codec.auctionId_ignoresMedium auctionId_refuses_null _ distinct
      (leads "auctionId"),
    ofMembers?_mayHold_iff solutionReference_ignoresMedium solutionReference_refuses_null _
      distinct (leads "solutionId")]
  constructor
  · rintro ⟨_, ⟨auctionId, auctionHeld, rfl⟩, solution, solutionHeld, made⟩
    exact ⟨auctionId, solution, auctionHeld, solutionHeld, made⟩
  · rintro ⟨auctionId, solution, auctionHeld, solutionHeld, made⟩
    exact ⟨_, ⟨auctionId, auctionHeld, rfl⟩, solution, solutionHeld, made⟩

/-- The strict reader accepts exactly the notifications of a known kind. -/
theorem decodeValue_notification_iff {notification : Notification} :
    decodeValue Wire.notification (.object members) = .ok notification ↔
      Recognized (.object members) notification := by
  have distinct := keys_nodup_sortMembers (sortedMembers members)
  have leads := lookup_sorted members
  -- What stands beside the identifiers is the kind with its tag.
  have restDistinct := distinct.sublist
    ((List.filter_sublist (p := fun member : String × Json =>
      !notificationFields.names.contains member.1)).map _)
  have restLeads : ∀ name, name ∉ ["auctionId", "solutionId"] →
      ((sortMembers (sortedMembers members)).filter fun member =>
        !notificationFields.names.contains member.1).lookup name =
      ((Json.object members).member? name).map sorted := by
    intro name own
    rw [lookup_filter_key _ fun key => !notificationFields.names.contains key, ← leads name]
    have names : notificationFields.names = ["auctionId", "solutionId"] := rfl
    exact if_pos (by simpa [names] using own)
  rw [decodeValue_eq_ok_iff, sorted, Wire.notification, Decoder.outcome?_flattened,
    Option.bind_eq_some_iff]
  simp only [notificationFields_eq_some_iff distinct leads, Option.map_eq_some_iff,
    notificationKind_read_iff restDistinct restLeads]
  constructor
  · rintro ⟨_, ⟨auctionId, solution, auctionHeld, solutionHeld, rfl⟩, kind, ⟨tag, within⟩, rfl⟩
    exact ⟨tag, within, auctionHeld, solutionHeld⟩
  · rintro ⟨tag, within, auctionHeld, solutionHeld⟩
    exact ⟨_, ⟨_, _, auctionHeld, solutionHeld, rfl⟩, notification.kind, ⟨tag, within⟩, rfl⟩

/-!
## Reading leniently
-/

/-- A notification of a known kind. -/
def Known (notification : Notification) : Prop :=
  ¬ ∃ name, notification.kind = .unrecognized name

theorem Recognized.known {notification : Notification}
    (recognized : Recognized value notification) : Known notification := by
  rintro ⟨name, unknown⟩
  have within := recognized.members
  rw [unknown] at within
  exact within

theorem Recognized.isObject {notification : Notification}
    (recognized : Recognized value notification) : ∃ members, value = .object members := by
  obtain ⟨tag, held, _⟩ := recognized.tag
  cases value with
  | object members => exact ⟨members, rfl⟩
  | _ => cases held

/-- What the lenient reader makes of an object that is not recognized. -/
def unrecognized (value : Json) : Notification where
  auctionId := (value.member? "auctionId").bind looseAuctionId?
  solution := (value.member? "solutionId").bind fun id =>
    (decodeValue solutionReference id).toOption
  kind := .unrecognized ((value.member? Decoder.tagName).bind Json.asText?)

theorem lenientNotification_of_recognized {notification : Notification}
    (recognized : Recognized value notification) :
    lenientNotification value = .ok notification := by
  obtain ⟨members, rfl⟩ := recognized.isObject
  rw [lenientNotification, decodeValue_notification_iff.mpr recognized]

theorem lenientNotification_of_not_recognized
    (foreign : ¬ ∃ notification, Recognized (.object members) notification) :
    lenientNotification (.object members) = .ok (unrecognized (.object members)) := by
  rw [lenientNotification]
  cases read : decodeValue notification (.object members) with
  | error error => rfl
  | ok notification => exact absurd ⟨_, decodeValue_notification_iff.mp read⟩ foreign

/-- Every object is a notification. -/
theorem exists_lenientNotification_eq_ok (members : List (String × Json)) :
    ∃ notification, lenientNotification (.object members) = .ok notification := by
  by_cases recognized : ∃ other, Recognized (.object members) other
  · obtain ⟨other, recognized⟩ := recognized
    exact ⟨other, lenientNotification_of_recognized recognized⟩
  · exact ⟨_, lenientNotification_of_not_recognized recognized⟩

theorem lenientNotification_eq_ok_iff {notification : Notification} :
    lenientNotification value = .ok notification ↔
      Recognized value notification ∨
        (∃ members, value = .object members) ∧
          (¬ ∃ other, Recognized value other) ∧ notification = unrecognized value := by
  constructor
  · intro read
    by_cases recognized : ∃ other, Recognized value other
    · obtain ⟨other, recognized⟩ := recognized
      cases (lenientNotification_of_recognized recognized).symm.trans read
      exact .inl recognized
    · cases value with
      | object members =>
          cases (lenientNotification_of_not_recognized recognized).symm.trans read
          exact .inr ⟨⟨members, rfl⟩, recognized, rfl⟩
      | _ => cases read
  · rintro (recognized | ⟨⟨members, rfl⟩, foreign, rfl⟩)
    · exact lenientNotification_of_recognized recognized
    · exact lenientNotification_of_not_recognized foreign

end BatchAuction.Wire
