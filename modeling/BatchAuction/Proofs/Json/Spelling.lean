import BatchAuction.Json.Reader
import BatchAuction.Proofs.Json.Lexing
import BatchAuction.Proofs.Json.Reordering

/-!
# Printed values are read back

The text of a value is cut into the tokens that the value is made of, and the reader makes
the document of the value of them. This needs integers that stay exact, a nesting that the
reader can follow, and doubles that are the ones their text denotes.
-/

set_option autoImplicit false

namespace BatchAuction.Json

/-- The bytes are a text of the value, with its members as they are written there. -/
def Spells (bytes : List UInt8) (value : Json) : Prop := read bytes = ⟨value.toDocument, false⟩

end BatchAuction.Json

namespace BatchAuction.Binary64

/-- The text of the double denotes it. -/
def ReadsBack (x : Binary64) : Prop :=
  Json.Spells (Text.Utf8.ofString x.print) (.number (.real x))

end BatchAuction.Binary64

namespace BatchAuction.Json

open Text (Utf8.encode Utf8.encodePoint Utf8.ofString)

/-- A value that a text can hold, with no more than the given number of containers inside
each other. -/
inductive Fits : Nat → Json → Prop where
  | null {depth : Nat} : Fits depth .null
  | boolean {depth : Nat} (value : Bool) : Fits depth (.boolean value)
  | integer {depth : Nat} {value : Int} : Number.least ≤ value → value ≤ Number.greatest →
      Fits depth (.number (.integer value))
  | real {depth : Nat} (value : Binary64) : Fits depth (.number (.real value))
  | text {depth : Nat} (value : String) : Fits depth (.text value)
  | list {depth : Nat} {items : List Json} : (∀ item ∈ items, Fits depth item) →
      Fits (depth + 1) (.list items)
  | object {depth : Nat} {members : List (String × Json)} : (members.map (·.1)).Nodup →
      (∀ member ∈ members, Fits depth member.2) → Fits (depth + 1) (.object members)

mutual

/-- The doubles in a value. -/
def reals : Json → List Binary64
  | .null | .boolean _ | .number (.integer _) | .text _ => []
  | .number (.real value) => [value]
  | .list items => itemReals items
  | .object members => memberReals members

def itemReals : List Json → List Binary64
  | [] => []
  | item :: rest => reals item ++ itemReals rest

def memberReals : List (String × Json) → List Binary64
  | [] => []
  | (_, value) :: rest => reals value ++ memberReals rest

end

mutual

/-- The tokens of a printed value. -/
def spelling : Json → List Token
  | .null => [.null]
  | .boolean value => [.boolean value]
  | .number value => [.number (.ok value)]
  | .text value => [.text (.ok value)]
  | .list items => .listOpen :: itemSpelling items ++ [.listClose]
  | .object members => .objectOpen :: memberSpelling members ++ [.objectClose]

def itemSpelling : List Json → List Token
  | [] => []
  | [item] => spelling item
  | item :: rest => spelling item ++ .comma :: itemSpelling rest

def memberSpelling : List (String × Json) → List Token
  | [] => []
  | [(key, value)] => .text (.ok key) :: .colon :: spelling value
  | (key, value) :: rest =>
      .text (.ok key) :: .colon :: spelling value ++ .comma :: memberSpelling rest

end

variable {depth : Nat} {value : Json} {items : List Json} {members : List (String × Json)}
  {stack : List Frame} {stage : Stage} {rest : List Token}

theorem Fits.distinctKeys (fits : value.Fits depth) : value.DistinctKeys := by
  induction fits with
  | null => exact .null
  | boolean value => exact .boolean value
  | integer => exact .number _
  | real value => exact .number _
  | text value => exact .text value
  | list _ ih => exact .list ih
  | object keys _ ih => exact .object keys ih

/-- The members of objects may be written in any order. -/
theorem Fits.reordered {other : Json} (fits : value.Fits depth)
    (reordered : value.Reordered other) : other.Fits depth := by
  induction fits generalizing other with
  | null => cases reordered; exact .null
  | boolean value => cases reordered; exact .boolean value
  | integer least greatest => cases reordered; exact .integer least greatest
  | real value => cases reordered; exact .real value
  | text value => cases reordered; exact .text value
  | list _ ih =>
      cases reordered with
      | list each =>
          refine .list fun item among => ?_
          obtain ⟨original, held, reordered⟩ := exists_of_mem_forall₂ each among
          exact ih original held reordered
  | object keys _ ih =>
      cases reordered with
      | object inside order =>
          rw [inside.map_fst_eq] at keys
          refine .object ((order.map _).nodup_iff.mp keys) fun member among => ?_
          obtain ⟨original, held, reordered⟩ := exists_of_mem_reordered inside order among
          exact ih original held reordered

theorem Fits.mono {more : Nat} (fits : value.Fits depth) (larger : depth ≤ more) :
    value.Fits more := by
  induction fits generalizing more with
  | null => exact .null
  | boolean value => exact .boolean value
  | integer least greatest => exact .integer least greatest
  | real value => exact .real value
  | text value => exact .text value
  | list _ ih =>
      obtain ⟨more, rfl⟩ := Nat.exists_eq_add_one_of_ne_zero (Nat.ne_zero_of_lt larger)
      exact .list fun item among => ih item among (Nat.le_of_succ_le_succ larger)
  | object keys _ ih =>
      obtain ⟨more, rfl⟩ := Nat.exists_eq_add_one_of_ne_zero (Nat.ne_zero_of_lt larger)
      exact .object keys fun member among => ih member among (Nat.le_of_succ_le_succ larger)

/-!
## From tokens to documents
-/

/-- What the reader makes of the remaining tokens after a step. -/
def Progress.resume : Progress → List Token → Reading
  | .more stack stage, rest => run stack stage rest
  | .complete document, rest => ⟨document, !rest.isEmpty⟩
  | .damaged document, _ => ⟨document, false⟩

theorem run_cons (stack : List Frame) (stage : Stage) (token : Token) (rest : List Token) :
    run stack stage (token :: rest) = (step stack stage token).resume rest := by
  rw [run]
  cases step stack stage token <;> rfl

/-- A value begins the same way wherever one is due. -/
theorem run_firstItem_spelling (value : Json) (rest : List Token) :
    run stack .firstItem (value.spelling ++ rest) =
      run (.list [] :: stack) .value (value.spelling ++ rest) := by
  cases value <;> rfl

theorem run_nextItem_spelling (done : List Document) (value : Json) (rest : List Token) :
    run stack (.nextItem done) (value.spelling ++ rest) =
      run (.list done :: stack) .value (value.spelling ++ rest) := by
  cases value <;> rfl

mutual

/-- The document that the text of a value spells inside of the given number of containers. -/
def documentAt (depth : Nat) : Json → Document
  | .null => .null
  | .boolean value => .boolean value
  | .number value => .number (.ok value)
  | .text value => .text (.ok value)
  | .list items => .list (itemDocumentsAt (depth + 1) items) .closed (maxDepth ≤ depth)
  | .object members => .object (memberDocumentsAt (depth + 1) members) .closed (maxDepth ≤ depth)

def itemDocumentsAt (depth : Nat) : List Json → List Document
  | [] => []
  | item :: rest => documentAt depth item :: itemDocumentsAt depth rest

def memberDocumentsAt (depth : Nat) : List (String × Json) → List (Readable String × Document)
  | [] => []
  | (key, value) :: rest => (.ok key, documentAt depth value) :: memberDocumentsAt depth rest

end

/-- The tokens of the value lead to its document wherever one is due. -/
def LeadsToDocument (value : Json) : Prop :=
  ∀ stack rest, run stack .value (value.spelling ++ rest) =
    (settle stack (value.documentAt stack.length)).resume rest

/-- Items are read from a stage at which the next one may begin. -/
theorem run_items {item : Json} (each : ∀ value ∈ item :: items, LeadsToDocument value)
    (done : List Document)
    (enter : ∀ value rest, run stack stage (spelling value ++ rest) =
      run (.list done :: stack) .value (spelling value ++ rest)) (rest : List Token) :
    run stack stage (itemSpelling (item :: items) ++ .listClose :: rest) =
      (settle stack (.list (done.reverse ++ itemDocumentsAt (stack.length + 1) (item :: items))
        .closed (maxDepth ≤ stack.length))).resume rest := by
  -- Only the first item is entered from the given stage; the others stand behind a comma.
  induction items generalizing item done stage with
  | nil =>
      rw [itemSpelling, enter, each item List.mem_cons_self, settle, Progress.resume, run_cons,
        step, listInside, List.reverse_cons]
      rfl
  | cons next items ih =>
      rw [itemSpelling, List.append_assoc, List.cons_append, enter,
        each item List.mem_cons_self, settle, Progress.resume, run_cons, step,
        Progress.resume, ih (fun value among => each value (.tail _ among))
          (_ :: done) (run_nextItem_spelling _),
        List.reverse_cons, List.append_assoc]
      · rfl
      · simp

theorem run_members {key : String} (each : ∀ member ∈ (key, value) :: members,
      LeadsToDocument member.2)
    (done : List (Readable String × Document))
    (enter : ∀ key rest, run stack stage (.text (.ok key) :: .colon :: rest) =
      run (.object done (.ok key) :: stack) .value rest) (rest : List Token) :
    run stack stage (memberSpelling ((key, value) :: members) ++ .objectClose :: rest) =
      (settle stack (.object
        (done.reverse ++ memberDocumentsAt (stack.length + 1) ((key, value) :: members)) .closed
        (maxDepth ≤ stack.length))).resume rest := by
  induction members generalizing key value done stage with
  | nil =>
      rw [memberSpelling, List.cons_append, List.cons_append, enter,
        each (key, value) List.mem_cons_self, settle, Progress.resume, run_cons, step,
        objectInside, List.reverse_cons]
      rfl
  | cons next members ih =>
      obtain ⟨nextKey, nextValue⟩ := next
      rw [memberSpelling, List.append_assoc, List.cons_append, List.cons_append, enter,
        each (key, value) List.mem_cons_self, settle, Progress.resume, List.cons_append, run_cons,
        step, Progress.resume, ih (fun member among => each member (.tail _ among)) _
          (fun _ _ => rfl), List.reverse_cons, List.append_assoc]
      · rfl
      · simp

mutual

theorem leadsToDocument : ∀ value : Json, LeadsToDocument value
  | .null | .boolean _ | .number _ | .text _ => fun _ _ => run_cons ..
  | .list items => by
      intro stack rest
      rw [spelling, List.cons_append, List.cons_append, List.append_assoc, documentAt]
      change run stack .firstItem (itemSpelling items ++ .listClose :: rest) = _
      have each := items_leadToDocuments items
      cases items with
      | nil => rw [itemSpelling, List.nil_append, run_cons, step, listInside]; rfl
      | cons item items => exact run_items each [] run_firstItem_spelling rest
  | .object members => by
      intro stack rest
      rw [spelling, List.cons_append, List.cons_append, List.append_assoc, documentAt]
      change run stack .firstKey (memberSpelling members ++ .objectClose :: rest) = _
      have each := members_leadToDocuments members
      cases members with
      | nil => rw [memberSpelling, List.nil_append, run_cons, step, objectInside]; rfl
      | cons member members => exact run_members each [] (fun _ _ => rfl) rest

theorem items_leadToDocuments : ∀ items : List Json, ∀ item ∈ items, LeadsToDocument item
  | [] => nofun
  | item :: rest => List.forall_mem_cons.mpr ⟨leadsToDocument item, items_leadToDocuments rest⟩

theorem members_leadToDocuments : ∀ members : List (String × Json),
    ∀ member ∈ members, LeadsToDocument member.2
  | [] => nofun
  | (_, value) :: rest =>
      List.forall_mem_cons.mpr ⟨leadsToDocument value, members_leadToDocuments rest⟩

end

/-!
## Values that are not too deep
-/

theorem itemDocumentsAt_eq (same : ∀ item ∈ items, documentAt depth item = toDocument item) :
    itemDocumentsAt depth items = itemDocuments items := by
  induction items with
  | nil => rfl
  | cons item rest ih =>
      rw [itemDocumentsAt, itemDocuments, same item List.mem_cons_self,
        ih fun other among => same other (.tail _ among)]

theorem memberDocumentsAt_eq
    (same : ∀ member ∈ members, documentAt depth member.2 = toDocument member.2) :
    memberDocumentsAt depth members = memberDocuments members := by
  induction members with
  | nil => rfl
  | cons member rest ih =>
      obtain ⟨key, value⟩ := member
      have own : value.documentAt depth = value.toDocument := same _ List.mem_cons_self
      rw [memberDocumentsAt, memberDocuments, own, ih fun other among => same other (.tail _ among)]

/-- Where there is room for all its containers a value is the document it is in memory. -/
theorem Fits.documentAt_eq {outer : Nat} (fits : value.Fits depth)
    (shallow : depth + outer ≤ maxDepth) : value.documentAt outer = value.toDocument := by
  induction fits generalizing outer with
  | null | boolean | integer | real | text => rfl
  | list _ ih =>
      have room : decide (maxDepth ≤ outer) = false := decide_eq_false (by omega)
      rw [documentAt, toDocument, room,
        itemDocumentsAt_eq fun item among => ih item among (by omega)]
  | object _ _ ih =>
      have room : decide (maxDepth ≤ outer) = false := decide_eq_false (by omega)
      rw [documentAt, toDocument, room,
        memberDocumentsAt_eq fun member among => ih member among (by omega)]

/-!
## A number alone
-/

/-- Whether a document is a number by itself. -/
def Document.isNumber : Document → Bool
  | .number _ => true
  | _ => false

/-- A step that leads on inside of a container, or to something that is no number. -/
def Progress.NoNumber : Progress → Prop
  | .more stack stage => stack ≠ [] ∨ stage ≠ .value
  | .complete document | .damaged document => document.isNumber = false

theorem isNumber_unwind {document : Document} (other : document.isNumber = false)
    (stack : List Frame) : (unwind stack document).isNumber = false := by
  induction stack generalizing document with
  | nil => exact other
  | cons frame stack ih => cases frame <;> exact ih rfl

theorem isNumber_cutOff (stage : Stage) : (cutOff stack stage).isNumber = false := by
  cases stage <;> rfl

theorem settle_noNumber {document : Document}
    (inside : stack ≠ [] ∨ document.isNumber = false) : (settle stack document).NoNumber := by
  cases stack with
  | nil => exact inside.resolve_left fun empty => empty rfl
  | cons frame stack => cases frame <;> exact .inr nofun

theorem takeValue_noNumber (inside : stack ≠ []) (token : Token) :
    (takeValue stack token).NoNumber := by
  cases token with
  | null | boolean | number | text => exact settle_noNumber (.inl inside)
  | listOpen | objectOpen => exact .inr nofun
  | _ => exact isNumber_unwind rfl stack

theorem takeKey_noNumber (stack : List Frame) (done : List (Readable String × Document))
    (token : Token) :
    (takeKey stack done token).NoNumber := by
  cases token with
  | text => exact .inr nofun
  | _ => exact isNumber_unwind rfl stack

theorem step_noNumber (inside : stack ≠ [] ∨ stage ≠ .value) (token : Token) :
    (step stack stage token).NoNumber := by
  cases stage with
  | value => exact takeValue_noNumber (inside.resolve_right fun other => other rfl) token
  | firstItem =>
      have item : (takeValue (.list [] :: stack) token).NoNumber :=
        takeValue_noNumber (List.cons_ne_nil _ _) token
      cases token with
      | listClose => exact settle_noNumber (.inr rfl)
      | comma => exact .inr nofun
      | _ => exact item
  | leadingComma => exact isNumber_unwind rfl _
  | nextItem done =>
      have item : (takeValue (.list done :: stack) token).NoNumber :=
        takeValue_noNumber (List.cons_ne_nil _ _) token
      cases token with
      | listClose => exact isNumber_unwind rfl _
      | _ => exact item
  | afterItem done =>
      cases token with
      | comma => exact .inr nofun
      | listClose => exact settle_noNumber (.inr rfl)
      | _ => exact isNumber_unwind rfl _
  | firstKey =>
      have key := takeKey_noNumber stack [] token
      cases token with
      | objectClose => exact settle_noNumber (.inr rfl)
      | _ => exact key
  | nextKey done =>
      have key := takeKey_noNumber stack done token
      cases token with
      | objectClose => exact isNumber_unwind rfl _
      | _ => exact key
  | afterKey done key =>
      cases token with
      | colon => exact .inl (List.cons_ne_nil _ _)
      | _ => exact isNumber_unwind rfl _
  | afterMember done =>
      cases token with
      | comma => exact .inr nofun
      | objectClose => exact settle_noNumber (.inr rfl)
      | _ => exact isNumber_unwind rfl _

theorem isNumber_run (inside : stack ≠ [] ∨ stage ≠ .value) (rest : List Token) :
    (run stack stage rest).document.isNumber = false := by
  induction rest generalizing stack stage with
  | nil => exact isNumber_unwind (isNumber_cutOff stage) stack
  | cons token rest ih =>
      have leads := step_noNumber inside token
      rw [run_cons]
      cases progress : step stack stage token with
      | more stack stage => rw [progress] at leads; exact ih leads
      | complete document => rw [progress] at leads; exact leads
      | damaged document => rw [progress] at leads; exact leads

/-- A text that spells a number is cut into nothing but the number. -/
theorem tokens_of_spells_number {bytes : List UInt8} {number : Number}
    (spelled : Spells bytes (.number number)) : tokens bytes = [.number (.ok number)] := by
  have spelled : run [] .value (tokens bytes) = ⟨.number (.ok number), false⟩ := spelled
  cases cuts : tokens bytes with
  | nil => rw [cuts] at spelled; cases spelled
  | cons token rest =>
      rw [cuts, run_cons] at spelled
      cases token with
      | number value =>
          obtain ⟨same, none⟩ := Reading.mk.inj spelled
          cases same
          cases rest with
          | nil => rfl
          | cons => cases none
      | listOpen =>
          have other : (run [] .firstItem rest).document.isNumber = false :=
            isNumber_run (.inr (by nofun)) rest
          cases (congrArg (·.document.isNumber) spelled).symm.trans other
      | objectOpen =>
          have other : (run [] .firstKey rest).document.isNumber = false :=
            isNumber_run (.inr (by nofun)) rest
          cases (congrArg (·.document.isNumber) spelled).symm.trans other
      | _ => cases spelled

/-!
## From text to tokens
-/

theorem mem_itemReals {x : Binary64} {item : Json} (among : item ∈ items)
    (within : x ∈ item.reals) : x ∈ itemReals items := by
  induction items with
  | nil => cases among
  | cons head rest ih =>
      rw [itemReals, List.mem_append]
      rcases List.mem_cons.mp among with rfl | later
      · exact .inl within
      · exact .inr (ih later)

theorem mem_memberReals {x : Binary64} {member : String × Json} (among : member ∈ members)
    (within : x ∈ member.2.reals) : x ∈ memberReals members := by
  induction members with
  | nil => cases among
  | cons head rest ih =>
      obtain ⟨key, value⟩ := head
      rw [memberReals, List.mem_append]
      rcases List.mem_cons.mp among with rfl | later
      · exact .inl within
      · exact .inr (ih later)

/-- No double stands in the value that could be read as another one. -/
theorem readsBack_of_reals_eq_nil (plain : value.reals = []) : ∀ x ∈ value.reals, x.ReadsBack := by
  rw [plain]
  exact List.forall_mem_nil _

/-- The text of the value is cut into its tokens, unless what follows goes on with a number. -/
def IsCut (value : Json) : Prop :=
  ∀ rest, EndsNumber rest →
    tokens (Utf8.encode value.chars ++ rest) = value.spelling ++ tokens rest

theorem isCut_number {number : Number}
    (alone : tokens (Utf8.ofString number.print) = [.number (.ok number)]) :
    IsCut (.number number) := by
  intro rest ends
  rw [chars]
  exact tokens_number_append ends alone

variable {bytes : List UInt8}

theorem tokens_itemChars (each : ∀ item ∈ items, IsCut item) (ends : EndsNumber bytes) :
    tokens (Utf8.encode (itemChars items) ++ bytes) = itemSpelling items ++ tokens bytes := by
  induction items with
  | nil => rfl
  | cons item items ih =>
      have head := each item List.mem_cons_self
      cases items with
      | nil => exact head bytes ends
      | cons next items =>
          rw [itemChars, itemSpelling, encode_append, encode_ascii (by decide), List.append_assoc,
            List.append_assoc]
          · change tokens (_ ++ 44 :: (Utf8.encode (itemChars (next :: items)) ++ bytes)) = _
            rw [head _ (endsNumber_cons (by decide) _), tokens_mark .comma rfl,
              ih fun item among => each item (.tail _ among)]
            rfl
          all_goals nofun

theorem tokens_memberChars (each : ∀ member ∈ members, IsCut member.2)
    (ends : EndsNumber bytes) :
    tokens (Utf8.encode (memberChars members) ++ bytes) =
      memberSpelling members ++ tokens bytes := by
  induction members with
  | nil => rfl
  | cons member members ih =>
      obtain ⟨key, value⟩ := member
      have head := each (key, value) List.mem_cons_self
      cases members with
      | nil =>
          rw [memberChars, memberSpelling, encode_append, encode_ascii (by decide),
            List.append_assoc, tokens_printText]
          change _ :: tokens (58 :: (Utf8.encode value.chars ++ bytes)) = _
          rw [tokens_mark .colon rfl, head bytes ends]
          rfl
      | cons next members =>
          rw [memberChars, memberSpelling, List.append_assoc, encode_append,
            List.cons_append, encode_ascii (by decide), encode_append, encode_ascii (by decide),
            List.append_assoc, tokens_printText, List.cons_append, List.append_assoc]
          · change _ :: tokens (58 :: (Utf8.encode value.chars ++
              44 :: (Utf8.encode (memberChars (next :: members)) ++ bytes))) = _
            rw [tokens_mark .colon rfl, head _ (endsNumber_cons (by decide) _), tokens_mark .comma rfl,
              ih fun member among => each member (.tail _ among)]
            simp only [List.cons_append, List.append_assoc]
          all_goals nofun

theorem Fits.isCut (fits : value.Fits depth) (read : ∀ x ∈ value.reals, x.ReadsBack) :
    IsCut value := by
  induction fits with
  | null => exact fun rest _ => tokens_null rest
  | boolean value =>
      cases value with
      | true => exact fun rest _ => tokens_true rest
      | false => exact fun rest _ => tokens_false rest
  | integer least greatest => exact isCut_number (tokens_printInteger least greatest)
  | real value => exact isCut_number (tokens_of_spells_number (read value List.mem_cons_self))
  | text value => exact fun rest _ => tokens_printText value rest
  | @list _ items _ ih =>
      intro rest _
      have each : ∀ item ∈ items, IsCut item := fun item among =>
        ih item among fun x within => read x (mem_itemReals among within)
      rw [chars, spelling, List.cons_append, encode_ascii (by decide), encode_append,
        List.cons_append, List.append_assoc]
      change tokens (91 :: (Utf8.encode (itemChars items) ++ 93 :: rest)) = _
      rw [tokens_mark .listOpen rfl, tokens_itemChars each (endsNumber_cons (by decide) rest),
        tokens_mark .listClose rfl, List.cons_append, List.cons_append, List.append_assoc]
      rfl
  | @object _ members _ _ ih =>
      intro rest _
      have each : ∀ member ∈ members, IsCut member.2 := fun member among =>
        ih member among fun x within => read x (mem_memberReals among within)
      rw [chars, spelling, List.cons_append, encode_ascii (by decide), encode_append,
        List.cons_append, List.append_assoc]
      change tokens (123 :: (Utf8.encode (memberChars members) ++ 125 :: rest)) = _
      rw [tokens_mark .objectOpen rfl, tokens_memberChars each (endsNumber_cons (by decide) rest),
        tokens_mark .objectClose rfl, List.cons_append, List.cons_append, List.append_assoc]
      rfl

/-- The bytes are a text of the value, however deep it is. -/
def Renders (bytes : List UInt8) (value : Json) : Prop :=
  read bytes = ⟨value.documentAt 0, false⟩

theorem Fits.renders_print (fits : value.Fits depth) (read : ∀ x ∈ value.reals, x.ReadsBack) :
    Renders (Utf8.ofString value.print) value := by
  have cuts := fits.isCut read [] endsNumber_nil
  have text : (print value).toList = value.chars := String.toList_ofList
  rw [List.append_nil, tokens] at cuts
  rw [Renders, Json.read, Utf8.ofString, text, cuts]
  exact leadsToDocument value [] []

/-- The text of a value spells it. -/
theorem Fits.spells_print (fits : value.Fits depth) (shallow : depth ≤ maxDepth)
    (read : ∀ x ∈ value.reals, x.ReadsBack) : Spells (Utf8.ofString value.print) value := by
  have rendered := fits.renders_print read
  rwa [Renders, fits.documentAt_eq shallow] at rendered

end BatchAuction.Json

namespace BatchAuction.Binary64

open Json

def half : Binary64 := ⟨false, 4503599627370496, -53, by decide⟩

theorem print_half : half.print = "0.5" := by
  have digits : half.shortestDigits = ⟨5, -1⟩ := by decide +kernel
  have nonzero : half.isZero = false := by decide +kernel
  unfold print
  rw [nonzero, digits]
  simp only [Decimal.digits_of_lt (show 5 < 10 by decide)]
  decide +kernel

theorem half_readsBack : half.ReadsBack := by
  have bytes : Text.Utf8.ofString half.print = [48, 46, 53] := by
    rw [print_half]
    decide +kernel
  have quotient : (Binary64.ofNat 5).scaleByPowerOfTen? (-1) = some half := by
    rw [scaleByPowerOfTen?]
    decide +kernel
  have scaled : Numeral.takeFraction [5] (Numeral.takeWhole [0] 0) = ⟨5, -1⟩ := by
    decide +kernel
  have numeral : Numeral.value ⟨false, [0], some [5], none⟩ = .ok (.real half) := by
    simp [Numeral.value, Numeral.toReal, Numeral.power, scaled, quotient]
  have cuts : cut 48 [46, 53] = (.number (.ok (.real half)), []) := by
    rw [← numeral]
    rfl
  rw [ReadsBack, Spells, bytes, Json.read, tokens_cons rfl cuts, tokens]
  rfl

end BatchAuction.Binary64
