import BatchAuction.Json.Printer
import BatchAuction.Json.Token
import BatchAuction.Proofs.Decimal.Natural
import BatchAuction.Proofs.Text.Utf8

/-!
# Printed pieces are cut off again

A printed text, literal or number at the front of some bytes is cut off as the token it
was printed for, and the bytes after it are left. A number ends only where something else
begins, so what follows it has to tell it apart.
-/

set_option autoImplicit false

namespace BatchAuction.Json

open Text (Utf8.encode Utf8.encodePoint Utf8.ofString hexDigit)

variable {bytes others rest written denoted moreWritten moreDenoted : List UInt8}

theorem encode_append (cs more : List Char) :
    Utf8.encode (cs ++ more) = Utf8.encode cs ++ Utf8.encode more :=
  List.flatMap_append

theorem encode_cons (c : Char) (cs : List Char) :
    Utf8.encode (c :: cs) = Utf8.encodePoint c.toNat ++ Utf8.encode cs := rfl

theorem encode_ascii {c : Char} (small : c.toNat < 0x80) (cs : List Char) :
    Utf8.encode (c :: cs) = UInt8.ofNat c.toNat :: Utf8.encode cs := by
  rw [encode_cons, Utf8.encodePoint, if_pos small, List.singleton_append]

/-!
## Texts
-/

/-- Within a text the bytes on the left are written for the bytes on the right, whatever
comes after them. -/
def StandsFor (written denoted : List UInt8) : Prop :=
  ∃ pieces, (∀ rest, scanText (written ++ rest) =
      (pieces ++ (scanText rest).1, (scanText rest).2)) ∧
    ∀ ending others, assemble ending (pieces ++ others) =
      (assemble ending others).map (denoted ++ ·)

theorem StandsFor.nil : StandsFor [] [] := by
  refine ⟨[], fun _ => rfl, fun ending others => ?_⟩
  rw [List.nil_append]
  cases assemble ending others <;> rfl

theorem StandsFor.append (first : StandsFor written denoted)
    (second : StandsFor moreWritten moreDenoted) :
    StandsFor (written ++ moreWritten) (denoted ++ moreDenoted) := by
  obtain ⟨pieces, scanned, assembled⟩ := first
  obtain ⟨morePieces, moreScanned, moreAssembled⟩ := second
  refine ⟨pieces ++ morePieces, fun rest => ?_, fun ending others => ?_⟩
  · rw [List.append_assoc, scanned, moreScanned, List.append_assoc]
  · rw [List.append_assoc, assembled, moreAssembled]
    cases assemble ending others <;> simp [Except.map]

theorem standsFor_byte {byte : UInt8} (quote : byte ≠ 34) (backslash : byte ≠ 92)
    (visible : ¬byte < 32) : StandsFor [byte] [byte] := by
  refine ⟨[.byte byte], fun rest => ?_, fun _ _ => rfl⟩
  rw [List.singleton_append, scanText.eq_def]
  dsimp only
  rw [if_neg quote, if_neg backslash, if_neg visible]
  rfl

theorem standsFor_bytes (plain : ∀ byte ∈ bytes, byte ≠ 34 ∧ byte ≠ 92 ∧ ¬byte < 32) :
    StandsFor bytes bytes := by
  induction bytes with
  | nil => exact .nil
  | cons byte rest ih =>
      obtain ⟨quote, backslash, visible⟩ := plain byte List.mem_cons_self
      exact (standsFor_byte quote backslash visible).append
        (ih fun other among => plain other (.tail _ among))

theorem standsFor_escape {letter byte : UInt8} (escape : simpleEscape? letter = some byte)
    (single : letter ≠ 117) : StandsFor [92, letter] [byte] := by
  refine ⟨[.escape byte], fun rest => ?_, fun _ _ => rfl⟩
  change scanText (92 :: letter :: rest) = _
  rw [scanText.eq_def]
  dsimp only
  rw [if_neg (by decide), if_pos rfl, if_neg single, escape]
  rfl

theorem hexValue?_hexDigit : ∀ value < 16,
    hexValue? (UInt8.ofNat (hexDigit value).toNat) = some value := by decide

theorem hexDigit_lt : ∀ value < 16, (hexDigit value).toNat < 0x80 := by decide

/-- A control character is written by its number. -/
theorem standsFor_unit {value : Nat} (control : value < 32) :
    StandsFor (Utf8.encode ['\\', 'u', '0', '0', hexDigit (value / 16), hexDigit (value % 16)])
      (Utf8.encodePoint value) := by
  have high : value / 16 < 16 := by omega
  have low : value % 16 < 16 := by omega
  have unit : unitValue? 48 48 (UInt8.ofNat (hexDigit (value / 16)).toNat)
      (UInt8.ofNat (hexDigit (value % 16)).toNat) = some value := by
    have zero : hexValue? 48 = some 0 := rfl
    rw [unitValue?, zero, hexValue?_hexDigit _ high, hexValue?_hexDigit _ low]
    exact congrArg some (by omega)
  refine ⟨[.unit value], fun rest => ?_, fun ending others => ?_⟩
  · rw [encode_ascii (by decide), encode_ascii (by decide), encode_ascii (by decide),
      encode_ascii (by decide), encode_ascii (hexDigit_lt _ high),
      encode_ascii (hexDigit_lt _ low)]
    change scanText (92 :: 117 :: 48 :: 48 :: _ :: _ :: rest) = _
    rw [scanText.eq_def]
    dsimp only
    rw [if_neg (by decide), if_pos rfl, if_pos rfl, unit]
    rfl
  · have notLow : isLowSurrogate value = false := by simp [isLowSurrogate]; omega
    have notHigh : isHighSurrogate value = false := by simp [isHighSurrogate]; omega
    rw [List.singleton_append, assemble.eq_def]
    simp only [notLow, notHigh, Bool.false_eq_true, if_false]

/-- A character beyond the first 32 that is neither quote nor backslash has no byte that
means anything else within a text. -/
theorem plain_of_mem_encodePoint {c : Char} (quote : c ≠ '"') (backslash : c ≠ '\\')
    (visible : ¬c.toNat < 32) : ∀ byte ∈ Utf8.encodePoint c.toNat,
      byte ≠ 34 ∧ byte ≠ 92 ∧ ¬byte < 32 := by
  have valid : c.toNat < 0xD800 ∨ 0xDFFF < c.toNat ∧ c.toNat < 0x110000 := c.valid
  have notQuote : c.toNat ≠ 34 := fun same => quote (Char.toNat_inj.mp same)
  have notBackslash : c.toNat ≠ 92 := fun same => backslash (Char.toNat_inj.mp same)
  have plain : ∀ value, value < 256 → value ≠ 34 → value ≠ 92 → 32 ≤ value →
      UInt8.ofNat value ≠ 34 ∧ UInt8.ofNat value ≠ 92 ∧ ¬UInt8.ofNat value < 32 := by
    intro value small notQuote notBackslash visible
    have same : (UInt8.ofNat value).toNat = value := Text.Utf8.toNat_ofNat small
    simp only [ne_eq, ← UInt8.toNat_inj, UInt8.lt_iff_toNat_lt, same]
    exact ⟨notQuote, notBackslash, Nat.not_lt.mpr visible⟩
  unfold Utf8.encodePoint
  split
  · simp only [List.forall_mem_singleton]
    exact plain _ (by omega) notQuote notBackslash (by omega)
  · intro byte among
    have high : ∃ value, byte = UInt8.ofNat value ∧ 0x80 ≤ value ∧ value < 256 := by
      split at among
      · simp only [List.mem_cons, List.not_mem_nil, or_false] at among
        rcases among with rfl | rfl <;> exact ⟨_, rfl, by omega, by omega⟩
      · split at among <;> simp only [List.mem_cons, List.not_mem_nil, or_false] at among
        · rcases among with rfl | rfl | rfl <;> exact ⟨_, rfl, by omega, by omega⟩
        · rcases among with rfl | rfl | rfl | rfl <;> exact ⟨_, rfl, by omega, by omega⟩
    obtain ⟨value, rfl, least, small⟩ := high
    exact plain value small (by omega) (by omega) (by omega)

theorem standsFor_printChar (c : Char) :
    StandsFor (Utf8.encode (printChar c)) (Utf8.encodePoint c.toNat) := by
  unfold printChar
  iterate 7
    split
    · subst_vars
      exact standsFor_escape rfl (by decide)
  split
  · exact standsFor_unit ‹_›
  · rw [encode_cons, Utf8.encode, List.flatMap_nil, List.append_nil]
    exact standsFor_bytes (plain_of_mem_encodePoint ‹_› ‹_› ‹_›)

theorem standsFor_flatMap_printChar (cs : List Char) :
    StandsFor (Utf8.encode (cs.flatMap printChar)) (Utf8.encode cs) := by
  induction cs with
  | nil => exact .nil
  | cons c rest ih =>
      rw [List.flatMap_cons, encode_append, encode_cons]
      exact (standsFor_printChar c).append ih

/-- A printed text is cut off behind its opening quote. -/
theorem cutText_flatMap_printChar (s : String) (rest : List UInt8) :
    cutText (Utf8.encode (s.toList.flatMap printChar) ++ 34 :: rest) = (.text (.ok s), rest) := by
  obtain ⟨pieces, scanned, assembled⟩ := standsFor_flatMap_printChar s.toList
  have closed : scanText (34 :: rest) = ([], .closed rest) := by
    rw [scanText.eq_def]
    exact if_pos rfl
  have read : readText (pieces ++ []) (.closed rest) = .ok s := by
    have denoted : assemble (.closed rest) (pieces ++ []) = .ok (Utf8.encode s.toList ++ []) :=
      assembled (.closed rest) []
    have back : Text.Utf8.toString? (Utf8.encode s.toList) = some s :=
      Text.Utf8.toString?_ofString s
    rw [List.append_nil (Utf8.encode _)] at denoted
    unfold readText
    rw [denoted]
    simp only [bind, Except.bind, back]
    rfl
  unfold cutText
  rw [scanned, closed]
  dsimp only
  rw [read]

/-!
## Numbers
-/

/-- The bytes cannot go on with a number that stands in front of them. -/
def EndsNumber (rest : List UInt8) : Prop :=
  ∀ byte ∈ rest.head?, isDigit byte = false ∧ byte ≠ 46 ∧ byte ≠ 101 ∧ byte ≠ 69

theorem endsNumber_nil : EndsNumber [] := nofun

theorem endsNumber_cons {first : UInt8}
    (other : isDigit first = false ∧ first ≠ 46 ∧ first ≠ 101 ∧ first ≠ 69)
    (rest : List UInt8) : EndsNumber (first :: rest) := by
  intro byte is
  cases is
  exact other

/-- Whether a token breaks off. -/
inductive Token.Broken : Token → Prop where
  | text {read skipped : Fault} : Broken (.brokenText read skipped)
  | other {read skipped : Fault} : Broken (.broken read skipped)

variable {numeral : Numeral} {token : Token} {left : List UInt8}

/-!
What follows a piece of a text matters only where the piece goes on up to the end, so nothing
is asked of it where something is left.
-/

theorem spanDigits_append (ends : (spanDigits bytes).2 = [] → EndsNumber rest) :
    spanDigits (bytes ++ rest) = ((spanDigits bytes).1, (spanDigits bytes).2 ++ rest) := by
  induction bytes with
  | nil =>
      cases rest with
      | nil => rfl
      | cons byte others =>
          have foreign := (ends rfl byte rfl).1
          simp [spanDigits, foreign]
  | cons byte others ih =>
      rw [spanDigits] at ends
      rw [List.cons_append, spanDigits, spanDigits]
      split at ends
      · rename_i digit
        rw [if_pos digit, if_pos digit, ih ends]
      · rename_i other
        rw [if_neg other, if_neg other]
        rfl

theorem broken_digitMissing (cuts : digitMissing bytes = (token, left)) : token.Broken := by
  unfold digitMissing at cuts
  cases cuts
  exact .other

/-- The sign of an exponent, which may be left out, and what stands behind it. -/
def exponentSign (first : UInt8) (bytes : List UInt8) : Bool × List UInt8 :=
  if first = 45 then (true, bytes)
  else if first = 43 then (false, bytes)
  else (false, first :: bytes)

theorem exponentSign_append (first : UInt8) (bytes rest : List UInt8) :
    exponentSign first (bytes ++ rest) =
      ((exponentSign first bytes).1, (exponentSign first bytes).2 ++ rest) := by
  unfold exponentSign
  split
  · rfl
  · split <;> rfl

/-- Cuts the digits of an exponent, behind its sign. -/
def cutExponentDigits (numeral : Numeral) (signed : Bool × List UInt8) : Cut :=
  let (digits, rest) := spanDigits signed.2
  if digits.isEmpty then digitMissing rest
  else (.number { numeral with exponent := some (signed.1, digits) }.value, rest)

theorem cutExponentDigits_append {signed : Bool × List UInt8} (whole : ¬ token.Broken)
    (ends : left = [] → EndsNumber rest) (cuts : cutExponentDigits numeral signed = (token, left)) :
    cutExponentDigits numeral (signed.1, signed.2 ++ rest) = (token, left ++ rest) := by
  unfold cutExponentDigits at cuts ⊢
  dsimp only at cuts ⊢
  split at cuts
  · exact absurd (broken_digitMissing cuts) whole
  · rename_i some
    cases cuts
    rw [spanDigits_append ends]
    exact if_neg some

theorem cutExponent_marked {mark : UInt8} (marked : mark = 101 ∨ mark = 69) (first : UInt8)
    (bytes : List UInt8) :
    cutExponent numeral (mark :: first :: bytes) =
      cutExponentDigits numeral (exponentSign first bytes) := by
  unfold cutExponent
  rcases marked with rfl | rfl <;> rfl

theorem cutExponent_unmarked {mark : UInt8} (unmarked : ¬(mark = 101 ∨ mark = 69))
    (bytes : List UInt8) :
    cutExponent numeral (mark :: bytes) = (.number numeral.value, mark :: bytes) := by
  unfold cutExponent
  exact if_neg (by simpa using unmarked)

theorem cutExponent_append (whole : ¬ token.Broken) (ends : left = [] → EndsNumber rest)
    (cuts : cutExponent numeral bytes = (token, left)) :
    cutExponent numeral (bytes ++ rest) = (token, left ++ rest) := by
  cases bytes with
  | nil =>
      cases cuts
      cases rest with
      | nil => rfl
      | cons byte others => exact cutExponent_unmarked (by simp [(ends rfl byte rfl).2.2]) others
  | cons mark bytes =>
      by_cases marked : mark = 101 ∨ mark = 69
      · cases bytes with
        | nil =>
            have broken : cutExponent numeral [mark] = digitMissing [] := by
              rcases marked with rfl | rfl <;> rfl
            exact absurd (broken_digitMissing (broken.symm.trans cuts)) whole
        | cons first bytes =>
            rw [cutExponent_marked marked] at cuts
            rw [List.cons_append, List.cons_append, cutExponent_marked marked,
              exponentSign_append]
            exact cutExponentDigits_append whole ends cuts
      · rw [cutExponent_unmarked marked] at cuts
        cases cuts
        exact cutExponent_unmarked marked (bytes ++ rest)

theorem cutFraction_append (whole : ¬ token.Broken) (ends : left = [] → EndsNumber rest)
    (cuts : cutFraction numeral bytes = (token, left)) :
    cutFraction numeral (bytes ++ rest) = (token, left ++ rest) := by
  cases bytes with
  | nil =>
      cases cuts
      cases rest with
      | nil => rfl
      | cons byte others =>
          have foreign := (ends rfl byte rfl).2
          simp [cutFraction, cutExponent, foreign]
  | cons mark bytes =>
      unfold cutFraction at cuts ⊢
      dsimp only [List.cons_append] at cuts ⊢
      split at cuts
      · rename_i point
        rw [if_pos point]
        split at cuts
        · exact absurd (broken_digitMissing cuts) whole
        · rename_i some
          have spanned : (spanDigits bytes).2 = [] → EndsNumber rest := by
            intro none
            rw [none] at cuts
            cases cuts
            exact ends rfl
          rw [spanDigits_append spanned, if_neg some]
          exact cutExponent_append whole ends cuts
      · rename_i noPoint
        rw [if_neg noPoint]
        exact cutExponent_append whole ends cuts

theorem cutNumber_append {negative : Bool} (whole : ¬ token.Broken)
    (ends : left = [] → EndsNumber rest) (cuts : cutNumber negative bytes = (token, left)) :
    cutNumber negative (bytes ++ rest) = (token, left ++ rest) := by
  unfold cutNumber at cuts ⊢
  dsimp only at cuts ⊢
  split at cuts
  · exact absurd (broken_digitMissing cuts) whole
  · cases cuts
    exact absurd .other whole
  · rename_i some single
    have spanned : (spanDigits bytes).2 = [] → EndsNumber rest := by
      intro none
      rw [none] at cuts
      cases cuts
      exact ends rfl
    rw [spanDigits_append spanned]
    split
    · contradiction
    · rename_i more
      exact absurd more (single _ _)
    · exact cutFraction_append whole ends cuts

theorem number_of_cutExponent (whole : ¬ token.Broken)
    (cuts : cutExponent numeral bytes = (token, left)) : ∃ value, token = .number value := by
  unfold cutExponent at cuts
  dsimp only at cuts
  repeat' split at cuts
  all_goals first
    | exact absurd (broken_digitMissing cuts) whole
    | exact ⟨_, (congrArg Prod.fst cuts).symm⟩

theorem number_of_cutFraction (whole : ¬ token.Broken)
    (cuts : cutFraction numeral bytes = (token, left)) : ∃ value, token = .number value := by
  unfold cutFraction at cuts
  dsimp only at cuts
  repeat' split at cuts
  · exact ⟨_, (congrArg Prod.fst cuts).symm⟩
  · exact absurd (broken_digitMissing cuts) whole
  · exact number_of_cutExponent whole cuts
  · exact number_of_cutExponent whole cuts

/-- What looks like a number is one, unless it breaks off. -/
theorem number_of_cutNumber {negative : Bool} (whole : ¬ token.Broken)
    (cuts : cutNumber negative bytes = (token, left)) : ∃ value, token = .number value := by
  unfold cutNumber at cuts
  dsimp only at cuts
  split at cuts
  · exact absurd (broken_digitMissing cuts) whole
  · cases cuts
    exact absurd .other whole
  · exact number_of_cutFraction whole cuts

/-!
## Tokens in front of other bytes
-/

theorem cutLiteral_append {name : Token} {letters : List UInt8} (whole : ¬ token.Broken)
    (cuts : cutLiteral name letters bytes = (token, left)) :
    cutLiteral name letters (bytes ++ rest) = (token, left ++ rest) := by
  fun_induction cutLiteral name letters bytes with
  | case1 bytes => cases cuts; cases bytes <;> rfl
  | case2 => cases cuts; exact absurd .other whole
  | case3 letter letters bytes ih =>
      rw [List.cons_append, cutLiteral, if_pos rfl]
      exact ih cuts
  | case4 => cases cuts; exact absurd .other whole

theorem scanText_append (closed : (scanText bytes).2 = .closed left) :
    scanText (bytes ++ rest) = ((scanText bytes).1, .closed (left ++ rest)) := by
  fun_induction scanText bytes with
  | case2 others =>
      cases closed
      rw [List.cons_append, scanText.eq_def]
      rfl
  | case4 _ _ _ _ others unit value pieces ending scanned _ ih =>
      rw [List.cons_append, scanText.eq_def]
      simp_all
  | case7 letter others other byte escape pieces ending scanned _ ih =>
      rw [List.cons_append, scanText.eq_def]
      simp_all
  | case10 byte others quote backslash visible pieces ending scanned ih =>
      rw [List.cons_append, scanText.eq_def]
      simp_all
  | _ => cases closed

/-- Where a text is closed does not matter to what it says. -/
theorem readText_closed (pieces : List TextPiece) (first second : List UInt8) :
    readText pieces (.closed first) = readText pieces (.closed second) := by
  have same : assemble (.closed first) pieces = assemble (.closed second) pieces := by
    fun_induction assemble (.closed first) pieces <;> rw [assemble.eq_def (.closed second)] <;>
      simp_all [TextEnd.fault?, TextEnd.unpairedFault]
    all_goals rfl
  rw [readText, readText, same]

theorem cutText_append (whole : ¬ token.Broken) (cuts : cutText bytes = (token, left)) :
    cutText (bytes ++ rest) = (token, left ++ rest) := by
  unfold cutText at cuts ⊢
  cases scanned : scanText bytes with
  | mk pieces ending =>
  rw [scanned] at cuts
  dsimp only at cuts
  split at cuts
  · rename_i others
    cases cuts
    rw [scanText_append (by rw [scanned]), scanned]
    dsimp only
    rw [readText_closed pieces left]
  · cases cuts
    exact absurd .text whole

/-- A whole token at the front ends where it did, unless it is a number that may go on. -/
theorem cut_append {first : UInt8} (whole : ¬ token.Broken)
    (ends : ∀ value, token = .number value → left = [] → EndsNumber rest)
    (cuts : cut first bytes = (token, left)) :
    cut first (bytes ++ rest) = (token, left ++ rest) := by
  unfold cut at cuts ⊢
  split at cuts
  · cases cuts
    rfl
  have number : ∀ negative bytes, cutNumber negative bytes = (token, left) →
      cutNumber negative (bytes ++ rest) = (token, left ++ rest) := by
    intro negative bytes cuts
    refine cutNumber_append whole (fun none => ?_) cuts
    obtain ⟨value, rfl⟩ := number_of_cutNumber whole cuts
    exact ends value rfl none
  split at cuts
  · rename_i quote
    rw [if_pos quote]
    exact cutText_append whole cuts
  rename_i noQuote
  rw [if_neg noQuote]
  split at cuts
  · rename_i minus
    rw [if_pos minus]
    exact number true bytes cuts
  rename_i noMinus
  rw [if_neg noMinus]
  split at cuts
  · rename_i digit
    rw [if_pos digit]
    exact number false (first :: bytes) cuts
  rename_i noDigit
  rw [if_neg noDigit]
  repeat
    split at cuts
    · rename_i letter
      rw [if_pos letter]
      exact cutLiteral_append whole cuts
    rename_i noLetter
    rw [if_neg noLetter]
    clear noLetter
  cases cuts
  exact absurd .other whole

/-- The first token of a text that does not begin with a blank. -/
theorem tokens_cons {first : UInt8} {token : Token} (visible : isBlank first = false)
    (cuts : cut first bytes = (token, rest)) :
    tokens (first :: bytes) = token :: tokens rest := by
  rw [tokens, visible, cuts]
  rfl

/-- A text of whole tokens is cut as before in front of other bytes, which do not go on with
a number at its end. -/
theorem tokens_append (whole : ∀ token ∈ tokens bytes, ¬ token.Broken)
    (ends : ∀ value, (tokens bytes).getLast? = some (.number value) → EndsNumber rest) :
    tokens (bytes ++ rest) = tokens bytes ++ tokens rest := by
  fun_induction tokens bytes with
  | case1 => rfl
  | case2 first bytes blank ih =>
      rw [List.cons_append, tokens, if_pos blank]
      exact ih whole ends
  | case3 first bytes visible ih =>
      obtain ⟨own, others⟩ := List.forall_mem_cons.mp whole
      have cuts : cut first (bytes ++ rest) = ((cut first bytes).1, (cut first bytes).2 ++ rest) := by
        refine cut_append own (fun value number none => ends value ?_) rfl
        rw [none, tokens, number]
        rfl
      rw [List.cons_append, tokens, if_neg visible, cuts, List.cons_append]
      refine congrArg _ (ih others fun value last => ends value ?_)
      rw [List.getLast?_cons, last]
      rfl

/-- A text that is one number is still one in front of what does not go on with it. -/
theorem tokens_number_append {value : Readable Number} (ends : EndsNumber rest)
    (spelled : tokens bytes = [.number value]) :
    tokens (bytes ++ rest) = .number value :: tokens rest := by
  have whole : ∀ token ∈ tokens bytes, ¬ token.Broken := by
    rw [spelled, List.forall_mem_singleton]
    exact nofun
  rw [tokens_append whole fun _ _ => ends, spelled]
  rfl

/-!
## Integers
-/

theorem isDigit_ofNat {c : Char} (native : Decimal.isDigit c = true) :
    isDigit (UInt8.ofNat c.toNat) = true := by
  obtain ⟨least, greatest⟩ := Decimal.isDigit_iff.mp native
  simp only [isDigit, UInt8.le_iff_toNat_le, Text.Utf8.toNat_ofNat (show c.toNat < 256 by omega)]
  simp [least, greatest]

theorem isBlank_of_isDigit {first : UInt8} (digit : isDigit first = true) :
    isBlank first = false := by
  rw [Bool.eq_false_iff]
  intro blank
  simp only [isBlank, Bool.or_eq_true, decide_eq_true_iff] at blank
  rcases blank with ((rfl | rfl) | rfl) | rfl <;> exact absurd digit (by decide)

theorem cut_of_isDigit {first : UInt8} (digit : isDigit first = true) (bytes : List UInt8) :
    cut first bytes = cutNumber false (first :: bytes) := by
  have foreign : ∀ other, isDigit other = false → first ≠ other := by
    rintro other foreign rfl
    exact absurd digit (Bool.eq_false_iff.mp foreign)
  have noMark : punctuation? first = none := by
    unfold punctuation?
    rw [if_neg (foreign _ (by decide)), if_neg (foreign _ (by decide)),
      if_neg (foreign _ (by decide)), if_neg (foreign _ (by decide)),
      if_neg (foreign _ (by decide)), if_neg (foreign _ (by decide))]
  unfold cut
  rw [noMark]
  dsimp only
  rw [if_neg (foreign _ (by decide)), if_neg (foreign _ (by decide)), if_pos digit]

theorem spanDigits_encode {cs : List Char} (native : ∀ c ∈ cs, Decimal.isDigit c = true) :
    spanDigits (Utf8.encode cs) = (cs.map Decimal.digitValue, []) := by
  induction cs with
  | nil => rfl
  | cons c rest ih =>
      have digit := native c List.mem_cons_self
      have small : c.toNat ≤ 57 := (Decimal.isDigit_iff.mp digit).2
      rw [encode_ascii (by omega), spanDigits, if_pos (isDigit_ofNat digit),
        ih fun other among => native other (.tail _ among),
        Text.Utf8.toNat_ofNat (by omega)]
      rfl

theorem ofDigits_digits (n : Nat) :
    Numeral.ofDigits ((Decimal.digits n).map Decimal.digitValue) = n := by
  rw [Numeral.ofDigits, List.foldl_map]
  exact Decimal.ofDigits_digits n

/-- The digits of a number are a numeral without fraction and exponent. -/
theorem cutNumber_digits (negative : Bool) (n : Nat) :
    ∃ digits, Numeral.ofDigits digits = n ∧
      cutNumber negative (Utf8.encode (Decimal.digits n)) =
        (.number (Numeral.value ⟨negative, digits, none, none⟩), []) := by
  refine ⟨(Decimal.digits n).map Decimal.digitValue, ofDigits_digits n, ?_⟩
  unfold cutNumber
  rw [spanDigits_encode fun c among => Decimal.isDigit_of_mem_digits among]
  dsimp only
  split
  · rename_i none
    exact absurd (List.map_eq_nil_iff.mp none) (Decimal.digits_ne_nil n)
  · rename_i second others leads
    obtain ⟨zero, rest, digits_eq, isZero, more⟩ := List.map_eq_cons_iff.mp leads
    have native := Decimal.isDigit_iff.mp
      (Decimal.isDigit_of_mem_digits (digits_eq ▸ List.mem_cons_self))
    have is : zero = '0' := Char.toNat_inj.mp (by
      change zero.toNat - 48 = 0 at isZero
      change zero.toNat = 48
      omega)
    subst is
    rw [(Decimal.eq_nil_of_digits_eq digits_eq).2] at more
    cases more
  · rfl

theorem tokens_natural {n : Nat} (small : n ≤ Number.greatest) :
    tokens (Utf8.encode (Decimal.digits n)) = [.number (.ok (.integer n))] := by
  obtain ⟨digits, denoted, cuts⟩ := cutNumber_digits false n
  obtain ⟨first, rest, leads, native⟩ := Decimal.exists_digits_eq_cons n
  have ascii : first.toNat ≤ 57 := (Decimal.isDigit_iff.mp native).2
  have numeral : Numeral.value ⟨false, digits, none, none⟩ = .ok (.integer n) := by
    simp [Numeral.value, denoted, small]
  rw [leads, encode_ascii (by omega)] at cuts ⊢
  have digit := isDigit_ofNat native
  rw [tokens_cons (isBlank_of_isDigit digit) ((cut_of_isDigit digit _).trans cuts), numeral,
    tokens]

theorem tokens_negative {n : Nat} (positive : 0 < n) (small : (n : Int) ≤ -Number.least) :
    tokens (Utf8.encode ('-' :: Decimal.digits n)) = [.number (.ok (.integer (-n)))] := by
  obtain ⟨digits, denoted, cuts⟩ := cutNumber_digits true n
  have numeral : Numeral.value ⟨true, digits, none, none⟩ = .ok (.integer (-n)) := by
    simp [Numeral.value, denoted, Nat.ne_of_gt positive, Int.not_lt.mpr small]
  have first : cut (UInt8.ofNat '-'.toNat) (Utf8.encode (Decimal.digits n)) =
      cutNumber true (Utf8.encode (Decimal.digits n)) := rfl
  rw [encode_ascii (by decide), tokens_cons (by decide) (first.trans cuts), numeral, tokens]

theorem tokens_printInteger {value : Int} (least : Number.least ≤ value)
    (greatest : value ≤ Number.greatest) :
    tokens (Utf8.ofString (printInteger value)) = [.number (.ok (.integer value))] := by
  unfold Utf8.ofString
  rw [Decimal.toList_printInteger]
  split
  · rename_i negative
    have same : -(value.natAbs : Int) = value := by omega
    rw [tokens_negative (by omega) (by omega), same]
  · rename_i nonnegative
    have same : (value.natAbs : Int) = value := by omega
    rw [tokens_natural (by omega), same]

/-!
## Printed tokens
-/

theorem tokens_printText (s : String) (rest : List UInt8) :
    tokens (Utf8.encode (printText s) ++ rest) = .text (.ok s) :: tokens rest := by
  have written : Utf8.encode (printText s) ++ rest =
      34 :: (Utf8.encode (s.toList.flatMap printChar) ++ 34 :: rest) := by
    unfold printText
    rw [List.cons_append, encode_ascii (by decide), encode_append, List.cons_append,
      List.append_assoc]
    rfl
  rw [written]
  exact tokens_cons (by decide) (cutText_flatMap_printChar s rest)

theorem tokens_mark {first : UInt8} (token : Token) (mark : punctuation? first = some token)
    (rest : List UInt8) : tokens (first :: rest) = token :: tokens rest := by
  have visible : isBlank first = false := by
    rw [Bool.eq_false_iff]
    intro blank
    simp only [isBlank, Bool.or_eq_true, decide_eq_true_iff] at blank
    rcases blank with ((rfl | rfl) | rfl) | rfl <;> cases mark
  have cuts : cut first rest = (token, rest) := by
    unfold cut
    rw [mark]
  exact tokens_cons visible cuts

theorem tokens_null (rest : List UInt8) :
    tokens (Utf8.encode ['n', 'u', 'l', 'l'] ++ rest) = .null :: tokens rest :=
  tokens_cons rfl rfl

theorem tokens_true (rest : List UInt8) :
    tokens (Utf8.encode ['t', 'r', 'u', 'e'] ++ rest) = .boolean true :: tokens rest :=
  tokens_cons rfl rfl

theorem tokens_false (rest : List UInt8) :
    tokens (Utf8.encode ['f', 'a', 'l', 's', 'e'] ++ rest) = .boolean false :: tokens rest :=
  tokens_cons rfl rfl

end BatchAuction.Json
