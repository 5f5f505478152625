import BatchAuction.Json.Number
import BatchAuction.Text.Utf8

/-!
# JSON tokens

The text of a document is cut into tokens without regard to where they stand.
Cutting never fails: where no token can be made a last one records what two kinds
of reader say there, one that wants the value and one that passes over it. A
token can also be well formed and still unreadable, such as a number too large
for a double; the reader that passes over it does not notice.
-/

set_option autoImplicit false

namespace BatchAuction.Json

/-- The smallest pieces of a document. -/
inductive Token where
  | null
  | boolean (value : Bool)
  | number (value : Readable Number)
  | text (value : Readable String)
  | listOpen
  | listClose
  | objectOpen
  | objectClose
  | comma
  | colon
  /-- A text that breaks off; nothing follows it. -/
  | brokenText (read skipped : Fault)
  /-- Anything else that breaks off; nothing follows it. -/
  | broken (read skipped : Fault)

/-- Space, tab, line feed and carriage return. -/
def isBlank (byte : UInt8) : Bool := byte = 32 || byte = 9 || byte = 10 || byte = 13

def isDigit (byte : UInt8) : Bool := 48 ≤ byte && byte ≤ 57

/-- A piece of a text: a byte that stands for itself, an escape of one letter
already replaced, or a numbered UTF-16 unit. -/
inductive TextPiece where
  | byte (value : UInt8)
  | escape (value : UInt8)
  | unit (value : Nat)
deriving DecidableEq, Repr

/-- How a text ends. -/
inductive TextEnd where
  | closed (rest : List UInt8)
  | unfinished
  | badEscape
  | badUnit
  | control
deriving DecidableEq, Repr

/-- The value of a hex digit. -/
def hexValue? (byte : UInt8) : Option Nat :=
  if 48 ≤ byte && byte ≤ 57 then some (byte.toNat - 48)
  else if 97 ≤ byte && byte ≤ 102 then some (byte.toNat - 87)
  else if 65 ≤ byte && byte ≤ 70 then some (byte.toNat - 55)
  else none

/-- The unit that four hex digits denote. -/
def unitValue? (a b c d : UInt8) : Option Nat :=
  match hexValue? a, hexValue? b, hexValue? c, hexValue? d with
  | some a, some b, some c, some d => some (((a * 16 + b) * 16 + c) * 16 + d)
  | _, _, _, _ => none

/-- The byte that an escape of one letter stands for. -/
def simpleEscape? (letter : UInt8) : Option UInt8 :=
  if letter = 34 || letter = 92 || letter = 47 then some letter
  else if letter = 98 then some 8
  else if letter = 102 then some 12
  else if letter = 110 then some 10
  else if letter = 114 then some 13
  else if letter = 116 then some 9
  else none

/-- Cuts the inside of a text into pieces. -/
def scanText : List UInt8 → List TextPiece × TextEnd
  | [] => ([], .unfinished)
  | first :: rest =>
      if first = 34 then ([], .closed rest)
      else if first = 92 then
        match rest with
        | [] => ([], .unfinished)
        | letter :: rest =>
            if letter = 117 then
              match rest with
              | a :: b :: c :: d :: rest =>
                  match unitValue? a b c d with
                  | some unit =>
                      let (pieces, ending) := scanText rest
                      (.unit unit :: pieces, ending)
                  | none => ([], .badUnit)
              | _ => ([], .unfinished)
            else
              match simpleEscape? letter with
              | some byte =>
                  let (pieces, ending) := scanText rest
                  (.escape byte :: pieces, ending)
              | none => ([], .badEscape)
      else if first < 32 then ([], .control)
      else
        let (pieces, ending) := scanText rest
        (.byte first :: pieces, ending)

/-- What the end of a text is called, if it is no end. -/
def TextEnd.fault? : TextEnd → Option Fault
  | .closed _ => none
  | .unfinished => some .endInText
  | .badEscape | .badUnit => some .invalidEscape
  | .control => some .controlCharacter

/-- What is wrong where the second half of a surrogate pair should stand and the
text ends instead. -/
def TextEnd.unpairedFault : TextEnd → Fault
  | .unfinished => .endInText
  | .badUnit => .invalidEscape
  | .closed _ | .badEscape | .control => .unpairedSurrogate

/-- The first half of a surrogate pair. -/
def isHighSurrogate (unit : Nat) : Bool := 0xD800 ≤ unit && unit ≤ 0xDBFF

/-- The second half of a surrogate pair. -/
def isLowSurrogate (unit : Nat) : Bool := 0xDC00 ≤ unit && unit ≤ 0xDFFF

/-- The bytes that the pieces of a text denote. -/
def assemble (ending : TextEnd) : List TextPiece → Readable (List UInt8)
  | [] => match ending.fault? with
      | some fault => .error fault
      | none => .ok []
  | .byte value :: rest | .escape value :: rest => (assemble ending rest).map (value :: ·)
  | .unit high :: rest =>
      if isLowSurrogate high then .error .loneSurrogate
      else if isHighSurrogate high then
        match rest with
        | .unit low :: rest =>
            if isLowSurrogate low then
              let point := 0x10000 + (high - 0xD800) * 1024 + (low - 0xDC00)
              (assemble ending rest).map (Text.Utf8.encodePoint point ++ ·)
            else .error .loneSurrogate
        | .byte _ :: _ | .escape _ :: _ => .error .unpairedSurrogate
        | [] => .error ending.unpairedFault
      else (assemble ending rest).map (Text.Utf8.encodePoint high ++ ·)

/-- The characters that the pieces of a text denote. -/
def readText (pieces : List TextPiece) (ending : TextEnd) : Readable String := do
  let bytes ← assemble ending pieces
  match Text.Utf8.toString? bytes with
  | some characters => return characters
  | none => throw .invalidUnicode

/-- A token and the bytes after it; no bytes where the text breaks off. -/
abbrev Cut := Token × List UInt8

/-- Cuts a text, after its opening quote. -/
def cutText (bytes : List UInt8) : Cut :=
  let (pieces, ending) := scanText bytes
  match ending with
  | .closed rest => (.text (readText pieces ending), rest)
  | _ =>
      let skipped := ending.fault?.getD .endInText
      let read := match readText pieces ending with
        | .error fault => fault
        | .ok _ => skipped
      (.brokenText read skipped, [])

/-- The digits at the front, as values, and the rest. -/
def spanDigits : List UInt8 → List Nat × List UInt8
  | [] => ([], [])
  | byte :: rest =>
      if isDigit byte then
        let (digits, rest) := spanDigits rest
        ((byte.toNat - 48) :: digits, rest)
      else ([], byte :: rest)

/-- Where a digit is missing: at the end of the text the reader is told so. -/
def digitMissing (rest : List UInt8) : Cut :=
  (.broken (if rest.isEmpty then .endInValue else .invalidNumber) .invalidNumber, [])

/-- Cuts the exponent of a numeral. -/
def cutExponent (numeral : Numeral) : List UInt8 → Cut
  | [] => (.number numeral.value, [])
  | mark :: rest =>
      if mark = 101 || mark = 69 then
        let (negative, rest) := match rest with
          | sign :: rest =>
              if sign = 45 then (true, rest)
              else if sign = 43 then (false, rest)
              else (false, sign :: rest)
          | [] => (false, [])
        let (digits, rest) := spanDigits rest
        if digits.isEmpty then digitMissing rest
        else (.number { numeral with exponent := some (negative, digits) }.value, rest)
      else (.number numeral.value, mark :: rest)

/-- Cuts the fraction of a numeral. -/
def cutFraction (numeral : Numeral) : List UInt8 → Cut
  | [] => (.number numeral.value, [])
  | mark :: rest =>
      if mark = 46 then
        let (digits, rest) := spanDigits rest
        if digits.isEmpty then digitMissing rest
        else cutExponent { numeral with fraction := some digits } rest
      else cutExponent numeral (mark :: rest)

/-- Cuts a numeral, after its sign. A zero at the front stands alone. -/
def cutNumber (negative : Bool) (bytes : List UInt8) : Cut :=
  let (digits, rest) := spanDigits bytes
  match digits with
  | [] => digitMissing rest
  | 0 :: _ :: _ => (.broken .invalidNumber .invalidNumber, [])
  | _ => cutFraction ⟨negative, digits, none, none⟩ rest

/-- Cuts the letters of a name after its first one. -/
def cutLiteral (token : Token) : (letters bytes : List UInt8) → Cut
  | [], bytes => (token, bytes)
  | _ :: _, [] => (.broken .endInValue .endInValue, [])
  | letter :: letters, byte :: bytes =>
      if byte = letter then cutLiteral token letters bytes
      else (.broken .expectedLiteral .expectedLiteral, [])

def punctuation? (byte : UInt8) : Option Token :=
  if byte = 123 then some .objectOpen
  else if byte = 125 then some .objectClose
  else if byte = 91 then some .listOpen
  else if byte = 93 then some .listClose
  else if byte = 44 then some .comma
  else if byte = 58 then some .colon
  else none

/-- Cuts the token that begins with a byte. -/
def cut (first : UInt8) (rest : List UInt8) : Cut :=
  match punctuation? first with
  | some token => (token, rest)
  | none =>
      if first = 34 then cutText rest
      else if first = 45 then cutNumber true rest
      else if isDigit first then cutNumber false (first :: rest)
      else if first = 110 then cutLiteral .null [117, 108, 108] rest
      else if first = 116 then cutLiteral (.boolean true) [114, 117, 101] rest
      else if first = 102 then cutLiteral (.boolean false) [97, 108, 115, 101] rest
      else (.broken .expectedValue .expectedValue, [])

theorem scanText_closed_length {bytes rest : List UInt8}
    (closed : (scanText bytes).2 = .closed rest) : rest.length < bytes.length := by
  fun_induction scanText bytes generalizing rest <;>
    simp_all only [List.length_cons, TextEnd.closed.injEq, reduceCtorEq] <;> grind

theorem spanDigits_length (bytes : List UInt8) :
    (spanDigits bytes).2.length + (spanDigits bytes).1.length = bytes.length := by
  fun_induction spanDigits bytes with
  | case1 => rfl
  | case2 byte rest digit digits others spanned shorter =>
    simp only [spanned, List.length_cons] at shorter ⊢
    omega
  | case3 => simp

theorem cutText_length (bytes : List UInt8) : (cutText bytes).2.length ≤ bytes.length := by
  unfold cutText
  split
  rename_i pieces ending scanned
  split
  · exact Nat.le_of_lt (scanText_closed_length (by rw [scanned]))
  · simp

theorem cutLiteral_length (token : Token) (letters bytes : List UInt8) :
    (cutLiteral token letters bytes).2.length ≤ bytes.length := by
  fun_induction cutLiteral token letters bytes with
  | case1 => exact Nat.le_refl _
  | case2 => simp
  | case3 letter letters bytes shorter =>
    exact Nat.le_trans shorter (Nat.le_succ _)
  | case4 => simp

theorem cutExponent_length (numeral : Numeral) (bytes : List UInt8) :
    (cutExponent numeral bytes).2.length ≤ bytes.length := by
  have shorter := fun bytes => spanDigits_length bytes
  unfold cutExponent digitMissing
  grind

theorem cutFraction_length (numeral : Numeral) (bytes : List UInt8) :
    (cutFraction numeral bytes).2.length ≤ bytes.length := by
  have shorter := fun bytes => spanDigits_length bytes
  have exponent := fun numeral bytes => cutExponent_length numeral bytes
  unfold cutFraction digitMissing
  grind

theorem cutNumber_length (negative : Bool) (bytes : List UInt8) :
    (cutNumber negative bytes).2.length ≤ (spanDigits bytes).2.length := by
  have fraction := fun numeral bytes => cutFraction_length numeral bytes
  unfold cutNumber digitMissing
  grind

theorem cut_length (first : UInt8) (rest : List UInt8) :
    (cut first rest).2.length ≤ rest.length := by
  have text := cutText_length rest
  have literal := fun token letters => cutLiteral_length token letters rest
  have signed := cutNumber_length true rest
  have plain := cutNumber_length false (first :: rest)
  have spanned := spanDigits_length rest
  simp only [spanDigits] at plain
  unfold cut
  grind

/-- The tokens of a text. Nothing follows a token that breaks off. -/
def tokens : List UInt8 → List Token
  | [] => []
  | first :: rest =>
      if isBlank first then tokens rest
      else (cut first rest).1 :: tokens (cut first rest).2
termination_by bytes => bytes.length
decreasing_by
  · simp
  · exact Nat.lt_succ_of_le (cut_length first rest)

end BatchAuction.Json
