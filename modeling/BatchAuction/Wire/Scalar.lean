import BatchAuction.AddressMap
import BatchAuction.Wire.Alternative

/-!
# Wire formats of plain values

Amounts are decimal texts and binary data is hex text, because neither survives
as a JSON number. Identifiers may be written as numbers or as texts; each format
says which of the two it tries first and which it writes.
-/

set_option autoImplicit false

namespace BatchAuction.Wire.Codec

def text : Codec String := ⟨Decoder.text, .text⟩

def boolean : Codec Bool := ⟨Decoder.boolean, .boolean⟩

def real : Codec Binary64 := ⟨Decoder.real, fun value => .number (.real value)⟩

/-- An unsigned number of 64 bits. -/
def unsigned64 : Codec UInt64 where
  decode := (Decoder.integer 0 (UInt64.size - 1) (.unsigned 64)).map fun n => UInt64.ofNat n.toNat
  encode value := .natural value.toNat

/-- An unsigned number of 32 bits. -/
def unsigned32 : Codec UInt32 where
  decode := (Decoder.integer 0 (UInt32.size - 1) (.unsigned 32)).map fun n => UInt32.ofNat n.toNat
  encode value := .natural value.toNat

/-- An unsigned number of 8 bits. -/
def unsigned8 : Codec UInt8 where
  decode := (Decoder.integer 0 (UInt8.size - 1) (.unsigned 8)).map fun n => UInt8.ofNat n.toNat
  encode value := .natural value.toNat

/-- A signed number of 64 bits. -/
def signed64 : Codec Int64 where
  decode :=
    (Decoder.integer Int64.minValue.toInt Int64.maxValue.toInt (.signed 64)).map Int64.ofInt
  encode value := .integer value.toInt

/-- An unsigned number of 64 bits as a decimal text. -/
def unsignedText : Codec UInt64 where
  decode := Decoder.text.refine fun s =>
    match Decimal.parseUnsigned (UInt64.size - 1) s with
    | .ok value => .ok (UInt64.ofNat value)
    | .error error => .error (.integer error)
  encode value := .text (Decimal.print value.toNat)

/-- A signed number of 64 bits as a decimal text. -/
def signedText : Codec Int64 where
  decode := Decoder.text.refine fun s =>
    match Decimal.parseSigned Int64.maxValue.toNatClampNeg s with
    | .ok value => .ok (Int64.ofInt value)
    | .error error => .error (.integer error)
  encode value := .text (Json.printInteger value.toInt)

/-- One of two formats; the first one is tried first and is the one written. -/
def either {α : Type} (first second : Codec α) : Codec α where
  decode := Decoder.either first.decode second.decode
  encode := first.encode

def solutionId : Codec UInt64 := either unsigned64 unsignedText

/-- The identifier of an auction that a request refers to. -/
def auctionReference : Codec Int64 := either signed64 signedText

/-- The identifier that an auction carries. -/
def auctionId : Codec Int64 := either signedText signed64

def amount : Codec Amount where
  decode := (Decoder.textAs .amount).refine fun s =>
    (Decimal.parseAmount s).mapError (Cause.amount s)
  encode value := .text (Decimal.print value.value)

def bytes : Codec (List UInt8) where
  decode := Decoder.text.refine fun s => (Hex.parse s).mapError (Cause.bytes s .any)
  encode value := .text (Hex.print value)

def fixedBytes (size : Nat) : Codec (FixedBytes size) where
  decode := Decoder.text.refine fun s =>
    (Hex.parseFixed size s).mapError (Cause.bytes s (.exactly size))
  encode value := .text value.print

def parseAddress (s : String) : Except Cause Address :=
  (Hex.parseAddress s).mapError (Cause.bytes s .address)

def address : Codec Address where
  decode := Decoder.text.refine parseAddress
  encode value := .text value.print

def timestamp : Codec Clock.Timestamp where
  decode := (Decoder.textAs .timestamp).refine fun s =>
    (Clock.Timestamp.parse s).mapError Cause.timestamp
  encode value := .text value.print

/-- Reads a scaled decimal from a text or from any number. -/
def readScaled : Decoder Decimal.Scaled := fun _ document =>
  match document with
  | .text (.ok s) => (Decimal.Scaled.parse s).mapError fun error => .here (.decimal error)
  | .number (.ok (.integer value)) => .ok (.ofInt value)
  | .number (.ok (.real value)) => .ok (.ofBinary64 value)
  | document => mismatch .decimal document

/-- A scaled decimal, written as a text. -/
def scaled : Codec Decimal.Scaled := ⟨readScaled, fun value => .text value.print⟩

/-- A set of addresses in a list. -/
def addressSet : Codec (AddressMap Unit) where
  decode := address.decode.list.map fun addresses =>
    AddressMap.ofList (addresses.map fun address => (address, ()))
  encode set := .list (set.keys.map address.encode)

end BatchAuction.Wire.Codec

namespace BatchAuction.Wire

/-- What becomes of a second member whose key is the address of an earlier one. -/
inductive Repetition where
  | refused
  | replaces
deriving DecidableEq, Repr

/-- Reads the members of an object into a table. -/
def readTable {α : Type} (repetition : Repetition) (decode : Decoder α) (medium : Medium)
    (tail : Option Error) : AddressMap α → List (String × Json.Document) →
    Except Error (AddressMap α)
  | table, [] =>
      match tail with
      | none => .ok table
      | some error => .error error
  | table, (key, document) :: rest => do
      let address ← (Codec.parseAddress key).mapError fun cause =>
        (Error.here cause).under (.member key)
      let value ← (decode medium document).mapError (.under (.member key))
      if repetition = .refused && table.contains address then throw (.here .duplicateKey)
      readTable repetition decode medium tail (table.insert address value) rest

/-- The damage after the members of a table. A key whose colon is missing still has
to be an address. -/
def tableTail (members : Members) : Option Error :=
  match members.keyOnly with
  | none => members.tail
  | some key =>
      match Codec.parseAddress key with
      | .ok _ => members.tail
      | .error cause => some ((Error.here cause).under (.member key))

/-- A table whose keys are addresses. -/
def Codec.table {α : Type} (repetition : Repetition) (codec : Codec α) :
    Codec (AddressMap α) where
  decode medium document :=
    match document with
    | .object members ending tooDeep =>
        if tooDeep then damaged .tooDeep
        else
          let members := Members.of ending members
          readTable repetition codec.decode medium (tableTail members) .empty members.entries
    | document => mismatch .map document
  encode table := .object (table.entries.map fun entry => (entry.1.print, codec.encode entry.2))

end BatchAuction.Wire
