import BatchAuction.Text.Utf8

/-!
# Request identifiers

Every request has an identifier, under which everything that is noted of it can be
found. The client may choose it in a header; otherwise requests are numbered.
-/

set_option autoImplicit false

namespace BatchAuction

structure Header where
  name : String
  value : List UInt8
deriving DecidableEq, Repr

namespace RequestId

/-- The header that chooses the identifier. Its name may be written in any case. -/
def headerName : String := "X-Request-ID"

/-- Whether a header chooses the identifier. -/
def isChoice (header : Header) : Bool := header.name.toLower = headerName.toLower

/-- The identifier that a request chooses. Bytes that are no text are replaced. -/
def chosen? (headers : List Header) : Option String :=
  (headers.find? isChoice).map fun header => Text.Utf8.toStringLossy header.value

end RequestId

end BatchAuction
