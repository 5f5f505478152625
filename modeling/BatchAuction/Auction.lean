import BatchAuction.AddressMap
import BatchAuction.Clock.Timestamp
import BatchAuction.Decimal.Scaled
import BatchAuction.Order

/-!
# Auctions

What a solver is asked to solve: orders, the tokens they trade, and the liquidity
that may be used.
-/

set_option autoImplicit false

namespace BatchAuction

/-- What is known of a token. A trusted token may be settled against the balance
that the settlement contract holds. -/
structure Token where
  decimals : Option UInt8
  symbol : Option String
  referencePrice : Option Amount
  availableBalance : Amount
  trusted : Bool
deriving DecidableEq

/-- A source of liquidity. Its kind is passed through uninterpreted. -/
structure Liquidity where
  id : String
  address : Address
  router : Address
  fee : Decimal.Scaled
  gas : UInt64
  kind : String
  reserves : AddressMap Amount
deriving DecidableEq

structure Auction where
  id : Option Int64
  tokens : AddressMap Token
  orders : List Order
  liquidity : List Liquidity
  gasPrice : Amount
  deadline : Clock.Timestamp
deriving DecidableEq

namespace Auction

/-- Whether a token is known and trusted. -/
def trusts (auction : Auction) (token : Address) : Bool :=
  match auction.tokens.get? token with
  | some known => known.trusted
  | none => false

end Auction

end BatchAuction
