import BatchAuction.Clock.Span
import BatchAuction.Hex
import BatchAuction.Quote
import BatchAuction.QuoteResponse
import BatchAuction.Toml.Document

/-!
# Configuration

The configuration is a TOML document with a fixed set of options, all of which may
be left out. An accepted configuration has a usable ratio and a sweep interval.
-/

set_option autoImplicit false

namespace BatchAuction

open Clock

/-- Why a configuration is refused. -/
inductive ConfigError where
  | malformed
  | invalidRatio
  | noSweepInterval
deriving DecidableEq, Repr

/-- Why a configuration is refused, as text. -/
def ConfigError.message : ConfigError → String
  | .malformed => "TOML syntax error"
  | .invalidRatio => QuoteError.invalidRatio.message
  | .noSweepInterval => "cache-sweep-interval must not be zero"

structure Config where
  /-- The account that quotes name as their solver. -/
  solverAddress : Address
  settlementContract : Address
  quoteGas : UInt64
  solutionGas : UInt64
  quoteRatio : Ratio
  quoteFormat : QuoteFormat
  cacheSweepInterval : Duration
  solutionRetention : Duration

namespace Config

/-- The settlement contract of every chain. -/
def settlementContractAddress : Address :=
  FixedBytes.ofNat 20 0x9008d19f58aabd9ed0d60971565aa8510560ab41

/-- The configuration that leaves out everything. -/
def standard : Config where
  solverAddress := .zero
  settlementContract := settlementContractAddress
  quoteGas := 150000
  solutionGas := 250000
  quoteRatio := .standard
  quoteFormat := .standard
  cacheSweepInterval := .ofSeconds 30
  solutionRetention := .ofSeconds 60

def optionNames : List String :=
  ["solver-address", "settlement-contract", "quote-gas", "solution-gas", "quote-price-ratio",
    "quote-format", "cache-sweep-interval", "solution-retention"]

/-- An option, or what stands for it where it is missing. -/
def optionOr {α : Type} (entries : Toml.Entries) (name : String) (read : Toml.Value → Option α)
    (missing : α) : Option α :=
  match entries.get? name with
  | none => some missing
  | some value => read value

def address? : Toml.Value → Option Address
  | .text s => (Hex.parseAddress s).toOption
  | _ => none

/-- A number that is not negative. -/
def unsigned? : Toml.Value → Option UInt64
  | .integer value => if 0 ≤ value then some (UInt64.ofNat value.toNat) else none
  | _ => none

/-- The two parts of a ratio. More items are ignored. -/
def ratio? : Toml.Value → Option (UInt64 × UInt64)
  | .list (numerator :: denominator :: _) => do
      return (← unsigned? numerator, ← unsigned? denominator)
  | _ => none

/-- Whether a value holds nothing: an empty list or table. -/
def isVacant : Toml.Value → Bool
  | .list [] => true
  | .table _ [] => true
  | _ => false

/-- The quote format of a name. -/
def formatOfName? (name : String) : Option QuoteFormat :=
  if name = "standard" then some .standard
  else if name = "legacy" then some .legacy
  else none

/-- A quote format: its name, or a table in which its name is the only key and
holds nothing. -/
def format? : Toml.Value → Option QuoteFormat
  | .text name => formatOfName? name
  | .table _ [(name, value)] => if isVacant value then formatOfName? name else none
  | _ => none

def duration? : Toml.Value → Option Duration
  | .text s => Duration.ofText? s
  | _ => none

/-- The options as they are written, before the ratio and the interval are checked. -/
structure Draft where
  config : Config
  ratio : Option (UInt64 × UInt64)

/-- Reads the options. No other entry may be there. -/
def draft? (entries : Toml.Entries) : Option Draft := do
  if !(entries.all fun entry => optionNames.contains entry.1) then none
  let solverAddress ← optionOr entries "solver-address" address? standard.solverAddress
  let settlementContract ←
    optionOr entries "settlement-contract" address? standard.settlementContract
  let quoteGas ← optionOr entries "quote-gas" unsigned? standard.quoteGas
  let solutionGas ← optionOr entries "solution-gas" unsigned? standard.solutionGas
  let ratio ← optionOr entries "quote-price-ratio" (fun value => (ratio? value).map some) none
  let quoteFormat ← optionOr entries "quote-format" format? standard.quoteFormat
  let cacheSweepInterval ←
    optionOr entries "cache-sweep-interval" duration? standard.cacheSweepInterval
  let solutionRetention ←
    optionOr entries "solution-retention" duration? standard.solutionRetention
  let config : Config := {
    solverAddress, settlementContract, quoteGas, solutionGas
    quoteRatio := standard.quoteRatio
    quoteFormat, cacheSweepInterval, solutionRetention }
  return ⟨config, ratio⟩

/-- Checks the ratio and puts it in. -/
def Draft.withRatio (draft : Draft) : Except ConfigError Config :=
  match draft.ratio with
  | none => .ok draft.config
  | some (numerator, denominator) =>
      match Ratio.of numerator denominator with
      | .ok ratio => .ok { draft.config with quoteRatio := ratio }
      | .error _ => .error .invalidRatio

/-- Reads a configuration. The ratio is checked before the interval. -/
def parse (s : String) : Except ConfigError Config :=
  match (Toml.parse s).bind draft? with
  | none => .error .malformed
  | some draft => do
      let config ← draft.withRatio
      if config.cacheSweepInterval = .zero then throw .noSweepInterval
      return config

end Config

end BatchAuction
