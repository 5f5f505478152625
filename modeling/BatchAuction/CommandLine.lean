import BatchAuction.Net.SocketAddress

/-!
# Command line

The options of the program. A value follows its option as the next word or after an
equals sign. An option is judged only when the next one begins or the words end, so
a word that fits nowhere wins over a wrong value before it.
-/

set_option autoImplicit false

namespace BatchAuction

/-- What the program is told to do. -/
structure CommandLine where
  log : String
  useJsonLogs : Bool
  address : Net.SocketAddress
  configPath : Option String
deriving DecidableEq

namespace CommandLine

inductive Switch where
  | log
  | useJsonLogs
  | address
  | configPath
  | help
  | version
deriving DecidableEq, Repr

/-- The names of the options, as they follow two hyphens. -/
def switchNames : List (String × Switch) :=
  [("log", .log), ("use-json-logs", .useJsonLogs), ("addr", .address), ("config", .configPath),
    ("help", .help), ("version", .version)]

/-- The letters of options, as they follow one hyphen. -/
def switchLetters : List (Char × Switch) := [('h', .help), ('V', .version)]

/-- Whether an option has a value. -/
def Switch.hasValue : Switch → Bool
  | .log | .address | .configPath => true
  | .useJsonLogs | .help | .version => false

/-- Why the program does not run. -/
inductive Refusal where
  | helpWanted
  | versionWanted
  | unknownWord (word : String)
  | noValue (switch : Switch)
  | surplusValue (switch : Switch)
  | wrongValue (switch : Switch)
  | repeated (switch : Switch)
deriving DecidableEq, Repr

/-- An option as it is written. -/
def Switch.written (switch : Switch) : String :=
  "--" ++ (((switchNames.find? fun entry => entry.2 = switch).map (·.1)).getD "")

/-- How the program is used. -/
def usage : String :=
  "Usage: batch-auction [--log FILTER] [--use-json-logs] [--addr HOST:PORT] [--config FILE]"

/-- Why the program does not run, as text. -/
def Refusal.message : Refusal → String
  | .helpWanted => usage
  | .versionWanted => "batch-auction 0.1.0"
  | .unknownWord word => "error: unexpected argument " ++ word ++ "\n" ++ usage
  | .noValue switch => "error: a value is required for " ++ switch.written ++ "\n" ++ usage
  | .surplusValue switch => "error: " ++ switch.written ++ " takes no value\n" ++ usage
  | .wrongValue switch => "error: invalid value for " ++ switch.written ++ "\n" ++ usage
  | .repeated switch => "error: " ++ switch.written ++ " is given more than once\n" ++ usage

/-- The status with which the program ends. Only a wish for information is no error. -/
def Refusal.exitCode : Refusal → UInt32
  | .helpWanted | .versionWanted => 0
  | _ => 2

/-- An option whose judgement is still to come, and its value once it has one. -/
structure Pending where
  switch : Switch
  value : Option String

/-- What the words so far say. -/
structure Progress where
  log : Option String
  useJsonLogs : Bool
  address : Option Net.SocketAddress
  configPath : Option String
  pending : Option Pending

def Progress.start : Progress := ⟨none, false, none, none, none⟩

namespace Progress

/-- Takes the value of an option. Every option may be given once. -/
def take (progress : Progress) (switch : Switch) (value : String) : Except Refusal Progress :=
  match switch with
  | .log =>
      if progress.log.isSome then .error (.repeated switch)
      else .ok { progress with log := some value }
  | .address =>
      if progress.address.isSome then .error (.repeated switch)
      else
        match Net.SocketAddress.parse? value with
        | some address => .ok { progress with address := some address }
        | none => .error (.wrongValue switch)
  | .configPath =>
      if progress.configPath.isSome then .error (.repeated switch)
      else if value.isEmpty then .error (.noValue switch)
      else .ok { progress with configPath := some value }
  | .useJsonLogs =>
      if progress.useJsonLogs then .error (.repeated switch)
      else .ok { progress with useJsonLogs := true }
  | .help => .error .helpWanted
  | .version => .error .versionWanted

/-- Judges the option whose judgement is still to come. -/
def settle (progress : Progress) : Except Refusal Progress :=
  match progress.pending with
  | none => .ok progress
  | some ⟨switch, none⟩ => .error (.noValue switch)
  | some ⟨switch, some value⟩ => { progress with pending := none }.take switch value

/-- Takes an option with what follows its equals sign. -/
def takeSwitch (progress : Progress) (switch : Switch) (attached : Option String) :
    Except Refusal Progress := do
  match attached with
  | some value =>
      if !switch.hasValue then throw (.surplusValue switch)
      (← progress.settle).take switch value
  | none =>
      let progress ← progress.settle
      if switch.hasValue then return { progress with pending := some ⟨switch, none⟩ }
      progress.take switch ""

end Progress

/-- A name and what follows its equals sign. -/
def splitAttached (cs : List Char) : String × Option String :=
  match cs.span (· ≠ '=') with
  | (name, _ :: value) => (String.ofList name, some (String.ofList value))
  | (name, []) => (String.ofList name, none)

def entry? {κ α : Type} [DecidableEq κ] (key : κ) (entries : List (κ × α)) : Option α :=
  (entries.find? fun entry => entry.1 = key).map (·.2)

def takeWord (progress : Progress) (word : String) : Except Refusal Progress :=
  match word.toList with
  | '-' :: '-' :: rest =>
      let (name, attached) := splitAttached rest
      match entry? name switchNames with
      | some switch => progress.takeSwitch switch attached
      | none => .error (.unknownWord word)
  | '-' :: letter :: _ =>
      match entry? letter switchLetters with
      | some switch => progress.takeSwitch switch none
      | none => .error (.unknownWord word)
  | _ =>
      match progress.pending with
      | some ⟨switch, none⟩ => .ok { progress with pending := some ⟨switch, some word⟩ }
      | _ => .error (.unknownWord word)

/-- Takes words in order. After two hyphens alone no word fits any more. -/
def takeWords : Progress → List String → Except Refusal Progress
  | progress, [] => progress.settle
  | progress, word :: rest =>
      if word = "--" then
        match rest with
        | [] => progress.settle
        | other :: _ => .error (.unknownWord other)
      else do takeWords (← takeWord progress word) rest

/-- The address that is listened on unless another one is given. -/
def standardAddress : Net.SocketAddress := ⟨.four (FixedBytes.ofNat 4 0x7f000001), 7872⟩

/-- Reads the words after the name of the program. -/
def parse (words : List String) : Except Refusal CommandLine := do
  let progress ← takeWords .start words
  return {
    log := progress.log.getD "info,solver_engine=debug"
    useJsonLogs := progress.useJsonLogs
    address := progress.address.getD standardAddress
    configPath := progress.configPath }

end CommandLine

end BatchAuction
