import BatchAuction.CommandLine
import BatchAuction.Engine.Basic
import Std.Http.Server
import Std.Time.DateTime

/-!
# The program

Starts an engine as the command line says, and passes requests from the network to
it and its answers back. Now and then the solutions whose time is over are removed.
-/

set_option autoImplicit false

namespace BatchAuction.Main

open Std.Async

def presentTime : IO Clock.Timestamp := do
  let now ← Std.Time.PlainDateTime.now
  let date? := Clock.Date.of? now.date.year.toInt now.date.month.val.toNat now.date.day.val.toNat
  let time? := date?.bind fun date =>
    Clock.Timestamp.of? date now.time.toSeconds.val.toNat now.time.nanosecond.val.toNat
  return time?.getD .last

/-- The configuration in a file, or the standard one. -/
def loadConfig? : Option String → IO (Option Config)
  | none => return some .standard
  | some path => do
      try return (Config.parse (← IO.FS.readFile path)).toOption
      catch _ => return none

/-- An address as the network takes it. -/
def endpoint (address : Net.SocketAddress) : Std.Net.SocketAddress :=
  match address.host with
  | .four bytes =>
      .v4 ⟨⟨Vector.ofFn fun index => bytes.bytes.getD index 0⟩, address.port⟩
  | .eight groups _ =>
      .v6 ⟨⟨Vector.ofFn fun index => UInt16.ofNat (groups.getD index 0)⟩, address.port⟩

/-- An answer as the network takes it. -/
def send (response : Http.Response) : Async (Std.Http.Response Std.Http.Body.Any) := do
  let status := Std.Http.Status.ofCode none (UInt16.ofNat response.status)
  let builder := Std.Http.Response.new.status (status.getD .internalServerError)
  let answer ← match response.body with
    | .json value => builder.json value.print
    | .text value => builder.text value
  return ⟨answer.line, .ofBody answer.body, answer.extensions⟩

/-- Answers a request from the network. -/
def handle (state : IO.Ref Engine) (incoming : Std.Http.Request Std.Http.Body.Stream) :
    ContextAsync (Std.Http.Response Std.Http.Body.Any) := do
  let body : ByteArray ← incoming.body.readAll
  let request := Http.Request.ofTarget (toString incoming.line.method)
    (toString incoming.line.uri) body.toList
  let now ← presentTime
  send (← state.modifyGet fun engine => engine.receive now request)

/-- Removes solutions whose time is over, again and again. -/
partial def sweepOften (state : IO.Ref Engine) (interval : Clock.Duration) : Async Unit := do
  let now ← presentTime
  state.modify fun engine => engine.sweep now
  sleep (Std.Time.Millisecond.Offset.ofNat (interval.nanos / 1000000))
  sweepOften state interval

/-- Runs an engine until the network fails. -/
def serve (address : Net.SocketAddress) (config : Config) : Async Unit := do
  let state ← IO.mkRef (Engine.start config)
  background (sweepOften state config.cacheSweepInterval)
  let server ← Std.Http.Server.serve (endpoint address) (Std.Http.Server.Handler.ofFn (handle state))
  server.waitShutdown

end BatchAuction.Main

def main (words : List String) : IO UInt32 := do
  match BatchAuction.CommandLine.parse words with
  | .error refusal =>
      IO.eprintln refusal.message
      return refusal.exitCode
  | .ok line =>
      match ← BatchAuction.Main.loadConfig? line.configPath with
      | none =>
          IO.eprintln "Error: failed to load configuration"
          return 1
      | some config =>
          (BatchAuction.Main.serve line.address config).block
          return 0
