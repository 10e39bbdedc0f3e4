/-
The program: it starts a service from its arguments, its environment and its
configuration file, says what operators should know, and serves until its input
ends.
-/
import Foreman.Startup

namespace Foreman.Program

/-- What is found at a path. -/
def readSource (path : String) : IO Config.Source := do
  try
    return .bytes (← IO.FS.readBinFile path).toList
  catch
    | .noFileOrDirectory .. => return .missing
    | _ => return .unreadable

/-- A hundred and twenty-eight random bits. -/
def randomBits : IO (BitVec 128) := do
  return BitVec.ofNat 128 (← IO.rand 0 (Nat.pow 2 128 - 1))

/-- The variables of the environment that are set. -/
def readEnvironment : IO Config.Environment := do
  let values ← Config.Variable.all.mapM fun v => do return (v, ← IO.getEnv v.name)
  return fun v => (values.lookup v).join

/-- Waits for the end of the input. -/
partial def untilEnd (input : IO.FS.Stream) : IO Unit := do
  unless (← input.getLine).isEmpty do
    untilEnd input

/-- Serves until the input ends, and shuts down. -/
def serve (site : Http.Site) : IO Unit := do
  for notice in site.service.server.notices do
    IO.println notice.line
  untilEnd (← IO.getStdin)
  unless site.shutdown.isDrained do
    IO.println "WARN the pipeline has not drained"

end Foreman.Program

open Foreman Program in
def main (arguments : List String) : IO UInt32 := do
  let home := (← IO.getEnv "HOME").getD "/root"
  let accounts ← randomBits
  let requests ← randomBits
  let source ← match CommandLine.parse arguments with
    | .ok request => readSource (request.pathIn home)
    | .error _ => pure .missing
  let outcome := launch arguments (fun _ => source) {
    home := home
    environment := ← readEnvironment
    host := .isolated
    clock := ⟨0, ← IO.monoNanosNow⟩
    newId := fun n => UserId.ofRandom (accounts + n)
    requestId := fun n => (UserId.ofRandom (requests + n)).text }
  (← IO.getStderr).putStr outcome.complaint
  if let .serving site := outcome then
    serve site
  return outcome.exitCode
