import BeaconScheduler.Simulator.Basic

/-!
# The command line of the simulator

Reads the configuration, runs the simulation interval by interval, and prints the journal as it
is written.
-/

set_option autoImplicit false

namespace BeaconScheduler.CommandLine

open Simulator

/-- Where the journal goes: to the screen, and all of it to the log file if there is one. -/
structure Output where
  log : Option IO.FS.Handle

def Output.write (output : Output) (journal : List Journal.Entry) : IO Unit := do
  for entry in journal do
    let text := entry.line.text
    if let some log := output.log then
      log.putStrLn text
      log.flush
    if entry.isShown then
      IO.println text

def Output.follow {α : Type} (output : Output) (run : Noted α) : IO (Option α) := do
  output.write run.notes
  match run.value with
  | .ok a => return some a
  | .error fault =>
      IO.eprintln fault.message
      return none

def readConfig (path : String) : IO (Except String ByteArray) := do
  try
    return .ok (← IO.FS.readBinFile path)
  catch e =>
    return .error (toString e)

def openLog (config : Config) : IO (Option Output) := do
  match config.debugLog with
  | none => return some ⟨none⟩
  | some path =>
      try
        return some ⟨some (← IO.FS.Handle.mk path .append)⟩
      catch e =>
        IO.eprintln ("Failed to open log file: " ++ toString e)
        return none

partial def runIntervals (output : Output) (left : Option Nat) (ran : Nat) (t : Timeline) :
    IO Ending := do
  let some t ← output.follow t.runInterval | return .faulted
  let (_, t) := t.takeOutbox
  let ran := ran + 1
  if left.any (· ≤ ran) then
    output.write (noteDone t ran).notes
    return .done
  else
    runIntervals output left ran t

def simulate (options : Options) : IO Ending := do
  match Loaded.of (← readConfig options.config) with
  | .faulted => return .faulted
  | .refused reason =>
      IO.println (notLoadedText options.config reason)
      return .notLoaded
  | .ready config =>
      let some output ← openLog config | return .faulted
      let freshSeed ← IO.rand 0 Int32.maxValue.toInt.toNat
      let some t ← output.follow (prepare options config freshSeed) | return .faulted
      runIntervals output options.cycles 0 t

def run (args : List String) : IO Ending := do
  match Request.ofArguments args with
  | .simulate options => simulate options
  | .summary =>
      summaryText.forM (IO.println ·)
      return .done
  | .help =>
      helpText.forM (IO.println ·)
      return .done
  | .version =>
      IO.println versionText
      return .done
  | .usageError =>
      summaryText.forM (IO.eprintln ·)
      return .usageError

end BeaconScheduler.CommandLine

def main (args : List String) : IO UInt32 := do
  let ending ← BeaconScheduler.CommandLine.run args
  return UInt32.ofNat ending.exitCode
