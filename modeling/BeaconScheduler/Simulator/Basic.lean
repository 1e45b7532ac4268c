import BeaconScheduler.Config.Load
import BeaconScheduler.Journal.Line
import BeaconScheduler.Random.Generator
import BeaconScheduler.Simulator.Arguments
import BeaconScheduler.Timeline.Script

/-!
# The simulator

Runs the scenario of a configuration and reports what the scheduler noted, what is printed
besides, and how the run ended.
-/

set_option autoImplicit false

namespace BeaconScheduler.Simulator

open Noted

inductive Ending where
  | done
  | notLoaded
  | usageError
  | faulted
deriving DecidableEq, Repr

def Ending.exitCode : Ending → Nat
  | .done => 0
  | .notLoaded => 1
  | .usageError => 2
  | .faulted => 101

structure Report where
  ending : Ending
  printed : List String
  journal : List Journal.Entry

def sampler : Timeline.Sampler where
  State := Random.Generator
  ofSeed := Random.Generator.ofSeed
  between := Random.Generator.between

theorem sampler_inRange : sampler.InRange := fun _ _ _ nonempty fits =>
  Random.Generator.between_mem nonempty (Nat.le_of_lt fits)

def prepare (options : Options) (config : Config) (freshSeed : Nat) : Noted Timeline := do
  let t ← Timeline.start config
  let (_, t) ← t.register .everything
  match config.scenario with
  | none => return t
  | some scenario => t.follow sampler scenario (options.seed.getD (scenario.seed.getD freshSeed))

def noteDone (t : Timeline) (ran : Nat) : Noted Unit :=
  let s := t.scheduler.statistics
  note (.simulationDone ran s.accepted s.rejected s.deleted t.arrivals.length)

/-- The whole simulation. `freshSeed` is the seed of a scenario that has none. -/
def simulate (options : Options) (config : Config) (freshSeed : Nat) : Noted Unit := do
  let t ← prepare options config freshSeed
  let (ran, t) ← t.run options.cycles none
  noteDone t ran

inductive Loaded where
  | ready (config : Config)
  | refused (reason : String)
  | faulted

def Loaded.of (contents : Except String ByteArray) : Loaded :=
  match contents with
  | .error reason => .refused reason
  | .ok bytes =>
      match Config.ofBytes bytes with
      | .error _ => .faulted
      | .ok (.error e) => .refused e.message
      | .ok (.ok config) => .ready config

def notLoadedText (path reason : String) : String :=
  "Failed to load configuration from " ++ path ++ ": " ++ reason

/-- Runs a simulation. `canLog` tells whether the log file of a configuration can be opened. -/
def report (options : Options) (loaded : Loaded) (canLog : String → Bool) (freshSeed : Nat) :
    Report :=
  match loaded with
  | .faulted => ⟨.faulted, [], []⟩
  | .refused reason => ⟨.notLoaded, [notLoadedText options.config reason], []⟩
  | .ready config =>
      if config.debugLog.all canLog then
        let run := simulate options config freshSeed
        match run.value with
        | .ok () => ⟨.done, [], run.notes⟩
        | .error _ => ⟨.faulted, [], run.notes⟩
      else
        ⟨.faulted, [], []⟩

end BeaconScheduler.Simulator
