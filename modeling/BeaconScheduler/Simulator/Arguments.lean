/-!
# Arguments of the simulator

The command line names a configuration and may limit the number of intervals and give a seed.
Arguments are read from left to right, up to the first that is wrong or asks for help.
-/

set_option autoImplicit false

namespace BeaconScheduler.Simulator

structure Options where
  config : String
  cycles : Option Nat
  /-- In place of the seed of the scenario. -/
  seed : Option Nat
deriving DecidableEq, Repr

inductive Request where
  | simulate (options : Options)
  | summary
  | help
  | version
  | usageError
deriving DecidableEq, Repr

/-- A number of 64 bits, with or without a plus sign. -/
def number? (s : String) : Option Nat :=
  let digits := match s.toList with
    | '+' :: digits => digits
    | digits => digits
  if digits.isEmpty || !digits.all Char.isDigit then none
  else
    let n := digits.foldl (fun n c => 10 * n + (c.toNat - '0'.toNat)) 0
    if n < UInt64.size then some n else none

structure Draft where
  config : Option String := none
  cycles : Option Nat := none
  seed : Option Nat := none

namespace Draft

def setConfig? (draft : Draft) (path : String) : Option Draft :=
  match draft.config with
  | none => some { draft with config := some path }
  | some _ => none

def setCycles? (draft : Draft) (value : String) : Option Draft :=
  match draft.cycles, number? value with
  | none, some n => some { draft with cycles := some n }
  | _, _ => none

def setSeed? (draft : Draft) (value : String) : Option Draft :=
  match draft.seed, number? value with
  | none, some n => some { draft with seed := some n }
  | _, _ => none

def finish (draft : Draft) : Request :=
  match draft.config with
  | some config => .simulate ⟨config, draft.cycles, draft.seed⟩
  | none => .usageError

end Draft

inductive Argument where
  | cycles
  | seed
  | cyclesIs (value : String)
  | seedIs (value : String)
  | summary
  | help
  | version
  | separator
  | unknown
  | path (s : String)
deriving DecidableEq, Repr

def after? (front s : String) : Option String :=
  if front.toList.isPrefixOf s.toList then some (String.ofList (s.toList.drop front.length)) else none

/-- What kind of argument it is. Only a lone hyphen is not an option. -/
def Argument.of (s : String) : Argument :=
  if s = "--" then .separator
  else if s = "--cycles" then .cycles
  else if s = "--seed" then .seed
  else if s = "--help" then .help
  else if s = "--version" then .version
  else
    match after? "--cycles=" s, after? "--seed=" s with
    | some value, _ => .cyclesIs value
    | _, some value => .seedIs value
    | none, none =>
        match s.toList with
        | ['-'] => .path s
        | '-' :: 'h' :: _ => .summary
        | '-' :: 'V' :: _ => .version
        | '-' :: _ => .unknown
        | _ => .path s

/-- Reads paths alone. Nothing is read any more once there is no draft. -/
def readPaths : Option Draft → List String → Request
  | none, _ => .usageError
  | some draft, [] => draft.finish
  | some draft, s :: rest => readPaths (draft.setConfig? s) rest

def read : Option Draft → List String → Request
  | none, _ => .usageError
  | some draft, [] => draft.finish
  | some draft, s :: rest =>
      match Argument.of s with
      | .separator => readPaths draft rest
      | .summary => .summary
      | .help => .help
      | .version => .version
      | .unknown => .usageError
      | .path path => read (draft.setConfig? path) rest
      | .cyclesIs value => read (draft.setCycles? value) rest
      | .seedIs value => read (draft.setSeed? value) rest
      | .cycles =>
          match rest with
          | [] => .usageError
          | value :: rest => read (draft.setCycles? value) rest
      | .seed =>
          match rest with
          | [] => .usageError
          | value :: rest => read (draft.setSeed? value) rest

def Request.ofArguments (args : List String) : Request :=
  read (some {}) args

/-! ## Texts -/

def versionText : String := "dmg-ap-sim 0.1.0"

def summaryText : List String :=
  ["DMG PCP/AP scheduler simulator",
    "",
    "Usage: dmg-ap-sim [OPTIONS] <CONFIG>",
    "",
    "Arguments:",
    "  <CONFIG>  TOML config with beacon timing, scheduler policy and scenario",
    "",
    "Options:",
    "      --cycles <CYCLES>  Number of beacon intervals to run, runs until Ctrl+C if absent",
    "      --seed <SEED>      Overrides the scenario seed",
    "  -h, --help             Print help (see more with '--help')",
    "  -V, --version          Print version"]

def helpText : List String :=
  ["Runs the beacon interval scheduler against the scenario in the provided TOML configuration file",
    "",
    "Usage: dmg-ap-sim [OPTIONS] <CONFIG>",
    "",
    "Arguments:",
    "  <CONFIG>",
    "          TOML config with beacon timing, scheduler policy and scenario",
    "",
    "Options:",
    "      --cycles <CYCLES>",
    "          Number of beacon intervals to run, runs until Ctrl+C if absent",
    "",
    "      --seed <SEED>",
    "          Overrides the scenario seed",
    "",
    "  -h, --help",
    "          Print help (see a summary with '-h')",
    "",
    "  -V, --version",
    "          Print version"]

end BeaconScheduler.Simulator
