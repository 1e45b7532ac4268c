import BeaconScheduler.Config.Basic
import BeaconScheduler.Interval

/-!
# Validation

The checks that a configuration has to pass before a scheduler starts on it. The
first one that fails is reported.
-/

set_option autoImplicit false

namespace BeaconScheduler
namespace Config

/-- The time that a static allocation needs, guard time included. -/
def Static.span (guard : Nat) (a : Static) : Interval :=
  ⟨a.start, a.start + a.blockDuration * a.blocks + guard⟩

def Static.check (guard dti : Nat) (a : Static) : Except Problem Unit :=
  if a.blocks = 0 ∨ a.blockDuration = 0 then .error .emptyStaticBlock
  else if a.kind.maxBlockDuration < a.blockDuration then .error .staticBlockTooLong
  else if dti < (a.span guard).stop then .error .staticBeyondDti
  else .ok ()

def checkAll {α : Type} (check : α → Except Problem Unit) : List α → Except Problem Unit
  | [] => .ok ()
  | a :: rest =>
      match check a with
      | .ok () => checkAll check rest
      | .error problem => .error problem

def checkStatics (guard dti : Nat) (statics : List Static) : Except Problem Unit :=
  match checkAll (Static.check guard dti) statics with
  | .error problem => .error problem
  | .ok () =>
      match Interval.firstOverlap? (Interval.sort (statics.map (Static.span guard))) with
      | some _ => .error .staticOverlap
      | none => .ok ()

end Config

def ScenarioRequest.check (r : ScenarioRequest) : Except Config.Problem Unit :=
  match r.deleteIn with
  | some deleteIn => if deleteIn < r.submitIn then .error .deletedBeforeSubmitted else .ok ()
  | none => .ok ()

def Scenario.check (s : Scenario) : Except Config.Problem Unit :=
  Config.checkAll ScenarioRequest.check s.requests

namespace Config

def checkContents (config : Config) (dti : Nat) : Except Problem Unit :=
  if dti ≤ config.limits.guard then .error .guardTooLong
  else if config.limits.maxBlocks = 0 then .error .noBlocks
  else
    match checkStatics config.limits.guard dti config.statics with
    | .error problem => .error problem
    | .ok () =>
        match config.scenario with
        | some scenario => scenario.check
        | none => .ok ()

/-- The outcome of the checks; a fault if the header does not fit its counter. -/
def validate (config : Config) : Except Fault (Except Problem Unit) :=
  if config.beacon.interval = 0 then
    .ok (.error .emptyInterval)
  else do
    let header ← config.beacon.header
    if config.beacon.interval ≤ header then
      return .error .headerTooLong
    else
      return config.checkContents (config.beacon.interval - header)

def require (config : Config) : Except Fault Unit := do
  match ← config.validate with
  | .ok () => return ()
  | .error problem => .error (.invalidConfiguration problem)

end Config
end BeaconScheduler
