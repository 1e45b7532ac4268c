import BeaconScheduler.Timeline.Basic

/-!
# Scripted traffic

The requests of a scenario are placed at random times inside the DTI of the interval
that the scenario names. The times are drawn request by request: first that of the
admission request, then that of the deletion if there is one.
-/

set_option autoImplicit false

namespace BeaconScheduler.Timeline

open Noted

/-- Where random times come from: a state that a seed leads to, and draws from a range, whose
end does not belong to it. -/
structure Sampler where
  State : Type
  ofSeed : Nat → State
  between : State → Nat → Nat → Nat × State

/-- What is drawn from a range lies in it. -/
def Sampler.InRange (random : Sampler) : Prop :=
  ∀ (s : random.State) (start stop : Nat), start < stop → stop < UInt64.size →
    start ≤ (random.between s start stop).1 ∧ (random.between s start stop).1 < stop

variable {random : Sampler}

def pickTime (t : Timeline) (s : random.State) (k : Nat) : Except Fault (Time × random.State) := do
  let (start, stop) ← t.dtiWindow k
  return random.between s start stop

def submitRequest (t : Timeline) (s : random.State) (r : ScenarioRequest) :
    Noted (random.State × Timeline) := do
  let (time, s) ← t.pickTime s r.submitIn
  note (.requestPlanned r.source r.spec.id time)
  let t ← t.submit time (.request r.source r.spec)
  return (s, t)

def submitDeletion (t : Timeline) (s : random.State) (r : ScenarioRequest) :
    Noted (random.State × Timeline) :=
  match r.deleteIn with
  | none => return (s, t)
  | some k => do
      let (time, s) ← t.pickTime s k
      note (.deletionPlanned r.source r.spec.id time)
      let t ← t.submit time (.deletion (r.spec.key r.source))
      return (s, t)

def submitAll (s : random.State) (t : Timeline) : List ScenarioRequest → Noted Timeline
  | [] => return t
  | r :: rest => do
      let (s, t) ← t.submitRequest s r
      let (s, t) ← t.submitDeletion s r
      submitAll s t rest

def follow (t : Timeline) (random : Sampler) (scenario : Scenario) (seed : Nat) :
    Noted Timeline := do
  note (.scenarioStarted scenario.requests.length seed)
  submitAll (random.ofSeed seed) t scenario.requests

end BeaconScheduler.Timeline
