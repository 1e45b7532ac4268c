import BeaconScheduler.Clock
import BeaconScheduler.TrafficSpec

/-!
# Waiting admission requests

Requests that arrive during an interval wait for its end, oldest first.
-/

set_option autoImplicit false

namespace BeaconScheduler

structure AdmissionRequest where
  source : Aid
  spec : TrafficSpec
  received : Time
deriving DecidableEq, Repr

namespace AdmissionRequest

def key (request : AdmissionRequest) : Allocation.Key :=
  request.spec.key request.source

end AdmissionRequest

/-- Oldest request first. -/
abbrev RequestQueue := List AdmissionRequest

def RequestQueue.push (queue : RequestQueue) (request : AdmissionRequest) : RequestQueue :=
  queue ++ [request]

end BeaconScheduler
