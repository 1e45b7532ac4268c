/-!
# Admission policies
-/

set_option autoImplicit false

namespace BeaconScheduler

inductive Policy where
  | cbapOnly
  /-- Grants single blocks, each in the first slot that is long enough. -/
  | basic
  /-- Grants single blocks likewise, and equally spaced blocks to periodic traffic. -/
  | periodic
deriving DecidableEq, Repr

def Policy.name : Policy → String
  | .cbapOnly => "CbapOnly"
  | .basic => "Basic"
  | .periodic => "Periodic"

end BeaconScheduler
