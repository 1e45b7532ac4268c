import BeaconScheduler.Clock

/-!
# The phases of a beacon interval

A beacon interval begins with its header, which ends in the announcement period if
there is one, and goes on to the data transfer interval. A scheduler hands out the
next phase change together with the time at which it wants to be woken up for it.
-/

set_option autoImplicit false

namespace BeaconScheduler

inductive Phase where
  | beaconHeader
  | announcement
  | dataTransfer
deriving DecidableEq, Repr

inductive PhaseChange where
  | announcementStart
  | dataTransferStart
  | intervalEnd
deriving DecidableEq, Repr

structure Wakeup where
  time : Time
  change : PhaseChange
deriving DecidableEq, Repr

structure Timing where
  interval : Nat
  header : Nat
  announcement : Nat
  dti : Nat
  start : Time
  announcementStart : Option Time
  dataTransferStart : Option Time
deriving DecidableEq, Repr

namespace Phase

/-- The changes that can end the phase. -/
def allows : Phase → PhaseChange → Bool
  | .beaconHeader, .announcementStart => true
  | .beaconHeader, .dataTransferStart => true
  | .announcement, .dataTransferStart => true
  | .dataTransfer, .intervalEnd => true
  | _, _ => false

def name : Phase → String
  | .beaconHeader => "BeaconHeader"
  | .announcement => "Announcement"
  | .dataTransfer => "DataTransfer"

end Phase

def PhaseChange.name : PhaseChange → String
  | .announcementStart => "AnnouncementStart"
  | .dataTransferStart => "DataTransferStart"
  | .intervalEnd => "BeaconIntervalEnd"

end BeaconScheduler
