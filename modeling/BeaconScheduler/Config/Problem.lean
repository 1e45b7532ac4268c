/-!
# What can be wrong with a configuration

The conditions that a scheduler configuration has to meet, one constructor for
each way to miss one, and their wording.
-/

set_option autoImplicit false

namespace BeaconScheduler.Config

inductive Problem where
  | emptyInterval
  | headerTooLong
  | guardTooLong
  | noBlocks
  | emptyStaticBlock
  | staticBlockTooLong
  | staticBeyondDti
  | staticOverlap
  | deletedBeforeSubmitted
deriving DecidableEq, Repr

def Problem.message : Problem → String
  | .emptyInterval => "beacon interval duration must be nonzero"
  | .headerTooLong => "beacon header interval must be shorter than the beacon interval"
  | .guardTooLong => "guard time must be shorter than the data transfer interval"
  | .noBlocks => "max_blocks must be at least 1"
  | .emptyStaticBlock => "static allocation must have at least one nonempty block"
  | .staticBlockTooLong => "static allocation block duration exceeds the field ceiling"
  | .staticBeyondDti => "static allocation does not fit the data transfer interval"
  | .staticOverlap => "static allocations overlap"
  | .deletedBeforeSubmitted => "scenario request deleted before it is submitted"

end BeaconScheduler.Config
