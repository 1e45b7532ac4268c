import BeaconScheduler.Admission.Outcome
import BeaconScheduler.Text.Record

/-!
# Written outcomes

How outcomes, and the errors inside them, read in the journal.
-/

set_option autoImplicit false

namespace BeaconScheduler

open Text

def Interval.pairText (i : Interval) : String :=
  "(" ++ toString i.start ++ ", " ++ toString i.stop ++ ")"

def Interval.slotText (i : Interval) : String :=
  record "AvailableSlot" [("start", toString i.start), ("end", toString i.stop)]

def SlotError.text : SlotError → String
  | .emptyInterval start stop =>
      record "EmptyInterval" [("start", toString start), ("end", toString stop)]
  | .beyondDti stop dti => record "BeyondDti" [("end", toString stop), ("dti", toString dti)]
  | .notFree start stop => record "NotFree" [("start", toString start), ("end", toString stop)]
  | .alreadyFree start stop =>
      record "AlreadyFree" [("start", toString start), ("end", toString stop)]
  | .occupiedOverlap first second =>
      record "OccupiedOverlap" [("first", first.pairText), ("second", second.pairText)]
  | .partitionMismatch expected found =>
      record "PartitionMismatch"
        [("expected", list (expected.map (·.slotText))), ("found", list (found.map (·.slotText)))]

def TrafficSpec.Problem.text : TrafficSpec.Problem → String
  | .zeroDuration => "ZeroDuration"
  | .minAboveMax min max => record "MinAboveMax" [("min", toString min), ("max", toString max)]
  | .aboveCeiling max ceiling =>
      record "AboveCeiling" [("max", toString max), ("ceiling", toString ceiling)]
  | .multipleOfBiUnsupported period =>
      record "MultipleOfBiUnsupported" [("period", toString period)]

def Rejection.text : Rejection → String
  | .invalidSpec problem => applied "InvalidTspec" problem.text
  | .insufficientSpace => "InsufficientSpace"
  | .cbapFloor spacing duration =>
      record "CbapFloor" [("sp_interval", toString spacing), ("duration", toString duration)]
  | .tooFewBlocks found => record "TooFewBlocks" [("found", toString found)]
  | .periodicNotSupported => "PeriodicNotSupported"
  | .durationIncrease current requested =>
      record "DurationIncrease"
        [("current", toString current), ("requested", toString requested)]
  | .cbapOnly => "CbapOnly"
  | .notFound => "NotFound"
  | .slots error => applied "Slots" error.text

def Outcome.text : Outcome → String
  | .accepted start duration blocks =>
      record "Accepted"
        [("start", toString start), ("duration", toString duration), ("blocks", toString blocks)]
  | .rejected reason => applied "Rejected" reason.text

def DeletionOutcome.text : DeletionOutcome → String
  | .found => "Found"
  | .notFound => "NotFound"

end BeaconScheduler
