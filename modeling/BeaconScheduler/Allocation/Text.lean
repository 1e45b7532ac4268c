import BeaconScheduler.Allocation.Basic
import BeaconScheduler.Text.Record

/-!
# Written allocations

How keys and allocations read in the journal.
-/

set_option autoImplicit false

namespace BeaconScheduler.Allocation

def Key.text (key : Key) : String :=
  "#" ++ toString key.id.toNat ++ " " ++ key.source.text ++ "->" ++ key.dest.text

def label (a : Allocation) : String :=
  match a.kind, a.beamforming with
  | .cbap, _ => "CBAP"
  | .servicePeriod, some _ => "BF-SP"
  | .servicePeriod, none => "SP"

def text (a : Allocation) : String :=
  Text.padRight 5 a.label ++ " " ++ a.key.text ++
    " start " ++ toString a.start ++ " dur " ++ toString a.blockDuration ++
    (if 1 < a.blocks then
      " x" ++ toString a.blocks ++ " period " ++ toString a.blockPeriod
    else "") ++
    (if a.isStatic then " static" else "")

end BeaconScheduler.Allocation
