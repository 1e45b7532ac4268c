import BeaconScheduler.Allocation.Basic
import BeaconScheduler.Counter
import BeaconScheduler.Interval

/-!
# Where an allocation lies

Block starts, the end of the last block, the intervals that an allocation keeps from
others, and its airtime. A periodic allocation occupies one interval per block, any
other one a single interval; each is followed by the guard time, and a beamforming
training period also by its protection time.
-/

set_option autoImplicit false

namespace BeaconScheduler.Allocation

open Counter

def spacing (a : Allocation) : Nat :=
  if 0 < a.blockPeriod then a.blockPeriod else a.blockDuration

def blockStart (a : Allocation) (i : Nat) : Except Fault Nat := do
  add32 a.start (← mul32 i a.spacing)

def blockStarts (a : Allocation) : Except Fault (List Nat) :=
  (List.range a.blocks).mapM a.blockStart

/-- The end of the last block, without guard time. -/
def stop (a : Allocation) : Except Fault Nat := do
  if a.isPeriodic then
    let last ← add32 a.start (← mul32 (a.blocks - 1) a.blockPeriod)
    add32 last a.blockDuration
  else
    add32 a.start (← mul32 a.blockDuration a.blocks)

/-- Time that has to stay free after each block. -/
def tail (a : Allocation) (guard : Nat) : Except Fault Nat :=
  match a.beamforming with
  | some _ => add32 guard beamformingProtection
  | none => .ok guard

def blockInterval (a : Allocation) (tail i : Nat) : Except Fault Interval := do
  let start ← a.blockStart i
  let stop ← add32 (← add32 start a.blockDuration) tail
  return ⟨start, stop⟩

def occupied (a : Allocation) (guard : Nat) : Except Fault (List Interval) := do
  let tail ← a.tail guard
  if a.isPeriodic then
    (List.range a.blocks).mapM (a.blockInterval tail)
  else
    let stop ← add32 (← a.stop) tail
    return [⟨a.start, stop⟩]

def totalDuration (a : Allocation) : Except Fault Nat :=
  mul32 a.blockDuration a.blocks

end BeaconScheduler.Allocation
