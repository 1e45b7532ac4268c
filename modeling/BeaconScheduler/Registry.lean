import BeaconScheduler.Allocation.Geometry

/-!
# The registry of allocations

The allocations in force, in the order of their registration. Nothing here looks at
free time: where an allocation may lie is decided before it is registered.
-/

set_option autoImplicit false

namespace BeaconScheduler

abbrev Registry := List Allocation

namespace Registry

def find? (registry : Registry) (key : Allocation.Key) : Option Allocation :=
  List.find? (fun a => a.key == key) registry

def contains (registry : Registry) (key : Allocation.Key) : Bool :=
  (registry.find? key).isSome

/-- Without the first allocation of the key. -/
def erase (registry : Registry) (key : Allocation.Key) : Registry :=
  List.eraseP (fun a => a.key == key) registry

def replace (key : Allocation.Key) (a : Allocation) : Registry → Registry
  | [] => []
  | b :: rest => if b.key == key then a :: rest else b :: replace key a rest

/-- A temporary allocation that a beacon has carried has had its turn. -/
def expired (a : Allocation) : Bool :=
  !a.isStatic && a.announced

def purge (registry : Registry) : List Allocation × Registry :=
  List.partition expired registry

def exceeds (dti guard : Nat) (a : Allocation) : Except Fault Bool := do
  return (← a.occupied guard).any fun i => dti < i.stop

def splitBeyond (dti guard : Nat) : Registry → Except Fault (List Allocation × Registry)
  | [] => .ok ([], [])
  | a :: rest => do
      let beyond ← exceeds dti guard a
      let (dropped, kept) ← splitBeyond dti guard rest
      return if beyond then (a :: dropped, kept) else (dropped, a :: kept)

def markAnnounced (registry : Registry) : Registry :=
  registry.map fun a => { a with announced := true }

def occupied (guard : Nat) : Registry → Except Fault (List Interval)
  | [] => .ok []
  | a :: rest => do
      let first ← a.occupied guard
      return first ++ (← occupied guard rest)

end Registry
end BeaconScheduler
