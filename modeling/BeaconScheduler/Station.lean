/-!
# Stations

A station of the network goes by its association identifier. Zero is the
coordinator itself, and the largest identifier stands for any station.
-/

set_option autoImplicit false

namespace BeaconScheduler

abbrev Aid := UInt8

namespace Aid

def coordinator : Aid := 0

def broadcast : Aid := 255

def text (aid : Aid) : String :=
  if aid = coordinator then "ap"
  else if aid = broadcast then "bcast"
  else "sta" ++ toString aid.toNat

end Aid
end BeaconScheduler
