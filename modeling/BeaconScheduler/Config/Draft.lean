import BeaconScheduler.Config.Basic
import BeaconScheduler.Toml.Decode

/-!
# Configuration documents

What a document of the right shape says: the fields that it gives, and the keys in it that
nobody knows. Nothing of it has been judged yet.
-/

set_option autoImplicit false

namespace BeaconScheduler.Config

structure BeaconDraft where
  coordinator : Option Aid
  interval : Option Nat
  transmission : Option Nat
  training : Option Nat
  announcement : Option Nat
  unknown : List String
deriving DecidableEq, Repr

structure SchedulerDraft where
  policy : Policy
  guard : Option Nat
  minBroadcastCbap : Option Nat
  maxBlocks : Option Nat
  unknown : List String
deriving DecidableEq, Repr

structure StaticDraft where
  content : Static
  unknown : List String
deriving DecidableEq, Repr

structure RequestDraft where
  content : ScenarioRequest
  unknown : List String
deriving DecidableEq, Repr

structure ScenarioDraft where
  seed : Option Nat
  requests : List RequestDraft
  unknown : List String
deriving DecidableEq, Repr

structure Draft where
  version : String
  debugLog : Option String
  beacon : Option BeaconDraft
  scheduler : Option SchedulerDraft
  statics : List StaticDraft
  scenario : Option ScenarioDraft
  unknown : List String
deriving DecidableEq, Repr

open Toml Toml.Decoder

def kinds : List (String × Allocation.Kind) :=
  [("ServicePeriod", .servicePeriod), ("Cbap", .cbap)]

def formats : List (String × TrafficSpec.Format) :=
  [("Isochronous", .isochronous), ("Asynchronous", .asynchronous)]

def policies : List (String × Policy) :=
  [("CbapOnly", .cbapOnly), ("Basic", .basic), ("Periodic", .periodic)]

namespace BeaconDraft

def fields : List Field :=
  [field "coordinator_aid" octet,
    field "bi_duration_us" (unsigned 32),
    field "bti_duration_us" (unsigned 32),
    field "abft_duration_us" (unsigned 32),
    field "ati_duration_us" (unsigned 32)]

def decode : Decoder BeaconDraft := fun v => do
  let entries ← table "struct BeaconDto" fields v
  return {
    coordinator := ← optional entries "coordinator_aid" octet
    interval := ← optional entries "bi_duration_us" (unsigned 32)
    transmission := ← optional entries "bti_duration_us" (unsigned 32)
    training := ← optional entries "abft_duration_us" (unsigned 32)
    announcement := ← optional entries "ati_duration_us" (unsigned 32)
    unknown := Decoder.unknown fields entries }

end BeaconDraft

namespace SchedulerDraft

def fields : List Field :=
  [field "policy" (variant policies),
    field "guard_time_us" (unsigned 32),
    field "min_broadcast_cbap_us" (unsigned 32),
    field "max_blocks" (unsigned 8)]

def decode : Decoder SchedulerDraft := fun v => do
  let entries ← table "struct SchedulerDto" fields v
  return {
    policy := ← required entries "policy" (variant policies)
    guard := ← optional entries "guard_time_us" (unsigned 32)
    minBroadcastCbap := ← optional entries "min_broadcast_cbap_us" (unsigned 32)
    maxBlocks := ← optional entries "max_blocks" (unsigned 8)
    unknown := Decoder.unknown fields entries }

end SchedulerDraft

namespace StaticDraft

def fields : List Field :=
  [field "id" octet,
    field "kind" (variant kinds),
    field "source_aid" octet,
    field "dest_aid" octet,
    field "start_us" (unsigned 32),
    field "block_duration_us" (unsigned 32),
    field "blocks" (unsigned 8)]

/-- Without a number of blocks there is one. -/
def decode : Decoder StaticDraft := fun v => do
  let entries ← table "struct StaticAllocationDto" fields v
  let id ← required entries "id" octet
  let kind ← required entries "kind" (variant kinds)
  let source ← required entries "source_aid" octet
  let dest ← required entries "dest_aid" octet
  let start ← required entries "start_us" (unsigned 32)
  let blockDuration ← required entries "block_duration_us" (unsigned 32)
  let blocks ← withDefault entries "blocks" (unsigned 8) 1
  return ⟨⟨⟨id, source, dest⟩, kind, start, blockDuration, blocks⟩, Decoder.unknown fields entries⟩

end StaticDraft

namespace RequestDraft

def fields : List Field :=
  [field "source_aid" octet,
    field "dest_aid" octet,
    field "allocation_id" octet,
    field "kind" (variant kinds),
    field "min_us" (unsigned 32),
    field "max_us" (unsigned 32),
    field "period" (unsigned 16),
    field "format" (variant formats),
    field "static" boolean,
    field "submit_in_bi" (unsigned 32),
    field "delete_in_bi" (unsigned 32)]

/-- Unless it says otherwise, a request is for a temporary service period of negotiable duration,
with one block, and is sent in the first interval. -/
def decode : Decoder RequestDraft := fun v => do
  let entries ← table "struct ScenarioRequestDto" fields v
  let source ← required entries "source_aid" octet
  let dest ← required entries "dest_aid" octet
  let id ← required entries "allocation_id" octet
  let kind ← withDefault entries "kind" (variant kinds) .servicePeriod
  let min ← required entries "min_us" (unsigned 32)
  let max ← required entries "max_us" (unsigned 32)
  let period ← withDefault entries "period" (unsigned 16) 0
  let format ← withDefault entries "format" (variant formats) .isochronous
  let isStatic ← withDefault entries "static" boolean false
  let submitIn ← withDefault entries "submit_in_bi" (unsigned 32) 0
  let deleteIn ← optional entries "delete_in_bi" (unsigned 32)
  let spec : TrafficSpec :=
    { id, kind, isStatic, dest, format, min, max, period, periodIsMultipleOfBi := false }
  return ⟨⟨source, spec, submitIn, deleteIn⟩, Decoder.unknown fields entries⟩

end RequestDraft

namespace ScenarioDraft

def fields : List Field :=
  [field "seed" (unsigned 64),
    field "request" (list RequestDraft.decode)]

def decode : Decoder ScenarioDraft := fun v => do
  let entries ← table "struct CfgScenarioDto" fields v
  return {
    seed := ← optional entries "seed" (unsigned 64)
    requests := ← withDefault entries "request" (list RequestDraft.decode) []
    unknown := Decoder.unknown fields entries }

end ScenarioDraft

namespace Draft

def fields : List Field :=
  [field "config_version" string,
    field "debug_log" string,
    field "beacon" BeaconDraft.decode,
    field "scheduler" SchedulerDraft.decode,
    field "static_allocation" (list StaticDraft.decode),
    field "scenario" ScenarioDraft.decode]

def ofRoot (entries : Entries) : Except Mismatch Draft := do
  examine fields entries
  return {
    version := ← required entries "config_version" string
    debugLog := ← optional entries "debug_log" string
    beacon := ← optional entries "beacon" BeaconDraft.decode
    scheduler := ← optional entries "scheduler" SchedulerDraft.decode
    statics := ← withDefault entries "static_allocation" (list StaticDraft.decode) []
    scenario := ← optional entries "scenario" ScenarioDraft.decode
    unknown := Decoder.unknown fields entries }

end Draft
end BeaconScheduler.Config
