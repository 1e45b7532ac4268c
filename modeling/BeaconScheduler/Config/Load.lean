import BeaconScheduler.Config.Draft
import BeaconScheduler.Config.Validate
import BeaconScheduler.Toml.Document

/-!
# Loading a configuration

A configuration is the content of a document: well formed, of the right shape, of the
supported version, without keys that nobody knows, and valid as a whole. The first of these
conditions that fails is reported.
-/

set_option autoImplicit false

namespace BeaconScheduler.Config

inductive Place where
  | root
  | beacon
  | scheduler
  | static (index : Nat)
  | scenario
  | request (index : Nat)
deriving DecidableEq, Repr

inductive LoadError where
  | notText
  | malformed
  | shape (mismatch : Toml.Mismatch)
  | version (found : String)
  | unknownKeys (place : Place) (keys : List String)
  | invalid (problem : Problem)
deriving DecidableEq, Repr

def supportedVersion : String := "0.1"

def Place.phrase : Place → String
  | .root => "top-level fields"
  | .beacon => "fields in beacon"
  | .scheduler => "fields in scheduler"
  | .static index => "fields in static_allocation[" ++ toString index ++ "]"
  | .scenario => "fields in scenario"
  | .request index => "fields in scenario.request[" ++ toString index ++ "]"

def LoadError.message : LoadError → String
  | .notText => "stream did not contain valid UTF-8"
  | .malformed => "malformed document"
  | .shape mismatch => mismatch.message
  | .version found =>
      "Unrecognized config_version: " ++ found ++ ", expect " ++ supportedVersion
  | .unknownKeys place keys =>
      "Unrecognized " ++ place.phrase ++ ": " ++ Text.list (keys.map Text.quoted)
  | .invalid problem => "Invalid configuration: " ++ problem.message

/-- By code points. -/
def sortKeys (keys : List String) : List String :=
  Sorting.sort (fun a b => decide (a ≤ b)) keys

def refuseUnknown (place : Place) (keys : List String) : Except LoadError Unit :=
  if keys.isEmpty then .ok () else .error (.unknownKeys place (sortKeys keys))

def refuseUnknownIn {α : Type} (place : Nat → Place) (unknown : α → List String) (index : Nat) :
    List α → Except LoadError Unit
  | [] => .ok ()
  | a :: rest => do
      refuseUnknown (place index) (unknown a)
      refuseUnknownIn place unknown (index + 1) rest

def BeaconDraft.complete (draft : BeaconDraft) : Beacon :=
  let standard : Beacon := {}
  { coordinator := draft.coordinator.getD standard.coordinator
    interval := draft.interval.getD standard.interval
    transmission := draft.transmission.getD standard.transmission
    training := draft.training.getD standard.training
    announcement := draft.announcement.getD standard.announcement }

def SchedulerDraft.complete (draft : SchedulerDraft) : Limits :=
  let standard : Limits := ({} : Config).limits
  { guard := draft.guard.getD standard.guard
    minBroadcastCbap := draft.minBroadcastCbap.getD standard.minBroadcastCbap
    maxBlocks := draft.maxBlocks.getD standard.maxBlocks }

def ScenarioDraft.complete (draft : ScenarioDraft) : Scenario :=
  ⟨draft.seed, draft.requests.map (·.content)⟩

namespace Draft

def check (draft : Draft) : Except LoadError Unit := do
  unless draft.version = supportedVersion do
    throw (.version draft.version)
  refuseUnknown .root draft.unknown
  refuseUnknown .beacon ((draft.beacon.map (·.unknown)).getD [])
  refuseUnknown .scheduler ((draft.scheduler.map (·.unknown)).getD [])
  refuseUnknownIn .static (·.unknown) 0 draft.statics
  refuseUnknown .scenario ((draft.scenario.map (·.unknown)).getD [])
  refuseUnknownIn .request (·.unknown) 0 ((draft.scenario.map (·.requests)).getD [])

/-- The configuration that a document describes, with what it does not say left at the
defaults. -/
def complete (draft : Draft) : Config :=
  let standard : Config := {}
  { debugLog := draft.debugLog
    beacon := (draft.beacon.map (·.complete)).getD standard.beacon
    policy := (draft.scheduler.map (·.policy)).getD standard.policy
    limits := (draft.scheduler.map (·.complete)).getD standard.limits
    statics := draft.statics.map (·.content)
    scenario := draft.scenario.map (·.complete) }

def load (draft : Draft) : Except Fault (Except LoadError Config) :=
  match draft.check with
  | .error e => .ok (.error e)
  | .ok () => do
      match ← draft.complete.validate with
      | .error problem => return .error (.invalid problem)
      | .ok () => return .ok draft.complete

end Draft

/-- Reads a text as the document that a parser makes of it. -/
def reader (parse : String → Option Toml.Entries) (text : String) : Except LoadError Draft :=
  match parse text with
  | none => .error .malformed
  | some root =>
      match Draft.ofRoot root with
      | .error mismatch => .error (.shape mismatch)
      | .ok draft => .ok draft

section

variable (read : String → Except LoadError Draft)

/-- The configuration of the document that `read` makes of a text. -/
def loadText (text : String) : Except Fault (Except LoadError Config) :=
  match read text with
  | .error e => .ok (.error e)
  | .ok draft => draft.load

def loadBytes (bytes : ByteArray) : Except Fault (Except LoadError Config) :=
  match String.fromUTF8? bytes with
  | some text => loadText read text
  | none => .ok (.error .notText)

end

def ofText : String → Except Fault (Except LoadError Config) :=
  loadText (reader Toml.document?)

def ofBytes : ByteArray → Except Fault (Except LoadError Config) :=
  loadBytes (reader Toml.document?)

end BeaconScheduler.Config
