import BeaconScheduler.Admission.Policy
import BeaconScheduler.Admission.Text
import BeaconScheduler.Allocation.Text
import BeaconScheduler.Cycle.Phase

/-!
# Events of the journal

What a scheduler has to tell about its work. Each event belongs to a channel, has a
level, and reads as one line of text.
-/

set_option autoImplicit false

namespace BeaconScheduler.Journal

/-- Most severe first. -/
inductive Level where
  | error
  | warn
  | info
  | debug
  | trace
deriving DecidableEq, Repr

inductive Channel where
  | slots
  | registry
  | reservation
  | admission
  | cycle
  | timeline
  | simulator
deriving DecidableEq, Repr

inductive Event where
  /- Free time and registry. -/
  | claimed (taken slot : Interval) (slotsLeft : Nat)
  | released (returned : Interval) (slotCount : Nat)
  | inserted (a : Allocation)
  | removed (a : Allocation)
  | purged (a : Allocation)
  | trainingPlaced (source dest : Aid) (start duration : Nat)
  /- Admission. -/
  | periodicNotSupported (period : Nat) (source : Aid)
  | cbapOnlyRefusal (id : UInt8) (source : Aid)
  | durationIncreaseRefused (key : Allocation.Key) (current requested : Nat)
  | blockShrinks (start length stop : Nat)
  | tailNotReturned (key : Allocation.Key) (start : Nat) (error : SlotError)
  | shrunk (key : Allocation.Key) (old new : Nat)
  | noSlotFor (duration guard : Nat)
  | offsetsFound (offsets : List Nat) (duration spacing : Nat)
  | tooLittleContention (spacing floor duration : Nat)
  | fewOffsets (count duration spacing : Nat)
  | blockNotClaimed (start : Nat) (error : SlotError)
  /- The cycle. -/
  | staticNotRegistered (key : Allocation.Key) (start : Nat) (error : SlotError)
  | schedulerUp (policy : Policy) (dti statics : Nat)
  | startWhilePending (pending : Wakeup) (phase : Phase)
  | headerTooLong (header interval : Nat)
  | intervalStarted (interval header announcement dti : Nat)
  | announcementStarted
  | dataTransferStarted (published : Nat)
  | intervalEnded (queued : Nat)
  | changeWithoutWakeup (change : PhaseChange) (phase : Phase)
  | changeIgnored (change : PhaseChange) (phase : Phase) (pending : Wakeup)
  | requestQueued (key : Allocation.Key) (phase : Phase)
  | deletionReleased (key : Allocation.Key)
  | deletionUnknown (key : Allocation.Key)
  | airtimeNotReturned (key : Allocation.Key) (error : SlotError)
  | invalidSpec (key : Allocation.Key) (received : Time) (problem : TrafficSpec.Problem)
  | decided (key : Allocation.Key) (outcome : Outcome)
  | cleanedUp (count : Nat)
  | doesNotFit (key : Allocation.Key) (dti : Nat)
  | longContention (slot : Interval) (limit : Nat)
  | noRoomForTraining (peer : Aid) (error : SlotError)
  | inconsistentSlots (error : SlotError)
  /- The timeline. -/
  | observerRegistered (index : Nat)
  | lateArrival (time now : Time)
  | stopped (intervals : Nat)
  /- The simulator. -/
  | scheduleBroadcast (entries : Nat)
  | scheduleEntry (a : Allocation)
  | admissionAnswered (key : Allocation.Key) (outcome : Outcome)
  | deletionAnswered (key : Allocation.Key) (outcome : DeletionOutcome)
  | scenarioStarted (requests : Nat) (seed : Nat)
  | requestPlanned (source : Aid) (id : UInt8) (time : Time)
  | deletionPlanned (source : Aid) (id : UInt8) (time : Time)
  | simulationDone (intervals accepted rejected deleted undelivered : Nat)
deriving DecidableEq, Repr

namespace Event

def channel : Event → Channel
  | claimed .. | released .. => .slots
  | inserted _ | removed _ | purged _ => .registry
  | trainingPlaced .. => .reservation
  | periodicNotSupported .. | cbapOnlyRefusal .. | durationIncreaseRefused .. | blockShrinks ..
  | tailNotReturned .. | shrunk .. | noSlotFor .. | offsetsFound .. | tooLittleContention ..
  | fewOffsets .. | blockNotClaimed .. => .admission
  | observerRegistered _ | lateArrival .. | stopped _ => .timeline
  | scheduleBroadcast _ | scheduleEntry _ | admissionAnswered .. | deletionAnswered ..
  | scenarioStarted .. | requestPlanned .. | deletionPlanned .. | simulationDone .. => .simulator
  | _ => .cycle

def level : Event → Level
  | staticNotRegistered .. | invalidSpec .. => .error
  | durationIncreaseRefused .. | tailNotReturned .. | blockNotClaimed .. | startWhilePending ..
  | headerTooLong .. | changeWithoutWakeup .. | changeIgnored .. | airtimeNotReturned ..
  | doesNotFit .. | inconsistentSlots _ | lateArrival .. => .warn
  | schedulerUp .. | intervalStarted .. | decided .. | stopped _ | scheduleBroadcast _
  | scheduleEntry _ | admissionAnswered .. | deletionAnswered .. | scenarioStarted ..
  | simulationDone .. => .info
  | claimed .. | released .. | blockShrinks .. | offsetsFound .. => .trace
  | _ => .debug

private def number (aid : Aid) : String :=
  toString aid.toNat

def text : Event → String
  | claimed taken slot left =>
      s!"claim [{taken.start}, {taken.stop}) from slot [{slot.start}, {slot.stop}), {left} slots left"
  | released returned count => s!"release [{returned.start}, {returned.stop}), {count} slots"
  | inserted a => "insert " ++ a.text
  | removed a => "remove " ++ a.text
  | purged a => "purge " ++ a.text
  | trainingPlaced source dest start duration =>
      s!"beamforming SP {number source}->{number dest} at {start} for {duration}"
  | periodicNotSupported period source =>
      s!"periodic request (period {period}) from {number source} not supported"
  | cbapOnlyRefusal id source => s!"cbap only, refusing #{id.toNat} from {number source}"
  | durationIncreaseRefused key current requested =>
      s!"unimplemented: {key.text}: block duration increase {current} -> {requested}"
  | blockShrinks start length stop => s!"block at {start} shrinks by {length}, reopen from {stop}"
  | tailNotReturned key start error =>
      s!"{key.text}: cannot return tail of block at {start}: {error.text}"
  | shrunk key old new => s!"{key.text}: shrunk {old} -> {new}"
  | noSlotFor duration guard => s!"no slot longer than {duration} + {guard} guard"
  | offsetsFound offsets duration spacing =>
      s!"{offsets.length} blocks of {duration} every {spacing}: {Text.list (offsets.map toString)}"
  | tooLittleContention spacing floor duration =>
      s!"interval {spacing} leaves less than {floor} between blocks of {duration}"
  | fewOffsets count duration spacing =>
      s!"only {count} block(s) of {duration} fit every {spacing}"
  | blockNotClaimed start error =>
      s!"block at {start} found free but cannot be claimed: {error.text}"
  | staticNotRegistered key start error =>
      s!"static allocation {key.text} at {start} not registered: {error.text}"
  | schedulerUp policy dti statics =>
      s!"scheduler up, policy {policy.name}, dti {dti} us, {statics} static allocation(s)"
  | startWhilePending pending phase =>
      s!"BI start while {pending.change.name} at {pending.time.text} is pending in {phase.name}"
  | headerTooLong header interval =>
      s!"header {header} not shorter than interval {interval}, no DTI"
  | intervalStarted interval header announcement dti =>
      s!"-> BI start, bi {interval} bhi {header} ati {announcement} dti {dti}"
  | announcementStarted => "-> ATI start"
  | dataTransferStarted published => s!"-> DTI start, {published} allocation(s) published"
  | intervalEnded queued => s!"-> BI end, {queued} request(s) queued"
  | changeWithoutWakeup change phase =>
      s!"{change.name} ignored, no transition pending in {phase.name}"
  | changeIgnored change phase pending =>
      s!"{change.name} ignored in {phase.name}, expecting {pending.change.name} at {pending.time.text}"
  | requestQueued key phase => s!"<- ADDTS {key.text} in {phase.name}"
  | deletionReleased key => s!"<- DELTS {key.text}, released"
  | deletionUnknown key => s!"<- DELTS {key.text}, no such allocation"
  | airtimeNotReturned key error => s!"{key.text}: returning airtime failed: {error.text}"
  | invalidSpec key received problem =>
      s!"{key.text}: invalid TSPEC received at {received.text}: {problem.text}"
  | decided key (.accepted start duration blocks) =>
      s!"-> ADDTS resp {key.text} to {key.source.text}: accepted at {start} dur {duration} x{blocks}"
  | decided key (.rejected reason) =>
      s!"-> ADDTS resp {key.text} to {key.source.text}: rejected {reason.text}"
  | cleanedUp count => s!"cleanup removed {count} allocation(s)"
  | doesNotFit key dti => s!"{key.text} does not fit a DTI of {dti}, dropped"
  | longContention slot limit =>
      s!"broadcast CBAP at {slot.start} spans {slot.length} us, above the {limit} us block limit"
  | noRoomForTraining peer error =>
      s!"no room for beamforming SP with {peer.text}: {error.text}"
  | inconsistentSlots error =>
      "free slots inconsistent with allocations: " ++ Text.applied "Err" error.text
  | observerRegistered index => s!"register_sink #{index}"
  | lateArrival time now =>
      s!"arrival at {time.text} lies before now {now.text}, delivered late"
  | stopped intervals => s!"stop requested after {intervals} beacon interval(s)"
  | scheduleBroadcast entries => s!"beacon schedule, {entries} allocation(s)"
  | scheduleEntry a => a.text
  | admissionAnswered key outcome => s!"ADDTS {key.text} -> {outcome.text}"
  | deletionAnswered key outcome => s!"DELTS {key.text} -> {outcome.text}"
  | scenarioStarted requests seed => s!"scenario: {requests} request(s), seed {seed}"
  | requestPlanned source id time => s!"{source.text} ADDTS #{id.toNat} at {time.text}"
  | deletionPlanned source id time => s!"{source.text} DELTS #{id.toNat} at {time.text}"
  | simulationDone intervals accepted rejected deleted undelivered =>
      s!"done after {intervals} beacon interval(s): {accepted} accepted, {rejected} rejected, {deleted} deleted, {undelivered} arrival(s) never delivered"

end Event
end BeaconScheduler.Journal
