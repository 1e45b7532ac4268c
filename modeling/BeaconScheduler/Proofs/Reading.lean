import BeaconScheduler.Config.Load
import BeaconScheduler.Proofs.Counters
import Mathlib.Data.List.Forall2

/-!
# What a document says

A configuration is stated in a document field by field: by the value under the key of the
field, or by the default.  `Config.StatedIn` says so of the tables of the document, without a
decoder but those of single values, which accept just the values that `boolean_eq_ok_iff` and the
lemmas beside it name.  The decoders read each table as it is stated, and set aside the keys that
are not among those of the table (`Place.keys`); `Draft.ofRoot_reads` puts the tables together.
-/

set_option autoImplicit false

namespace BeaconScheduler

open Counter

namespace Toml

namespace Entries

/-- What a key gives, if there is such a key and its value is of the right shape. -/
def read? {α : Type} (entries : Entries) (key : String) (decode : Decoder α) : Option α :=
  (entries.find? key).bind fun v => (decode v).toOption

def inner? (entries : Entries) (key : String) : Option Entries :=
  (entries.find? key).bind Value.entries?

def elements (entries : Entries) (key : String) : List Entries :=
  (((entries.find? key).bind Value.elements?).getD []).map fun v => v.entries?.getD []

end Entries

namespace Decoder

variable {α : Type} {decode : Decoder α} {entries : Entries} {key expected : String}
  {fields : List Field} {R : Entries → α → Prop} {v : Value} {a fallback : α} {o : Option α}

/-! ## Single values -/

theorem string_eq_ok_iff {s : String} : string v = .ok s ↔ v = .string s := by
  cases v <;> simp [string, mismatch]

theorem boolean_eq_ok_iff {b : Bool} : boolean v = .ok b ↔ v = .boolean b := by
  cases v <;> simp [boolean, mismatch]

theorem unsigned_eq_ok_iff {width n : Nat} :
    unsigned width v = .ok n ↔ v = .integer n ∧ n < 2 ^ width := by
  cases v with
  | integer m =>
      have bound : Nat.pow 2 width = 2 ^ width := rfl
      rw [unsigned, bound, Value.integer.injEq]
      generalize 2 ^ width = bound
      split_ifs with fits
      · rw [Except.ok.injEq]
        omega
      · simp only [false_iff]
        omega
  | _ => simp [unsigned, mismatch]

theorem octet_eq_ok_iff {n : UInt8} : octet v = .ok n ↔ v = .integer n.toNat := by
  have inRange : n.toNat < 2 ^ 8 := n.toNat_lt
  rw [octet, map_eq_ok_iff]
  constructor
  · rintro ⟨m, decoded, rfl⟩
    obtain ⟨rfl, fits⟩ := unsigned_eq_ok_iff.mp decoded
    rw [UInt8.toNat_ofNat_of_lt' fits]
  · rintro rfl
    exact ⟨n.toNat, unsigned_eq_ok_iff.mpr ⟨rfl, inRange⟩, UInt8.ofNat_toNat⟩

theorem emptyContent_eq_ok_iff :
    emptyContent v = .ok () ↔ v = .array [] ∨ v = .tables [] ∨ ∃ form, v = .table form [] := by
  cases v <;> simp [emptyContent]

theorem variantName_eq_ok_iff {variants : List (String × α)} {name : String} :
    variantName variants name = .ok a ↔ variants.lookup name = some a := by
  rw [variantName]
  cases variants.lookup name <;> simp

/-- A variant is named by a string, or by the only key of a table with nothing under it. -/
theorem variant_eq_ok_iff {variants : List (String × α)} :
    variant variants v = .ok a ↔ ∃ name, variants.lookup name = some a ∧
      (v = .string name ∨ ∃ form content, v = .table form [(name, content)] ∧
        (content = .array [] ∨ content = .tables [] ∨ ∃ form, content = .table form [])) := by
  constructor
  · intro decoded
    rw [variant.eq_def] at decoded
    split at decoded
    · exact ⟨_, variantName_eq_ok_iff.mp decoded, .inl rfl⟩
    · cases decoded
    · obtain ⟨b, named, rest⟩ := bind_eq_ok_iff.mp decoded
      obtain ⟨_, bare, last⟩ := bind_eq_ok_iff.mp rest
      obtain rfl := pure_eq_ok_iff.mp last
      exact ⟨_, variantName_eq_ok_iff.mp named, .inr ⟨_, _, rfl, emptyContent_eq_ok_iff.mp bare⟩⟩
    · cases decoded
    · cases decoded
  · rintro ⟨name, known, rfl | ⟨form, content, rfl, bare⟩⟩
    · exact variantName_eq_ok_iff.mpr known
    · rw [variant, variantName_eq_ok_iff.mpr known, ok_bind, emptyContent_eq_ok_iff.mpr bare]
      rfl

theorem read?_eq_some_iff :
    entries.read? key decode = some a ↔ ∃ v, entries.find? key = some v ∧ decode v = .ok a := by
  simp only [Entries.read?, Option.bind_eq_some_iff, toOption_eq_some_iff]

theorem lt_of_read?_unsigned {width n : Nat}
    (read : entries.read? key (unsigned width) = some n) : n < 2 ^ width := by
  obtain ⟨v, _, decoded⟩ := read?_eq_some_iff.mp read
  exact (unsigned_eq_ok_iff.mp decoded).2

theorem getD_read?_unsigned_lt {width n : Nat} (fits : n < 2 ^ width) :
    (entries.read? key (unsigned width)).getD n < 2 ^ width := by
  cases read : entries.read? key (unsigned width) with
  | none => exact fits
  | some m => exact lt_of_read?_unsigned read

/-! ## Entries -/

theorem optional_cases (decoded : optional entries key decode = .ok o) :
    (entries.find? key = none ∧ o = none) ∨
      ∃ v a, entries.find? key = some v ∧ decode v = .ok a ∧ o = some a := by
  rw [optional] at decoded
  cases found : entries.find? key with
  | none =>
      rw [found] at decoded
      cases decoded
      exact .inl ⟨rfl, rfl⟩
  | some v =>
      rw [found] at decoded
      obtain ⟨a, shaped, rfl⟩ := map_eq_ok_iff.mp decoded
      exact .inr ⟨v, a, rfl, shaped, rfl⟩

theorem optional_eq_ok (decoded : optional entries key decode = .ok o) :
    entries.read? key decode = o := by
  rw [Entries.read?]
  rcases optional_cases decoded with ⟨absent, rfl⟩ | ⟨v, a, found, shaped, rfl⟩
  · rw [absent]
    rfl
  · rw [found, Option.bind_some, shaped]
    rfl

theorem required_eq_ok (decoded : required entries key decode = .ok a) :
    entries.read? key decode = some a := by
  apply optional_eq_ok
  rw [required] at decoded
  rw [optional]
  cases found : entries.find? key with
  | none =>
      rw [found] at decoded
      cases decoded
  | some v =>
      rw [found] at decoded
      dsimp only at decoded ⊢
      rw [decoded]
      rfl

theorem withDefault_eq_ok (decoded : withDefault entries key decode fallback = .ok a) :
    (entries.read? key decode).getD fallback = a := by
  rw [withDefault, bind_eq_ok_iff] at decoded
  obtain ⟨o, given, last⟩ := decoded
  rw [optional_eq_ok given]
  exact pure_eq_ok_iff.mp last

/-! ## Tables and arrays of tables -/

theorem table_eq_ok (decoded : table expected fields v = .ok entries) :
    v.entries? = some entries := by
  rw [table] at decoded
  cases found : v.entries? with
  | none =>
      rw [found] at decoded
      cases decoded
  | some own =>
      rw [found] at decoded
      obtain ⟨_, _, last⟩ := bind_eq_ok_iff.mp decoded
      rw [pure_eq_ok_iff.mp last]

/-- What the decoder takes is a table, and the table says what comes out of it. -/
def Reads (decode : Decoder α) (R : Entries → α → Prop) : Prop :=
  ∀ v a, decode v = .ok a → ∃ entries, v.entries? = some entries ∧ R entries a

theorem Reads.optional (reads : Reads decode R)
    (decoded : Decoder.optional entries key decode = .ok o) :
    Option.Rel R (entries.inner? key) o := by
  rw [Entries.inner?]
  rcases optional_cases decoded with ⟨absent, rfl⟩ | ⟨v, a, found, shaped, rfl⟩
  · rw [absent]
    exact .none
  · obtain ⟨own, isTable, said⟩ := reads v a shaped
    rw [found, Option.bind_some, isTable]
    exact .some said

theorem Reads.mapM (reads : Reads decode R) {values : List Value} {as : List α}
    (decoded : values.mapM decode = .ok as) :
    List.Forall₂ R (values.map fun v => v.entries?.getD []) as := by
  induction values generalizing as with
  | nil =>
      rw [List.mapM_nil, pure_eq_ok_iff] at decoded
      rw [← decoded]
      exact .nil
  | cons v rest ih =>
      simp only [List.mapM_cons, bind_eq_ok_iff, pure_eq_ok_iff] at decoded
      obtain ⟨a, first, others, decodedRest, rfl⟩ := decoded
      obtain ⟨own, isTable, said⟩ := reads v a first
      rw [List.map_cons, isTable]
      exact .cons said (ih decodedRest)

theorem Reads.list (reads : Reads decode R) {as : List α}
    (decoded : withDefault entries key (Decoder.list decode) [] = .ok as) :
    List.Forall₂ R (entries.elements key) as := by
  rw [withDefault, bind_eq_ok_iff] at decoded
  obtain ⟨o, given, last⟩ := decoded
  have last := pure_eq_ok_iff.mp last
  rw [Entries.elements]
  rcases optional_cases given with ⟨absent, rfl⟩ | ⟨v, given, found, shaped, rfl⟩
  · rw [absent, ← last]
    exact .nil
  · rw [found, Option.bind_some, ← last]
    rw [Decoder.list] at shaped
    cases listed : v.elements? with
    | none =>
        rw [listed] at shaped
        cases shaped
    | some values =>
        rw [listed] at shaped
        exact reads.mapM shaped

end Decoder
end Toml

/-! ## Stated configurations -/

open Toml Toml.Decoder

structure Limits.StatedIn (entries : Entries) (limits : Limits) : Prop where
  guard : limits.guard =
    (entries.read? "guard_time_us" (unsigned 32)).getD ({} : Config).limits.guard
  minBroadcastCbap : limits.minBroadcastCbap =
    (entries.read? "min_broadcast_cbap_us" (unsigned 32)).getD
      ({} : Config).limits.minBroadcastCbap
  maxBlocks : limits.maxBlocks =
    (entries.read? "max_blocks" (unsigned 8)).getD ({} : Config).limits.maxBlocks

theorem Limits.stated_once : Relator.RightUnique Limits.StatedIn := by
  intro entries a b first second
  cases first
  cases second
  cases a
  cases b
  simp_all

structure ScenarioRequest.StatedIn (entries : Entries) (r : ScenarioRequest) : Prop where
  source : entries.read? "source_aid" octet = some r.source
  dest : entries.read? "dest_aid" octet = some r.spec.dest
  id : entries.read? "allocation_id" octet = some r.spec.id
  kind : r.spec.kind = (entries.read? "kind" (variant Config.kinds)).getD .servicePeriod
  min : entries.read? "min_us" (unsigned 32) = some r.spec.min
  max : entries.read? "max_us" (unsigned 32) = some r.spec.max
  period : r.spec.period = (entries.read? "period" (unsigned 16)).getD 0
  periodIsMultipleOfBi : r.spec.periodIsMultipleOfBi = false
  format : r.spec.format = (entries.read? "format" (variant Config.formats)).getD .isochronous
  isStatic : r.spec.isStatic = (entries.read? "static" boolean).getD false
  submitIn : r.submitIn = (entries.read? "submit_in_bi" (unsigned 32)).getD 0
  deleteIn : r.deleteIn = entries.read? "delete_in_bi" (unsigned 32)

theorem ScenarioRequest.stated_once : Relator.RightUnique ScenarioRequest.StatedIn := by
  rintro entries ⟨_, ⟨⟩, _, _⟩ ⟨_, ⟨⟩, _, _⟩ first second
  cases first
  cases second
  simp_all

theorem ScenarioRequest.StatedIn.submitIn_lt {entries : Entries} {r : ScenarioRequest}
    (stated : r.StatedIn entries) : r.submitIn < 2 ^ 32 := by
  rw [stated.submitIn]
  exact getD_read?_unsigned_lt (by decide)

theorem ScenarioRequest.StatedIn.deleteIn_lt {entries : Entries} {r : ScenarioRequest} {k : Nat}
    (stated : r.StatedIn entries) (deleteIn : r.deleteIn = some k) : k < 2 ^ 32 :=
  lt_of_read?_unsigned (stated.deleteIn.symm.trans deleteIn)

structure Scenario.StatedIn (entries : Entries) (s : Scenario) : Prop where
  seed : s.seed = entries.read? "seed" (unsigned 64)
  requests : List.Forall₂ ScenarioRequest.StatedIn (entries.elements "request") s.requests

theorem Scenario.stated_once : Relator.RightUnique Scenario.StatedIn := by
  intro entries a b first second
  have requests := ScenarioRequest.stated_once.forall₂ first.requests second.requests
  cases first
  cases second
  cases a
  cases b
  simp_all

namespace Config

structure Beacon.StatedIn (entries : Entries) (b : Beacon) : Prop where
  coordinator : b.coordinator =
    (entries.read? "coordinator_aid" octet).getD ({} : Config).beacon.coordinator
  interval : b.interval =
    (entries.read? "bi_duration_us" (unsigned 32)).getD ({} : Config).beacon.interval
  transmission : b.transmission =
    (entries.read? "bti_duration_us" (unsigned 32)).getD ({} : Config).beacon.transmission
  training : b.training =
    (entries.read? "abft_duration_us" (unsigned 32)).getD ({} : Config).beacon.training
  announcement : b.announcement =
    (entries.read? "ati_duration_us" (unsigned 32)).getD ({} : Config).beacon.announcement

theorem Beacon.stated_once : Relator.RightUnique Beacon.StatedIn := by
  intro entries a b first second
  cases first
  cases second
  cases a
  cases b
  simp_all

theorem Beacon.StatedIn.interval_lt {entries : Entries} {b : Beacon}
    (stated : b.StatedIn entries) : b.interval < 2 ^ 32 := by
  rw [stated.interval]
  exact getD_read?_unsigned_lt (by decide)

/-- All keys but the number of blocks have to be there. -/
structure Static.StatedIn (entries : Entries) (a : Static) : Prop where
  id : entries.read? "id" octet = some a.key.id
  kind : entries.read? "kind" (variant kinds) = some a.kind
  source : entries.read? "source_aid" octet = some a.key.source
  dest : entries.read? "dest_aid" octet = some a.key.dest
  start : entries.read? "start_us" (unsigned 32) = some a.start
  blockDuration : entries.read? "block_duration_us" (unsigned 32) = some a.blockDuration
  blocks : a.blocks = (entries.read? "blocks" (unsigned 8)).getD 1

theorem Static.stated_once : Relator.RightUnique Static.StatedIn := by
  rintro entries ⟨⟨_, _, _⟩, _, _, _, _⟩ ⟨⟨_, _, _⟩, _, _, _, _⟩ first second
  cases first
  cases second
  simp_all

/-- Where a table is not there, its fields have their defaults.  There is a scenario if there is
a table for it. -/
structure StatedIn (root : Entries) (config : Config) : Prop where
  debugLog : config.debugLog = root.read? "debug_log" string
  beacon : config.beacon.StatedIn ((root.inner? "beacon").getD [])
  policy : config.policy =
    (((root.inner? "scheduler").getD []).read? "policy" (variant policies)).getD
      ({} : Config).policy
  limits : config.limits.StatedIn ((root.inner? "scheduler").getD [])
  statics : List.Forall₂ Static.StatedIn (root.elements "static_allocation") config.statics
  scenario : Option.Rel Scenario.StatedIn (root.inner? "scenario") config.scenario

theorem stated_once : Relator.RightUnique StatedIn := by
  intro root a b first second
  have beacon := Beacon.stated_once first.beacon second.beacon
  have limits := Limits.stated_once first.limits second.limits
  have statics := Static.stated_once.forall₂ first.statics second.statics
  have scenario : a.scenario = b.scenario := by
    have firstStated := first.scenario
    have secondStated := second.scenario
    generalize root.inner? "scenario" = inner at firstStated secondStated
    generalize a.scenario = own at firstStated ⊢
    generalize b.scenario = other at secondStated ⊢
    cases firstStated with
    | none =>
        cases secondStated
        rfl
    | some stated =>
        cases secondStated with
        | some other => rw [Scenario.stated_once stated other]
  have debugLog := first.debugLog.trans second.debugLog.symm
  have policy := first.policy.trans second.policy.symm
  cases a
  cases b
  simp_all

/-! ## Known keys -/

def Place.keys : Place → List String
  | .root =>
      ["config_version", "debug_log", "beacon", "scheduler", "static_allocation", "scenario"]
  | .beacon =>
      ["coordinator_aid", "bi_duration_us", "bti_duration_us", "abft_duration_us",
        "ati_duration_us"]
  | .scheduler => ["policy", "guard_time_us", "min_broadcast_cbap_us", "max_blocks"]
  | .static _ =>
      ["id", "kind", "source_aid", "dest_aid", "start_us", "block_duration_us", "blocks"]
  | .scenario => ["seed", "request"]
  | .request _ =>
      ["source_aid", "dest_aid", "allocation_id", "kind", "min_us", "max_us", "period", "format",
        "static", "submit_in_bi", "delete_in_bi"]

def Place.unknown (place : Place) (entries : Entries) : List String :=
  (entries.map (·.1)).filter fun key => key ∉ place.keys

theorem unknown_eq {place : Place} {fields : List Field} {entries : Entries}
    (names : fields.map (·.name) = place.keys) :
    Decoder.unknown fields entries = place.unknown entries := by
  rw [Decoder.unknown, Place.unknown, ← names]
  apply List.filter_congr
  intro key _
  rw [Bool.eq_iff_iff]
  simp

/-! ## The decoders -/

theorem BeaconDraft.decode_reads : Reads BeaconDraft.decode fun entries draft =>
    draft.complete.StatedIn entries ∧ draft.unknown = Place.beacon.unknown entries := by
  intro v draft decoded
  simp only [decode, bind_eq_ok_iff, pure_eq_ok_iff] at decoded
  obtain ⟨entries, tabled, coordinator, ownCoordinator, interval, ownInterval, transmission,
    ownTransmission, training, ownTraining, announcement, ownAnnouncement, rfl⟩ := decoded
  refine ⟨entries, table_eq_ok tabled, ?_, unknown_eq rfl⟩
  constructor
  · rw [optional_eq_ok ownCoordinator]
    rfl
  · rw [optional_eq_ok ownInterval]
    rfl
  · rw [optional_eq_ok ownTransmission]
    rfl
  · rw [optional_eq_ok ownTraining]
    rfl
  · rw [optional_eq_ok ownAnnouncement]
    rfl

theorem BeaconDraft.optional_reads {entries : Entries} {key : String} {o : Option BeaconDraft}
    (decoded : optional entries key decode = .ok o) :
    Beacon.StatedIn ((entries.inner? key).getD []) ((o.map BeaconDraft.complete).getD {}) ∧
      (o.map (·.unknown)).getD [] = Place.beacon.unknown ((entries.inner? key).getD []) := by
  have read := decode_reads.optional decoded
  generalize entries.inner? key = inner at read ⊢
  cases read with
  | none =>
      refine ⟨?_, rfl⟩
      constructor <;> rfl
  | some said => exact said

theorem SchedulerDraft.decode_reads : Reads SchedulerDraft.decode fun entries draft =>
    draft.complete.StatedIn entries ∧
      entries.read? "policy" (variant policies) = some draft.policy ∧
      draft.unknown = Place.scheduler.unknown entries := by
  intro v draft decoded
  simp only [decode, bind_eq_ok_iff, pure_eq_ok_iff] at decoded
  obtain ⟨entries, tabled, policy, ownPolicy, guard, ownGuard, minBroadcastCbap,
    ownMinBroadcastCbap, maxBlocks, ownMaxBlocks, rfl⟩ := decoded
  refine ⟨entries, table_eq_ok tabled, ?_, required_eq_ok ownPolicy, unknown_eq rfl⟩
  constructor
  · rw [optional_eq_ok ownGuard]
    rfl
  · rw [optional_eq_ok ownMinBroadcastCbap]
    rfl
  · rw [optional_eq_ok ownMaxBlocks]
    rfl

theorem SchedulerDraft.optional_reads {entries : Entries} {key : String}
    {o : Option SchedulerDraft} (decoded : optional entries key decode = .ok o) :
    Limits.StatedIn ((entries.inner? key).getD [])
        ((o.map SchedulerDraft.complete).getD ({} : Config).limits) ∧
      (o.map (·.policy)).getD ({} : Config).policy =
        (((entries.inner? key).getD []).read? "policy" (variant policies)).getD
          ({} : Config).policy ∧
      (o.map (·.unknown)).getD [] = Place.scheduler.unknown ((entries.inner? key).getD []) := by
  have read := decode_reads.optional decoded
  generalize entries.inner? key = inner at read ⊢
  cases read with
  | none =>
      refine ⟨?_, rfl, rfl⟩
      constructor <;> rfl
  | some said =>
      obtain ⟨limits, policy, unknown⟩ := said
      refine ⟨limits, ?_, unknown⟩
      rw [Option.getD_some, policy]
      rfl

theorem StaticDraft.decode_reads : Reads StaticDraft.decode fun entries draft =>
    draft.content.StatedIn entries ∧
      ∀ index, draft.unknown = (Place.static index).unknown entries := by
  intro v draft decoded
  simp only [decode, bind_eq_ok_iff, pure_eq_ok_iff] at decoded
  obtain ⟨entries, tabled, id, ownId, kind, ownKind, source, ownSource, dest, ownDest, start,
    ownStart, blockDuration, ownBlockDuration, blocks, ownBlocks, rfl⟩ := decoded
  refine ⟨entries, table_eq_ok tabled, ?_, fun _ => unknown_eq rfl⟩
  constructor
  · exact required_eq_ok ownId
  · exact required_eq_ok ownKind
  · exact required_eq_ok ownSource
  · exact required_eq_ok ownDest
  · exact required_eq_ok ownStart
  · exact required_eq_ok ownBlockDuration
  · exact (withDefault_eq_ok ownBlocks).symm

theorem RequestDraft.decode_reads : Reads RequestDraft.decode fun entries draft =>
    draft.content.StatedIn entries ∧
      ∀ index, draft.unknown = (Place.request index).unknown entries := by
  intro v draft decoded
  simp only [decode, bind_eq_ok_iff, pure_eq_ok_iff] at decoded
  obtain ⟨entries, tabled, source, ownSource, dest, ownDest, id, ownId, kind, ownKind, min, ownMin,
    max, ownMax, period, ownPeriod, format, ownFormat, isStatic, ownIsStatic, submitIn,
    ownSubmitIn, deleteIn, ownDeleteIn, rfl⟩ := decoded
  refine ⟨entries, table_eq_ok tabled, ?_, fun _ => unknown_eq rfl⟩
  constructor
  · exact required_eq_ok ownSource
  · exact required_eq_ok ownDest
  · exact required_eq_ok ownId
  · exact (withDefault_eq_ok ownKind).symm
  · exact required_eq_ok ownMin
  · exact required_eq_ok ownMax
  · exact (withDefault_eq_ok ownPeriod).symm
  · rfl
  · exact (withDefault_eq_ok ownFormat).symm
  · exact (withDefault_eq_ok ownIsStatic).symm
  · exact (withDefault_eq_ok ownSubmitIn).symm
  · exact (optional_eq_ok ownDeleteIn).symm

theorem ScenarioDraft.decode_reads : Reads ScenarioDraft.decode fun entries draft =>
    draft.complete.StatedIn entries ∧ draft.unknown = Place.scenario.unknown entries ∧
      List.Forall₂ (fun entries request =>
        ∀ index, request.unknown = (Place.request index).unknown entries)
        (entries.elements "request") draft.requests := by
  intro v draft decoded
  simp only [decode, bind_eq_ok_iff, pure_eq_ok_iff] at decoded
  obtain ⟨entries, tabled, seed, ownSeed, requests, ownRequests, rfl⟩ := decoded
  have read := RequestDraft.decode_reads.list ownRequests
  refine ⟨entries, table_eq_ok tabled, ?_, unknown_eq rfl, ?_⟩
  · constructor
    · exact (optional_eq_ok ownSeed).symm
    · apply List.forall₂_map_right_iff.mpr
      exact read.imp fun _ _ said => said.1
  · exact read.imp fun _ _ said => said.2

theorem ScenarioDraft.optional_reads {entries : Entries} {key : String} {o : Option ScenarioDraft}
    (decoded : optional entries key decode = .ok o) :
    Option.Rel Scenario.StatedIn (entries.inner? key) (o.map (·.complete)) ∧
      (o.map (·.unknown)).getD [] = Place.scenario.unknown ((entries.inner? key).getD []) ∧
      List.Forall₂ (fun entries request =>
        ∀ index, request.unknown = (Place.request index).unknown entries)
        (((entries.inner? key).getD []).elements "request") ((o.map (·.requests)).getD []) := by
  have read := decode_reads.optional decoded
  generalize entries.inner? key = inner at read ⊢
  cases read with
  | none => exact ⟨.none, rfl, .nil⟩
  | some said =>
      obtain ⟨stated, unknown, requests⟩ := said
      exact ⟨.some stated, unknown, requests⟩

/-- The tables of a document at their places, in the order in which they are looked at. -/
def tables (root : Entries) : List (Place × Entries) :=
  let scenario := (root.inner? "scenario").getD []
  [(.root, root), (.beacon, (root.inner? "beacon").getD []),
      (.scheduler, (root.inner? "scheduler").getD [])] ++
    (root.elements "static_allocation").zipIdx.map (fun p => (.static p.2, p.1)) ++
    [(.scenario, scenario)] ++
    (scenario.elements "request").zipIdx.map (fun p => (.request p.2, p.1))

def Draft.unknowns (draft : Draft) : List (Place × List String) :=
  [(.root, draft.unknown), (.beacon, (draft.beacon.map (·.unknown)).getD []),
      (.scheduler, (draft.scheduler.map (·.unknown)).getD [])] ++
    draft.statics.zipIdx.map (fun p => (.static p.2, p.1.unknown)) ++
    [(.scenario, (draft.scenario.map (·.unknown)).getD [])] ++
    ((draft.scenario.map (·.requests)).getD []).zipIdx.map
      (fun p => (.request p.2, p.1.unknown))

theorem map_zipIdx_eq_of_forall₂ {α β γ : Type} {R : α → β → Prop} {as : List α} {bs : List β}
    (related : List.Forall₂ R as bs) {f : α × Nat → γ} {g : β × Nat → γ}
    (same : ∀ a b, R a b → ∀ index, f (a, index) = g (b, index)) (first : Nat) :
    (as.zipIdx first).map f = (bs.zipIdx first).map g := by
  induction related generalizing first with
  | nil => rfl
  | cons own _ ih =>
      rw [List.zipIdx_cons, List.zipIdx_cons, List.map_cons, List.map_cons, same _ _ own, ih]

/-- A document of the right shape is read as it is stated: nothing that it gives is dropped, and
what nobody knows is kept apart at its place. -/
theorem Draft.ofRoot_reads {root : Entries} {draft : Draft} (shaped : ofRoot root = .ok draft) :
    root.read? "config_version" string = some draft.version ∧ draft.complete.StatedIn root ∧
      draft.unknowns = (tables root).map fun table => (table.1, table.1.unknown table.2) := by
  simp only [ofRoot, bind_eq_ok_iff, pure_eq_ok_iff] at shaped
  obtain ⟨_, _, version, ownVersion, debugLog, ownDebugLog, beacon, ownBeacon, scheduler,
    ownScheduler, statics, ownStatics, scenario, ownScenario, rfl⟩ := shaped
  obtain ⟨beaconStated, beaconUnknown⟩ := BeaconDraft.optional_reads ownBeacon
  obtain ⟨limitsStated, policyStated, schedulerUnknown⟩ :=
    SchedulerDraft.optional_reads ownScheduler
  have staticsRead := StaticDraft.decode_reads.list ownStatics
  obtain ⟨scenarioStated, scenarioUnknown, requestsUnknown⟩ :=
    ScenarioDraft.optional_reads ownScenario
  refine ⟨required_eq_ok ownVersion, ?_, ?_⟩
  · constructor
    · exact (optional_eq_ok ownDebugLog).symm
    · exact beaconStated
    · exact policyStated
    · exact limitsStated
    · apply List.forall₂_map_right_iff.mpr
      exact staticsRead.imp fun _ _ said => said.1
    · exact scenarioStated
  · have staticsUnknown := map_zipIdx_eq_of_forall₂ staticsRead
      (f := fun p => (Place.static p.2, (Place.static p.2).unknown p.1))
      (g := fun p => (Place.static p.2, p.1.unknown))
      (fun _ _ said index => by rw [said.2 index]) 0
    have requestsUnknown := map_zipIdx_eq_of_forall₂ requestsUnknown
      (f := fun p => (Place.request p.2, (Place.request p.2).unknown p.1))
      (g := fun p => (Place.request p.2, p.1.unknown))
      (fun _ _ said index => by rw [said index]) 0
    have rootUnknown : Decoder.unknown fields root = Place.root.unknown root := unknown_eq rfl
    simp only [unknowns, tables, List.map_append, List.map_map, List.map_cons, List.map_nil,
      Function.comp_def]
    rw [beaconUnknown, schedulerUnknown, scenarioUnknown, rootUnknown, staticsUnknown,
      requestsUnknown]

end Config
end BeaconScheduler
