import BeaconScheduler.Proofs.Loading
import BeaconScheduler.Proofs.PartitionCheck

/-!
# What a valid configuration is

Validation runs through the statics one by one, sorts their spans and compares neighbours.
`Config.Valid` says what it decides without any of that: the statics lie in the DTI, and no
microsecond is wanted by two of them.  The lemmas follow the functions of the check, one
`_eq_ok_iff` for each.  The sums of the check are also taken in the counters that hold them
(`validateInCounters`), where within the widths of the fields nothing overflows and nothing
is cut off.
-/

set_option autoImplicit false

namespace BeaconScheduler

open Counter BeaconScheduler.Interval

def ScenarioRequest.InOrder (r : ScenarioRequest) : Prop :=
  ∀ deleteIn, r.deleteIn = some deleteIn → r.submitIn ≤ deleteIn

theorem ScenarioRequest.check_eq_ok_iff {r : ScenarioRequest} : r.check = .ok () ↔ r.InOrder := by
  rw [check, InOrder]
  cases r.deleteIn with
  | none => simp
  | some deleteIn =>
      simp only [Option.some.injEq, forall_eq']
      split_ifs with early
      · simpa using early
      · simpa using early

namespace Config

/-- What the header leaves of the interval, where nothing limits the sum. -/
def Beacon.room (b : Beacon) : Nat :=
  b.interval - (b.transmission + b.training + b.announcement)

/-- The microsecond is one that the static keeps to itself, guard time included. -/
def Static.Holds (guard : Nat) (a : Static) (t : Nat) : Prop :=
  a.start ≤ t ∧ t < a.start + a.blockDuration * a.blocks + guard

/-- A static that could stand alone. -/
structure Static.Sound (guard dti : Nat) (a : Static) : Prop where
  blocks : 1 ≤ a.blocks
  blockDuration : 1 ≤ a.blockDuration
  ceiling : a.blockDuration ≤ a.kind.maxBlockDuration
  inside : a.start + a.blockDuration * a.blocks + guard ≤ dti

structure Valid (config : Config) : Prop where
  interval : 0 < config.beacon.interval
  header : config.beacon.transmission + config.beacon.training + config.beacon.announcement <
    config.beacon.interval
  guard : config.limits.guard < config.beacon.room
  blocks : 1 ≤ config.limits.maxBlocks
  statics : ∀ a ∈ config.statics, a.Sound config.limits.guard config.beacon.room
  apart : config.statics.Pairwise fun a b =>
    ∀ t, ¬ (a.Holds config.limits.guard t ∧ b.Holds config.limits.guard t)
  scenario : ∀ scenario, config.scenario = some scenario → ∀ r ∈ scenario.requests, r.InOrder

variable {guard dti : Nat} {a b : Static} {statics : List Static} {config : Config}

/-! ## The checks, one by one -/

theorem checkAll_eq_ok_iff {α : Type} {check : α → Except Problem Unit} {list : List α} :
    checkAll check list = .ok () ↔ ∀ a ∈ list, check a = .ok () := by
  induction list with
  | nil => simp [checkAll]
  | cons a rest ih =>
      rw [checkAll, List.forall_mem_cons]
      cases own : check a with
      | error problem => simp
      | ok _ => simp [ih]

theorem Static.check_eq_ok_iff : a.check guard dti = .ok () ↔ a.Sound guard dti := by
  rw [Static.check]
  constructor
  · intro checked
    split_ifs at checked with empty long beyond
    constructor
    · omega
    · omega
    · omega
    · exact Nat.le_of_not_lt beyond
  · intro sound
    have := sound.blocks
    have := sound.blockDuration
    have inside : (a.span guard).stop ≤ dti := sound.inside
    rw [if_neg (by omega), if_neg (Nat.not_lt_of_le sound.ceiling),
      if_neg (Nat.not_lt_of_le inside)]

theorem Static.Sound.nonempty (sound : a.Sound guard dti) :
    (a.span guard).start < (a.span guard).stop := by
  have airtime : 0 < a.blockDuration * a.blocks := Nat.mul_pos sound.blockDuration sound.blocks
  dsimp only [Static.span]
  omega

theorem Static.disjoint_span_iff (first : a.Sound guard dti) (second : b.Sound guard dti) :
    (a.span guard).Disjoint (b.span guard) ↔
      ∀ t, ¬ (a.Holds guard t ∧ b.Holds guard t) := by
  have := first.nonempty
  have := second.nonempty
  dsimp only [Interval.Disjoint, Static.span, Static.Holds] at *
  constructor
  · intro apart t common
    omega
  · intro apart
    -- if they met at all, they would meet where the later one starts
    have := apart (max a.start b.start)
    omega

theorem pairwise_disjoint_spans_iff (sound : ∀ a ∈ statics, a.Sound guard dti) :
    (statics.map (Static.span guard)).Pairwise Interval.Disjoint ↔
      statics.Pairwise fun a b => ∀ t, ¬ (a.Holds guard t ∧ b.Holds guard t) := by
  rw [List.pairwise_map]
  apply List.Pairwise.iff_of_mem
  intro a b first second
  exact Static.disjoint_span_iff (sound a first) (sound b second)

theorem nonempty_spans (sound : ∀ a ∈ statics, a.Sound guard dti) :
    ∀ i ∈ statics.map (Static.span guard), i.start < i.stop := by
  intro i member
  obtain ⟨a, held, rfl⟩ := List.mem_map.mp member
  exact (sound a held).nonempty

theorem checkStatics_eq_ok_iff :
    checkStatics guard dti statics = .ok () ↔
      (∀ a ∈ statics, a.Sound guard dti) ∧
        statics.Pairwise fun a b => ∀ t, ¬ (a.Holds guard t ∧ b.Holds guard t) := by
  have each : checkAll (Static.check guard dti) statics = .ok () ↔
      ∀ a ∈ statics, a.Sound guard dti := by
    simp only [checkAll_eq_ok_iff, Static.check_eq_ok_iff]
  rw [checkStatics]
  cases checked : checkAll (Static.check guard dti) statics with
  | error problem =>
      rw [checked] at each
      simp only [reduceCtorEq, false_iff] at each ⊢
      intro valid
      apply each
      exact valid.1
  | ok _ =>
      have sound := each.mp checked
      have apart := firstOverlap?_sort_eq_none_iff (nonempty_spans sound)
      rw [pairwise_disjoint_spans_iff sound] at apart
      rw [← apart]
      dsimp only
      cases overlap : firstOverlap? (sort (statics.map (Static.span guard))) with
      | some pair => simp
      | none => simpa using sound

theorem checkContents_eq_ok_iff :
    config.checkContents dti = .ok () ↔
      config.limits.guard < dti ∧ 1 ≤ config.limits.maxBlocks ∧
        checkStatics config.limits.guard dti config.statics = .ok () ∧
        ∀ scenario, config.scenario = some scenario → ∀ r ∈ scenario.requests, r.InOrder := by
  rw [checkContents]
  split_ifs with short none
  · simp only [false_iff]
    omega
  · simp only [false_iff]
    omega
  · have long : config.limits.guard < dti := Nat.lt_of_not_le short
    have blocks : 1 ≤ config.limits.maxBlocks := Nat.pos_of_ne_zero none
    cases checkStatics config.limits.guard dti config.statics with
    | error problem => simp
    | ok _ =>
        cases config.scenario with
        | none => simp [long, blocks]
        | some scenario =>
            simp [long, blocks, Scenario.check, checkAll_eq_ok_iff,
              ScenarioRequest.check_eq_ok_iff]

theorem validate_of_fits (fits : config.beacon.HeaderFits) :
    config.validate = .ok (.ok ()) ↔ config.Valid := by
  rw [validate, Beacon.header_of_fits fits, ok_bind]
  constructor
  · intro validated
    split_ifs at validated with empty long
    · cases Except.ok.inj validated
    · cases pure_eq_ok_iff.mp validated
    · have checked := pure_eq_ok_iff.mp validated
      obtain ⟨guard, blocks, statics, scenario⟩ := checkContents_eq_ok_iff.mp checked
      obtain ⟨sound, apart⟩ := checkStatics_eq_ok_iff.mp statics
      exact ⟨Nat.pos_of_ne_zero empty, Nat.lt_of_not_le long, guard, blocks, sound, apart,
        scenario⟩
  · intro valid
    rw [if_neg (Nat.ne_of_gt valid.interval), if_neg (Nat.not_le_of_lt valid.header)]
    apply pure_eq_ok_iff.mpr
    apply checkContents_eq_ok_iff.mpr
    exact ⟨valid.guard, valid.blocks, checkStatics_eq_ok_iff.mpr ⟨valid.statics, valid.apart⟩,
      valid.scenario⟩

theorem validate_eq_ok_iff :
    config.validate = .ok (.ok ()) ↔ config.beacon.HeaderFits ∧ config.Valid := by
  by_cases fits : config.beacon.HeaderFits
  · simp [validate_of_fits fits, fits]
  · constructor
    · intro validated
      by_cases empty : config.beacon.interval = 0
      · rw [validate, if_pos empty] at validated
        cases Except.ok.inj validated
      · rw [validate_overflows fun counts => fits (counts empty)] at validated
        cases validated
    · intro valid
      exact absurd valid.1 fits

theorem require_eq_ok_iff : config.require = .ok () ↔ config.validate = .ok (.ok ()) := by
  rw [require, bind_eq_ok_iff]
  constructor
  · intro required
    obtain ⟨outcome, validated, accepted⟩ := required
    cases outcome with
    | error problem => cases accepted
    | ok _ => exact validated
  · intro valid
    exact ⟨_, valid, rfl⟩

theorem Valid.perm (valid : config.Valid) (perm : config.statics.Perm statics) :
    { config with statics }.Valid where
  interval := valid.interval
  header := valid.header
  guard := valid.guard
  blocks := valid.blocks
  statics := by
    intro a member
    exact valid.statics a (perm.mem_iff.mpr member)
  apart := by
    refine (perm.pairwise_iff ?_).mp valid.apart
    intro a b apart t common
    exact apart t common.symm
  scenario := valid.scenario

/-! ## The checks in counters -/

/-- The numbers of a static fit the fields that it has in the frames and documents. -/
structure Static.WithinWidths (a : Static) : Prop where
  start : a.start < 2 ^ 32
  blockDuration : a.blockDuration < 2 ^ 32
  blocks : a.blocks < 2 ^ 8

structure WithinWidths (config : Config) : Prop where
  interval : config.beacon.interval < 2 ^ 32
  guard : config.limits.guard < 2 ^ 32
  statics : ∀ a ∈ config.statics, a.WithinWidths

def Static.countStop (guard : Nat) (a : Static) : Except Fault Nat := do
  let airtime ← mul64 a.blockDuration a.blocks
  let stop ← add64 a.start airtime
  add64 stop guard

/-- The span of a static that passes its check, the stop cut down to 32 bits. -/
def Static.countSpan (guard dti : Nat) (a : Static) : Except Fault (Except Problem Interval) :=
  if a.blocks = 0 ∨ a.blockDuration = 0 then .ok (.error .emptyStaticBlock)
  else if a.kind.maxBlockDuration < a.blockDuration then .ok (.error .staticBlockTooLong)
  else do
    let stop ← a.countStop guard
    if dti < stop then return .error .staticBeyondDti
    else return .ok ⟨a.start, stop % 2 ^ 32⟩

def countSpans (guard dti : Nat) : List Static → Except Fault (Except Problem (List Interval))
  | [] => .ok (.ok [])
  | a :: rest => do
      match ← a.countSpan guard dti with
      | .error problem => return .error problem
      | .ok span =>
          match ← countSpans guard dti rest with
          | .error problem => return .error problem
          | .ok spans => return .ok (span :: spans)

/-- Validation with every sum and product in its counter.  A difference below zero is a fault. -/
def validateInCounters (config : Config) : Except Fault (Except Problem Unit) :=
  if config.beacon.interval = 0 then
    .ok (.error .emptyInterval)
  else do
    let header ← config.beacon.header
    if config.beacon.interval ≤ header then return .error .headerTooLong
    else
      let dti ← sub config.beacon.interval header
      if dti ≤ config.limits.guard then return .error .guardTooLong
      else if config.limits.maxBlocks = 0 then return .error .noBlocks
      else
        match ← countSpans config.limits.guard dti config.statics with
        | .error problem => return .error problem
        | .ok spans =>
            match firstOverlap? (sort spans) with
            | some _ => return .error .staticOverlap
            | none =>
                match config.scenario with
                | some scenario => return scenario.check
                | none => return .ok ()

theorem Static.countStop_eq (within : a.WithinWidths) (counted : guard < 2 ^ 32) :
    a.countStop guard = .ok (a.span guard).stop := by
  have start := within.start
  -- 32 bits times 8 bits, so the sums stay far below 64 bits
  have airtime : a.blockDuration * a.blocks < 2 ^ 32 * 2 ^ 8 :=
    Nat.mul_lt_mul'' within.blockDuration within.blocks
  have multiplied : mul64 a.blockDuration a.blocks = .ok (a.blockDuration * a.blocks) :=
    mul_eq_ok_iff.mpr ⟨by omega, rfl⟩
  have added : add64 a.start (a.blockDuration * a.blocks) =
      .ok (a.start + a.blockDuration * a.blocks) := add_eq_ok_iff.mpr ⟨by omega, rfl⟩
  rw [countStop, multiplied, ok_bind, added, ok_bind]
  exact add_eq_ok_iff.mpr ⟨by omega, rfl⟩

theorem Static.countSpan_eq (within : a.WithinWidths) (counted : guard < 2 ^ 32)
    (small : dti < 2 ^ 32) :
    a.countSpan guard dti = .ok ((a.check guard dti).map fun _ => a.span guard) := by
  rw [countSpan, check, countStop_eq within counted, ok_bind]
  split_ifs with empty long beyond
  · rfl
  · rfl
  · rfl
  · have kept : (a.span guard).stop % 2 ^ 32 = (a.span guard).stop := by
      apply Nat.mod_eq_of_lt
      omega
    rw [kept]
    rfl

theorem countSpans_eq (within : ∀ a ∈ statics, a.WithinWidths) (counted : guard < 2 ^ 32)
    (small : dti < 2 ^ 32) :
    countSpans guard dti statics =
      .ok ((checkAll (Static.check guard dti) statics).map fun _ =>
        statics.map (Static.span guard)) := by
  induction statics with
  | nil => rfl
  | cons a rest ih =>
      obtain ⟨own, others⟩ := List.forall_mem_cons.mp within
      rw [countSpans, checkAll, Static.countSpan_eq own counted small, ok_bind]
      cases a.check guard dti with
      | error problem => rfl
      | ok _ =>
          rw [Except.map]
          dsimp only
          rw [ih others, ok_bind]
          cases checkAll (Static.check guard dti) rest with
          | error problem => rfl
          | ok _ => rfl

theorem validateInCounters_eq (within : config.WithinWidths) :
    config.validateInCounters = config.validate := by
  rw [validateInCounters, validate]
  by_cases empty : config.beacon.interval = 0
  · rw [if_pos empty, if_pos empty]
  rw [if_neg empty, if_neg empty]
  apply bind_congr
  intro header
  by_cases long : config.beacon.interval ≤ header
  · rw [if_pos long, if_pos long]
  have small : config.beacon.interval - header < 2 ^ 32 :=
    Nat.lt_of_le_of_lt (Nat.sub_le _ _) within.interval
  have room : sub config.beacon.interval header = .ok (config.beacon.interval - header) :=
    sub_eq_ok_iff.mpr ⟨Nat.le_of_not_le long, rfl⟩
  rw [if_neg long, if_neg long, room, ok_bind, countSpans_eq within.statics within.guard small,
    ok_bind, checkContents, checkStatics]
  split_ifs with short none
  · rfl
  · rfl
  · cases checkAll (Static.check config.limits.guard (config.beacon.interval - header))
        config.statics with
    | error problem => rfl
    | ok _ =>
        dsimp only [Except.map]
        cases firstOverlap? (sort (config.statics.map (Static.span config.limits.guard))) with
        | some pair => rfl
        | none =>
            cases config.scenario with
            | none => rfl
            | some scenario => rfl

/-! ## The verdict -/

/-- Validation always comes to a verdict, and accepts exactly the valid configurations: with the
sums of the natural numbers and with the counters of the program, and in whatever order the
statics are listed. -/
theorem validate_decides (fits : config.beacon.HeaderFits) :
    Ends config.validate ∧
      (config.validate = .ok (.ok ()) ↔ config.Valid) ∧
      (config.WithinWidths → config.validateInCounters = config.validate) ∧
      ∀ statics, config.statics.Perm statics →
        ({ config with statics }.validate = .ok (.ok ()) ↔ config.validate = .ok (.ok ())) := by
  refine ⟨validate_ends fun _ => fits, validate_of_fits fits, validateInCounters_eq, ?_⟩
  intro statics perm
  have fits' : { config with statics }.beacon.HeaderFits := fits
  rw [validate_of_fits fits, validate_of_fits fits']
  constructor
  · intro valid
    exact valid.perm perm.symm
  · intro valid
    exact valid.perm perm

/-- Statics out of order that touch each other, the last one up to the end of the DTI, and a
request that is withdrawn in the interval in which it is made. -/
def crowded : Config :=
  { statics :=
      [⟨⟨9, 0, 255⟩, .cbap, 50000, 20000, 2⟩, ⟨⟨1, 0, 4⟩, .servicePeriod, 90010, 11380, 1⟩,
        ⟨⟨1, 0, 4⟩, .servicePeriod, 49490, 100, 5⟩]
    scenario := some ⟨none, [⟨4, ⟨2, .servicePeriod, false, 0, .isochronous, 100, 200, 0, false⟩, 3,
      some 3⟩]⟩ }

theorem crowded_valid :
    crowded.beacon.HeaderFits ∧ crowded.Valid ∧ crowded.validateInCounters = .ok (.ok ()) ∧
      { crowded with statics := crowded.statics.reverse }.validate = .ok (.ok ()) := by
  have fits : crowded.beacon.HeaderFits := by
    rw [Beacon.HeaderFits]
    decide
  have accepted : crowded.validate = .ok (.ok ()) := by decide +kernel
  obtain ⟨_, decides, counters, unordered⟩ := validate_decides fits
  have fields : ∀ a ∈ crowded.statics,
      a.start < 2 ^ 32 ∧ a.blockDuration < 2 ^ 32 ∧ a.blocks < 2 ^ 8 := by decide
  have within : crowded.WithinWidths := by
    refine ⟨by decide, by decide, ?_⟩
    intro a member
    obtain ⟨start, blockDuration, blocks⟩ := fields a member
    exact ⟨start, blockDuration, blocks⟩
  exact ⟨fits, decides.mp accepted, (counters within).trans accepted,
    (unordered _ (List.reverse_perm _).symm).mpr accepted⟩

end Config
end BeaconScheduler
