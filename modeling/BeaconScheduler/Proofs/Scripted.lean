import BeaconScheduler.Proofs.Diary
import BeaconScheduler.Proofs.Documents
import BeaconScheduler.Proofs.Statics
import BeaconScheduler.Simulator.Basic
import Mathlib.Data.List.Forall2

/-!
# Scripted traffic keeps its intervals

A script says in which interval a frame is sent, and a sampler at which time inside its DTI.
The placement always has a result, and every frame lies in the window of its interval
(`submitAll_places`); nothing else is known of the times that are drawn (`follow_iff_places`).  In
a run whose frames all come on time each request is decided on at the end of the interval that it
comes in (`diary_punctual`).  So when a scripted request is decided on depends neither on the
sampler nor on the seed (`follow_keeps_intervals`).  Every loaded configuration keeps to the widths
that this asks for (`Config.counts_of_loaded`).
-/

set_option autoImplicit false

namespace BeaconScheduler

open Counter

/-! ## Plans -/

def ScenarioRequest.plan (r : ScenarioRequest) : List (Timeline.Frame × Nat) :=
  (.request r.source r.spec, r.submitIn) ::
    (r.deleteIn.map fun k => (.deletion (r.spec.key r.source), k)).toList

def Scenario.plan (s : Scenario) : List (Timeline.Frame × Nat) :=
  s.requests.flatMap ScenarioRequest.plan

structure ScenarioRequest.Below (bound : Nat) (r : ScenarioRequest) : Prop where
  submitIn : r.submitIn < bound
  deleteIn : ∀ k, r.deleteIn = some k → k < bound

instance (bound : Nat) (r : ScenarioRequest) : Decidable (r.Below bound) :=
  decidable_of_iff (r.submitIn < bound ∧ ∀ k ∈ r.deleteIn, k < bound)
    ⟨fun ⟨submitIn, deleteIn⟩ => ⟨submitIn, deleteIn⟩, fun below => ⟨below.1, below.2⟩⟩

/-! ## Loaded scenarios -/

theorem ScenarioRequest.StatedIn.below {entries : Toml.Entries} {r : ScenarioRequest}
    (stated : r.StatedIn entries) : r.Below (2 ^ 32) :=
  ⟨stated.submitIn_lt, fun _ => stated.deleteIn_lt⟩

theorem ScenarioRequest.below_of_stated {tables : List Toml.Entries}
    {requests : List ScenarioRequest}
    (stated : List.Forall₂ ScenarioRequest.StatedIn tables requests) :
    ∀ r ∈ requests, r.Below (2 ^ 32) := by
  induction stated with
  | nil => simp
  | cons own _ ih => exact List.forall_mem_cons.mpr ⟨own.below, ih⟩

/-- The interval of a loaded configuration can be counted, and so can every interval that its
scenario names. -/
theorem Config.counts_of_loaded {parse : String → Option Toml.Entries} {text : String}
    {config : Config} {scenario : Scenario}
    (loaded : loadText (reader parse) text = .ok (.ok config))
    (scripted : config.scenario = some scenario) :
    config.validate = .ok (.ok ()) ∧ config.beacon.interval < 2 ^ 32 ∧
      ∀ r ∈ scenario.requests, r.Below (2 ^ 32) := by
  obtain ⟨draft, describes, rfl, valid⟩ := loadText_eq_ok_iff.mp loaded
  obtain ⟨root, _, shaped⟩ := reader_eq_ok_iff.mp describes.shape
  obtain ⟨_, stated, _⟩ := Draft.ofRoot_reads shaped
  refine ⟨valid, stated.beacon.interval_lt, ?_⟩
  have said := stated.scenario
  rw [scripted] at said
  generalize root.inner? "scenario" = inner at said
  cases said with
  | some said => exact ScenarioRequest.below_of_stated said.requests

namespace Timeline

variable {t middle next : Timeline} {header : Nat} {random : Sampler}

/-- An arrival is the planned frame, at a time in the DTI of its interval. -/
def Places (t : Timeline) (planned : Frame × Nat) (a : Arrival) : Prop :=
  a.frame = planned.1 ∧ ∃ start stop, t.dtiWindow planned.2 = .ok (start, stop) ∧
    start ≤ a.time ∧ a.time < stop

theorem stop_counted {k length : Nat} (indexed : k < 2 ^ 32) (counted : length < 2 ^ 32) :
    k * length + length < 2 ^ 64 := by
  have bound : (k + 1) * length ≤ 2 ^ 32 * (2 ^ 32 - 1) :=
    Nat.mul_le_mul indexed (Nat.le_sub_one_of_lt counted)
  rw [Nat.succ_mul] at bound
  omega

theorem dtiWindow_eq (regular : t.beacon.Regular header) (counted : t.beacon.interval < 2 ^ 32)
    {k : Nat} (indexed : k < 2 ^ 32) :
    t.dtiWindow k =
      .ok (k * t.beacon.interval + header, k * t.beacon.interval + t.beacon.interval) := by
  have inside := regular.header
  have bound := stop_counted indexed counted
  have start : t.intervalStart k = .ok (k * t.beacon.interval) :=
    mul_eq_ok_iff.mpr ⟨by omega, rfl⟩
  have first : Time.after (k * t.beacon.interval) header =
      .ok (k * t.beacon.interval + header) := add_eq_ok_iff.mpr ⟨by omega, rfl⟩
  have last : Time.after (k * t.beacon.interval) t.beacon.interval =
      .ok (k * t.beacon.interval + t.beacon.interval) := add_eq_ok_iff.mpr ⟨by omega, rfl⟩
  simp only [dtiWindow, start, regular.counted, ok_bind, first, last]
  rfl

theorem Places.interval {planned : Frame × Nat} {a : Arrival}
    (regular : t.beacon.Regular header) (counted : t.beacon.interval < 2 ^ 32)
    (indexed : planned.2 < 2 ^ 32) (places : t.Places planned a) :
    a.time / t.beacon.interval = planned.2 := by
  obtain ⟨_, start, stop, window, first, last⟩ := places
  rw [dtiWindow_eq regular counted indexed] at window
  obtain ⟨rfl, rfl⟩ := Prod.mk.inj (Except.ok.inj window)
  refine Nat.div_eq_of_lt_le (Nat.le_trans (Nat.le_add_right _ _) first) ?_
  rw [Nat.succ_mul]
  exact last

/-! ## Placement -/

def Arrival.submission (a : Arrival) : Action :=
  .submit a.time a.frame

def submitEach (t : Timeline) (placed : List Arrival) : Timeline :=
  { t with arrivals := placed.foldl (fun waiting a => insertArrival a waiting) t.arrivals }

theorem value_submit (t : Timeline) (time : Time) (frame : Frame) :
    (t.submit time frame).value = .ok (t.submitEach [⟨time, frame⟩]) := by
  unfold submit
  split_ifs <;> rfl

theorem actAll_submissions (t : Timeline) (placed : List Arrival) :
    (t.actAll (placed.map Arrival.submission)).value = .ok (t.submitEach placed) := by
  induction placed generalizing t with
  | nil => rfl
  | cons a rest ih =>
      rw [List.map_cons, actAll, Arrival.submission, act, Noted.value_bind, value_submit, ok_bind,
        ih]
      rfl

theorem insertArrival_perm (a : Arrival) (arrivals : List Arrival) :
    (insertArrival a arrivals).Perm (a :: arrivals) := by
  rw [insertArrival_eq]
  have split := List.takeWhile_append_dropWhile (p := fun b => decide (b.time ≤ a.time))
    (l := arrivals)
  exact List.perm_middle.trans (.of_eq (congrArg (a :: ·) split))

theorem submitEach_perm (t : Timeline) (placed : List Arrival) :
    (t.submitEach placed).arrivals.Perm (t.arrivals ++ placed) := by
  induction placed generalizing t with
  | nil => exact .of_eq (List.append_nil _).symm
  | cons a rest ih =>
      refine (ih (t.submitEach [a])).trans ?_
      exact ((insertArrival_perm a t.arrivals).append_right rest).trans List.perm_middle.symm

theorem pickTime_places (inRange : random.InRange) (regular : t.beacon.Regular header)
    (counted : t.beacon.interval < 2 ^ 32) (s : random.State) {k : Nat} (indexed : k < 2 ^ 32) :
    ∃ time s', t.pickTime s k = .ok (time, s') ∧
      ∀ frame, t.Places (frame, k) ⟨time, frame⟩ := by
  have window := dtiWindow_eq regular counted indexed
  have inside := regular.header
  have bound := stop_counted indexed counted
  have drawn := inRange s (k * t.beacon.interval + header)
    (k * t.beacon.interval + t.beacon.interval) (by omega) bound
  cases draw : random.between s (k * t.beacon.interval + header)
      (k * t.beacon.interval + t.beacon.interval) with
  | mk time s' =>
      rw [draw] at drawn
      refine ⟨time, s', ?_, fun frame => ⟨rfl, _, _, window, drawn⟩⟩
      simp only [pickTime, window, ok_bind, draw]
      rfl

theorem submitRequest_places (inRange : random.InRange) (regular : t.beacon.Regular header)
    (counted : t.beacon.interval < 2 ^ 32) (s : random.State) {r : ScenarioRequest}
    (indexed : r.submitIn < 2 ^ 32) :
    ∃ a s', t.Places (.request r.source r.spec, r.submitIn) a ∧
      (t.submitRequest s r).value = .ok (s', t.submitEach [a]) := by
  obtain ⟨time, s', picked, places⟩ := pickTime_places inRange regular counted s indexed
  refine ⟨_, s', places (.request r.source r.spec), ?_⟩
  simp only [submitRequest, Noted.value_bind, Noted.value_lift, picked, ok_bind, Noted.value_note,
    value_submit, Noted.value_pure]

theorem submitDeletion_places (inRange : random.InRange) (regular : t.beacon.Regular header)
    (counted : t.beacon.interval < 2 ^ 32) (s : random.State) {r : ScenarioRequest}
    (indexed : ∀ k, r.deleteIn = some k → k < 2 ^ 32) :
    ∃ placed s',
      List.Forall₂ t.Places
        (r.deleteIn.map fun k => (Frame.deletion (r.spec.key r.source), k)).toList placed ∧
      (t.submitDeletion s r).value = .ok (s', t.submitEach placed) := by
  unfold submitDeletion
  cases deleteIn : r.deleteIn with
  | none => exact ⟨[], s, .nil, rfl⟩
  | some k =>
      obtain ⟨time, s', picked, places⟩ :=
        pickTime_places inRange regular counted s (indexed k deleteIn)
      refine ⟨[_], s', .cons (places (.deletion (r.spec.key r.source))) .nil, ?_⟩
      simp only [Noted.value_bind, Noted.value_lift, picked, ok_bind, Noted.value_note,
        value_submit, Noted.value_pure]

theorem submitAll_places (inRange : random.InRange) (regular : t.beacon.Regular header)
    (counted : t.beacon.interval < 2 ^ 32) (s : random.State) {requests : List ScenarioRequest}
    (indexed : ∀ r ∈ requests, r.Below (2 ^ 32)) :
    ∃ placed, List.Forall₂ t.Places (requests.flatMap ScenarioRequest.plan) placed ∧
      (submitAll s t requests).value = .ok (t.submitEach placed) := by
  induction requests generalizing t s with
  | nil => exact ⟨[], .nil, rfl⟩
  | cons r rest ih =>
      obtain ⟨own, others⟩ := List.forall_mem_cons.mp indexed
      obtain ⟨a, s₁, placesRequest, requested⟩ :=
        submitRequest_places inRange regular counted s own.submitIn
      obtain ⟨deletions, s₂, placesDeletion, deleted⟩ :=
        submitDeletion_places (t := t.submitEach [a]) inRange regular counted s₁ own.deleteIn
      obtain ⟨placedRest, placesRest, submitted⟩ :=
        ih (t := (t.submitEach [a]).submitEach deletions) regular counted s₂ others
      refine ⟨a :: deletions ++ placedRest, ?_, ?_⟩
      · exact List.rel_append (.cons placesRequest placesDeletion) placesRest
      · simp only [submitAll, Noted.value_bind, requested, deleted, ok_bind, submitted]
        simp only [submitEach, List.foldl_append, List.foldl_cons, List.foldl_nil]

theorem value_follow (t : Timeline) (random : Sampler) (scenario : Scenario) (seed : Nat) :
    (t.follow random scenario seed).value =
      (submitAll (random.ofSeed seed) t scenario.requests).value := by
  simp only [follow, Noted.value_bind, Noted.value_note, ok_bind]

/-! ## Placements that are drawn -/

/-- Draws the numbers of a list, one after another, as long as they lie in the range. -/
def Sampler.ofList (draws : List Time) : Sampler where
  State := List Time
  ofSeed _ := draws
  between draws start stop :=
    match draws with
    | [] => (start, [])
    | n :: rest => (if start ≤ n ∧ n < stop then n else start, rest)

theorem Sampler.ofList_inRange (draws : List Time) : (ofList draws).InRange := by
  intro s start stop nonempty _
  cases s with
  | nil => exact ⟨Nat.le_refl start, nonempty⟩
  | cons n rest =>
      simp only [ofList]
      split_ifs with inside
      · exact inside
      · exact ⟨Nat.le_refl start, nonempty⟩

section Drawn

variable {draws rest : List Time} {planned : Frame × Nat} {a : Arrival}

theorem Places.pickTime_eq (places : t.Places planned a) :
    @pickTime (.ofList draws) t (a.time :: rest) planned.2 = .ok (a.time, rest) := by
  obtain ⟨_, start, stop, window, inside⟩ := places
  simp only [pickTime, window, ok_bind, Sampler.ofList, if_pos inside]
  rfl

theorem submitRequest_ofList {r : ScenarioRequest}
    (places : t.Places (.request r.source r.spec, r.submitIn) a) :
    (@submitRequest (.ofList draws) t (a.time :: rest) r).value =
      .ok (rest, t.submitEach [a]) := by
  have frame : a.frame = .request r.source r.spec := places.1
  simp only [submitRequest, Noted.value_bind, Noted.value_lift, places.pickTime_eq, ok_bind,
    Noted.value_note, value_submit, Noted.value_pure, ← frame]

theorem submitDeletion_ofList {r : ScenarioRequest} {k : Nat} (deleteIn : r.deleteIn = some k)
    (places : t.Places (.deletion (r.spec.key r.source), k) a) :
    (@submitDeletion (.ofList draws) t (a.time :: rest) r).value =
      .ok (rest, t.submitEach [a]) := by
  have frame : a.frame = .deletion (r.spec.key r.source) := places.1
  simp only [submitDeletion, deleteIn, Noted.value_bind, Noted.value_lift, places.pickTime_eq,
    ok_bind, Noted.value_note, value_submit, Noted.value_pure, ← frame]

theorem submitAll_ofList {requests : List ScenarioRequest} {placed : List Arrival}
    (places : List.Forall₂ t.Places (requests.flatMap ScenarioRequest.plan) placed) :
    (@submitAll (.ofList draws) (placed.map (·.time)) t requests).value =
      .ok (t.submitEach placed) := by
  induction requests generalizing t placed with
  | nil =>
      cases places
      rfl
  | cons r requests ih =>
      rw [List.flatMap_cons, ScenarioRequest.plan] at places
      cases places with
      | @cons _ a _ _ own others =>
          simp only [List.map_cons, submitAll, Noted.value_bind, submitRequest_ofList own, ok_bind]
          cases deleteIn : r.deleteIn with
          | none =>
              rw [deleteIn] at others
              simp only [submitDeletion, deleteIn, Noted.value_pure, ok_bind]
              exact ih (t := t.submitEach [a]) others
          | some k =>
              rw [deleteIn] at others
              cases others with
              | @cons _ b _ later deletion others =>
                  have submitted := @submitDeletion_ofList (t.submitEach [a]) draws
                    (later.map (·.time)) b r k deleteIn deletion
                  simp only [List.map_cons, submitted, ok_bind]
                  exact ih (t := (t.submitEach [a]).submitEach [b]) others

end Drawn

/-- Draws in range lead to every placement in the windows, the first and the last microsecond of
each included, and to no other. -/
theorem follow_iff_places (regular : t.beacon.Regular header)
    (counted : t.beacon.interval < 2 ^ 32) {scenario : Scenario}
    (indexed : ∀ r ∈ scenario.requests, r.Below (2 ^ 32)) (seed : Nat) :
    (∃ random : Sampler, random.InRange ∧
        (t.follow random scenario seed).value = .ok next) ↔
      ∃ placed, List.Forall₂ t.Places scenario.plan placed ∧ t.submitEach placed = next := by
  constructor
  · rintro ⟨random, inRange, followed⟩
    obtain ⟨placed, places, submitted⟩ :=
      submitAll_places inRange regular counted (random.ofSeed seed) indexed
    rw [value_follow, submitted] at followed
    exact ⟨placed, places, Except.ok.inj followed⟩
  · rintro ⟨placed, places, rfl⟩
    refine ⟨.ofList (placed.map (·.time)), Sampler.ofList_inRange _, ?_⟩
    rw [value_follow]
    exact submitAll_ofList places

/-! ## Frames that come on time -/

def intervalStop (length : Nat) (time : Time) : Time :=
  (time / length + 1) * length

/-- The frames before `stop` have been handed over, each at its own time; their requests have
been decided on at the end of the intervals that they came in. -/
structure Punctual (length : Nat) (t : Timeline) (stop : Time) (log : Log) (next : Timeline) :
    Prop where
  arrivals : next.arrivals = t.arrivals.dropWhile (·.time < stop)
  handed : log.handed = (t.arrivals.takeWhile (·.time < stop)).map fun a => ⟨a, a.time⟩
  admissions : log.admissions.map (fun told =>
      (told.1, told.2.key, told.2.spec, told.2.decided)) =
    log.requests.map fun request => (intervalStop length request.received, request.key,
      request.spec, intervalStop length request.received)
  deletions : log.deletions.map (fun told => (told.1, told.2.key, told.2.time)) =
    log.handed.filterMap Handover.deletion?

variable {length k : Nat} {stop later : Time} {log more : Log}

theorem Served.punctual (served : Served t ((k + 1) * length) log next)
    (onTime : ∀ a ∈ t.arrivals, k * length ≤ a.time) (clock : t.now = k * length) :
    Punctual length t ((k + 1) * length) log next := by
  have taken : ∀ a ∈ t.arrivals.takeWhile (·.time < (k + 1) * length),
      max a.time t.now = a.time ∧ a.time / length = k := by
    intro a member
    have first := onTime a (List.takeWhile_subset _ member)
    have last : a.time < (k + 1) * length := by simpa using List.mem_takeWhile_imp member
    exact ⟨Nat.max_eq_left (clock ▸ first), Nat.div_eq_of_lt_le first last⟩
  have handed : log.handed = (t.arrivals.takeWhile (·.time < (k + 1) * length)).map
      fun a => ⟨a, a.time⟩ := by
    rw [served.handed]
    exact List.map_congr_left fun a member => congrArg (Handover.mk a) (taken a member).1
  refine ⟨served.arrivals, handed, ?_, served.deletions⟩
  rw [served.admissions]
  refine List.map_congr_left fun request member => ?_
  rw [Log.requests, handed, List.filterMap_map] at member
  obtain ⟨a, among, asks⟩ := List.mem_filterMap.mp member
  have received : request.received = a.time := by
    obtain ⟨time, frame⟩ := a
    cases frame with
    | request source spec => exact (Option.some.inj asks).symm ▸ rfl
    | deletion key => cases asks
  rw [intervalStop, received, (taken a among).2]

theorem Punctual.append (first : Punctual length t stop log middle)
    (second : Punctual length middle later more next) (after : stop ≤ later) :
    Punctual length t later (log ++ more) next := by
  have before : ∀ a : Arrival, decide (a.time < stop) = true → decide (a.time < later) = true := by
    intro a earlier
    rw [decide_eq_true_eq] at earlier ⊢
    exact Nat.lt_of_lt_of_le earlier after
  refine ⟨?_, ?_, ?_, ?_⟩
  · rw [second.arrivals, first.arrivals, dropWhile_of_imp before]
  · rw [Log.handed_append, first.handed, second.handed, first.arrivals, ← List.map_append,
      ← takeWhile_of_imp before]
  · rw [Log.admissions_append, Log.requests_append, List.map_append, List.map_append,
      first.admissions, second.admissions]
  · rw [Log.deletions_append, Log.handed_append, List.map_append, List.filterMap_append,
      first.deletions, second.deletions]

theorem diary_punctual {count : Nat} {logs : List Log} (idle : t.Idle)
    (regular : t.beacon.Regular header) (clock : t.now = t.intervals * t.beacon.interval)
    (sorted : t.arrivals.Pairwise fun a b => a.time ≤ b.time)
    (onTime : ∀ a ∈ t.arrivals, t.now ≤ a.time)
    (watched : (t.diary (List.replicate count .runInterval)).value = .ok (logs, next)) :
    Punctual t.beacon.interval t ((t.intervals + count) * t.beacon.interval) logs.flatten next := by
  induction count generalizing t logs with
  | zero =>
      obtain ⟨rfl, rfl⟩ := Prod.mk.inj (Except.ok.inj watched)
      rw [Nat.add_zero, ← clock]
      obtain ⟨takes, drops⟩ := split_of_sorted sorted t.now
      have none : ∀ a ∈ t.arrivals, ¬ a.time < t.now := fun a member =>
        Nat.not_lt.mpr (onTime a member)
      refine ⟨?_, ?_, rfl, rfl⟩
      · rw [drops, List.filter_eq_self.mpr fun a member => by simp [none a member]]
      · rw [takes, List.filter_eq_nil_iff.mpr fun a member => by simp [none a member]]
        rfl
  | succ count ih =>
      obtain ⟨log, middle, others, first, watchedRest, rfl⟩ := diary_run_iff.mp watched
      have served := watchInterval_serves idle regular clock sorted first
      rw [clock, ← Nat.succ_mul] at served
      have left : ∀ a ∈ middle.arrivals, middle.now ≤ a.time := by
        intro a member
        rw [served.arrivals, (split_of_sorted sorted _).2, List.mem_filter] at member
        rw [served.now]
        simpa using member.2
      have sortedMiddle : middle.arrivals.Pairwise fun a b => a.time ≤ b.time := by
        rw [served.arrivals]
        exact sorted.sublist (List.dropWhile_sublist _)
      have clockMiddle : middle.now = middle.intervals * middle.beacon.interval := by
        rw [served.now, served.intervals, served.beacon]
      have punctual := ih served.idle (served.beacon ▸ regular) clockMiddle sortedMiddle left
        watchedRest
      rw [served.beacon, served.intervals, Nat.add_right_comm, Nat.add_assoc] at punctual
      refine (served.punctual (clock ▸ onTime) clock).append punctual ?_
      exact Nat.mul_le_mul_right _ (by omega)

/-! ## From the plan to the decisions -/

def decision? (length : Nat) (planned : Frame × Nat) :
    Option (Time × Allocation.Key × TrafficSpec × Time) :=
  match planned.1 with
  | .request source spec => some ((planned.2 + 1) * length, spec.key source, spec,
      (planned.2 + 1) * length)
  | .deletion _ => none

theorem plan_decisions (length : Nat) (s : Scenario) :
    s.plan.filterMap (decision? length) = s.requests.map fun r =>
      ((r.submitIn + 1) * length, r.spec.key r.source, r.spec, (r.submitIn + 1) * length) := by
  unfold Scenario.plan
  induction s.requests with
  | nil => rfl
  | cons r rest ih =>
      have own : r.plan.filterMap (decision? length) =
          [((r.submitIn + 1) * length, r.spec.key r.source, r.spec,
            (r.submitIn + 1) * length)] := by
        unfold ScenarioRequest.plan
        cases r.deleteIn <;> rfl
      rw [List.flatMap_cons, List.filterMap_append, own, ih]
      rfl

theorem index_lt_of_below {bound : Nat} {s : Scenario}
    (below : ∀ r ∈ s.requests, r.Below bound) : ∀ planned ∈ s.plan, planned.2 < bound := by
  intro planned member
  obtain ⟨r, among, own⟩ := List.mem_flatMap.mp member
  rcases List.mem_cons.mp own with rfl | deletion
  · exact (below r among).submitIn
  · obtain ⟨k, deleteIn, rfl⟩ := Option.map_eq_some_iff.mp (Option.mem_toList.mp deletion)
    exact (below r among).deleteIn k deleteIn

section Placed

variable {plan : List (Frame × Nat)} {placed : List Arrival} {bound : Nat}

theorem time_lt_of_places (regular : t.beacon.Regular header)
    (counted : t.beacon.interval < 2 ^ 32) (indexed : ∀ planned ∈ plan, planned.2 < 2 ^ 32)
    (below : ∀ planned ∈ plan, planned.2 < bound) (places : List.Forall₂ t.Places plan placed) :
    ∀ a ∈ placed, a.time < bound * t.beacon.interval := by
  induction places with
  | nil => simp
  | @cons planned a _ _ own _ ih =>
      obtain ⟨ownIndexed, indexedRest⟩ := List.forall_mem_cons.mp indexed
      obtain ⟨ownBelow, belowRest⟩ := List.forall_mem_cons.mp below
      refine List.forall_mem_cons.mpr ⟨?_, ih indexedRest belowRest⟩
      rw [← Nat.div_lt_iff_lt_mul (Nat.zero_lt_of_lt regular.header),
        own.interval regular counted ownIndexed]
      exact ownBelow

theorem decisions_of_places (regular : t.beacon.Regular header)
    (counted : t.beacon.interval < 2 ^ 32) (indexed : ∀ planned ∈ plan, planned.2 < 2 ^ 32)
    (places : List.Forall₂ t.Places plan placed) :
    (placed.filterMap fun a => (Handover.request? ⟨a, a.time⟩).map fun request =>
      (intervalStop t.beacon.interval request.received, request.key, request.spec,
        intervalStop t.beacon.interval request.received)) =
      plan.filterMap (decision? t.beacon.interval) := by
  induction places with
  | nil => rfl
  | @cons planned a _ _ own _ ih =>
      obtain ⟨ownIndexed, indexedRest⟩ := List.forall_mem_cons.mp indexed
      rw [List.filterMap_cons, List.filterMap_cons, ih indexedRest]
      have interval := own.interval regular counted ownIndexed
      have frame := own.1
      obtain ⟨time, sent⟩ := a
      obtain ⟨frame', k⟩ := planned
      obtain rfl := frame
      obtain rfl := interval
      cases sent <;> rfl

end Placed

theorem Punctual.complete {placed : List Arrival} (punctual : Punctual length t stop log next)
    (perm : t.arrivals.Perm placed) (early : ∀ a ∈ placed, a.time < stop) :
    next.arrivals = [] ∧
      (log.admissions.map fun told => (told.1, told.2.key, told.2.spec, told.2.decided)).Perm
        (placed.filterMap fun a => (Handover.request? ⟨a, a.time⟩).map fun request =>
          (intervalStop length request.received, request.key, request.spec,
            intervalStop length request.received)) ∧
      (log.deletions.map fun told => (told.1, told.2.key, told.2.time)).Perm
        (placed.filterMap fun a => Handover.deletion? ⟨a, a.time⟩) := by
  have all : ∀ a ∈ t.arrivals, decide (a.time < stop) = true := fun a member =>
    decide_eq_true (early a (perm.mem_iff.mp member))
  have handed : log.handed = t.arrivals.map fun a => ⟨a, a.time⟩ := by
    rw [punctual.handed, List.takeWhile_eq_self_iff.mpr all]
  refine ⟨?_, ?_, ?_⟩
  · rw [punctual.arrivals, List.dropWhile_eq_nil_iff]
    exact all
  · rw [punctual.admissions, Log.requests, handed, List.filterMap_map, List.map_filterMap]
    exact perm.filterMap _
  · rw [punctual.deletions, handed, List.filterMap_map]
    exact perm.filterMap _

/-! ## Scripted runs -/

/-- On every valid configuration, and whatever is drawn: the frames of a script are all queued,
each at a time in the DTI of its interval.  A run of more intervals than the script names, if it
ends, leaves none of them waiting, and tells one answer to each.  A request is decided on at the
end of its interval, and a deletion answered at the time of its arrival. -/
theorem follow_keeps_intervals (inRange : random.InRange) {config : Config} {scenario : Scenario}
    (valid : config.validate = .ok (.ok ())) (counted : config.beacon.interval < 2 ^ 32)
    (indexed : ∀ r ∈ scenario.requests, r.Below (2 ^ 32)) (observers : List Observer) :
    ∃ fresh, (drive config (observers.map .register)).value = .ok fresh ∧
      ∀ seed, ∃ t placed, (fresh.follow random scenario seed).value = .ok t ∧
        List.Forall₂ t.Places scenario.plan placed ∧ t.arrivals.Perm placed ∧
        ∀ count ran next, (∀ r ∈ scenario.requests, r.Below count) →
          (t.run (some count) none).value = .ok (ran, next) →
          next.arrivals = [] ∧ ∃ logs,
            (t.diary (List.replicate ran .runInterval)).value = .ok (logs, next) ∧
            Tells t logs.flatten next ∧
            ((Log.admissions logs.flatten).map fun told =>
              (told.1, told.2.key, told.2.spec, told.2.decided)).Perm
              (scenario.requests.map fun r =>
                ((r.submitIn + 1) * config.beacon.interval, r.spec.key r.source, r.spec,
                  (r.submitIn + 1) * config.beacon.interval)) ∧
            ((Log.deletions logs.flatten).map fun told => (told.1, told.2.key, told.2.time)).Perm
              (placed.filterMap fun a => Handover.deletion? ⟨a, a.time⟩) := by
  obtain ⟨scheduler, _, _, started, _⟩ := Scheduler.start_registers valid counted
  obtain ⟨fresh, drove, empty, origin, beacon⟩ : ∃ fresh,
      (drive config (observers.map .register)).value = .ok fresh ∧ fresh.arrivals = [] ∧
        fresh.intervals = 0 ∧ fresh.beacon = config.beacon :=
    ⟨_, drive_registrations_iff.mpr ⟨scheduler, started, rfl⟩, rfl, rfl, rfl⟩
  obtain ⟨⟨header, regular⟩, _⟩ := drive_between drove
  rw [← beacon] at regular counted ⊢
  refine ⟨fresh, drove, fun seed => ?_⟩
  obtain ⟨placed, places, submitted⟩ :=
    submitAll_places (t := fresh) inRange regular counted (random.ofSeed seed) indexed
  have perm : (fresh.submitEach placed).arrivals.Perm placed := by
    have all := fresh.submitEach_perm placed
    rwa [empty, List.nil_append] at all
  refine ⟨fresh.submitEach placed, placed, (value_follow ..).trans submitted, places, perm, ?_⟩
  intro count ran next below ranTo
  obtain ⟨acted, rfl⟩ := run_eq_ok_iff.mp ranTo
  obtain ⟨logs, watched⟩ := diary_of_actAll acted
  have whole : (drive config (observers.map .register ++
      placed.map Arrival.submission)).value = .ok (fresh.submitEach placed) := by
    rw [drive_append, Noted.value_bind, drove, ok_bind, actAll_submissions]
  obtain ⟨_, between⟩ := drive_between whole
  obtain ⟨pending, arrivals, selects⟩ := between.pending
  have clock : (fresh.submitEach placed).now = 0 := by
    rw [between.clock]
    exact (congrArg (· * _) origin).trans (Nat.zero_mul _)
  have punctual := diary_punctual between.idle regular
    (between.clock.trans (by rw [between.configured])) (arrivals ▸ selects.sorted)
    (fun a _ => clock ▸ Nat.zero_le a.time) watched
  have named := index_lt_of_below indexed
  have early : ∀ a ∈ placed,
      a.time < (fresh.intervals + rounds (some count) none) * fresh.beacon.interval := by
    intro a member
    have reached : count ≤ fresh.intervals + rounds (some count) none :=
      Nat.le_trans (Nat.le_max_left count 1) (Nat.le_add_left _ _)
    exact Nat.lt_of_lt_of_le
      (time_lt_of_places regular counted named (index_lt_of_below below) places a member)
      (Nat.mul_le_mul_right _ reached)
  obtain ⟨left, decided, answered⟩ := punctual.complete perm early
  refine ⟨left, logs, watched, diary_tells ?_ watched, ?_, answered⟩
  · intro action member
    rw [List.eq_of_mem_replicate member]
    rfl
  · rw [← plan_decisions, ← decisions_of_places regular counted named places]
    exact decided

/-- A station asks for a block in the first interval, and gives it up in the second. -/
def oneStation : Scenario where
  seed := some 7
  requests := [⟨7, ⟨3, .servicePeriod, true, 4, .asynchronous, 2000, 2000, 0, false⟩, 0, some 1⟩]

theorem oneStation_keeps_intervals :
    ∃ fresh t next logs,
      (drive { scenario := some oneStation } [.register .everything]).value = .ok fresh ∧
      (fresh.follow Simulator.sampler oneStation 7).value = .ok t ∧
      t.arrivals.map (·.time) = [4074, 134538] ∧
      (t.run (some 2) none).value = .ok (2, next) ∧ next.arrivals = [] ∧
      (t.diary [.runInterval, .runInterval]).value = .ok (logs, next) ∧
      Tells t logs.flatten next ∧
      ((Log.admissions logs.flatten).map fun told =>
        (told.1, told.2.key, told.2.spec.id, told.2.decided)).Perm
        [(102400, ⟨3, 7, 4⟩, 3, 102400)] ∧
      ((Log.deletions logs.flatten).map fun told => (told.1, told.2.key, told.2.time)).Perm
        [(134538, ⟨3, 7, 4⟩, 134538)] := by
  obtain ⟨⟨fresh, t, ran, next⟩, computed, times⟩ := Scheduler.exists_ok
    (x := (do
      let fresh ← drive { scenario := some oneStation } [.register .everything]
      let t ← fresh.follow Simulator.sampler oneStation 7
      return (fresh, t, ← t.run (some 2) none) : Noted _).value)
    (f := fun (_, t, ran, _) => (t.arrivals.map (·.time),
      t.arrivals.filterMap fun a => Handover.deletion? ⟨a, a.time⟩, ran))
    (b := ([4074, 134538], [(134538, ⟨3, 7, 4⟩, 134538)], 2)) (by decide +kernel)
  obtain ⟨arrivals, rest⟩ := Prod.mk.inj times
  obtain ⟨deletions, rfl⟩ := Prod.mk.inj rest
  simp only [Noted.value_bind, Noted.value_pure, bind_eq_ok_iff, Except.ok.injEq,
    Prod.mk.injEq] at computed
  obtain ⟨_, drove, _, followed, _, ranTo, rfl, rfl, rfl⟩ := computed
  obtain ⟨_, drove', each⟩ := @follow_keeps_intervals Simulator.sampler Simulator.sampler_inRange
    { scenario := some oneStation } oneStation (by decide +kernel) (by decide) (by decide) [.everything]
  obtain rfl := Except.ok.inj (drove.symm.trans drove')
  obtain ⟨_, placed, followed', _, perm, runs⟩ := each 7
  obtain rfl := Except.ok.inj (followed.symm.trans followed')
  obtain ⟨left, logs, watched, tells, decided, answered⟩ := runs 2 2 next (by decide) ranTo
  refine ⟨_, _, next, logs, drove, followed, arrivals, ranTo, left, watched, tells, ?_, ?_⟩
  · have own := decided.map fun (time, key, spec, decided) => (time, key, spec.id, decided)
    rwa [List.map_map] at own
  · rw [← deletions]
    exact answered.trans (perm.symm.filterMap _)

end Timeline
end BeaconScheduler
