import BeaconScheduler.Cycle.Scheduler
import BeaconScheduler.Proofs.Partition

/-!
# What the scheduler does between intervals

Cleaning up, deciding on the queue, making the airtime anew for another DTI and
publishing, each as an equation for the scheduler afterwards.  A scheduler whose airtime
tiles the DTI publishes the schedule of just that airtime (`refresh_eq_ok`): the reset of the
free slots for an empty registry never changes them.
-/

set_option autoImplicit false

namespace BeaconScheduler

open Counter BeaconScheduler.Interval

namespace FreeSlots

variable {free : FreeSlots}

def freeTime (free : FreeSlots) : Nat :=
  (free.slots.map Interval.length).sum

theorem foldlM_length_eq_ok {slots : List Interval} {initial total : Nat}
    (sum : slots.foldlM (fun sum slot => add32 sum slot.length) initial = .ok total) :
    total = initial + (slots.map Interval.length).sum := by
  induction slots generalizing initial with
  | nil =>
      obtain rfl := Except.ok.inj sum
      rfl
  | cons slot rest ih =>
      rw [List.foldlM_cons] at sum
      simp only [bind_eq_ok_iff, add_eq_ok_iff] at sum
      obtain ⟨_, ⟨_, rfl⟩, others⟩ := sum
      rw [ih others, List.map_cons, List.sum_cons, Nat.add_assoc]

theorem totalFree_eq_ok {total : Nat} (sum : free.totalFree = .ok total) :
    total = free.freeTime := by
  rw [foldlM_length_eq_ok sum, Nat.zero_add, freeTime]

theorem freeTime_whole (dti : Nat) : (whole dti).freeTime = dti := by
  unfold freeTime whole
  split_ifs with positive
  · simp [Interval.length]
  · simp
    omega

end FreeSlots

namespace Scheduler

variable {s next : Scheduler} {now : Time}

/-! ## Publishing -/

theorem measure_eq_ok {guard : Nat} (tiled : s.air.Tiled guard s.timing.dti)
    (measured : s.measure = .ok next) :
    next = { s with remaining := s.air.slots.freeTime } := by
  unfold measure at measured
  split_ifs at measured with empty
  · obtain rfl := Except.ok.inj measured
    have none : s.air.registry = [] := List.isEmpty_iff.mp empty
    have whole : s.air.slots = .whole s.timing.dti := by
      unfold Airtime.Tiled at tiled
      rw [none] at tiled
      exact tiled.eq_whole
    rw [← whole, ← FreeSlots.freeTime_whole s.timing.dti, ← whole]
  · simp only [bind_eq_ok_iff, pure_eq_ok_iff] at measured
    obtain ⟨total, sum, rfl⟩ := measured
    rw [FreeSlots.totalFree_eq_ok sum]

theorem value_publish (s : Scheduler) :
    s.publish.value = .ok { s with published := s.air.schedule, air := s.air.announced } := by
  simp only [publish, Noted.value_bind, Airtime.value_noteLongSlots, ok_bind, Noted.value_pure]
  rfl

theorem refresh_eq_ok (guard : Nat) (tiled : s.air.Tiled guard s.timing.dti)
    (refreshed : s.refresh.value = .ok next) :
    next = { s with
      published := s.air.schedule
      air := s.air.announced
      remaining := s.air.slots.freeTime } := by
  simp only [refresh, Noted.value_bind, Noted.value_lift, bind_eq_ok_iff,
    value_publish] at refreshed
  obtain ⟨measured, measures, publishes⟩ := refreshed
  rw [measure_eq_ok tiled measures] at publishes
  exact (Except.ok.inj publishes).symm

/-! ## Cleaning up -/

@[simp] theorem value_noteEach (event : Allocation → Journal.Event) (list : List Allocation) :
    (noteEach event list).value = .ok () := by
  induction list with
  | nil => rfl
  | cons a rest ih => simp [noteEach, ih]

@[simp] theorem value_noteDropped (now : Time) (dti : Nat) (list : List Allocation) :
    (noteDropped now dti list).value = .ok () := by
  induction list with
  | nil => rfl
  | cons a rest ih => simp [noteDropped, ih]

theorem giveBackAll_eq_ok {dti : Nat} {air after : Airtime} {owed kept : Registry}
    (terms : Terms) (tiling : Tiling terms.guard dti air.slots (owed ++ kept))
    (given : (giveBackAll now terms air owed).value = .ok after) :
    after.registry = air.registry ∧ Tiling terms.guard dti after.slots kept := by
  induction owed generalizing air with
  | nil =>
      obtain rfl := Except.ok.inj given
      exact ⟨rfl, tiling⟩
  | cons a rest ih =>
      obtain ⟨slots, returned, tilingRest⟩ := tiling.giveBack terms air
      rw [giveBackAll, Noted.value_bind, returned, ok_bind] at given
      dsimp only at given
      obtain ⟨registry, tilingKept⟩ := ih (by exact tilingRest) given
      exact ⟨registry, tilingKept⟩

theorem cleanUp_eq_ok (tiled : s.air.Tiled s.limits.guard s.timing.dti)
    (cleaned : (s.cleanUp now).value = .ok next) :
    ∃ air, next = { s with air } ∧ air.registry = s.air.registry.purge.2 ∧
      air.Tiled s.limits.guard s.timing.dti := by
  cases purged : s.air.registry.purge with
  | mk dropped kept =>
      simp only [cleanUp, purged, Noted.value_bind, value_noteEach, ok_bind,
        bind_eq_ok_iff] at cleaned
      obtain ⟨air, given, cleaned⟩ := cleaned
      have tiling := Tiling.perm tiled (Registry.purge_perm purged)
      obtain ⟨registry, tilingKept⟩ := giveBackAll_eq_ok s.terms (by exact tiling) given
      have last : next = { s with air } := by
        split_ifs at cleaned
        · exact (Except.ok.inj cleaned).symm
        · exact (Except.ok.inj cleaned).symm
      refine ⟨air, last, registry, ?_⟩
      rw [Airtime.Tiled, registry]
      exact tilingKept

/-! ## Another DTI -/

theorem adjust_eq_ok {former dti : Nat} (tiled : s.air.Tiled s.limits.guard former)
    (length : s.timing.dti = dti) (adjusted : (s.adjust now dti).value = .ok next) :
    ∃ air : Airtime, air.Tiled s.limits.guard dti ∧
      next = { s with
        published := air.schedule
        air := air.announced
        remaining := air.slots.freeTime } := by
  simp only [adjust, Noted.value_bind, Noted.value_lift, value_noteDropped, ok_bind,
    bind_eq_ok_iff, Registry.occupied_eq_ok_iff] at adjusted
  obtain ⟨⟨dropped, kept⟩, split, _, ⟨rfl, _⟩, refreshed⟩ := adjusted
  obtain ⟨perm, inside⟩ := Registry.splitBeyond_eq_ok split
  have tiling := (Tiling.perm tiled perm).complement inside
  refine ⟨⟨kept, .complement dti (Registry.extent s.limits.guard kept)⟩, tiling, ?_⟩
  refine refresh_eq_ok s.limits.guard ?_ refreshed
  rw [length]
  exact tiling

/-- The scheduler at the start of an interval, before it has looked at its airtime. -/
def begun (s : Scheduler) (now : Time) (coordinator : Aid) (interval header announcement : Nat) :
    Scheduler :=
  { s with
    coordinator
    phase := .beaconHeader
    timing := ⟨interval, header, announcement, interval - header, now, none, none⟩ }

def firstWakeup (now : Time) (header announcement : Nat) : Except Fault Wakeup :=
  if 0 < announcement then do
    return ⟨← now.after (header - announcement), .announcementStart⟩
  else do
    return ⟨← now.after header, .dataTransferStart⟩

theorem value_startInterval (s : Scheduler) (now : Time) (coordinator : Aid)
    (interval header announcement : Nat) :
    (s.startInterval now coordinator interval header announcement).value =
      (if interval - header = s.air.slots.dti then
        Except.ok (s.begun now coordinator interval header announcement)
      else
        ((s.begun now coordinator interval header announcement).adjust now
          (interval - header)).value) >>= fun current =>
      firstWakeup now header announcement >>= fun wakeup =>
        Except.ok (wakeup, { current with pending := some wakeup }) := by
  unfold startInterval firstWakeup begun
  cases s.pending <;> by_cases long : interval ≤ header <;>
    by_cases same : interval - header = s.air.slots.dti <;>
    by_cases announces : 0 < announcement <;>
    simp only [long, same, announces, if_true, if_false, Noted.value_bind,
      Noted.value_lift, Noted.value_noteAt, Noted.value_pure, ok_bind, bind_assoc] <;>
    rfl

theorem startInterval_eq_ok {coordinator : Aid} {interval header announcement : Nat}
    {wakeup : Wakeup} (tiled : s.air.Tiled s.limits.guard s.timing.dti)
    (started : (s.startInterval now coordinator interval header announcement).value =
      .ok (wakeup, next)) :
    let begun := s.begun now coordinator interval header announcement
    (begun.timing.dti = s.timing.dti ∧ next = { begun with pending := some wakeup }) ∨
      ∃ air : Airtime, begun.timing.dti ≠ s.timing.dti ∧
        air.Tiled s.limits.guard begun.timing.dti ∧
        next = { begun with
          pending := some wakeup
          published := air.schedule
          air := air.announced
          remaining := air.slots.freeTime } := by
  intro begun
  rw [value_startInterval] at started
  simp only [bind_eq_ok_iff, Except.ok.injEq, Prod.mk.injEq] at started
  obtain ⟨current, upkeep, _, _, rfl, rfl⟩ := started
  split_ifs at upkeep with same
  · obtain rfl := Except.ok.inj upkeep
    exact Or.inl ⟨same.trans tiled.length, rfl⟩
  · obtain ⟨air, tiledNow, rfl⟩ := adjust_eq_ok (s := begun) tiled rfl upkeep
    exact Or.inr ⟨air, fun dti => same (dti.trans tiled.length.symm), tiledNow, rfl⟩

/-! ## Decisions -/

variable {policy : Policy} {terms : Terms} {air last : Airtime} {request : AdmissionRequest}
  {queue : List AdmissionRequest} {responses : List AdmissionResponse}

theorem decideAll_cons_eq_ok_iff :
    (decideAll policy terms now air (request :: queue)).value = .ok (responses, last) ↔
      ∃ outcome after others,
        (policy.decide terms now request air).value = .ok (outcome, after) ∧
        (decideAll policy terms now after queue).value = .ok (others, last) ∧
        responses = ⟨request.key, request.spec, outcome, now⟩ :: others := by
  simp only [decideAll, Noted.value_bind, Noted.value_noteAt, Noted.value_pure, bind_eq_ok_iff,
    ok_bind, Except.ok.injEq, Prod.mk.injEq]
  constructor
  · rintro ⟨⟨outcome, after⟩, own, ⟨others, _⟩, rest, rfl, rfl⟩
    exact ⟨outcome, after, others, own, rest, rfl⟩
  · rintro ⟨outcome, after, others, own, rest, rfl⟩
    exact ⟨(outcome, after), own, (others, last), rest, rfl, rfl⟩

theorem decideAll_tiled {dti : Nat} (tiled : air.Tiled terms.guard dti)
    (decided : (decideAll policy terms now air queue).value = .ok (responses, last)) :
    last.Tiled terms.guard dti := by
  induction queue generalizing air responses with
  | nil =>
      obtain ⟨_, rfl⟩ := Prod.mk.inj (Except.ok.inj decided)
      exact tiled
  | cons request rest ih =>
      obtain ⟨outcome, after, others, own, decidedRest, _⟩ := decideAll_cons_eq_ok_iff.mp decided
      exact ih (tiled.decide own) decidedRest

/-- What an interval ends with: the queue is decided on in the airtime that is left once
the expired allocations are gone, and the schedule of the airtime after that is published. -/
theorem endInterval_eq_ok (tiled : s.air.Tiled s.limits.guard s.timing.dti)
    (ended : (s.endInterval now).value = .ok next) :
    ∃ (cleaned air : Airtime) (responses : List AdmissionResponse) (statistics : Statistics),
      cleaned.registry = s.air.registry.purge.2 ∧
      cleaned.Tiled s.limits.guard s.timing.dti ∧
      (decideAll s.policy s.terms now cleaned s.queue).value = .ok (responses, air) ∧
      air.Tiled s.limits.guard s.timing.dti ∧
      next = { s with
        phase := .beaconHeader
        queue := []
        responses := s.responses ++ responses
        published := air.schedule
        air := air.announced
        remaining := air.slots.freeTime
        statistics } := by
  simp only [endInterval, Noted.value_bind, Noted.value_noteAt, ok_bind, bind_eq_ok_iff] at ended
  obtain ⟨_, cleans, ⟨responses, air⟩, decided, _, refreshed, _, _, last⟩ := ended
  obtain ⟨cleaned, rfl, registry, tiledCleaned⟩ := cleanUp_eq_ok tiled cleans
  have tiledAfter : air.Tiled s.limits.guard s.timing.dti := decideAll_tiled tiledCleaned decided
  obtain rfl := refresh_eq_ok s.limits.guard tiledAfter refreshed
  exact ⟨cleaned, air, responses, _, registry, tiledCleaned, decided, tiledAfter,
    (Except.ok.inj last).symm⟩

/-! ## Start -/

theorem placeStatics_tiled {terms : Terms} {dti : Nat} {air after : Airtime}
    {statics : List Config.Static} (tiled : air.Tiled terms.guard dti)
    (placed : (placeStatics terms air statics).value = .ok after) :
    after.Tiled terms.guard dti := by
  induction statics generalizing air with
  | nil =>
      obtain rfl := Except.ok.inj placed
      exact tiled
  | cons a rest ih =>
      simp only [placeStatics, Noted.value_bind, bind_eq_ok_iff] at placed
      obtain ⟨⟨result, middle⟩, reserved, placed⟩ := placed
      have tiledMiddle : middle.Tiled terms.guard dti := tiled.reserve terms reserved
      cases result with
      | ok _ => exact ih tiledMiddle placed
      | error e => exact ih tiledMiddle placed

theorem start_eq_ok {config : Config} (started : (Scheduler.start config).value = .ok s) :
    config.require = .ok () ∧ s.limits = config.limits ∧ s.policy = config.policy ∧
      s.responses = [] ∧ s.timing.interval = config.beacon.interval ∧
      (∃ header, config.beacon.header = .ok header ∧
        s.timing.dti = config.beacon.interval - header) ∧
      ∃ air : Airtime, air.Tiled s.limits.guard s.timing.dti ∧ s.air = air.announced ∧
        s.published = air.schedule ∧ s.remaining = air.slots.freeTime := by
  simp only [Scheduler.start, Noted.value_bind, Noted.value_lift, Noted.value_note, ok_bind,
    bind_eq_ok_iff, Noted.value_pure] at started
  obtain ⟨_, valid, header, fits, air, placed, _, refreshed, last⟩ := started
  have tiled : air.Tiled config.limits.guard (config.beacon.interval - header) := by
    refine placeStatics_tiled ?_ placed
    exact Tiling.whole _ _
  have first := refresh_eq_ok config.limits.guard tiled refreshed
  obtain rfl := Except.ok.inj last
  subst first
  exact ⟨valid, rfl, rfl, rfl, rfl, ⟨header, fits, rfl⟩, air, tiled, rfl, rfl, rfl⟩

end Scheduler
end BeaconScheduler
