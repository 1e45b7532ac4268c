import BeaconScheduler.Proofs.Runs
import BeaconScheduler.Proofs.Shrinking
import BeaconScheduler.Proofs.Validity

/-!
# When an interval can end

Cleaning up, measuring the free time and publishing never fault in an airtime that tiles its
DTI.  The end of an interval is therefore reached, with an answer to each request, exactly if
the sums of the queue fit 32 bits (`endInterval_ends_iff`).  Nothing in a valid configuration
makes them fit: the guard time may be so long that no block can be added to it.  Intervals of
at most half the range of a counter do (`boundary_ends_of_short`).
-/

set_option autoImplicit false

namespace BeaconScheduler

open Counter BeaconScheduler.Interval

namespace FreeSlots

variable {free : FreeSlots} {slots : List Interval}

theorem sum_length_le {first last : Nat} (canonical : Canonical slots) (room : first ≤ last)
    (after : ∀ slot ∈ slots, first ≤ slot.start) (inside : ∀ slot ∈ slots, slot.stop ≤ last) :
    first + (slots.map Interval.length).sum ≤ last := by
  induction slots generalizing first with
  | nil => simpa using room
  | cons slot rest ih =>
      obtain ⟨own, behind, canonicalRest⟩ := canonical_cons.mp canonical
      obtain ⟨start, _⟩ := List.forall_mem_cons.mp after
      obtain ⟨stop, insideRest⟩ := List.forall_mem_cons.mp inside
      have others := ih canonicalRest stop
        (fun other member => Nat.le_of_lt (behind other member)) insideRest
      rw [List.map_cons, List.sum_cons, Interval.length]
      omega

theorem WellFormed.freeTime_le (wellFormed : free.WellFormed) : free.freeTime ≤ free.dti := by
  have bound := sum_length_le wellFormed.canonical (Nat.zero_le free.dti)
    (fun _ _ => Nat.zero_le _) wellFormed.inside
  rwa [Nat.zero_add] at bound

theorem foldlM_length_of_fits {initial : Nat}
    (fits : initial + (slots.map Interval.length).sum < 2 ^ 32) :
    Ends (slots.foldlM (fun sum slot => add32 sum slot.length) initial) := by
  induction slots generalizing initial with
  | nil => exact ends_pure initial
  | cons slot rest ih =>
      rw [List.map_cons, List.sum_cons] at fits
      rw [List.foldlM_cons, ends_add_bind_iff]
      exact ⟨by omega, ih (by omega)⟩

theorem totalFree_ends (wellFormed : free.WellFormed) (small : free.dti < 2 ^ 32) :
    Ends free.totalFree := by
  have := wellFormed.freeTime_le
  unfold freeTime at this
  exact foldlM_length_of_fits (by omega)

end FreeSlots

namespace Scheduler

variable {s next : Scheduler} {now : Time}

/-! ## Upkeep -/

theorem giveBackAll_ends {dti : Nat} {owed kept : Registry} (now : Time) (terms : Terms)
    (air : Airtime) (tiling : Tiling terms.guard dti air.slots (owed ++ kept)) :
    Ends (giveBackAll now terms air owed).value := by
  induction owed generalizing air with
  | nil => exact ends_ok air
  | cons a rest ih =>
      obtain ⟨slots, returned, tilingRest⟩ := tiling.giveBack terms air
      rw [giveBackAll, Noted.value_bind, returned, ok_bind]
      exact ih _ (by exact tilingRest)

theorem cleanUp_ends (now : Time) (tiled : s.Tiled) : Ends (s.cleanUp now).value := by
  cases purged : s.air.registry.purge with
  | mk dropped kept =>
      have tiling := Tiling.perm tiled (Registry.purge_perm purged)
      obtain ⟨air, given⟩ := giveBackAll_ends now s.terms { s.air with registry := kept }
        (by exact tiling)
      simp only [cleanUp, purged, Noted.value_bind, value_noteEach, given, ok_bind]
      split_ifs <;> exact ends_ok _

theorem refresh_ends (tiled : s.Tiled) (small : s.timing.dti < 2 ^ 32) : Ends s.refresh.value := by
  have measured : Ends s.measure := by
    unfold measure
    by_cases empty : s.air.registry.isEmpty = true
    · rw [if_pos empty]
      exact ends_ok _
    · rw [if_neg empty, ends_bind_iff]
      obtain ⟨total, sum⟩ := FreeSlots.totalFree_ends tiled.wellFormed (tiled.length ▸ small)
      exact ⟨total, sum, ends_pure _⟩
  obtain ⟨measured, measures⟩ := measured
  simp only [refresh, Noted.value_bind, Noted.value_lift, measures, ok_bind, value_publish]
  exact ends_ok _

theorem noteInconsistency_ends (tiled : s.Tiled) : s.noteInconsistency.value = .ok () := by
  have occupied := Registry.occupied_eq_ok_iff.mpr ⟨rfl, tiled.fits⟩
  simp only [noteInconsistency, Noted.value_bind, Noted.value_lift, occupied, ok_bind]
  split <;> rfl

/-! ## The queue -/

/-- The sums of each request fit in the airtime that the requests before it leave. -/
def QueueFits (policy : Policy) (terms : Terms) (now : Time) (air : Airtime) :
    List AdmissionRequest → Prop
  | [] => True
  | request :: rest =>
      policy.DecisionFits terms request air ∧
        ∀ outcome after, (policy.decide terms now request air).value = .ok (outcome, after) →
          QueueFits policy terms now after rest

variable {policy : Policy} {terms : Terms} {air after : Airtime} {queue : List AdmissionRequest}
  {responses : List AdmissionResponse} {dti : Nat}

theorem decideAll_ends_iff (tiled : air.Tiled terms.guard dti) (small : dti < 2 ^ 32) :
    Ends (decideAll policy terms now air queue).value ↔ QueueFits policy terms now air queue := by
  induction queue generalizing air with
  | nil => exact ⟨fun _ => trivial, fun _ => ends_ok _⟩
  | cons request rest ih =>
      rw [QueueFits, ← Policy.decide_ends_iff now tiled small]
      constructor
      · rintro ⟨⟨responses, last⟩, decided⟩
        obtain ⟨outcome, middle, others, own, decidedRest, _⟩ :=
          decideAll_cons_eq_ok_iff.mp decided
        refine ⟨⟨_, own⟩, fun outcome' after same => ?_⟩
        obtain ⟨rfl, rfl⟩ := Prod.mk.inj (Except.ok.inj (own.symm.trans same))
        exact (ih (tiled.decide own)).mp ⟨_, decidedRest⟩
      · rintro ⟨⟨⟨outcome, middle⟩, own⟩, fits⟩
        obtain ⟨⟨others, last⟩, decidedRest⟩ :=
          (ih (tiled.decide own)).mpr (fits outcome middle own)
        exact ⟨_, decideAll_cons_eq_ok_iff.mpr ⟨_, _, _, own, decidedRest, rfl⟩⟩

theorem decideAll_answers
    (decided : (decideAll policy terms now air queue).value = .ok (responses, after)) :
    responses.map (fun r => (r.key, r.spec, r.decided)) =
      queue.map fun request => (request.key, request.spec, now) := by
  induction queue generalizing air responses with
  | nil =>
      obtain ⟨rfl, _⟩ := Prod.mk.inj (Except.ok.inj decided)
      rfl
  | cons request rest ih =>
      obtain ⟨_, _, others, _, decidedRest, rfl⟩ := decideAll_cons_eq_ok_iff.mp decided
      rw [List.map_cons, List.map_cons, ih decidedRest]

/-! ## The end of an interval -/

theorem endInterval_ends_iff (tiled : s.Tiled) (small : s.timing.dti < 2 ^ 32) {cleaned : Scheduler}
    (cleans : (s.cleanUp now).value = .ok cleaned) :
    Ends (s.endInterval now).value ↔ QueueFits s.policy s.terms now cleaned.air s.queue := by
  obtain ⟨air, rfl, _, tiledCleaned⟩ := cleanUp_eq_ok tiled cleans
  have fits : Ends (decideAll s.policy s.terms now air s.queue).value ↔
      QueueFits s.policy s.terms now air s.queue := decideAll_ends_iff tiledCleaned small
  rw [← fits]
  simp only [endInterval, Noted.value_bind, Noted.value_noteAt, cleans, ok_bind, ends_bind_iff]
  constructor
  · rintro ⟨decided, answered, _⟩
    exact ⟨decided, answered⟩
  · rintro ⟨⟨responses, last⟩, decided⟩
    have tiledLast : last.Tiled s.limits.guard s.timing.dti := decideAll_tiled tiledCleaned decided
    obtain ⟨published, refreshed⟩ := refresh_ends
      (s := { s with air := last, queue := [], responses := s.responses ++ responses })
      tiledLast small
    have shape := refresh_eq_ok s.limits.guard tiledLast refreshed
    refine ⟨(responses, last), decided, published, refreshed, (), ?_, ends_ok _⟩
    refine noteInconsistency_ends ?_
    rw [shape]
    exact tiledLast.announced

/-! ## Intervals of bounded length -/

end Scheduler

theorem Config.guard_lt_dti {config : Config} {header : Nat} (valid : config.require = .ok ())
    (counted : config.beacon.header = .ok header) :
    config.limits.guard < config.beacon.interval - header := by
  obtain ⟨fits, valid⟩ := validate_eq_ok_iff.mp (require_eq_ok_iff.mp valid)
  obtain rfl := Except.ok.inj ((Beacon.header_of_fits fits).symm.trans counted)
  exact valid.guard

namespace Scheduler

variable {config : Config} {commands : List Command} {s next : Scheduler} {bound : Nat}

structure Within (bound : Nat) (s : Scheduler) : Prop where
  interval : s.timing.interval < bound
  dti : s.timing.dti ≤ s.timing.interval

def Command.StartsWithin (bound : Nat) : Command → Prop
  | .startInterval _ _ interval _ _ => interval < bound
  | _ => True

theorem start_within (started : (start config).value = .ok s)
    (short : config.beacon.interval < bound) : s.Within bound := by
  obtain ⟨_, _, _, _, interval, ⟨header, _, dti⟩, _⟩ := start_eq_ok started
  refine ⟨interval ▸ short, ?_⟩
  rw [dti, interval]
  exact Nat.sub_le _ _

theorem perform_within {command : Command} (tiled : s.Tiled) (within : s.Within bound)
    (short : command.StartsWithin bound) (performed : (s.perform command).value = .ok next) :
    next.Within bound := by
  rcases perform_cases tiled performed with
    ⟨now, coordinator, interval, header, announcement, wakeup, rfl, started⟩ |
    ⟨now, change, result, rfl, handled⟩ | ⟨timing, _⟩
  · rcases startInterval_eq_ok tiled started with ⟨_, rfl⟩ | ⟨_, _, _, rfl⟩
    · exact ⟨short, Nat.sub_le _ _⟩
    · exact ⟨short, Nat.sub_le _ _⟩
  · rcases handle_cases handled with
      ⟨rfl, _⟩ | ⟨_, _, timing, _, _, _, dti, interval, rfl⟩ | ⟨_, _, ends, rfl⟩
    · exact within
    · exact ⟨interval ▸ within.interval, dti ▸ interval ▸ within.dti⟩
    · obtain ⟨_, _, _, _, _, _, _, _, rfl⟩ := endInterval_eq_ok tiled ends
      exact ⟨within.interval, within.dti⟩
  · exact ⟨timing ▸ within.interval, timing ▸ within.dti⟩

theorem run_within (short : config.beacon.interval < bound)
    (shortCommands : ∀ command ∈ commands, command.StartsWithin bound)
    (ran : (run config commands).value = .ok s) : s.Within bound :=
  run_induction (fun _ started => start_within started short)
    (fun _ _ _ tiled within starts performed => perform_within tiled within starts performed)
    shortCommands ran

/-! ## Queues -/

/-- For every run: the queue is answered at the end of the interval, one answer after the
other, exactly if the sums of each request fit in the airtime that those before it leave. -/
theorem boundary_ends_iff (ran : (run config commands).value = .ok s)
    (counted : config.beacon.interval < 2 ^ 32)
    (countedCommands : ∀ command ∈ commands, command.StartsWithin (2 ^ 32)) (now : Time) :
    ∃ cleaned, (s.cleanUp now).value = .ok cleaned ∧
      ((∃ next responses, (s.endInterval now).value = .ok next ∧
          next.responses = s.responses ++ responses ∧
          responses.map (fun r => (r.key, r.spec, r.decided)) =
            s.queue.map fun request => (request.key, request.spec, now)) ↔
        QueueFits s.policy s.terms now cleaned.air s.queue) := by
  obtain ⟨tiled, _⟩ := run_tiled ran
  have within := run_within counted countedCommands ran
  have small := Nat.lt_of_le_of_lt within.dti within.interval
  obtain ⟨cleaned, cleans⟩ := cleanUp_ends now tiled
  refine ⟨cleaned, cleans, ?_⟩
  rw [← endInterval_ends_iff tiled small cleans]
  constructor
  · rintro ⟨next, _, ended, _⟩
    exact ⟨next, ended⟩
  · rintro ⟨next, ended⟩
    obtain ⟨_, _, responses, _, _, _, decided, _, rfl⟩ := endInterval_eq_ok tiled ended
    exact ⟨_, responses, ended, rfl, decideAll_answers decided⟩

/-- A temporary and a static block, granted in the first interval; the second one is about to
end, with a request to shorten the static block and a new one. -/
def busyRun : Noted Scheduler :=
  run {} [.startInterval 0 0 102400 1000 0,
    .request 10 7 ⟨3, .servicePeriod, false, 4, .asynchronous, 2000, 2000, 4, false⟩,
    .request 20 7 ⟨5, .servicePeriod, true, 4, .asynchronous, 2000, 2000, 0, false⟩,
    .handle 1000 .dataTransferStart,
    .handle 102400 .intervalEnd,
    .takeResponses,
    .startInterval 102400 0 102400 1000 0,
    .request 102500 7 ⟨5, .servicePeriod, true, 4, .asynchronous, 1500, 1500, 0, false⟩,
    .request 102600 8 ⟨3, .servicePeriod, false, 4, .asynchronous, 3000, 3000, 2, false⟩,
    .handle 103400 .dataTransferStart]

theorem busyRun_queueFits :
    ∃ s cleaned, busyRun.value = .ok s ∧ (s.cleanUp 204800).value = .ok cleaned ∧
      s.queue.length = 2 ∧ QueueFits s.policy s.terms 204800 cleaned.air s.queue := by
  obtain ⟨⟨s, next⟩, ran, computed⟩ := exists_ok
    (x := (do let s ← busyRun; return (s, ← s.endInterval 204800) : Noted _).value)
    (f := fun (s, next) => (s.queue.length, s.responses, Decidable.decide
      (next.responses.map (fun r => (r.key, r.spec, r.decided)) =
        s.queue.map fun request => (request.key, request.spec, 204800))))
    (b := (2, [], true)) (by decide +kernel)
  simp only [Noted.value_bind, Noted.value_pure, bind_eq_ok_iff, Except.ok.injEq,
    Prod.mk.injEq, decide_eq_true_eq] at ran computed
  obtain ⟨_, busy, _, ended, rfl, rfl⟩ := ran
  obtain ⟨queued, none, answered⟩ := computed
  obtain ⟨cleaned, cleans, fits⟩ :=
    boundary_ends_iff busy (by decide) (by simp [Command.StartsWithin]) 204800
  exact ⟨_, cleaned, busy, cleans, queued,
    fits.mp ⟨_, _, ended, by rw [none, List.nil_append], answered⟩⟩

/-- An interval as long as a counter can say, in which the guard time of the configuration
leaves room for one beacon and little else. -/
def longGuardRun : Noted Scheduler :=
  run { policy := .basic
        beacon := { interval := 4294967295 }
        limits := { guard := 4294960000, minBroadcastCbap := 4096, maxBlocks := 255 } }
    [.startInterval 0 0 4294967295 1000 0,
      .request 10 7 ⟨3, .servicePeriod, true, 4, .asynchronous, 10000, 10000, 0, false⟩,
      .handle 1000 .dataTransferStart]

/-- An interval of the same length with one static block, and the usual limits. -/
def longSpacingRun : Noted Scheduler :=
  run { beacon := { interval := 4294967295 }
        statics := [⟨⟨9, 0, 255⟩, .servicePeriod, 0, 1000, 1⟩] }
    [.startInterval 0 0 4294967295 1000 0,
      .request 10 7 ⟨3, .servicePeriod, true, 4, .asynchronous, 10000, 10000, 1, false⟩,
      .handle 1000 .dataTransferStart]

def fault? {α : Type} : Except Fault α → Option Fault
  | .ok _ => none
  | .error fault => some fault

theorem eq_error_of_fault? {α : Type} {x : Except Fault α} {fault : Fault}
    (faulted : fault? x = some fault) : x = .error fault := by
  cases x with
  | error other => rw [Option.some.inj faulted]
  | ok a => cases faulted

theorem boundary_overflows :
    (∃ s, longGuardRun.value = .ok s ∧
      (s.endInterval 4294967295).value = .error .addOverflow) ∧
    ∃ s, longSpacingRun.value = .ok s ∧
      (s.endInterval 4294967295).value = .error .addOverflow := by
  constructor
  · obtain ⟨s, ran, ended⟩ := exists_ok (x := longGuardRun.value)
      (f := fun s => fault? (s.endInterval 4294967295).value)
      (b := some .addOverflow) (by decide +kernel)
    exact ⟨s, ran, eq_error_of_fault? ended⟩
  · obtain ⟨s, ran, ended⟩ := exists_ok (x := longSpacingRun.value)
      (f := fun s => fault? (s.endInterval 4294967295).value)
      (b := some .addOverflow) (by decide +kernel)
    exact ⟨s, ran, eq_error_of_fault? ended⟩

/-! ## Intervals in which every sum fits -/

theorem decisionFits_of_short {policy : Policy} {terms : Terms} {request : AdmissionRequest}
    {air : Airtime} {dti : Nat} (tiled : air.Tiled terms.guard dti) (half : dti ≤ 2 ^ 31)
    (interval : terms.interval ≤ 2 ^ 31) (guard : terms.guard ≤ 2 ^ 31) :
    policy.DecisionFits terms request air := by
  intro valid _ duration desired
  obtain ⟨own, known, positive, bound⟩ := TrafficSpec.desiredDuration_of_valid valid
  obtain rfl := Except.ok.inj (known.symm.trans desired)
  have block : own + terms.guard < 2 ^ 32 := by omega
  cases policy with
  | cbapOnly => trivial
  | basic => exact fun _ => block
  | periodic =>
      refine ⟨block, fun _ close _ n u _ candidate => ?_⟩
      have spacing := Nat.div_le_self terms.interval request.spec.period
      have length := tiled.length
      exact candidate.sumsFit tiled.wellFormed close (by omega)

theorem queueFits_of_short {policy : Policy} {terms : Terms} {air : Airtime} {dti : Nat}
    {now : Time} {queue : List AdmissionRequest} (tiled : air.Tiled terms.guard dti)
    (half : dti ≤ 2 ^ 31) (interval : terms.interval ≤ 2 ^ 31) (guard : terms.guard ≤ 2 ^ 31) :
    QueueFits policy terms now air queue := by
  induction queue generalizing air with
  | nil => trivial
  | cons request rest ih =>
      exact ⟨decisionFits_of_short tiled half interval guard,
        fun _ _ decided => ih (tiled.decide decided)⟩

/-- Where no interval is longer than half the range of a counter, every queue is answered. -/
theorem boundary_ends_of_short (ran : (run config commands).value = .ok s)
    (half : config.beacon.interval < 2 ^ 31 + 1)
    (halfCommands : ∀ command ∈ commands, command.StartsWithin (2 ^ 31 + 1)) (now : Time) :
    Ends (s.endInterval now).value := by
  obtain ⟨tiled, limits, _⟩ := run_tiled ran
  obtain ⟨first, started, _⟩ := run_eq_ok ran
  obtain ⟨valid, _, _, _, _, ⟨header, counted, _⟩, _⟩ := start_eq_ok started
  have guard := Config.guard_lt_dti valid counted
  have within := run_within half halfCommands ran
  have interval := within.interval
  have dti := within.dti
  obtain ⟨cleaned, cleans⟩ := cleanUp_ends now tiled
  obtain ⟨air, rfl, _, tiledCleaned⟩ := cleanUp_eq_ok tiled cleans
  refine (endInterval_ends_iff tiled (by omega) cleans).mpr ?_
  rw [← limits] at guard
  refine queueFits_of_short (by exact tiledCleaned) (by omega) ?_ ?_
  · dsimp only [terms]
    omega
  · dsimp only [terms]
    omega

end Scheduler
end BeaconScheduler
