import BeaconScheduler.Proofs.Intervals

/-!
# What a beacon lists

The schedule that observers are told at a beacon was published at the last boundary.  It lists
the airtime at the beacon exactly if no training period has been granted and no allocation
torn down since then that is not back, except for a broadcast contention period that its own
removal puts back into the schedule (`beacon_lists_iff`).
-/

set_option autoImplicit false

namespace BeaconScheduler

open Counter

instance (entries : Schedule) (air : Airtime) : Decidable (Airtime.Lists entries air) :=
  inferInstanceAs (Decidable (List.Perm _ _))

namespace Timeline

variable {config : Config} {actions : List Action} {t beacon : Timeline} {wakeup : Wakeup}
  {time : Time}

theorem start_sound (started : (Timeline.start config).value = .ok t) :
    t.Sound ∧ ∃ shown, t.scheduler.Shows shown := by
  simp only [Timeline.start, Noted.value_bind, bind_eq_ok_iff, Noted.value_pure,
    Except.ok.injEq] at started
  obtain ⟨scheduler, starts, rfl⟩ := started
  obtain ⟨_, _, _, _, _, dti, _⟩ := Scheduler.start_eq_ok starts
  obtain ⟨shown, shows⟩ := Scheduler.start_shows starts
  exact ⟨⟨shows.scheduler_tiled, dti⟩, shown, shows⟩

/-- The schedule on the air is that of the activation or of the last interval that was run. -/
theorem drive_origin (drove : (drive config actions).value = .ok t) :
    t.Sound ∧ ∃ earlier later origin shown, actions = earlier ++ later ∧
      .runInterval ∉ later ∧ (earlier = [] ∨ ∃ before, earlier = before ++ [.runInterval]) ∧
      (drive config earlier).value = .ok origin ∧ origin.scheduler.Shows shown ∧
      origin.scheduler.Interim t.scheduler := by
  simp only [drive, Noted.value_bind, bind_eq_ok_iff] at drove
  obtain ⟨first, started, acted⟩ := drove
  obtain ⟨sound, shown, shows⟩ := start_sound started
  obtain ⟨soundLast, history⟩ := actAll_origin sound acted
  refine ⟨soundLast, ?_⟩
  rcases history with ⟨none, interim⟩ |
    ⟨before, later, origin, shownLater, rfl, none, made, showsLater, interim⟩
  · refine ⟨[], actions, first, shown, rfl, none, Or.inl rfl, ?_, shows, interim⟩
    simp only [drive, Noted.value_bind, started, ok_bind, actAll, Noted.value_pure]
  · refine ⟨before ++ [.runInterval], later, origin, shownLater, by simp, none,
      Or.inr ⟨before, rfl⟩, ?_, showsLater, interim⟩
    simp only [drive, Noted.value_bind, started, ok_bind, made]

theorem unmarked_announced (air : Airtime) : air.announced.unmarked = air.unmarked := by
  simp only [Airtime.announced, Airtime.unmarked, Registry.markAnnounced, List.map_map]
  rfl

theorem beacon_lists_iff (drove : (drive config actions).value = .ok t)
    (reached : t.reachBeacon.value = .ok (time, wakeup, beacon)) :
    t.runInterval.value =
        (beacon.tell time (.schedule beacon.scheduler.published) >>= leaveBeacon wakeup).value ∧
      ∃ earlier later origin, actions = earlier ++ later ∧ .runInterval ∉ later ∧
        (earlier = [] ∨ ∃ before, earlier = before ++ [.runInterval]) ∧
        (drive config earlier).value = .ok origin ∧
        (Airtime.Lists beacon.scheduler.published beacon.scheduler.air ↔
          (∀ a ∈ beacon.scheduler.air.unmarked.registry,
            a ∈ origin.scheduler.air.unmarked.registry) ∧
          ∀ a ∈ origin.scheduler.air.unmarked.registry,
            a ∈ beacon.scheduler.air.unmarked.registry ∨ a ∈ beacon.scheduler.air.gapFillings) := by
  obtain ⟨sound, earlier, later, origin, shown, split, none, last, made, shows, interim⟩ :=
    drive_origin drove
  obtain ⟨_, interimBeacon, _⟩ := reachBeacon_interim sound reached
  have since := interim.trans interimBeacon
  refine ⟨by rw [runInterval_eq, Noted.value_bind, reached, ok_bind], earlier, later, origin, split,
    none, last, made, ?_⟩
  have tiledShown := shows.tiled
  rw [← since.limits, ← since.dti] at tiledShown
  have succeeds := since.succeeds
  rw [shows.air, Airtime.Succeeds, unmarked_announced] at succeeds
  rw [since.published, shows.published, shows.air, unmarked_announced]
  exact Airtime.schedule_lists_iff tiledShown since.tiled succeeds

def quietDrive : Noted Timeline :=
  drive {}
    [.submit 50000 (.request 7 ⟨3, .servicePeriod, true, 4, .asynchronous, 2000, 2000, 0, false⟩),
      .runInterval, .submit 0 (.deletion ⟨3, 7, 5⟩)]

theorem quietDrive_lists :
    ∃ (t beacon origin : Timeline) (time : Time) (wakeup : Wakeup) (earlier : List Action),
      quietDrive.value = .ok t ∧ t.reachBeacon.value = .ok (time, wakeup, beacon) ∧
      (drive {} earlier).value = .ok origin ∧
      beacon.scheduler.air.registry.map (·.key) = [⟨3, 7, 4⟩] ∧
      Airtime.Lists beacon.scheduler.published beacon.scheduler.air ∧
      ∀ a ∈ beacon.scheduler.air.unmarked.registry,
        a ∈ origin.scheduler.air.unmarked.registry := by
  obtain ⟨⟨t, time, wakeup, beacon⟩, ran, computed⟩ := Scheduler.exists_ok
    (x := (do let t ← quietDrive; return (t, ← t.reachBeacon) : Noted _).value)
    (f := fun (_, _, _, beacon) => (beacon.scheduler.air.registry.map (·.key),
      decide (Airtime.Lists beacon.scheduler.published beacon.scheduler.air)))
    (b := ([⟨3, 7, 4⟩], true)) (by decide +kernel)
  simp only [Noted.value_bind, Noted.value_pure, bind_eq_ok_iff, Except.ok.injEq,
    Prod.mk.injEq, decide_eq_true_iff] at ran computed
  obtain ⟨_, drove, _, reached, rfl, rfl⟩ := ran
  obtain ⟨_, earlier, _, origin, _, _, _, made, iff⟩ := beacon_lists_iff drove reached
  exact ⟨_, _, origin, _, _, earlier, drove, reached, made, computed.1, computed.2,
    (iff.mp computed.2).1⟩

/-- A granted block that is torn down before the next beacon, and a training period that is
granted by then. -/
def staleDrive : Noted Timeline :=
  drive {}
    [.submit 50000 (.request 7 ⟨3, .servicePeriod, true, 4, .asynchronous, 2000, 2000, 0, false⟩),
      .runInterval, .submit 0 (.deletion ⟨3, 7, 4⟩), .train 2 3000 ⟨true, false⟩]

theorem staleDrive_not_lists :
    ∃ t time wakeup beacon, staleDrive.value = .ok t ∧
      t.reachBeacon.value = .ok (time, wakeup, beacon) ∧
      beacon.scheduler.published.map (·.key) = [⟨3, 7, 4⟩, ⟨0, 255, 255⟩] ∧
      beacon.scheduler.air.registry.map (·.key) = [⟨0, 0, 2⟩] ∧
      ¬ Airtime.Lists beacon.scheduler.published beacon.scheduler.air := by
  obtain ⟨⟨t, time, wakeup, beacon⟩, ran, computed⟩ := Scheduler.exists_ok
    (x := (do let t ← staleDrive; return (t, ← t.reachBeacon) : Noted _).value)
    (f := fun (_, _, _, beacon) => (beacon.scheduler.published.map (·.key),
      beacon.scheduler.air.registry.map (·.key),
      decide (Airtime.Lists beacon.scheduler.published beacon.scheduler.air)))
    (b := ([⟨3, 7, 4⟩, ⟨0, 255, 255⟩], [⟨0, 0, 2⟩], false)) (by decide +kernel)
  simp only [Noted.value_bind, Noted.value_pure, bind_eq_ok_iff, Except.ok.injEq,
    Prod.mk.injEq, decide_eq_false_iff_not] at ran computed
  obtain ⟨_, drove, _, reached, rfl, rfl⟩ := ran
  exact ⟨_, _, _, _, drove, reached, computed⟩

end Timeline
end BeaconScheduler
