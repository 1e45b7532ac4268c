import BeaconScheduler.Proofs.Consistency
import BeaconScheduler.Proofs.Contention
import BeaconScheduler.Proofs.History
import BeaconScheduler.Proofs.Responses
import BeaconScheduler.Proofs.Statics
import BeaconScheduler.Proofs.Uniqueness
import BeaconScheduler.Proofs.WholeDti

/-!
# Durations that fit their field

The frame field that announces an allocation has a longest block duration for each kind.
Admission and static configuration observe it, and shorter blocks keep to it.  The coordinator's
own reservations do not look at it: a training period has any duration it is asked for, and the
blocks that a whole DTI is divided into are as long as the division makes them.  A history
therefore keeps to the field exactly if no such reservation goes beyond it
(`history_announceable_iff`).
-/

set_option autoImplicit false

namespace BeaconScheduler

open Counter

/-! ## Allocations -/

namespace Allocation

variable {a b : Allocation}

/-- The duration of a block fits the field that announces it. -/
def Announceable (a : Allocation) : Prop :=
  a.blockDuration ≤ a.kind.maxBlockDuration

instance (a : Allocation) : Decidable a.Announceable :=
  inferInstanceAs (Decidable (_ ≤ _))

theorem Continues.kind (continues : a.Continues b) : b.kind = a.kind := by
  have same := congrArg Allocation.kind continues.same
  exact same

theorem Announceable.continued (fits : a.Announceable) (continues : a.Continues b) :
    b.Announceable := by
  rw [Announceable, continues.kind]
  exact Nat.le_trans continues.shorter fits

end Allocation

theorem Config.Static.Sound.announceable {guard dti : Nat} {a : Config.Static}
    (sound : a.Sound guard dti) : a.allocation.Announceable :=
  sound.ceiling

theorem Policy.decide_announceable {policy : Policy} {terms : Terms} {now : Time}
    {request : AdmissionRequest} {air after : Airtime} {outcome : Outcome}
    (decided : (policy.decide terms now request air).value = .ok (outcome, after)) :
    ∀ b ∈ after.registry, (∃ a ∈ air.registry, a.Continues b) ∨ b.Announceable := by
  intro b member
  rcases decide_origin decided b member with old | ⟨rfl, absent, _, adds⟩
  · exact .inl old
  obtain ⟨valid, _⟩ := valid_of_accepted decided rfl
  have granted := grant_of_granted decided absent
  obtain ⟨_, duration, _, _, desired, rfl⟩ := grant_requested granted adds.registered
  obtain ⟨_, atMost, ceiling⟩ := TrafficSpec.desiredDuration_bounds valid desired
  exact .inr (Nat.le_trans atMost ceiling)

/-! ## One command -/

namespace Scheduler

variable {s next last : Scheduler} {command : Command} {answer : Answer} {commands : List Command}
  {moments past : List Moment} {config : Config}

def Command.operates : Command → Bool
  | .reserve _ | .reserveBlock .. | .reserveBlocks .. | .reserveCbap .. | .reserveTraining .. =>
      false
  | _ => true

def Announceable (s : Scheduler) : Prop :=
  ∀ a ∈ s.air.registry, a.Announceable

/-- What the coordinator reserves by a command, wherever there is room. -/
def Makes (s : Scheduler) : Command → Allocation → Prop
  | .train peer duration beamforming, a =>
      ∃ start, a = Airtime.training s.coordinator peer start duration beamforming
  | .reserveWholeDti key, a => a = Airtime.wholeDti s.terms key s.air.slots.dti
  | _, _ => False

/-- The command makes a service period of longer blocks than can be announced, and has room. -/
def Oversteps (s : Scheduler) : Command → Prop
  | .train _ duration _ => Allocation.Kind.servicePeriod.maxBlockDuration < duration ∧
      ∃ slot ∈ s.air.slots.slots,
        duration + Allocation.beamformingProtection + s.limits.guard < slot.length
  | .reserveWholeDti _ =>
      Allocation.Kind.servicePeriod.maxBlockDuration < s.terms.share s.air.slots.dti ∧
      ∀ t, t + s.terms.remainder s.air.slots.dti < s.air.slots.dti → s.air.slots.Free t
  | _ => False

theorem endInterval_announceable {now : Time} (ended : (s.endInterval now).value = .ok next) :
    ∀ b ∈ next.air.registry, (∃ a ∈ s.air.registry, a.Continues b) ∨ b.Announceable := by
  obtain ⟨cleaned, air, _, kept, decided, published⟩ := endInterval_registry ended
  intro b member
  rw [published] at member
  obtain ⟨c, registered, rfl⟩ := List.mem_map.mp member
  have marked := Allocation.Continues.marked c
  have origin : (∃ a ∈ cleaned.registry, a.Continues c) ∨ ∃ _ ∈ s.queue, c.Announceable :=
    decideAll_origin Policy.decide_announceable (fun fits => fits.continued) decided c registered
  rcases origin with ⟨a, earlier, continues⟩ | ⟨_, _, fits⟩
  · rw [kept] at earlier
    exact .inl ⟨a, (Registry.purge_sublist _).subset earlier, continues.trans marked⟩
  · exact .inr (fits.continued marked)

theorem perform_announceable (waits : command.lends = false)
    (performed : (s.perform command).value = .ok next) :
    ∀ b ∈ next.air.registry, (∃ a ∈ s.air.registry, a.Continues b) ∨ b.Announceable := by
  intro b member
  cases command with
  | startInterval now coordinator interval header announcement =>
      obtain ⟨_, started⟩ := snd_eq_ok performed
      rcases startInterval_registry started with same | renewed
      · exact .inl ⟨b, same ▸ member, .refl b⟩
      · rw [renewed] at member
        obtain ⟨a, kept, rfl⟩ := List.mem_map.mp member
        exact .inl ⟨a, (List.mem_filter.mp kept).1, .marked a⟩
  | handle now change =>
      obtain ⟨_, handled⟩ := snd_eq_ok performed
      rcases handle_cases handled with
        ⟨rfl, _⟩ | ⟨_, _, _, _, _, _, _, _, rfl⟩ | ⟨_, ended, ends, rfl⟩
      · exact .inl ⟨b, member, .refl b⟩
      · exact .inl ⟨b, member, .refl b⟩
      · exact endInterval_announceable ends b member
  | request now source spec =>
      obtain rfl := Except.ok.inj performed
      exact .inl ⟨b, member, .refl b⟩
  | delete now key =>
      obtain ⟨_, deleted⟩ := snd_eq_ok performed
      rcases delete_registry deleted with ⟨_, _, rfl⟩ | ⟨_, _, erased⟩
      · exact .inl ⟨b, member, .refl b⟩
      · rw [erased] at member
        exact .inl ⟨b, List.mem_of_mem_eraseP member, .refl b⟩
  | takeResponses =>
      obtain rfl := Except.ok.inj performed
      exact .inl ⟨b, member, .refl b⟩
  | train peer duration beamforming => cases waits
  | reserve a => cases waits
  | reserveBlock key kind isStatic start duration => cases waits
  | reserveBlocks key kind isStatic start duration blocks => cases waits
  | reserveCbap isStatic start duration => cases waits
  | reserveWholeDti key => cases waits
  | reserveTraining source dest duration beamforming => cases waits

theorem perform_makes (tiled : s.Tiled) (operates : command.operates = true)
    (lends : command.lends = true) (performed : (s.perform command).value = .ok next) :
    (next.air = s.air ∧ ¬ s.Oversteps command) ∨
      ∃ a, s.Makes command a ∧ next.air.registry = s.air.registry ++ [a] ∧
        (¬ a.Announceable ↔ s.Oversteps command) := by
  cases command with
  | train peer duration beamforming =>
      obtain ⟨_, trained⟩ := snd_eq_ok performed
      obtain ⟨_, air, reserved, rfl⟩ := train_reserves trained
      rcases Airtime.reserveTraining_places tiled.wellFormed reserved with
        ⟨rfl, short⟩ | ⟨room, start, adds⟩
      · refine .inl ⟨rfl, ?_⟩
        rintro ⟨_, slot, member, long⟩
        have enough : slot.length ≤ _ := short slot member
        exact absurd long (Nat.not_lt.mpr enough)
      · refine .inr ⟨_, ⟨start, rfl⟩, adds.registered, fun long => ⟨Nat.lt_of_not_le long, room⟩, ?_⟩
        exact fun oversteps => Nat.not_le.mpr oversteps.1
  | reserveWholeDti key =>
      obtain ⟨_, lent⟩ := snd_eq_ok performed
      obtain ⟨air, reserved, rfl⟩ := lend_eq_ok lent
      rcases Airtime.reserveWholeDti_places tiled.wellFormed reserved with
        ⟨rfl, refused⟩ | ⟨isFree, adds⟩
      · refine .inl ⟨rfl, ?_⟩
        rintro ⟨long, isFree⟩
        rcases refused with none | ⟨t, inside, taken⟩
        · rw [none] at long
          cases long
        · exact taken (isFree t inside)
      · refine .inr ⟨_, rfl, adds.registered, fun long => ⟨Nat.lt_of_not_le long, isFree⟩, ?_⟩
        exact fun oversteps => Nat.not_le.mpr oversteps.1
  | startInterval now coordinator interval header announcement => cases lends
  | handle now change => cases lends
  | request now source spec => cases lends
  | delete now key => cases lends
  | takeResponses => cases lends
  | reserve a => cases operates
  | reserveBlock key kind isStatic start duration => cases operates
  | reserveBlocks key kind isStatic start duration blocks => cases operates
  | reserveCbap isStatic start duration => cases operates
  | reserveTraining source dest duration beamforming => cases operates

theorem lends_of_oversteps (oversteps : s.Oversteps command) : command.lends = true := by
  cases command with
  | train | reserveWholeDti => rfl
  | _ => cases oversteps

theorem perform_registers (tiled : s.Tiled) (operates : command.operates = true)
    (performed : (s.perform command).value = .ok next) :
    ∀ b ∈ next.air.registry, (∃ a ∈ s.air.registry, a.Continues b) ∨ b.Announceable ∨
      (s.Oversteps command ∧ s.Makes command b) := by
  intro b member
  cases lends : command.lends with
  | false => exact (perform_announceable lends performed b member).imp_right .inl
  | true =>
      rcases perform_makes tiled operates lends performed with
        ⟨same, _⟩ | ⟨a, makes, registered, overlong⟩
      · exact .inl ⟨b, same ▸ member, .refl b⟩
      · rw [registered] at member
        rcases List.mem_append.mp member with old | new
        · exact .inl ⟨b, old, .refl b⟩
        · obtain rfl := List.mem_singleton.mp new
          by_cases fits : b.Announceable
          · exact .inr (.inl fits)
          · exact .inr (.inr ⟨overlong.mp fits, makes⟩)

theorem perform_oversteps (tiled : s.Tiled) (operates : command.operates = true)
    (oversteps : s.Oversteps command) (performed : (s.perform command).value = .ok next) :
    ¬ next.Announceable := by
  intro fits
  rcases perform_makes tiled operates (lends_of_oversteps oversteps) performed with
    ⟨_, keeps⟩ | ⟨a, _, registered, overlong⟩
  · exact keeps oversteps
  · refine overlong.mpr oversteps (fits a ?_)
    rw [registered]
    exact List.mem_append_right _ (List.mem_singleton_self a)

/-! ## Histories -/

/-- Whatever cannot be announced comes from a command of the past that overstepped. -/
def Traced (past : List Moment) (s : Scheduler) : Prop :=
  ∀ b ∈ s.air.registry, b.Announceable ∨ ∃ m ∈ past, m.before.Oversteps m.command ∧
    ∃ a, m.before.Makes m.command a ∧ a.Continues b

theorem Traced.snoc (traced : s.Traced past) (tiled : s.Tiled)
    (operates : command.operates = true) (performed : (s.perform command).value = .ok next) :
    next.Traced (past ++ [⟨s, command, answer⟩]) := by
  intro b member
  rcases perform_registers tiled operates performed b member with
    ⟨a, old, continues⟩ | fits | ⟨oversteps, makes⟩
  · rcases traced a old with fits | ⟨m, earlier, oversteps, c, makes, before⟩
    · exact .inl (fits.continued continues)
    · exact .inr ⟨m, List.mem_append_left _ earlier, oversteps, c, makes,
        before.trans continues⟩
  · exact .inl fits
  · exact .inr ⟨_, List.mem_append_right _ (List.mem_singleton_self _), oversteps, b, makes,
      .refl b⟩

theorem Traced.announceable (traced : s.Traced past)
    (kept : ∀ m ∈ past, ¬ m.before.Oversteps m.command) : s.Announceable := by
  intro b member
  rcases traced b member with fits | ⟨m, earlier, oversteps, _⟩
  · exact fits
  · exact absurd oversteps (kept m earlier)

theorem start_announceable (started : (start config).value = .ok s) : s.Announceable := by
  obtain ⟨required, part, sublist, registered⟩ := start_sublist started
  obtain ⟨_, valid⟩ := Config.validate_eq_ok_iff.mp (Config.require_eq_ok_iff.mp required)
  intro b member
  rw [registered] at member
  obtain ⟨_, placed, rfl⟩ := List.mem_map.mp member
  obtain ⟨a, configured, rfl⟩ := List.mem_map.mp placed
  have sound := valid.statics a (sublist.subset configured)
  exact sound.announceable.continued (.marked _)

def Shown (past : List Moment) (s : Scheduler) : Prop :=
  ∀ m ∈ past, m.before.Oversteps m.command → (∃ o ∈ past, ¬ o.before.Announceable) ∨ ¬ s.Announceable

theorem Shown.snoc (shown : s.Shown past) (tiled : s.Tiled) (operates : command.operates = true)
    (performed : (s.perform command).value = .ok next) :
    next.Shown (past ++ [⟨s, command, answer⟩]) := by
  intro m member oversteps
  rcases List.mem_append.mp member with earlier | now
  · left
    rcases shown m earlier oversteps with ⟨o, before, overlong⟩ | overlong
    · exact ⟨o, List.mem_append_left _ before, overlong⟩
    · exact ⟨_, List.mem_append_right _ (List.mem_singleton_self _), overlong⟩
  · obtain rfl := List.mem_singleton.mp now
    exact .inr (perform_oversteps tiled operates oversteps performed)

/-- A history keeps to the fields of its announcements exactly if no command oversteps them.
Whatever is too long at a moment goes back to such a command before it, so nothing that was
configured or admitted ever is. -/
theorem history_announceable_iff (recorded : (history config commands).value = .ok (moments, last))
    (operated : ∀ m ∈ moments, m.command.operates = true) :
    (((∀ m ∈ moments, m.before.Announceable) ∧ last.Announceable) ↔
      ∀ m ∈ moments, ¬ m.before.Oversteps m.command) ∧
    last.Traced moments ∧
    ∀ earlier m later, moments = earlier ++ m :: later → m.before.Traced earlier := by
  obtain ⟨final, onTheWay⟩ := history_induction (motive := fun past s =>
      (∀ m ∈ past, m.command.operates = true) → s.Traced past ∧ s.Shown past)
    (fun s started _ => ⟨fun b member => .inl (start_announceable started b member),
      fun m member => absurd member List.not_mem_nil⟩)
    (fun past s command answer next tiled holds asked operated => by
      obtain ⟨before, now⟩ := List.forall_mem_append.mp operated
      have operates : command.operates = true := now _ (List.mem_singleton_self _)
      obtain ⟨traced, shown⟩ := holds before
      have performed := perform_of_ask asked
      exact ⟨traced.snoc tiled operates performed, shown.snoc tiled operates performed⟩)
    recorded
  obtain ⟨traced, shown⟩ := final operated
  have origins : ∀ earlier m later, moments = earlier ++ m :: later → m.before.Traced earlier := by
    rintro earlier m later rfl
    exact (onTheWay earlier m later rfl (List.forall_mem_append.mp operated).1).1
  refine ⟨⟨?_, ?_⟩, traced, origins⟩
  · -- What oversteps is seen in the next state, whether another command follows or not.
    rintro ⟨before, fits⟩ m member oversteps
    rcases shown m member oversteps with ⟨o, earlier, overlong⟩ | overlong
    · exact overlong (before o earlier)
    · exact overlong fits
  · intro kept
    refine ⟨fun m member => ?_, traced.announceable kept⟩
    obtain ⟨earlier, later, split⟩ := List.append_of_mem member
    refine (origins earlier m later split).announceable fun o before => kept o ?_
    rw [split]
    exact List.mem_append_left _ before

def wideBlocks : List Command :=
  [.startInterval 0 0 102400 1000 0, .reserveWholeDti ⟨1, 0, 5⟩, .handle 1000 .dataTransferStart,
    .handle 102400 .intervalEnd]

theorem wideBlocks_oversteps :
    ∃ moments last,
      (history { limits := ⟨10, 4096, 3⟩ } wideBlocks).value = .ok (moments, last) ∧
      (∀ m ∈ moments, m.command.operates = true) ∧ last.Traced moments ∧
      last.air.registry = [⟨⟨1, 0, 5⟩, .servicePeriod, true, 0, 33796, 0, 3, none, true⟩] ∧
      ∃ m ∈ moments, m.before.Oversteps m.command := by
  obtain ⟨⟨moments, last⟩, recorded, computed⟩ := exists_ok
    (x := (history { limits := ⟨10, 4096, 3⟩ } wideBlocks).value)
    (f := fun run => (run.1.all (·.command.operates), run.2.air.registry))
    (b := (true, [⟨⟨1, 0, 5⟩, .servicePeriod, true, 0, 33796, 0, 3, none, true⟩]))
    (by decide +kernel)
  obtain ⟨all, registry⟩ := Prod.mk.inj computed
  have operated : ∀ m ∈ moments, m.command.operates = true := by simpa using all
  obtain ⟨kept, traced, _⟩ := history_announceable_iff recorded operated
  refine ⟨moments, last, recorded, operated, traced, registry, ?_⟩
  by_contra none
  push Not at none
  have fits := (kept.mpr none).2
  rw [Announceable, registry] at fits
  exact absurd fits (by decide)

theorem longTraining_not_announceable :
    ∃ s, (run {} [.startInterval 0 0 102400 1000 0, .train 2 40000 ⟨true, false⟩]).value = .ok s ∧
      s.air.registry = [Airtime.training 0 2 0 40000 ⟨true, false⟩] ∧ ¬ s.Announceable := by
  obtain ⟨s, ran, registry⟩ := exists_ok
    (x := (run {} [.startInterval 0 0 102400 1000 0, .train 2 40000 ⟨true, false⟩]).value)
    (f := fun s => s.air.registry) (b := [Airtime.training 0 2 0 40000 ⟨true, false⟩])
    (by decide +kernel)
  refine ⟨s, ran, registry, ?_⟩
  rw [Announceable, registry]
  decide

end Scheduler
end BeaconScheduler
