import BeaconScheduler.Proofs.Boundary
import BeaconScheduler.Proofs.Phases

/-!
# Accounts of requests

A request waits in the queue until an interval ends, and its response then waits until it is
taken.  Over a whole history nothing is lost on the way and nothing is answered twice: the
responses are those of the first requests, in their order, and the other requests are the queue
(`history_balanced`).  The statistics count just these responses.
-/

set_option autoImplicit false

namespace BeaconScheduler

open Counter

namespace Scheduler

variable {s next : Scheduler} {now : Time}

/-! ## What a history tells -/

namespace Moment

def request? (m : Moment) : Option AdmissionRequest :=
  match m.command with
  | .request now source spec => some ⟨source, spec, now⟩
  | _ => none

def taken (m : Moment) : List AdmissionResponse :=
  match m.answer with
  | .admissions responses => responses
  | _ => []

def deletes (m : Moment) : Bool :=
  match m.answer with
  | .deletion response => response.outcome = .found
  | _ => false

end Moment

def received (moments : List Moment) : List AdmissionRequest :=
  moments.filterMap Moment.request?

/-- All responses that there have been: those taken, and those that nobody has taken yet. -/
def produced (moments : List Moment) (s : Scheduler) : List AdmissionResponse :=
  moments.flatMap Moment.taken ++ s.responses

/-- The first requests have been answered, the others wait. -/
structure Balanced (moments : List Moment) (s : Scheduler) : Prop where
  answered : (produced moments s).map (fun r => (r.key.source, r.key, r.spec)) =
    ((received moments).take (produced moments s).length).map fun q => (q.source, q.key, q.spec)
  waiting : s.queue = (received moments).drop (produced moments s).length
  accepted : s.statistics.accepted = (produced moments s).countP (·.outcome.isAccepted)
  decided : s.statistics.accepted + s.statistics.rejected = (produced moments s).length
  deleted : s.statistics.deleted = moments.countP Moment.deletes
  intervals : s.statistics.intervals = moments.countP (Moment.makes .intervalEnd)

/-! ## Books -/

structure SameBooks (s next : Scheduler) : Prop where
  queue : next.queue = s.queue
  responses : next.responses = s.responses
  statistics : next.statistics = s.statistics

theorem startInterval_sameBooks {coordinator : Aid} {interval header announcement : Nat}
    {wakeup : Wakeup} (tiled : s.Tiled)
    (started : (s.startInterval now coordinator interval header announcement).value =
      .ok (wakeup, next)) : s.SameBooks next := by
  rcases startInterval_eq_ok tiled started with ⟨_, rfl⟩ | ⟨_, _, _, rfl⟩
  · exact ⟨rfl, rfl, rfl⟩
  · exact ⟨rfl, rfl, rfl⟩

theorem makeChange_sameBooks {change : PhaseChange} {result : Option Wakeup}
    (other : change ≠ .intervalEnd)
    (made : (s.makeChange now change).value = .ok (result, next)) : s.SameBooks next := by
  cases change with
  | announcementStart =>
      rw [value_startAnnouncement, bind_eq_ok_iff] at made
      obtain ⟨_, _, made⟩ := made
      obtain ⟨_, rfl⟩ := Prod.mk.inj (Except.ok.inj made)
      exact ⟨rfl, rfl, rfl⟩
  | dataTransferStart =>
      rw [value_startDataTransfer, bind_eq_ok_iff] at made
      obtain ⟨_, _, made⟩ := made
      obtain ⟨_, rfl⟩ := Prod.mk.inj (Except.ok.inj made)
      exact ⟨rfl, rfl, rfl⟩
  | intervalEnd => exact absurd rfl other

theorem intervalEnd_books {result : Option Wakeup} (tiled : s.Tiled)
    (made : (s.makeChange now .intervalEnd).value = .ok (result, next)) :
    ∃ responses, next.queue = [] ∧ next.responses = s.responses ++ responses ∧
      responses.map (fun r => (r.key, r.spec, r.decided)) =
        s.queue.map (fun q => (q.key, q.spec, now)) ∧
      next.statistics =
        { s.statistics with
          intervals := s.statistics.intervals + 1
          accepted := s.statistics.accepted + responses.countP (·.outcome.isAccepted)
          rejected := s.statistics.rejected +
            (responses.length - responses.countP (·.outcome.isAccepted)) } := by
  simp only [makeChange, endInterval, Noted.value_bind, Noted.value_noteAt, ok_bind,
    bind_eq_ok_iff, Noted.value_pure, Except.ok.injEq, Prod.mk.injEq] at made
  obtain ⟨_, ⟨_, cleans, ⟨responses, air⟩, decided, _, refreshed, _, _, rfl⟩, _, rfl⟩ := made
  obtain ⟨cleaned, rfl, _, tiledCleaned⟩ := cleanUp_eq_ok tiled cleans
  have tiledAfter : air.Tiled s.limits.guard s.timing.dti := decideAll_tiled tiledCleaned decided
  obtain rfl := refresh_eq_ok s.limits.guard tiledAfter refreshed
  exact ⟨responses, rfl, rfl, decideAll_answers decided, rfl⟩

theorem delete_books {key : Allocation.Key} {response : DeletionResponse}
    (deleted : (s.delete now key).value = .ok (response, next)) :
    next.queue = s.queue ∧ next.responses = s.responses ∧
      ((response = ⟨key, .notFound, now⟩ ∧ next.statistics = s.statistics) ∨
        (response = ⟨key, .found, now⟩ ∧
          next.statistics = { s.statistics with deleted := s.statistics.deleted + 1 })) := by
  unfold delete at deleted
  cases found : s.air.registry.find? key with
  | none =>
      simp only [found, Noted.value_bind, Noted.value_noteAt, ok_bind, Noted.value_pure,
        Except.ok.injEq, Prod.mk.injEq] at deleted
      obtain ⟨rfl, rfl⟩ := deleted
      exact ⟨rfl, rfl, Or.inl ⟨rfl, rfl⟩⟩
  | some a =>
      simp only [found, Noted.value_bind, Noted.value_note, ok_bind, bind_eq_ok_iff] at deleted
      obtain ⟨⟨result, air⟩, _, deleted⟩ := deleted
      -- A failure to give the airtime back is noted, and changes nothing else.
      cases result with
      | ok _ =>
          simp only [Noted.value_bind, Noted.value_noteAt, ok_bind, Noted.value_pure,
            Except.ok.injEq, Prod.mk.injEq] at deleted
          obtain ⟨rfl, rfl⟩ := deleted
          exact ⟨rfl, rfl, Or.inr ⟨rfl, rfl⟩⟩
      | error e =>
          simp only [Noted.value_bind, Noted.value_noteAt, ok_bind, Noted.value_pure,
            Except.ok.injEq, Prod.mk.injEq] at deleted
          obtain ⟨rfl, rfl⟩ := deleted
          exact ⟨rfl, rfl, Or.inr ⟨rfl, rfl⟩⟩

/-! ## One moment in the books -/

/-- What a moment enters: the requests that it answers, and their responses. -/
structure Entry (s : Scheduler) (m : Moment) (next : Scheduler)
    (answered : List AdmissionRequest) (responses : List AdmissionResponse) : Prop where
  queue : s.queue ++ m.request?.toList = answered ++ next.queue
  handed : m.taken ++ next.responses = s.responses ++ responses
  answers : responses.map (fun r => (r.key.source, r.key, r.spec)) =
    answered.map fun q => (q.source, q.key, q.spec)
  accepted : next.statistics.accepted =
    s.statistics.accepted + responses.countP (·.outcome.isAccepted)
  decided : next.statistics.accepted + next.statistics.rejected =
    s.statistics.accepted + s.statistics.rejected + responses.length
  deleted : next.statistics.deleted = s.statistics.deleted + if m.deletes then 1 else 0
  intervals : next.statistics.intervals =
    s.statistics.intervals + if m.makes .intervalEnd then 1 else 0

variable {m : Moment}

theorem SameBooks.entry (same : s.SameBooks next) (request : m.request? = none)
    (taken : m.taken = []) (deletes : m.deletes = false) (ends : m.makes .intervalEnd = false) :
    Entry s m next [] [] := by
  refine ⟨?_, ?_, rfl, ?_, ?_, ?_, ?_⟩
  · simp [request, same.queue]
  · simp [taken, same.responses]
  · simp [same.statistics]
  · simp [same.statistics]
  · simp [same.statistics, deletes]
  · simp [same.statistics, ends]

theorem intervalEnd_entry {result : Option Wakeup} (tiled : s.Tiled)
    (made : (s.makeChange now .intervalEnd).value = .ok (result, next))
    (request : m.request? = none) (taken : m.taken = []) (deletes : m.deletes = false)
    (ends : m.makes .intervalEnd = true) : ∃ responses, Entry s m next s.queue responses := by
  obtain ⟨responses, queue, kept, answers, statistics⟩ := intervalEnd_books tiled made
  have bound : responses.countP (·.outcome.isAccepted) ≤ responses.length := List.countP_le_length
  refine ⟨responses, ?_, ?_, ?_, ?_, ?_, ?_, ?_⟩
  · simp [request, queue]
  · simp [taken, kept]
  · have forgotten := congrArg (List.map fun (key, spec, _) => (key.source, key, spec)) answers
    rw [List.map_map, List.map_map] at forgotten
    exact forgotten
  · rw [statistics]
  · rw [statistics]
    dsimp only
    omega
  · simp [statistics, deletes]
  · simp [statistics, ends]

theorem delete_entry {key : Allocation.Key} {response : DeletionResponse}
    (deleted : (s.delete now key).value = .ok (response, next)) :
    Entry s ⟨s, .delete now key, .deletion response⟩ next [] [] := by
  obtain ⟨queue, responses, outcome⟩ := delete_books deleted
  rcases outcome with ⟨rfl, same⟩ | ⟨rfl, counted⟩
  · exact SameBooks.entry ⟨queue, responses, same⟩ rfl rfl rfl rfl
  · refine ⟨?_, ?_, rfl, ?_, ?_, ?_, ?_⟩
    · simp [Moment.request?, queue]
    · simp [Moment.taken, responses]
    · simp [counted]
    · simp [counted]
    · simp [counted, Moment.deletes]
    · simp [counted, Moment.makes]

theorem ask_entry {command : Command} {answer : Answer} (tiled : s.Tiled) (orderly : s.Orderly)
    (asked : (s.ask command).value = .ok (answer, next)) :
    ∃ answered responses, Entry s ⟨s, command, answer⟩ next answered responses := by
  cases effect_of_ask asked with
  | startInterval started =>
      exact ⟨[], [], (startInterval_sameBooks tiled started).entry rfl rfl rfl rfl⟩
  | @handle now change result _ handled =>
      have makes_iff : Moment.makes .intervalEnd ⟨s, .handle now change, .wakeup result⟩ = true ↔
          change = .intervalEnd ∧ s.Due now change := by
        simp [Moment.makes]
      rcases orderly.handle_cases tiled handled with ⟨due, made, _⟩ | ⟨ignored, rfl, rfl⟩
      · by_cases ends : change = .intervalEnd
        · subst ends
          exact ⟨s.queue, intervalEnd_entry tiled made rfl rfl rfl (makes_iff.mpr ⟨rfl, due⟩)⟩
        · refine ⟨[], [], (makeChange_sameBooks ends made).entry rfl rfl rfl ?_⟩
          rw [Bool.eq_false_iff, ne_eq, makes_iff]
          exact fun both => ends both.1
      · refine ⟨[], [], SameBooks.entry ⟨rfl, rfl, rfl⟩ rfl rfl rfl ?_⟩
        rw [Bool.eq_false_iff, ne_eq, makes_iff]
        exact fun both => ignored both.2
  | request now source spec =>
      exact ⟨[], [], rfl, by simp [Moment.taken], rfl, rfl, rfl, rfl, rfl⟩
  | delete deleted => exact ⟨[], [], delete_entry deleted⟩
  | takeResponses => exact ⟨[], [], by simp [Moment.request?], rfl, rfl, rfl, rfl, rfl, rfl⟩
  | @lend command lends air =>
      refine ⟨[], [], SameBooks.entry ⟨rfl, rfl, rfl⟩ ?_ rfl rfl (Moment.inside_of_lends lends).2⟩
      cases command with
      | request now source spec => cases lends
      | _ => rfl

/-! ## Along a history -/

/-- The books with the answered requests by name. -/
structure Books (past : List Moment) (s : Scheduler) (answered : List AdmissionRequest) :
    Prop where
  received : received past = answered ++ s.queue
  answers : (produced past s).map (fun r => (r.key.source, r.key, r.spec)) =
    answered.map fun q => (q.source, q.key, q.spec)
  accepted : s.statistics.accepted = (produced past s).countP (·.outcome.isAccepted)
  decided : s.statistics.accepted + s.statistics.rejected = (produced past s).length
  deleted : s.statistics.deleted = past.countP Moment.deletes
  intervals : s.statistics.intervals = past.countP (Moment.makes .intervalEnd)

variable {past : List Moment} {answered earlier : List AdmissionRequest}
  {responses : List AdmissionResponse}

theorem Fresh.books (fresh : s.Fresh) : Books [] s [] := by
  refine ⟨?_, ?_, ?_, ?_, ?_, ?_⟩
  · simp [Scheduler.received, fresh.queue]
  · simp [produced, fresh.responses]
  · simp [produced, fresh.responses, fresh.statistics]
  · simp [produced, fresh.responses, fresh.statistics]
  · simp [fresh.statistics]
  · simp [fresh.statistics]

theorem Books.snoc (books : Books past s earlier) (entry : Entry s m next answered responses) :
    Books (past ++ [m]) next (earlier ++ answered) := by
  have more : produced (past ++ [m]) next = produced past s ++ responses := by
    simp [produced, entry.handed]
  refine ⟨?_, ?_, ?_, ?_, ?_, ?_⟩
  · rw [List.append_assoc, ← entry.queue, ← List.append_assoc, ← books.received]
    simp [Scheduler.received, List.filterMap_cons]
    cases m.request? <;> rfl
  · rw [more, List.map_append, List.map_append, books.answers, entry.answers]
  · rw [more, List.countP_append, entry.accepted, books.accepted]
  · rw [more, List.length_append, entry.decided, books.decided]
  · rw [entry.deleted, books.deleted, List.countP_append, List.countP_singleton]
  · rw [entry.intervals, books.intervals, List.countP_append, List.countP_singleton]

theorem Books.balanced (books : Books past s answered) : Balanced past s := by
  have length : (produced past s).length = answered.length := by
    simpa using congrArg List.length books.answers
  refine ⟨?_, ?_, books.accepted, books.decided, books.deleted, books.intervals⟩
  · rw [length, books.received, List.take_left', books.answers]
    rfl
  · rw [length, books.received, List.drop_left']
    rfl

variable {config : Config} {commands : List Command} {moments : List Moment}

theorem history_books (recorded : (history config commands).value = .ok (moments, s)) :
    OnCourse moments s ∧ ∃ answered, Books moments s answered := by
  refine (history_induction (motive := fun moments s =>
    OnCourse moments s ∧ ∃ answered, Books moments s answered) ?_ ?_ recorded).1
  · intro first started
    have fresh := start_fresh started
    exact ⟨fresh.onCourse, [], fresh.books⟩
  · rintro past s command answer next tiled ⟨onCourse, earlier, books⟩ asked
    obtain ⟨answered, responses, entry⟩ := ask_entry tiled onCourse.orderly asked
    exact ⟨ask_onCourse tiled onCourse asked, earlier ++ answered, books.snoc entry⟩

/-- In every history each request is answered once at most, in the order in which they came,
and everything is counted. -/
theorem history_balanced (recorded : (history config commands).value = .ok (moments, s)) :
    Balanced moments s := by
  obtain ⟨_, answered, books⟩ := history_books recorded
  exact books.balanced

/-- Requests in an interval that is begun anew, in the next one and after its end; of the first
responses one is taken late, and a granted block is deleted twice. -/
def crowdedHistory : Noted (List Moment × Scheduler) :=
  history {}
    [.startInterval 0 0 102400 1000 0,
      .request 10 7 ⟨3, .servicePeriod, true, 4, .asynchronous, 2000, 2000, 0, false⟩,
      .startInterval 500 0 102400 1000 0,
      .request 600 8 ⟨3, .servicePeriod, true, 4, .asynchronous, 0, 2000, 0, false⟩,
      .handle 1500 .dataTransferStart,
      .handle 102900 .intervalEnd,
      .handle 102900 .intervalEnd,
      .request 102950 9 ⟨3, .servicePeriod, true, 4, .asynchronous, 2000, 2000, 0, false⟩,
      .startInterval 103000 0 102400 1000 0,
      .takeResponses,
      .delete 103100 ⟨3, 7, 4⟩,
      .delete 103200 ⟨3, 7, 4⟩,
      .handle 104000 .dataTransferStart,
      .handle 205400 .intervalEnd,
      .request 205500 7 ⟨5, .servicePeriod, true, 4, .asynchronous, 2000, 2000, 0, false⟩]

theorem crowdedHistory_balanced :
    ∃ moments s, crowdedHistory.value = .ok (moments, s) ∧ Balanced moments s ∧
      (received moments).length = 4 ∧ s.queue.length = 1 ∧ (produced moments s).length = 3 ∧
      s.responses.length = 1 ∧ s.statistics = ⟨2, 2, 1, 1⟩ := by
  obtain ⟨⟨moments, s⟩, recorded, counts⟩ := exists_ok (x := crowdedHistory.value)
    (f := fun ran => ((received ran.1).length, ran.2.queue.length,
      (produced ran.1 ran.2).length, ran.2.responses.length, ran.2.statistics))
    (b := (4, 1, 3, 1, ⟨2, 2, 1, 1⟩)) (by decide +kernel)
  simp only [Prod.mk.injEq] at counts
  exact ⟨moments, s, recorded, history_balanced recorded, counts⟩

end Scheduler
end BeaconScheduler
