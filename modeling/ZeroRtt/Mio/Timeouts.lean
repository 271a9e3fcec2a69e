import ZeroRtt.Poll.Sections

namespace ZeroRtt.Mio.Timeouts

open ZeroRtt.Lib.Panics ZeroRtt.Lib.Containers
open ZeroRtt.Poll (Group defaultReleaseTimerThreshold)
open ZeroRtt.Poll.Schedule (Readiness PollEnv)
open ZeroRtt.Poll.Sections (leftBy)
open ZeroRtt.Api.Types (Event)
open ZeroRtt.Api.Quiche (Script)

/-- The timeout with which `mio_poll_once` waits. The poller takes `none` for a wait
without end. -/
def timeout (deadline : Option Instant) (now : Instant) : Option Duration :=
  match deadline with
  | some nextReleaseTime => Instant.checkedDurationSince nextReleaseTime now
  | none => none

/-- The wait ends at the deadline, or at once if that has passed, and it has no end
only if nothing is delayed. -/
structure Timely (deadline : Option Instant) (now : Instant) (r : Readiness) : Prop where
  bounded : ∀ d, deadline = some d → timeout deadline now = some (d - now)
  unbounded : timeout deadline now = none → r.delayed = ∅

/-- Nothing that a poll at `polled` left delayed has come due before `now`. -/
def OnTime (r : Readiness) (polled now : Instant) : Prop :=
  ∀ e t, r.delayed.lookup e = some t → defaultReleaseTimerThreshold < t - polled → now ≤ t

section Waiting

variable {g g' : Group} {env : PollEnv} {events : List Event} {deadline : Option Instant}
  {now : Instant}

theorem timeout_some_iff {d : Instant} : timeout (some d) now = some (d - now) ↔ now ≤ d := by
  unfold timeout Instant.checkedDurationSince
  split <;> simp_all

theorem timeout_some_eq_none {d : Instant} : timeout (some d) now = none ↔ ¬ now ≤ d := by
  unfold timeout Instant.checkedDurationSince
  split <;> simp_all

theorem splits_of_poll (h : Group.poll [] env g = .ok (events, deadline) g') :
    ∃ more, Readiness.Splits defaultReleaseTimerThreshold env.now g.state.readiness.delayed more
      deadline g'.state.readiness.delayed := by
  obtain ⟨more, next, rest, hpoll, hsplits⟩ :=
    Readiness.poll_eq g.state.readiness defaultReleaseTimerThreshold env
  simp only [Group.poll, hpoll] at h
  cases h
  exact ⟨more, hsplits⟩

theorem onTime_iff (h : Group.poll [] env g = .ok (events, deadline) g') :
    OnTime g.state.readiness env.now now ↔ ∀ d, deadline = some d → now ≤ d := by
  obtain ⟨more, hsplits⟩ := splits_of_poll h
  constructor
  · intro hon d hd
    obtain ⟨⟨e, he⟩, -⟩ := hsplits.least d hd
    obtain ⟨hdelayed, hlate⟩ := (hsplits.left e d).mp he
    exact hon e d hdelayed hlate
  · intro hon e t ht hlate
    have hrest := (hsplits.left e t).mpr ⟨ht, hlate⟩
    cases deadline with
    | none =>
      rw [hsplits.empty rfl] at hrest
      cases hrest
    | some d => exact le_trans (hon d rfl) ((hsplits.least d rfl).2 e t hrest)

/-- Between the poll of the group and the wait the thread handles the events, for as
long as it takes. The wait is the right one exactly if this ends before the first of the
delayed events is due. -/
theorem mioPollOnce_timely_iff (h : Group.poll [] env g = .ok (events, deadline) g') :
    Timely deadline now g'.state.readiness ↔ OnTime g.state.readiness env.now now := by
  rw [onTime_iff h]
  constructor
  · intro htimely d hd
    subst hd
    exact timeout_some_iff.mp (htimely.bounded d rfl)
  · intro hon
    refine ⟨?_, ?_⟩
    · rintro d rfl
      exact timeout_some_iff.mpr (hon d rfl)
    · intro hnone
      cases deadline with
      | none =>
        obtain ⟨more, hsplits⟩ := splits_of_poll h
        exact hsplits.empty rfl
      | some d => exact absurd (hon d rfl) (timeout_some_eq_none.mp hnone)

end Waiting

section Overrun

def quiet : Group :=
  leftBy ((do
    let _ ← Group.register (Script.connection ⟨false, [], [], [], some 1000000⟩)
      .still
    let _ ← Group.poll [] ⟨0, HashSet.listed, Peek.first⟩
    Group.send ⟨0⟩ 1600 0 .still) Group.new)

theorem mioPollOnce_timely_example :
    ∃ g', Group.poll [] ⟨0, HashSet.listed, Peek.first⟩ quiet = .ok ([], some 1000000) g' ∧
      Timely (some 1000000) 999999 g'.state.readiness := by
  obtain ⟨g', hpoll⟩ : ∃ g', Group.poll [] ⟨0, HashSet.listed, Peek.first⟩ quiet =
      .ok ([], some 1000000) g' := ⟨_, rfl⟩
  refine ⟨g', hpoll, (mioPollOnce_timely_iff hpoll).mpr ((onTime_iff hpoll).mpr ?_)⟩
  rintro d ⟨⟩
  decide

/-- If the handling of the events takes one nanosecond longer than until the timer runs
out, then the thread waits without end while the timer is due. -/
theorem mioPollOnce_oversleeps :
    ∃ g', Group.poll [] ⟨0, HashSet.listed, Peek.first⟩ quiet = .ok ([], some 1000000) g' ∧
      timeout (some 1000000) 1000001 = none ∧ g'.state.readiness.delayed ≠ ∅ ∧
      ¬ Timely (some 1000000) 1000001 g'.state.readiness := by
  refine ⟨_, rfl, rfl, ?_, fun htimely ↦ ?_⟩
  · intro hempty
    cases congrArg AList.entries hempty
  · cases htimely.bounded 1000000 rfl

end Overrun

end ZeroRtt.Mio.Timeouts
