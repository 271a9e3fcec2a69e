import ZeroRtt.Poll.Agenda
import ZeroRtt.Poll.Sections

namespace ZeroRtt.Poll.Pacing

open ZeroRtt.Lib.Panics ZeroRtt.Lib.Containers
open ZeroRtt.Api.Types ZeroRtt.Api.Quiche ZeroRtt.Poll.Schedule ZeroRtt.Poll.Conn
open ZeroRtt.Poll.Locking ZeroRtt.Poll.Sections ZeroRtt.Poll.Agenda

/-- The release time of the connection: quiche answers with it as long as it lies ahead. -/
def Paced (q : Connection) (release : Instant) : Prop :=
  ∀ now, pacing q now = if now < release then some release else none

def sendReleased (guard : Guard) (len : ℕ) (env : UnlockEnv) :
    Section (Except Error (ℕ × SendInfo)) := do
  Group.derefMut guard .onTimeout
  match ← Group.derefMut guard (.send len) with
  | .ok r =>
    Group.unlock guard.lock env
    return .ok r
  | .error .done =>
    Group.unlock { guard.lock with sendDone := true } env
    return .error .retry
  | .error err =>
    Group.unlock guard.lock env
    return .error (.quiche err)

/-- A `send` at this clock is not refused for the release time of the connection, and
goes on to run its timers. -/
structure Admits (q : Connection) (now : Instant) : Prop where
  released : releaseTime q now defaultReleaseTimerThreshold = none
  runs : ∀ g token guard g' len env, Group.lock token .recv g = .ok (.ok guard) g' →
    Group.deref guard g' = .ok q g' →
    Group.send token len now env g = sendReleased guard len env g'

/-- The event for which the connection was scheduled at one clock is released by a poll
at another one. Whatever else happened to the readiness, it did not happen to this event. -/
def Released (s : Ctx) (sendDone : Bool) (scheduled polled : Instant) : Prop :=
  ∃ r env events deadline r', Apart r ∧ env.now = polled ∧
    agenda r (s.event .send false 0) =
      agenda (s.handleSend sendDone scheduled).readiness (s.event .send false 0) ∧
    r.poll [] defaultReleaseTimerThreshold env = .ok (events, deadline, r') ∧
    s.event .send false 0 ∈ events

def Agree (s : Ctx) (sendDone : Bool) (scheduled : Instant) (q : Connection) : Prop :=
  ∀ polled, scheduled ≤ polled → Released s sendDone scheduled polled →
    ∀ now, polled ≤ now → Admits q now

section Sending

variable {q : Connection} {now release : Instant}

theorem send_of_released (h : releaseTime q now defaultReleaseTimerThreshold = none)
    {g g' : Group} {token : Token} {guard : Guard} (len : ℕ) (env : UnlockEnv)
    (hlock : Group.lock token .recv g = .ok (.ok guard) g')
    (hderef : Group.deref guard g' = .ok q g') :
    Group.send token len now env g = sendReleased guard len env g' := by
  unfold Group.send sendReleased
  rw [bind_of_ok hlock]
  dsimp only
  rw [bind_of_ok hderef, h]
  rfl

theorem admits_iff : Admits q now ↔ releaseTime q now defaultReleaseTimerThreshold = none := by
  refine ⟨Admits.released, fun h ↦ ⟨h, ?_⟩⟩
  intro g token guard g' len env hlock hderef
  exact send_of_released h len env hlock hderef

theorem Paced.admits_iff (h : Paced q release) :
    Admits q now ↔ release ≤ now + defaultReleaseTimerThreshold := by
  rw [Pacing.admits_iff, releaseTime, h now]
  split
  next hlt =>
    simp only [Option.filter_some, ite_eq_right_iff, reduceCtorEq, imp_false, gt_iff_lt,
      decide_eq_true_eq, not_lt]
    exact Nat.sub_le_iff_le_add'
  next hlt =>
    apply iff_of_true rfl
    exact Nat.le_trans (Nat.not_lt.mp hlt) (Nat.le_add_right _ _)

end Sending

section Scheduling

variable {s : Ctx} {sendDone : Bool} {scheduled polled release : Instant}

theorem agenda_handleSend (s : Ctx) (sendDone : Bool) (now : Instant) :
    agenda (s.handleSend sendDone now).readiness (s.event .send false 0) =
      if sendDone && (delaySend s.conn.wrapped now sendDone).isNone then none
      else some (request (delaySend s.conn.wrapped now sendDone)) := by
  simp only [Ctx.handleSend]
  split
  · exact (congrFun (agenda_remove _ _) _).trans (Function.update_self ..)
  · exact (congrFun (agenda_insert _ _ _) _).trans (Function.update_self ..)

theorem released_iff {d : Instant} (h : delaySend s.conn.wrapped scheduled sendDone = some d) :
    Released s sendDone scheduled polled ↔ d ≤ polled + defaultReleaseTimerThreshold := by
  have hagenda : agenda (s.handleSend sendDone scheduled).readiness (s.event .send false 0) =
      some (.later d) := by
    rw [agenda_handleSend, h]
    simp [request]
  rw [← Nat.sub_le_iff_le_add']
  constructor
  · rintro ⟨r, env, events, deadline, r', hapart, rfl, heq, hpoll, hmem⟩
    obtain ⟨more, next, rest, hpoll', hsplits⟩ :=
      Readiness.poll_eq r defaultReleaseTimerThreshold env
    rw [hpoll'] at hpoll
    cases hpoll
    obtain ⟨due, hdue, hreleased⟩ := ((polled_of_splits hapart hsplits).released _).mp hmem
    rw [heq, hagenda] at hdue
    cases hdue
    exact hreleased
  · intro hle
    have hapart : Apart (Readiness.empty.insert (s.event .send false 0) (some d)) :=
      apart_insert (fun e he ↦ absurd he (HashSet.not_mem_empty e)) _ _
    have hsame : agenda (Readiness.empty.insert (s.event .send false 0) (some d))
        (s.event .send false 0) = some (.later d) :=
      (congrFun (agenda_insert _ _ _) _).trans (Function.update_self ..)
    obtain ⟨more, next, rest, hpoll, hsplits⟩ :=
      Readiness.poll_eq (Readiness.empty.insert (s.event .send false 0) (some d))
        defaultReleaseTimerThreshold ⟨polled, HashSet.listed, Peek.first⟩
    refine ⟨_, _, _, _, _, hapart, rfl, hsame.trans hagenda.symm, hpoll, ?_⟩
    exact ((polled_of_splits hapart hsplits).released _).mpr ⟨.later d, hsame, hle⟩

theorem Paced.delaySend_eq {q : Connection} (h : Paced q release) (hlt : scheduled < release)
    (sendDone : Bool) :
    delaySend q scheduled sendDone = minOfSome q.timeoutInstant (some release) := by
  cases sendDone <;> simp [delaySend, h scheduled, hlt]

/-- While the release time lies ahead, the event comes back at the earlier of the timer and
the release time, and what matters is whether the release time is near by then. -/
theorem agree_iff_of_ahead {q : Connection} (hq : Paced q release) {d : Instant}
    (h : delaySend s.conn.wrapped scheduled sendDone = some d) :
    Agree s sendDone scheduled q ↔ ∀ polled, scheduled ≤ polled →
      d ≤ polled + defaultReleaseTimerThreshold → release ≤ polled + defaultReleaseTimerThreshold := by
  unfold Agree
  constructor
  · intro hagree polled hle hd
    exact hq.admits_iff.mp (hagree polled hle ((released_iff h).mpr hd) polled le_rfl)
  · intro hagree polled hle hreleased now hnow
    refine hq.admits_iff.mpr (Nat.le_trans (hagree polled hle ((released_iff h).mp hreleased)) ?_)
    exact Nat.add_le_add_right hnow _

theorem timer_not_before {a t p threshold : ℕ}
    (h : ∀ n, a ≤ n → min t p ≤ n + threshold → p ≤ n + threshold) (hfar : ¬ p ≤ a + threshold) :
    p ≤ t := by
  by_contra hbefore
  have hearly := h (max a (t - threshold)) (le_max_left _ _) (by omega)
  omega

/-- The scheduler and the pacer agree exactly if the release time was near already when
the event was scheduled, or no timer comes before it: the event is scheduled for the
timer, but the pacer is asked first. -/
theorem pacer_agrees_iff {q : Connection} (hs : Paced s.conn.wrapped release)
    (hq : Paced q release) :
    Agree s sendDone scheduled q ↔ release ≤ scheduled + defaultReleaseTimerThreshold ∨
      ∀ t, s.conn.wrapped.timeoutInstant = some t → release ≤ t := by
  by_cases hnear : release ≤ scheduled + defaultReleaseTimerThreshold
  · refine iff_of_true ?_ (.inl hnear)
    rintro polled hle - now hnow
    refine hq.admits_iff.mpr (Nat.le_trans hnear ?_)
    exact Nat.add_le_add_right (Nat.le_trans hle hnow) _
  · have hlt : scheduled < release :=
      Nat.lt_of_le_of_lt (Nat.le_add_right _ _) (Nat.not_le.mp hnear)
    have hdelay := hs.delaySend_eq hlt sendDone
    rw [or_iff_right hnear]
    cases htimer : s.conn.wrapped.timeoutInstant with
    | none =>
      rw [htimer] at hdelay
      rw [agree_iff_of_ahead hq hdelay]
      simp
    | some t =>
      rw [htimer] at hdelay
      rw [agree_iff_of_ahead hq hdelay]
      constructor
      · rintro hagree t' ⟨⟩
        exact timer_not_before hagree hnear
      · intro hbefore polled hle hd
        rwa [Nat.min_eq_right (hbefore t rfl)] at hd

end Scheduling

section Examples

def pacedConnection (timeout : Option Instant) (release : Instant) : Connection :=
  let q := Script.connection ⟨false, [], [], [], timeout⟩
  { q with
    value := fun h query ↦
      match query with
      | .getNextReleaseTime => some ⟨fun now ↦ if now < release then some release else none⟩
      | query => q.value h query }

theorem paced_pacedConnection (timeout : Option Instant) (release : Instant) :
    Paced (pacedConnection timeout release) release := fun _ ↦ rfl

theorem pacer_agrees_example :
    Agree ⟨.new ⟨0⟩ (pacedConnection (some 1000000) 500000), .empty, []⟩ false 0
      (pacedConnection (some 1000000) 500000) := by
  refine (pacer_agrees_iff (paced_pacedConnection _ _) (paced_pacedConnection _ _)).mpr (.inr ?_)
  rintro t ⟨⟩
  decide

def heldBack : Group :=
  leftBy (Group.register (pacedConnection (some 1000000) 5000000) .still Group.new)

/-- The event is released for the timer, the packet is refused before the timer is run,
and the event is released again at once. -/
theorem pacer_disagrees :
    ¬ Agree ⟨.new ⟨0⟩ (pacedConnection (some 1000000) 5000000), .empty, []⟩ false 0
        (pacedConnection (some 1000000) 5000000) ∧
      ∃ event g₁ g₂ g₃,
        Group.poll [] ⟨1000000, HashSet.listed, Peek.first⟩ heldBack = .ok ([event], none) g₁ ∧
        Group.send ⟨0⟩ 1600 1000000 ⟨1000000, HashSet.listed⟩ g₁ = .ok (.error .retry) g₂ ∧
        Group.poll [] ⟨1000000, HashSet.listed, Peek.first⟩ g₂ = .ok ([event], none) g₃ := by
  refine ⟨?_, _, _, _, _, rfl, rfl, rfl⟩
  intro hagree
  have hfar := (agree_iff_of_ahead (paced_pacedConnection _ _) rfl).mp hagree 1000000
    (by decide) (by decide)
  exact absurd hfar (by decide)

end Examples

end ZeroRtt.Poll.Pacing
