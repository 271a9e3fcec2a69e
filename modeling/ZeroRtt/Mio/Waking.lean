import ZeroRtt.Mio.Staleness
import ZeroRtt.Mio.Timers

namespace ZeroRtt.Mio.Waking

open ZeroRtt.Lib.Panics ZeroRtt.Lib.Containers ZeroRtt.Lib.Runs ZeroRtt.Mio.Loop
open ZeroRtt.Api.Types ZeroRtt.Api.Quiche ZeroRtt.Poll.Schedule ZeroRtt.Poll.Conn
open ZeroRtt.Poll (Group)
open ZeroRtt.Poll.Agenda (agenda_eq_later agenda_eq_now)
open ZeroRtt.Poll.Chronicle (Chronicled carries_records chronicled_next elementary_tells)
open ZeroRtt.Poll.Planning (sendOf)
open ZeroRtt.Mio.Staleness (Covered covered_poll silent)
open ZeroRtt.Mio.Timers (Orderly next_packet_scheduled orderly_own steady_of_run)

/-- The loop, and the other threads in their calls of the group of mio, which all wake the loop
before they return. The insertions since the group was polled are a history variable, with the
threads that made them; it is `none` for the polling thread. -/
structure World where
  loop : Loop.World
  notified : Bool
  callers : List ℕ
  since : List (Option ℕ × Event)

/-- The polling thread goes on, which includes what it does in `on_udp_recv`, or another thread
enters a call, runs a critical section of it, or wakes the loop and returns. -/
inductive Action
  | loop (a : Loop.Action)
  | receive (a : Poll.Interleaving.Action)
  | enter (thread : ℕ)
  | operate (thread : ℕ) (a : Poll.Interleaving.Action)
  | leave (thread : ℕ)

namespace World

def initial : World := ⟨.initial, false, [], []⟩

def act (w : World) (who : Option ℕ) (a : Loop.Action) : World :=
  let loop := w.loop.next a
  let inserted := insertedBetween w.loop.base.group loop.base.group
  { w with loop, since := w.since ++ inserted.map (who, ·) }

/-- A notification stays until mio's `poll` returns. -/
def next (w : World) : Action → World
  | .loop (.pollGroup env) =>
    match w.loop.phase with
    | .idle => { w with loop := w.loop.next (.pollGroup env), since := [] }
    | _ => w
  | .loop .wake =>
    match w.loop.phase with
    | .polling _ => { w with loop := w.loop.next .wake, notified := false }
    | _ => w
  | .loop a => w.act none a
  | .receive a => w.act none (.other a)
  | .enter thread => { w with callers := thread :: w.callers }
  | .operate thread a => w.act (some thread) (.other a)
  | .leave thread =>
    { w with
      notified := true
      callers := w.callers.erase thread
      since := w.since.filter fun x ↦ x.1 ≠ some thread }

end World

def step (w : World) (a : Action) : Rust World := .ok (w.next a)

def Legal (w : World) : Action → Prop
  | .loop a => ∀ b, a ≠ .other b
  | .receive a => w.loop.phase = .idle ∧ Loop.Legal w.loop (.other a)
  | .enter thread => thread ∉ w.callers
  | .operate thread a => thread ∈ w.callers ∧ Loop.Legal w.loop (.other a)
  | .leave thread => thread ∈ w.callers

def inner : Action → Option Loop.Action
  | .loop a => some a
  | .receive a | .operate _ a => some (.other a)
  | .enter _ | .leave _ => none

def Keeping (w : World) (a : Action) : Prop := ∀ b, inner a = some b → Orderly w.loop b

/-- The event was inserted since the group was polled, by the polling thread, or in a call that
has yet to wake the loop. -/
def Recent (w : World) (e : Event) : Prop :=
  ∃ who, (who, e) ∈ w.since ∧ ∀ thread, who = some thread → thread ∈ w.callers

def deadlineOf : Phase → Option (Option Instant)
  | .idle => none
  | .handling i | .locked i _ | .sent i _ _ => some i.nextReleaseTime
  | .polling deadline => some deadline

section Turns

variable {v : Loop.World} {a : Loop.Action} {deadline : Option Instant}

theorem deadlineOf_run {α : Type} {x : Poll.Section α} {k : Loop.World → α → Loop.World}
    (hk : ∀ u a, deadlineOf (k u a).phase = some deadline → deadlineOf v.phase = some deadline)
    (h : deadlineOf (v.run x k).phase = some deadline) : deadlineOf v.phase = some deadline := by
  unfold Loop.World.run at h
  split at h
  · exact hk _ _ h
  · cases h

theorem deadlineOf_next (hpoll : ∀ env, a ≠ .pollGroup env)
    (h : deadlineOf (v.next a).phase = some deadline) : deadlineOf v.phase = some deadline := by
  cases a with
  | other b => exact h
  | pollGroup env => exact absurd rfl (hpoll env)
  | handle =>
    unfold Loop.World.next at h
    dsimp only at h
    split at h
    next hphase =>
      rw [hphase]
      unfold Loop.World.handle at h
      split at h
      · refine hphase ▸ deadlineOf_run (fun u r hu ↦ ?_) h
        rw [hphase]
        cases r <;> exact hu
      · exact h
      · exact h
    · exact h
  | transmit len now =>
    unfold Loop.World.next at h
    dsimp only at h
    split at h
    next hphase =>
      refine deadlineOf_run (fun u r hu ↦ ?_) h
      rw [hphase]
      exact hu
    · exact h
  | unlock env =>
    unfold Loop.World.next at h
    dsimp only at h
    split at h
    next hphase =>
      refine deadlineOf_run (fun u r hu ↦ ?_) h
      rw [hphase]
      exact hu
    · exact h
  | finish =>
    unfold Loop.World.next at h
    dsimp only at h
    split at h
    next hphase =>
      rw [hphase]
      unfold Loop.World.finish at h
      split at h
      · cases h
      · exact h
    · exact h
  | fail =>
    unfold Loop.World.next at h
    dsimp only at h
    split at h
    · cases h
    · exact h
  | wake =>
    unfold Loop.World.next at h
    dsimp only at h
    split at h
    · cases h
    · exact h

theorem chronicled_turn (hother : ∀ b, a = .other b → ∀ env, b ≠ .poll env)
    (hpoll : ∀ env, a ≠ .pollGroup env) :
    Chronicled v.base.group (v.next a).base.group := by
  have htouches := touches_next v a
  generalize (v.next a).base.group = g at htouches ⊢
  cases htouches with
  | other b => exact chronicled_next (hother b rfl)
  | poll env => exact absurd rfl (hpoll env)
  | own _ hown => exact (hown carries_records elementary_tells.steady).chronicled

end Turns

section Runs

variable {w w' : World} {deadline : Option Instant} {e : Event}

/-- Unless the loop has been notified, what is ready or due before its deadline was inserted
since the group was polled, and by whoever has still to come back to the loop. -/
structure Attentive (w : World) : Prop where
  pending : ∀ who e, (who, e) ∈ w.since → ∀ thread, who = some thread → thread ∈ w.callers
  covered : ∀ deadline, deadlineOf w.loop.phase = some deadline → w.notified = true ∨
    Covered w.loop.base.group.state.readiness (w.since.map Prod.snd) deadline

theorem attentive_initial : Attentive .initial :=
  ⟨fun who e he ↦ (by cases he), fun deadline hd ↦ (by cases hd)⟩

theorem Attentive.act (h : Attentive w) {who : Option ℕ} {a : Loop.Action}
    (hwho : ∀ thread, who = some thread → thread ∈ w.callers)
    (hother : ∀ b, a = .other b → ∀ env, b ≠ .poll env) (hpoll : ∀ env, a ≠ .pollGroup env) :
    Attentive (w.act who a) := by
  refine ⟨fun who' e he ↦ ?_, fun deadline hd ↦ ?_⟩
  · rcases List.mem_append.mp he with hbefore | hnew
    · exact h.pending who' e hbefore
    · obtain ⟨e', -, heq⟩ := List.mem_map.mp hnew
      cases heq
      exact hwho
  · refine (h.covered deadline (deadlineOf_next hpoll hd)).imp_right fun hcovered ↦ ?_
    have hafter := hcovered.chronicled (chronicled_turn hother hpoll)
    rw [World.act, List.map_append, List.map_map]
    simpa only [Function.comp_def, List.map_id'] using hafter

theorem covered_polled {g g' : Group} {env : PollEnv} {out : List Event}
    (h : Group.poll [] env g = .ok (out, deadline) g') :
    Covered g'.state.readiness [] deadline := by
  unfold Group.poll at h
  split at h
  · cases h
  next hpoll =>
    cases h
    exact covered_poll hpoll

theorem Attentive.pollGroup (h : Attentive w) (env : PollEnv) :
    Attentive (w.next (.loop (.pollGroup env))) := by
  unfold World.next
  dsimp only
  split
  next hphase =>
    refine ⟨fun who e he ↦ (by cases he), fun deadline hd ↦ .inr ?_⟩
    simp only [Loop.World.next, hphase, Loop.World.run] at hd ⊢
    split at hd
    next out group hrun =>
      cases hd
      exact covered_polled hrun
    next => cases hd
  next => exact h

theorem Attentive.wake (h : Attentive w) : Attentive (w.next (.loop .wake)) := by
  unfold World.next
  dsimp only
  split
  next hphase =>
    refine ⟨h.pending, fun deadline hd ↦ ?_⟩
    simp only [Loop.World.next, hphase] at hd
    cases hd
  next => exact h

theorem Attentive.leave (h : Attentive w) (thread : ℕ) : Attentive (w.next (.leave thread)) := by
  refine ⟨fun who e he other hother ↦ ?_, fun deadline _ ↦ .inl rfl⟩
  obtain ⟨hmem, hne⟩ := List.mem_filter.mp he
  subst hother
  have hother : other ≠ thread := by simpa using hne
  exact (List.mem_erase_of_ne hother).mpr (h.pending _ e hmem other rfl)

theorem Attentive.next (h : Attentive w) {a : Action} (ha : Legal w a) : Attentive (w.next a) := by
  cases a with
  | loop a =>
    have hown : ∀ b, a = .other b → ∀ env, b ≠ .poll env := fun b hb ↦ absurd hb (ha b)
    cases a with
    | pollGroup env => exact h.pollGroup env
    | wake => exact h.wake
    | _ => exact h.act (by simp) hown (by simp)
  | receive a =>
    refine h.act (by simp) (fun b hb ↦ ?_) (by simp)
    cases hb
    exact ha.2.1
  | enter thread =>
    refine ⟨fun who e he other hother ↦ ?_, h.covered⟩
    exact List.mem_cons_of_mem _ (h.pending who e he other hother)
  | operate thread a =>
    refine h.act (fun other hother ↦ ?_) (fun b hb ↦ ?_) (by simp)
    · cases hother
      exact ha.1
    · cases hb
      exact ha.2.1
  | leave thread => exact h.leave thread

theorem attentive_of_run {ok : World → Action → Prop} (hok : ∀ w a, ok w a → Legal w a)
    (h : Run step ok .initial w) : Attentive w := by
  refine h.invariant (P := Attentive) attentive_initial ?_
  intro w w' a hw ha hstep
  cases hstep
  exact hw.next (hok w a ha)

theorem Attentive.recent (h : Attentive w) (he : e ∈ w.since.map Prod.snd) : Recent w e := by
  obtain ⟨⟨who, e⟩, hmem, rfl⟩ := List.mem_map.mp he
  exact ⟨who, hmem, h.pending who e hmem⟩

theorem Attentive.asleep (h : Attentive w) (hphase : w.loop.phase = .polling deadline)
    (hasleep : w.notified = false) :
    (∀ e ∈ w.loop.base.group.state.readiness.events, Recent w e) ∧
      ∀ e d, w.loop.base.group.state.readiness.delayed.lookup e = some d →
        Recent w e ∨ ∃ t, deadline = some t ∧ t ≤ d := by
  rcases h.covered deadline (by rw [hphase]; rfl) with hnotified | hcovered
  · rw [hasleep] at hnotified
    cases hnotified
  · exact ⟨fun e he ↦ h.recent (hcovered.events e he),
      fun e d hd ↦ (hcovered.delayed e d hd).imp_left h.recent⟩

/-- A loop that sleeps and has not been notified sleeps over nothing that was inserted in a call
that has returned. -/
theorem no_wakeup_lost (h : Run step Legal .initial w)
    (hphase : w.loop.phase = .polling deadline) (hasleep : w.notified = false) :
    (∀ e ∈ w.loop.base.group.state.readiness.events, Recent w e) ∧
      ∀ e d, w.loop.base.group.state.readiness.delayed.lookup e = some d →
        Recent w e ∨ ∃ t, deadline = some t ∧ t ≤ d :=
  (attentive_of_run (fun _ _ ha ↦ ha) h).asleep hphase hasleep

theorem no_wakeup_lost_example :
    ∃ w, Run step Legal .initial w ∧ w.loop.phase = .polling none ∧ w.notified = false ∧
      ⟨⟨0⟩, .send, false, false, 0⟩ ∈ w.loop.base.group.state.readiness.events ∧
      Recent w ⟨⟨0⟩, .send, false, false, 0⟩ := by
  have hpoll : Run step Legal .initial _ :=
    .one (i := .loop (.pollGroup ⟨0, HashSet.listed, Peek.first⟩)) (by simp [Legal]) rfl
  have hfinish := hpoll.tail (i := .loop .finish) (by simp [Legal]) rfl
  have henter := hfinish.tail (i := .enter 1) (by exact List.not_mem_nil) rfl
  have hconnect := henter.tail (i := .operate 1 (.connect (silent 1) .still))
    (by exact ⟨List.mem_cons_self, by simp, trivial⟩) rfl
  exact ⟨_, hconnect, rfl, rfl, by decide, (no_wakeup_lost hconnect rfl rfl).1 _ (by decide)⟩

theorem next_loop {b : Loop.Action} {a : Action} (ha : inner a = some b) (w : World) :
    (w.next a).loop = w.loop.next b := by
  cases a with
  | loop a =>
    cases ha
    cases b with
    | pollGroup env =>
      cases hphase : w.loop.phase <;> simp only [World.next, hphase, Loop.World.next]
    | wake =>
      cases hphase : w.loop.phase <;> simp only [World.next, hphase, Loop.World.next]
    | _ => rfl
  | receive a =>
    cases ha
    rfl
  | operate thread a =>
    cases ha
    rfl
  | enter thread => cases ha
  | leave thread => cases ha

theorem next_loop_none {a : Action} (ha : inner a = none) (w : World) :
    (w.next a).loop = w.loop := by
  cases a with
  | enter thread => rfl
  | leave thread => rfl
  | _ => cases ha

theorem run_loop (h : Run step (fun w a ↦ Legal w a ∧ Keeping w a) .initial w) :
    Run Loop.step Orderly .initial w.loop := by
  induction h with
  | refl => exact .refl _
  | tail _ ha hstep ih =>
    next t u a _ =>
    cases hstep
    cases hinner : inner a with
    | none =>
      rw [next_loop_none hinner]
      exact ih
    | some b =>
      rw [next_loop hinner]
      exact ih.tail (ha.2 b hinner) rfl

/-- A loop that sleeps and has not been notified wakes up by the timeout of each connection that
nobody has locked, other than those that were touched since it polled the group, by itself or in
a call that has yet to wake it. -/
theorem timeouts_kept (h : Run step (fun w a ↦ Legal w a ∧ Keeping w a) .initial w)
    (hphase : w.loop.phase = .polling deadline) (hasleep : w.notified = false) (token : Token)
    (c : QuicConn) (hc : w.loop.base.group.state.conns.lookup token = some c)
    (hfree : c.locker = .none) (time : Instant) (htime : c.wrapped.timeoutInstant = some time) :
    Recent w (sendOf c) ∨ ∃ t, deadline = some t ∧ t ≤ time := by
  obtain ⟨hevents, hdelayed⟩ :=
    (attentive_of_run (fun _ _ ha ↦ ha.1) h).asleep hphase hasleep
  have hscheduled := (next_packet_scheduled (run_loop h) token c hc hfree).2 time htime
  have hapart := (steady_of_run (run_loop h)).sound.apart
  rw [hphase] at hscheduled
  rcases hscheduled with hhand | ⟨due, hagenda, hle⟩
  · cases hhand
  · cases due with
    | now => exact .inl (hevents _ (agenda_eq_now.mp hagenda))
    | later t =>
      have hlookup := (agenda_eq_later hapart).mp hagenda
      refine (hdelayed _ t hlookup).imp_right ?_
      rintro ⟨t', hdeadline, hle'⟩
      exact ⟨t', hdeadline, hle'.trans (hle t rfl)⟩

theorem timeouts_kept_example :
    ∃ w c, Run step (fun w a ↦ Legal w a ∧ Keeping w a) .initial w ∧
      w.loop.phase = .polling (some 1000000) ∧ w.since = [] ∧
      w.loop.base.group.state.conns.lookup ⟨0⟩ = some c ∧
      c.wrapped.timeoutInstant = some 1000000 ∧
      (Recent w (sendOf c) ∨ ∃ t, some 1000000 = some t ∧ t ≤ 1000000) := by
  have hown : ∀ {w : World} {a : Loop.Action}, (∀ b, a ≠ .other b) → a ≠ .fail →
      Legal w (.loop a) ∧ Keeping w (.loop a) := by
    intro w a hother hfail
    refine ⟨hother, fun b hb ↦ ?_⟩
    cases hb
    exact orderly_own hother hfail
  have henter : Run step (fun w a ↦ Legal w a ∧ Keeping w a) .initial _ :=
    .one (i := .enter 1) ⟨by simp [Legal, World.initial], fun b hb ↦ (by cases hb)⟩ rfl
  have hconnect := henter.tail
    (i := .operate 1 (.connect (Script.connection ⟨false, [1], [], [], some 1000000⟩) .still))
    ⟨by exact ⟨List.mem_cons_self, by simp, trivial⟩, by
      intro b hb
      cases hb
      exact ⟨⟨by simp, trivial⟩, fun b hb ↦ (by cases hb; intro _ _ ht; cases ht), by simp⟩⟩ rfl
  have hleave := hconnect.tail (i := .leave 1)
    ⟨by exact List.mem_cons_self, fun b hb ↦ (by cases hb)⟩ rfl
  have hpoll := hleave.tail (i := .loop (.pollGroup ⟨0, HashSet.listed, Peek.first⟩))
    (hown (by simp) (by simp)) rfl
  have hhandle := hpoll.tail (i := .loop .handle) (hown (by simp) (by simp)) rfl
  have hsent := hhandle.tail (i := .loop (.transmit 1 0)) (hown (by simp) (by simp)) rfl
  have hunlock := hsent.tail (i := .loop (.unlock .still)) (hown (by simp) (by simp)) rfl
  have hfinish := hunlock.tail (i := .loop .finish) (hown (by simp) (by simp)) rfl
  have hwake := hfinish.tail (i := .loop .wake) (hown (by simp) (by simp)) rfl
  have hagain := hwake.tail (i := .loop (.pollGroup ⟨0, HashSet.listed, Peek.first⟩))
    (hown (by simp) (by simp)) rfl
  have hasleep := hagain.tail (i := .loop .finish) (hown (by simp) (by simp)) rfl
  exact ⟨_, _, hasleep, rfl, rfl, rfl, rfl,
    timeouts_kept hasleep rfl rfl ⟨0⟩ _ rfl rfl 1000000 rfl⟩

end Runs

end ZeroRtt.Mio.Waking
