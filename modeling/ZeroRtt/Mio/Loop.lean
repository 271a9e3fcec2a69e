import ZeroRtt.Poll.Chronicle

namespace ZeroRtt.Mio.Loop

open ZeroRtt.Lib.Panics ZeroRtt.Lib.Containers ZeroRtt.Lib.Runs
open ZeroRtt.Poll (Group Section defaultReleaseTimerThreshold)
open ZeroRtt.Poll.Conn (Ctx QuicConn LocKind LockContext UnlockEnv releaseTime)
open ZeroRtt.Poll.Locking (Guard)
open ZeroRtt.Poll.Schedule (PollEnv)
open ZeroRtt.Poll.Sections (leftBy transmit)
open ZeroRtt.Poll.Walks (Carries Steady)
open ZeroRtt.Poll.Chronicle (observations insertedBy)
open ZeroRtt.Api.Types (Token Event EventKind)
open ZeroRtt.Api.Quiche (Connection Call)

/-- A round of the loop in `poll`: what the group has said about the next release,
the events that are left to be handled, and those that are kept for the caller. -/
structure Iteration where
  nextReleaseTime : Option Instant
  todo : List Event
  events : List Event

/-- Where the thread is that polls the group: before a round, between two events,
in `on_quic_send` with a guard before and after quiche has written a packet, and in
`mio_poll_once` with its deadline. -/
inductive Phase
  | idle
  | handling (i : Iteration)
  | locked (i : Iteration) (guard : Guard)
  | sent (i : Iteration) (guard : Guard) (sendDone : Bool)
  | polling (deadline : Option Instant)

/-- The group with its other threads, and the thread that polls it. The events
that were last inserted by another thread since the group was polled are a history
variable: nothing reads them. -/
structure World where
  base : Poll.Interleaving.World
  phase : Phase
  theirs : List Event

inductive Action
  | other (a : Poll.Interleaving.Action)
  | pollGroup (env : PollEnv)
  | handle
  | transmit (len : ℕ) (now : Instant)
  | unlock (env : UnlockEnv)
  | finish
  | fail
  | wake

def insertedBetween (g g' : Group) : List Event :=
  insertedBy (observations (g'.state.history.drop g.state.history.length))

theorem insertedBetween_of_append {g g' : Group} {news : List Poll.Happening}
    (h : g'.state.history = g.state.history ++ news) :
    insertedBetween g g' = insertedBy (observations news) := by
  rw [insertedBetween, h, List.drop_left]

namespace World

variable {α : Type}

def initial : World := ⟨.initial, .idle, []⟩

/-- The polling thread runs a critical section of the group and goes on. If it
panics another thread can poll the group. -/
def run (w : World) (x : Section α) (k : World → α → World) : World :=
  match x w.base.group with
  | .ok a group =>
    k { w with
      base.group := group
      theirs := w.theirs.filter fun e ↦ e ∉ insertedBetween w.base.group group } a
  | .error _ group => { w with base.group := group, phase := .idle }

def other (w : World) (a : Poll.Interleaving.Action) : World :=
  let base := w.base.next a
  { w with base, theirs := w.theirs ++ insertedBetween w.base.group base.group }

def handle (w : World) (i : Iteration) (event : Event) : World :=
  match event.kind with
  | .send =>
    w.run (Group.lock event.token .recv) fun w r ↦
      match r with
      | .ok guard => { w with phase := .locked i guard }
      | .error _ => { w with phase := .handling i }
  | .recv => { w with phase := .handling i }
  | _ => { w with phase := .handling { i with events := i.events ++ [event] } }

def unlock (w : World) (i : Iteration) (guard : Guard) (sendDone : Bool) (env : UnlockEnv) :
    World :=
  w.run (Group.unlockConn { guard.lock with sendDone } env) fun w closed ↦
    { w with
      phase := .handling i
      base := if closed then w.base.spawn (.takeConn guard.lock.token) else w.base }

def finish (w : World) (i : Iteration) : World :=
  if i.events ≠ [] then { w with phase := .idle }
  else { w with phase := .polling i.nextReleaseTime }

def next (w : World) : Action → World
  | .other a => w.other a
  | .pollGroup env =>
    match w.phase with
    | .idle => w.run (Group.poll [] env) fun w (events, nextReleaseTime) ↦
        { w with phase := .handling ⟨nextReleaseTime, events, []⟩, theirs := [] }
    | _ => w
  | .handle =>
    match w.phase with
    | .handling ⟨nextReleaseTime, event :: todo, events⟩ =>
      w.handle ⟨nextReleaseTime, todo, events⟩ event
    | _ => w
  | .transmit len now =>
    match w.phase with
    | .locked i guard => w.run (transmit guard len now) fun w (sendDone, _) ↦
        { w with phase := .sent i guard sendDone }
    | _ => w
  | .unlock env =>
    match w.phase with
    | .sent i guard sendDone => w.unlock i guard sendDone env
    | _ => w
  | .finish =>
    match w.phase with
    | .handling ⟨nextReleaseTime, [], events⟩ => w.finish ⟨nextReleaseTime, [], events⟩
    | _ => w
  | .fail =>
    match w.phase with
    | .handling _ => { w with phase := .idle }
    | _ => w
  | .wake =>
    match w.phase with
    | .polling _ => { w with phase := .idle }
    | _ => w

end World

def step (w : World) (a : Action) : Rust World := .ok (w.next a)

/-- Only the polling thread takes events from the group. -/
def Legal (w : World) : Action → Prop
  | .other a => (∀ env, a ≠ .poll env) ∧ Poll.Interleaving.Legal w.base a
  | _ => True

section Touching

variable {α : Type} {R : Ctx → Ctx → Prop} {S : Group → Group → Prop} {w : World} {a : Action}

theorem run_base {x : Section α} {k : World → α → World}
    (hk : ∀ w a, (k w a).base.group = w.base.group) :
    (w.run x k).base.group = leftBy (x w.base.group) := by
  unfold World.run
  cases x w.base.group with
  | ok a group => exact hk _ a
  | error panic group => rfl

theorem carries_transmit (hS : Carries R S) (hR : Steady R) (guard : Guard) (len : ℕ)
    (now : Instant) (g : Group) : S g (leftBy (transmit guard len now g)) := by
  refine hS.bind (hS.deref guard) (fun conn g ↦ ?_) g
  split
  · exact hS.refl g
  · refine hS.bind (hS.derefMut (hR.call (by simp)) guard) (fun _ g ↦ ?_) g
    refine hS.bind (hS.derefMut (hR.call (by simp)) guard) (fun answer g ↦ ?_) g
    split <;> exact hS.refl g

theorem carries_own (hS : Carries R S) (hR : Steady R) (hother : ∀ b, a ≠ .other b)
    (hpoll : ∀ env, a ≠ .pollGroup env) :
    S w.base.group (w.next a).base.group := by
  cases a with
  | other b => exact absurd rfl (hother b)
  | pollGroup env => exact absurd rfl (hpoll env)
  | handle =>
    unfold World.next
    dsimp only
    split
    next event todo events hphase =>
      unfold World.handle
      split
      · rw [run_base]
        · exact hS.operation (fun _ _ _ h ↦ hR.tryLock (by simp) h) event.token _
        · intro w r
          cases r <;> rfl
      · exact hS.refl _
      · exact hS.refl _
    · exact hS.refl _
  | transmit len now =>
    unfold World.next
    dsimp only
    split
    next i guard hphase =>
      rw [run_base]
      · exact carries_transmit hS hR guard len now _
      · exact fun _ _ ↦ rfl
    · exact hS.refl _
  | unlock env =>
    unfold World.next
    dsimp only
    split
    next i guard sendDone hphase =>
      unfold World.unlock
      rw [run_base]
      · exact hS.unlockConn (fun _ _ _ h ↦ hR.unlock h) _
      · intro w closed
        cases closed <;> rfl
    · exact hS.refl _
  | finish =>
    unfold World.next
    dsimp only
    split
    · unfold World.finish
      split <;> exact hS.refl _
    · exact hS.refl _
  | fail =>
    unfold World.next
    dsimp only
    split <;> exact hS.refl _
  | wake =>
    unfold World.next
    dsimp only
    split <;> exact hS.refl _

/-- What a step of the loop does to the group: a critical section of another thread, a poll, or
one of the sections of the polling thread. -/
inductive Touches (w : World) : Action → Group → Prop
  | other (b : Poll.Interleaving.Action) : Touches w (.other b) (w.base.next b).group
  | poll (env : PollEnv) : w.phase = .idle →
      Touches w (.pollGroup env) (leftBy (Group.poll [] env w.base.group))
  | own {a : Action} (g : Group) :
      (∀ {R S}, Carries R S → Steady R → S w.base.group g) → Touches w a g

theorem touches_next (w : World) (a : Action) : Touches w a (w.next a).base.group := by
  by_cases hother : ∃ b, a = .other b
  · obtain ⟨b, rfl⟩ := hother
    exact .other b
  by_cases hpoll : ∃ env, a = .pollGroup env
  · obtain ⟨env, rfl⟩ := hpoll
    cases hphase : w.phase with
    | idle =>
      simp only [World.next, hphase]
      rw [run_base]
      · exact .poll env hphase
      · exact fun _ _ ↦ rfl
    | _ =>
      simp only [World.next, hphase]
      exact .own _ fun hS _ ↦ hS.refl _
  push Not at hother hpoll
  exact .own _ fun hS hR ↦ carries_own hS hR hother hpoll

end Touching

end ZeroRtt.Mio.Loop
