import ZeroRtt.Futures.Tasks

namespace ZeroRtt.Futures.Stopping

open ZeroRtt.Lib.Panics ZeroRtt.Lib.Containers ZeroRtt.Lib.Runs ZeroRtt.Futures ZeroRtt.Futures.Tasks
open ZeroRtt.Api.Types (Token Poll StreamKind)

section Flag

variable {s s' : State} {token : Token} {event : Event} {waker : Waker}

theorem stopped_wake : (s.wake token event).stopped = s.stopped := by
  cases hconn : s.wakers.lookup token with
  | none => simp only [State.wake, hconn]
  | some conn => cases hw : conn.lookup event <;> simp only [State.wake, hconn, hw]

theorem stopped_onClosed : (s.onClosed token).stopped = s.stopped := by
  cases hconn : s.wakers.lookup token <;> simp only [State.onClosed, hconn]

theorem stopped_onAccept : (s.onAccept token).stopped = s.stopped := by
  cases haccept : s.accept <;> simp only [State.onAccept, haccept]

theorem stopped_dispatch {e : Api.Types.Event} (h : s.dispatch e = .ok s') :
    s'.stopped = s.stopped := by
  unfold State.dispatch at h
  cases hkind : e.kind with
  | connected | streamOpenBidi | streamOpenUni | streamAccept | streamSend | streamRecv =>
    rw [hkind] at h
    cases h
    exact stopped_wake
  | accept =>
    rw [hkind] at h
    cases h
    exact stopped_onAccept
  | closed =>
    rw [hkind] at h
    cases h
    exact stopped_onClosed
  | send | recv | readLock =>
    rw [hkind] at h
    cases h

theorem stopped_dispatchAll {events : List Api.Types.Event} (h : s.dispatchAll events = .ok s') :
    s'.stopped = s.stopped := by
  induction events generalizing s with
  | nil =>
    cases h
    rfl
  | cons e events ih =>
    obtain ⟨u, hu, hrest⟩ := bind_ok h
    rw [ih hrest, stopped_dispatch hu]

theorem stopped_finishPoll {α : Type} {answer : Except Io α} {result : Poll (Except Io α)}
    (h : s.finishPoll token event answer = .ok (result, s')) : s'.stopped = s.stopped := by
  cases answer with
  | ok a =>
    obtain ⟨conn, -, h⟩ := bind_ok h
    cases h
    rfl
  | error err =>
    simp only [State.finishPoll] at h
    split at h
    · cases h
      rfl
    · cases h
      rfl

theorem stopped_isEstablished : (s.isEstablished token waker).2.stopped = s.stopped := by
  unfold State.isEstablished
  split <;> rfl

theorem stopped_acceptStream : (s.acceptStream token waker).2.stopped = s.stopped := by
  unfold State.acceptStream
  split
  · rfl
  · dsimp only
    split <;> rfl

theorem stopped_acceptConn : (s.acceptConn waker).2.stopped = s.stopped := by
  unfold State.acceptConn
  split
  · rfl
  · split <;> rfl

theorem stopped_shutdown {streamId : ℕ} : (s.shutdown token streamId).2.stopped = s.stopped := by
  unfold State.shutdown
  dsimp only
  split
  · exact stopped_wake.trans stopped_wake
  · exact stopped_wake.trans stopped_wake

end Flag

section Runs

variable {w w' : World}

theorem stopped_polled {α : Type} {r : Poll α × State} {key : Key} {waker : Waker}
    (h : r.2.stopped = w.state.stopped) :
    (w.polled key waker r).state.stopped = w.state.stopped := by
  obtain ⟨result, state⟩ := r
  cases result <;> exact h

theorem stopped_step {a : Action} (hstep : step w a = .ok w') :
    w'.state.stopped = w.state.stopped := by
  cases a with
  | isEstablished token waker =>
    cases hstep
    exact stopped_polled stopped_isEstablished
  | acceptStream token waker =>
    cases hstep
    exact stopped_polled stopped_acceptStream
  | acceptConn waker =>
    cases hstep
    exact stopped_polled stopped_acceptConn
  | begin token op waker =>
    simp only [step] at hstep
    split at hstep
    next =>
      cases hstep
      rfl
    next state hbegun =>
      cases hstep
      obtain rfl := begun_eq hbegun
      rfl
  | finish flight answer =>
    obtain ⟨⟨result, state⟩, hfinish, hstep⟩ := bind_ok hstep
    have hstate : w'.state = state := by
      cases result <;> cases hstep <;> rfl
    rw [hstate, stopped_finishPoll hfinish]
  | dispatch events =>
    obtain ⟨state, hdispatch, hstep⟩ := bind_ok hstep
    cases hstep
    exact stopped_dispatchAll hdispatch
  | stop =>
    cases hstep
    rfl
  | shutdown token streamId =>
    cases hstep
    exact stopped_shutdown
  | cancel key waker =>
    cases hstep
    rfl

theorem stopped_run (h : Run step Legal w w') (hw : w.state.stopped = false) :
    w'.state.stopped = false := by
  apply h.invariant (P := fun w ↦ w.state.stopped = false) hw
  intro a b i ha _ hstep
  rw [stopped_step hstep, ha]

/-- The polls of a state tell that the group was stopped, and the loop ends when
it finds the group below empty. -/
structure Final (s : State) : Prop where
  acceptConn : ∀ waker, (s.acceptConn waker).1 = .ready (.error stoppedError)
  acceptStream : ∀ token waker, (s.acceptStream token waker).1 = .ready (.error stoppedError)
  beginOpen : ∀ token kind waker, s.beginOpen token kind waker = .done (.error stoppedError)
  beginSend : ∀ token id shut waker, s.beginSend token id shut waker = .done (.error stoppedError)
  beginRecv : ∀ token id shut waker, s.beginRecv token id shut waker = .done (.error stoppedError)
  pollFlush : s.pollFlush = .ready (.error stoppedError)
  runOnce : ∀ events s' ended, s.runOnce events 0 = .ok (ended, s') → ended = true

structure Unstopped (s : State) : Prop where
  acceptConn : ∀ waker, (s.acceptConn waker).1 ≠ .ready (.error stoppedError)
  acceptStream : ∀ token waker, (s.acceptStream token waker).1 ≠ .ready (.error stoppedError)
  beginOpen : ∀ token kind waker, s.beginOpen token kind waker ≠ .done (.error stoppedError)
  beginSend : ∀ token id shut waker, s.beginSend token id shut waker ≠ .done (.error stoppedError)
  beginRecv : ∀ token id shut waker, s.beginRecv token id shut waker ≠ .done (.error stoppedError)
  pollFlush : s.pollFlush = .ready (.ok ())
  runOnce : ∀ events s' ended, s.runOnce events 0 = .ok (ended, s') → ended = false

theorem unstopped_of_flag {s : State} (h : s.stopped = false) : Unstopped s where
  acceptConn waker := by
    cases hconns : s.incomingConns <;> simp [State.acceptConn, h, hconns]
  acceptStream token waker := by
    cases hqueue : (s.incomingStreams.lookup token).getD [] <;>
      simp [State.acceptStream, h, hqueue]
  beginOpen token kind waker := by simp [State.beginOpen, State.beginPoll, h]
  beginSend token id shut waker := by
    cases shut <;> simp [State.beginSend, State.beginPoll, h, shutdownError, stoppedError]
  beginRecv token id shut waker := by
    cases shut <;> simp [State.beginRecv, State.beginPoll, h]
  pollFlush := by simp [State.pollFlush, h]
  runOnce events s' ended hrun := by
    obtain ⟨u, hu, hrest⟩ := bind_ok hrun
    cases hrest
    simp [stopped_dispatchAll hu, h]

/-- A stop wakes every task whose waker is registered, but after it no poll in
any run tells that the group was stopped, and the loop never ends. -/
theorem stop_never_final (h : Run step Legal .initial w) {w₁ : World}
    (hstop : step w .stop = .ok w₁) (h' : Run step Legal w₁ w') :
    (∀ k t, w.state.slot k = some t → t ∈ w₁.state.woken.drop w.state.woken.length) ∧
      Unstopped w'.state ∧ ¬ Final w'.state := by
  have hflag : w₁.state.stopped = false := by
    rw [stopped_step hstop]
    exact stopped_run h rfl
  have hunstopped := unstopped_of_flag (stopped_run h' hflag)
  refine ⟨?_, hunstopped, ?_⟩
  · intro k t hslot
    cases hstop
    obtain ⟨ws, hrouses, hnone⟩ := State.rouses_stop w.state
    rw [show (w.rouse w.state.stop).state.woken = w.state.woken ++ ws from hrouses.woken,
      List.drop_left]
    rcases hrouses.slot k with heq | ⟨-, hws⟩
    · rw [hnone, hslot] at heq
      cases heq
    · exact hws t hslot
  · intro hfinal
    exact hunstopped.acceptConn ⟨0⟩ (hfinal.acceptConn ⟨0⟩)

theorem stop_never_final_example :
    ∃ w w₁, Run step Legal .initial w ∧ step w .stop = .ok w₁ ∧ ⟨3⟩ ∈ w₁.state.woken ∧
      Unstopped w₁.state := by
  have hrun : Run step Legal .initial _ :=
    .one (i := .acceptConn ⟨3⟩) (by simp [Legal, World.initial]) rfl
  obtain ⟨hwoken, hunstopped, -⟩ := stop_never_final hrun rfl (.refl _)
  exact ⟨_, _, hrun, rfl, List.mem_of_mem_drop (hwoken .accept ⟨3⟩ rfl), hunstopped⟩

/-- After a stop `accept` waits for a connection, `poll_flush` succeeds, and the
loop finds the group below empty and goes on. -/
theorem stop_is_not_final :
    ∃ w, Run step Legal .initial w ∧ step .initial .stop = .ok w ∧
      (w.state.acceptConn ⟨3⟩).1 = .pending ∧ w.state.pollFlush = .ready (.ok ()) ∧
      ∃ s, w.state.runOnce [] 0 = .ok (false, s) :=
  ⟨_, .one (i := .stop) trivial rfl, rfl, rfl, rfl, _, rfl⟩

end Runs

end ZeroRtt.Futures.Stopping
