import ZeroRtt.Futures.Tasks

namespace ZeroRtt.Futures.Waiters

open ZeroRtt.Lib.Panics ZeroRtt.Lib.Containers ZeroRtt.Lib.Runs ZeroRtt.Futures ZeroRtt.Futures.Tasks
open ZeroRtt.Api.Types (Token Poll StreamKind)

variable {w w' : World} {key : Key} {waker : Waker}

def Registered (w : World) : Prop := ∀ k t, (k, t) ∈ w.waiting → w.state.slot k = some t

/-- The place in which a step puts a waker, or which it empties after a success,
and the task that does it. -/
def touches (w : World) : Action → Option (Key × Waker)
  | .isEstablished token waker =>
    if token ∈ w.state.establishedConns then none else some (.conn token .connected, waker)
  | .acceptStream token waker =>
    if w.state.stopped || (w.state.incomingStreams.lookup token).getD [] ≠ [] then none
    else some (.conn token .streamAccept, waker)
  | .acceptConn waker =>
    if w.state.stopped || w.state.incomingConns ≠ [] then none else some (.accept, waker)
  | .begin token op waker =>
    if (op.begun w.state token waker).isSome then some (.conn token op.event, waker) else none
  | .finish flight (.ok _) => some (flight.key, flight.waker)
  | _ => none

/-- No other task waits at the place that the step touches. -/
def Alone (w : World) (a : Action) : Prop :=
  ∀ k t, touches w a = some (k, t) → ∀ t', (k, t') ∈ w.waiting → t' = t

inductive Effect (w w' : World) : Option (Key × Waker) → Prop
  | registers (key : Key) (waker : Waker) :
      (∀ k, w'.state.slot k = if k = key then some waker else w.state.slot k) →
      w'.waiting = (key, waker) :: w.waiting → Effect w w' (some (key, waker))
  | takes (key : Key) (waker : Waker) :
      (∀ k, w'.state.slot k = if k = key then none else w.state.slot k) →
      w'.waiting = w.waiting.filter (fun x ↦ x ≠ (key, waker)) → Effect w w' (some (key, waker))
  | passes : (∀ k, w'.state.slot k = w.state.slot k) → w'.waiting ⊆ w.waiting → Effect w w' none
  | rouses (ws : List Waker) :
      w.state.Rouses w'.state ws → w'.waiting = w.waiting.filter (fun x ↦ x.2 ∉ ws) →
      Effect w w' none

section Steps

variable {state : State}

theorem effect_ready {α : Type} {a : α} (hslot : ∀ k, state.slot k = w.state.slot k) :
    Effect w (w.polled key waker (.ready a, state)) none :=
  .passes hslot (List.filter_subset_self _)

theorem effect_pending {α : Type}
    (hslot : ∀ k, state.slot k = if k = key then some waker else w.state.slot k) :
    Effect w (w.polled key waker ((.pending : Poll α), state)) (some (key, waker)) :=
  .registers key waker hslot rfl

theorem effect_rouse {ws : List Waker} (h : w.state.Rouses state ws) :
    Effect w (w.rouse state) none := by
  refine .rouses ws h ?_
  rw [World.rouse, h.woken, List.drop_left]

theorem effect_isEstablished (w : World) (token : Token) (waker : Waker) :
    Effect w (w.polled (.conn token .connected) waker (w.state.isEstablished token waker))
      (touches w (.isEstablished token waker)) := by
  by_cases h : token ∈ w.state.establishedConns
  · simp only [State.isEstablished, touches, h, if_true]
    exact effect_ready fun k ↦ State.slot_of_wakers_eq rfl rfl
  · simp only [State.isEstablished, touches, h, if_false]
    exact effect_pending fun k ↦ State.slot_register

theorem effect_acceptStream (w : World) (token : Token) (waker : Waker) :
    Effect w (w.polled (.conn token .streamAccept) waker (w.state.acceptStream token waker))
      (touches w (.acceptStream token waker)) := by
  by_cases hstopped : w.state.stopped = true
  · simp only [State.acceptStream, touches, hstopped, if_true, Bool.true_or]
    exact effect_ready fun k ↦ rfl
  · cases hqueue : (w.state.incomingStreams.lookup token).getD [] with
    | cons id rest =>
      simp only [State.acceptStream, touches, hstopped, hqueue, Bool.false_eq_true, if_false]
      exact effect_ready fun k ↦ State.slot_of_wakers_eq rfl rfl
    | nil =>
      simp only [State.acceptStream, touches, hstopped, hqueue, Bool.false_eq_true, if_false]
      refine effect_pending fun k ↦ State.slot_register.trans ?_
      split
      · rfl
      · exact State.slot_of_wakers_eq rfl rfl

theorem effect_acceptConn (w : World) (waker : Waker) :
    Effect w (w.polled .accept waker (w.state.acceptConn waker)) (touches w (.acceptConn waker)) := by
  by_cases hstopped : w.state.stopped = true
  · simp only [State.acceptConn, touches, hstopped, if_true, Bool.true_or]
    exact effect_ready fun k ↦ rfl
  · cases hconns : w.state.incomingConns with
    | cons token rest =>
      simp only [State.acceptConn, touches, hstopped, hconns, Bool.false_eq_true, if_false]
      exact effect_ready fun k ↦ State.slot_of_wakers_eq rfl rfl
    | nil =>
      simp only [State.acceptConn, touches, hstopped, hconns, Bool.false_eq_true, if_false]
      refine effect_pending fun k ↦ ?_
      cases k <;> simp [State.slot]

theorem effect_finish {flight : Flight} {answer : Except Io Reply}
    (hstep : step w (.finish flight answer) = .ok w') :
    Effect w w' (touches w (.finish flight answer)) := by
  obtain ⟨⟨result, state⟩, hfinish, hstep⟩ := bind_ok hstep
  cases answer with
  | error err =>
    simp only [State.finishPoll] at hfinish
    split at hfinish
    · cases hfinish
      cases hstep
      exact .passes (fun k ↦ rfl) (List.Subset.refl _)
    · cases hfinish
      cases hstep
      exact .passes (fun k ↦ rfl) (List.filter_subset_self _)
  | ok reply =>
    obtain ⟨conn, hconn, hfinish⟩ := bind_ok hfinish
    cases hfinish
    cases hstep
    refine .takes _ _ (fun k ↦ ?_) rfl
    cases hlookup : w.state.wakers.lookup flight.token with
    | none =>
      rw [hlookup] at hconn
      cases hconn
    | some conn' =>
      rw [hlookup] at hconn
      cases hconn
      exact State.slot_conn_erase hlookup rfl rfl

theorem step_effect {a : Action} (hstep : step w a = .ok w') : Effect w w' (touches w a) := by
  cases a with
  | isEstablished token waker =>
    cases hstep
    exact effect_isEstablished w token waker
  | acceptStream token waker =>
    cases hstep
    exact effect_acceptStream w token waker
  | acceptConn waker =>
    cases hstep
    exact effect_acceptConn w waker
  | begin token op waker =>
    simp only [step] at hstep
    unfold touches
    split at hstep
    next hbegun =>
      cases hstep
      simp only [hbegun, Option.isSome_none, Bool.false_eq_true, if_false]
      exact .passes (fun k ↦ rfl) (List.filter_subset_self _)
    next state hbegun =>
      cases hstep
      simp only [hbegun, Option.isSome_some, if_true]
      obtain rfl := begun_eq hbegun
      exact .registers _ _ (fun k ↦ State.slot_register) rfl
  | finish flight answer => exact effect_finish hstep
  | dispatch events =>
    obtain ⟨state, hdispatch, hstep⟩ := bind_ok hstep
    cases hstep
    obtain ⟨ws, hrouses, -⟩ := State.rouses_dispatchAll hdispatch
    exact effect_rouse hrouses
  | stop =>
    cases hstep
    obtain ⟨ws, hrouses, -⟩ := State.rouses_stop w.state
    exact effect_rouse hrouses
  | shutdown token streamId =>
    cases hstep
    obtain ⟨ws, hrouses⟩ := State.rouses_shutdown w.state token streamId
    exact effect_rouse hrouses
  | cancel key waker =>
    cases hstep
    exact .passes (fun k ↦ rfl) (List.filter_subset_self _)

end Steps

theorem registered_rouses {ws : List Waker} (h : Registered w) (hrouses : w.state.Rouses w'.state ws)
    (hwaiting : w'.waiting = w.waiting.filter (fun x ↦ x.2 ∉ ws)) : Registered w' := by
  intro k t hmem
  rw [hwaiting] at hmem
  obtain ⟨hmem, hnot⟩ := List.mem_filter.mp hmem
  have hslot := h k t hmem
  rcases hrouses.slot k with heq | ⟨-, hws⟩
  · rw [heq, hslot]
  · simp [hws t hslot] at hnot

theorem registered_step (h : Registered w) {a : Action} (hstep : step w a = .ok w')
    (ha : Alone w a) : Registered w' := by
  have heffect := step_effect hstep
  unfold Alone at ha
  generalize touches w a = o at ha heffect
  cases heffect with
  | registers key waker hslot hwaiting =>
    intro k t hmem
    rw [hwaiting] at hmem
    rw [hslot]
    rcases List.mem_cons.mp hmem with heq | hbefore
    · cases heq
      exact if_pos rfl
    · split
      next hk =>
        subst hk
        rw [ha _ _ rfl t hbefore]
      next => exact h k t hbefore
  | takes key waker hslot hwaiting =>
    intro k t hmem
    rw [hwaiting] at hmem
    obtain ⟨hbefore, hne⟩ := List.mem_filter.mp hmem
    rw [hslot]
    split
    next hk =>
      subst hk
      obtain rfl := ha _ _ rfl t hbefore
      simp at hne
    next => exact h k t hbefore
  | passes hslot hwaiting =>
    intro k t hmem
    rw [hslot]
    exact h k t (hwaiting hmem)
  | rouses ws hrouses hwaiting => exact registered_rouses h hrouses hwaiting

theorem alone_of_registered (h : Registered w') {a : Action} (hstep : step w a = .ok w') :
    Alone w a := by
  have heffect := step_effect hstep
  unfold Alone
  generalize touches w a = o at heffect
  cases heffect with
  | registers key waker hslot hwaiting =>
    rintro _ _ ⟨⟩ t' hmem
    have hslot' := h key t' (by rw [hwaiting]; exact List.mem_cons_of_mem _ hmem)
    rw [hslot, if_pos rfl] at hslot'
    exact (Option.some.inj hslot').symm
  | takes key waker hslot hwaiting =>
    rintro _ _ ⟨⟩ t' hmem
    by_contra hne
    have hslot' := h key t' (by rw [hwaiting]; exact List.mem_filter.mpr ⟨hmem, by simpa using hne⟩)
    rw [hslot, if_pos rfl] at hslot'
    cases hslot'
  | passes | rouses =>
    intro k t heq
    cases heq

theorem registered_of_run (h : Run step (fun w a ↦ Legal w a ∧ Alone w a) .initial w) :
    Registered w := by
  refine h.invariant (P := Registered) ?_ fun w w' a hw ha hstep ↦ registered_step hw hstep ha.2
  intro k t hmem
  cases hmem

/-- As long as nobody registers at, or takes from, a place at which another task
waits, the waker of every task that waits is in its place, and an event that is
dispatched leaves nobody waiting for it. The step that does so is the one after
which a waker is missing. -/
theorem no_waiter_displaced (h : Run step (fun w a ↦ Legal w a ∧ Alone w a) .initial w) :
    Registered w ∧
      (∀ events w', step w (.dispatch events) = .ok w' → ∀ e ∈ events, ∀ k, State.Concerns e k →
        ∀ t, (k, t) ∉ w'.waiting) ∧
      ∀ a w', Legal w a → step w a = .ok w' → (Registered w' ↔ Alone w a) := by
  have hregistered := registered_of_run h
  refine ⟨hregistered, ?_, ?_⟩
  · intro events w' hstep e he k hk t hmem
    obtain ⟨state, hdispatch, hrest⟩ := bind_ok hstep
    obtain ⟨ws, hrouses, hnone⟩ := State.rouses_dispatchAll hdispatch
    have hslot := registered_step hregistered hstep (fun _ _ heq ↦ by cases heq) k t hmem
    cases hrest
    rw [show (w.rouse state).state = state from rfl, hnone e he k hk] at hslot
    cases hslot
  · intro a w' _ hstep
    exact ⟨fun h' ↦ alone_of_registered h' hstep, registered_step hregistered hstep⟩

theorem no_waiter_displaced_example :
    ∃ w w', Run step (fun w a ↦ Legal w a ∧ Alone w a) .initial w ∧
      (.conn ⟨1⟩ .streamAccept, ⟨0⟩) ∈ w.waiting ∧
      step w (.dispatch [⟨⟨1⟩, .streamAccept, false, false, 4⟩]) = .ok w' ∧
      (.conn ⟨1⟩ .streamAccept, ⟨0⟩) ∉ w'.waiting := by
  have hrun : Run step (fun w a ↦ Legal w a ∧ Alone w a) .initial _ :=
    .one (i := .acceptStream ⟨1⟩ ⟨0⟩)
      ⟨by simp [Legal, World.initial], fun _ _ _ _ hmem ↦ by cases hmem⟩ rfl
  refine ⟨_, _, hrun, by decide, rfl, ?_⟩
  exact (no_waiter_displaced hrun).2.1 [⟨⟨1⟩, .streamAccept, false, false, 4⟩] _ rfl _
    (List.mem_cons_self ..) _ rfl _

/-- Two tasks accept streams of one connection; the second takes the place of
the first, which is not woken when a stream comes in. -/
theorem waiter_displaced :
    ∃ w w', Run step Legal .initial w ∧
      step w (.dispatch [⟨⟨1⟩, .streamAccept, false, false, 4⟩]) = .ok w' ∧
      (.conn ⟨1⟩ .streamAccept, ⟨0⟩) ∈ w.waiting ∧
      (.conn ⟨1⟩ .streamAccept, ⟨0⟩) ∈ w'.waiting ∧ w'.state.woken = [⟨7⟩] := by
  have hfirst : Run step Legal .initial _ :=
    .one (i := .acceptStream ⟨1⟩ ⟨0⟩) (by simp [Legal, World.initial]) rfl
  have hsecond : Run step Legal .initial _ :=
    .tail hfirst (i := .acceptStream ⟨1⟩ ⟨7⟩) (fun f hf ↦ by cases hf) rfl
  exact ⟨_, _, hsecond, rfl, by decide, by decide, by decide⟩

end ZeroRtt.Futures.Waiters
