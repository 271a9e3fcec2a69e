import ZeroRtt.Futures.Entries
import ZeroRtt.Futures.Stopping

namespace ZeroRtt.Futures.Residue

open ZeroRtt.Lib.Panics ZeroRtt.Lib.Containers ZeroRtt.Lib.Runs ZeroRtt.Futures ZeroRtt.Futures.Tasks
open ZeroRtt.Futures.Entries ZeroRtt.Futures.Stopping
open ZeroRtt.Api.Types (Token Poll StreamKind)

variable {t : Token}

structure Swept (s : State) (t : Token) : Prop where
  wakers : ¬ Has s t
  streams : s.incomingStreams.lookup t = none

structure Clean (s : State) (t : Token) : Prop extends Swept s t where
  established : t ∉ s.establishedConns

def Connects (t : Token) (e : Api.Types.Event) : Prop := e.kind = .connected ∧ e.token = t

def Admits (t : Token) (e : Api.Types.Event) : Prop := e.kind = .streamAccept ∧ e.token = t

instance (t : Token) (e : Api.Types.Event) : Decidable (Connects t e) :=
  inferInstanceAs (Decidable (e.kind = .connected ∧ e.token = t))

/-- Every stream that is reported in a batch is followed by the close of its
connection. -/
def Cleared (t : Token) : List Api.Types.Event → Prop
  | [] => True
  | e :: events => (Admits t e → ∃ e' ∈ events, Closes t e') ∧ Cleared t events

section Dispatch

variable {s s' : State} {token : Token} {event : Event}

theorem tables_wake :
    (s.wake token event).incomingStreams = s.incomingStreams ∧
      (s.wake token event).establishedConns = s.establishedConns := by
  cases hconn : s.wakers.lookup token with
  | none => simp only [State.wake, hconn, and_self]
  | some conn => cases hw : conn.lookup event <;> simp only [State.wake, hconn, hw, and_self]

theorem tables_onClosed :
    (s.onClosed token).incomingStreams = s.incomingStreams.erase token ∧
      (s.onClosed token).establishedConns = s.establishedConns := by
  cases hconn : s.wakers.lookup token <;> simp only [State.onClosed, hconn, and_self]

theorem tables_onAccept :
    (s.onAccept token).incomingStreams = s.incomingStreams ∧
      (s.onAccept token).establishedConns = s.establishedConns := by
  cases haccept : s.accept <;> simp only [State.onAccept, haccept, and_self]

theorem established_dispatch {e : Api.Types.Event} (h : s.dispatch e = .ok s') :
    t ∈ s'.establishedConns ↔ Connects t e ∨ t ∈ s.establishedConns := by
  unfold State.dispatch at h
  cases hkind : e.kind with
  | connected =>
    rw [hkind] at h
    cases h
    simp only [State.onConnected, tables_wake.2, HashSet.mem_insert, Connects, hkind, true_and,
      eq_comm]
  | streamOpenBidi | streamOpenUni | streamAccept | streamSend | streamRecv =>
    rw [hkind] at h
    cases h
    simp only [Connects, hkind, reduceCtorEq, false_and, false_or]
    exact iff_of_eq (congrArg (t ∈ ·) tables_wake.2)
  | accept =>
    rw [hkind] at h
    cases h
    simp only [Connects, hkind, reduceCtorEq, false_and, false_or, tables_onAccept.2]
  | closed =>
    rw [hkind] at h
    cases h
    simp only [Connects, hkind, reduceCtorEq, false_and, false_or, tables_onClosed.2]
  | send | recv | readLock =>
    rw [hkind] at h
    cases h

theorem streams_dispatch {e : Api.Types.Event} (h : s.dispatch e = .ok s') :
    s'.incomingStreams.lookup t = none ↔
      ¬ Admits t e ∧ (Closes t e ∨ s.incomingStreams.lookup t = none) := by
  unfold State.dispatch at h
  cases hkind : e.kind with
  | connected | streamOpenBidi | streamOpenUni | streamSend | streamRecv =>
    rw [hkind] at h
    cases h
    simp only [Admits, Closes, hkind, reduceCtorEq, false_and, not_false_eq_true, true_and, false_or]
    exact iff_of_eq (congrArg (AList.lookup t · = none) tables_wake.1)
  | streamAccept =>
    rw [hkind] at h
    cases h
    simp only [State.onStreamAccept, tables_wake.1, Admits, Closes, hkind, true_and, reduceCtorEq,
      false_and, false_or]
    by_cases ht : t = e.token
    · subst ht
      simp
    · simp [AList.lookup_insert_ne ht, Ne.symm ht]
  | accept =>
    rw [hkind] at h
    cases h
    simp only [Admits, Closes, hkind, reduceCtorEq, false_and, not_false_eq_true, true_and, false_or,
      tables_onAccept.1]
  | closed =>
    rw [hkind] at h
    cases h
    simp only [Admits, Closes, hkind, reduceCtorEq, false_and, not_false_eq_true, true_and,
      tables_onClosed.1]
    by_cases ht : t = e.token
    · subst ht
      simp
    · simp [AList.lookup_erase_ne ht, Ne.symm ht]
  | send | recv | readLock =>
    rw [hkind] at h
    cases h

theorem established_dispatchAll {events : List Api.Types.Event} (h : s.dispatchAll events = .ok s') :
    t ∈ s'.establishedConns ↔ (∃ e ∈ events, Connects t e) ∨ t ∈ s.establishedConns := by
  induction events generalizing s with
  | nil =>
    cases h
    simp
  | cons e events ih =>
    obtain ⟨u, hu, hrest⟩ := bind_ok h
    rw [ih hrest, established_dispatch hu, List.exists_mem_cons_iff, or_left_comm, or_assoc]

theorem streams_dispatchAll {events : List Api.Types.Event} (h : s.dispatchAll events = .ok s') :
    s'.incomingStreams.lookup t = none ↔
      Cleared t events ∧ ((∃ e ∈ events, Closes t e) ∨ s.incomingStreams.lookup t = none) := by
  induction events generalizing s with
  | nil =>
    cases h
    simp [Cleared]
  | cons e events ih =>
    obtain ⟨u, hu, hrest⟩ := bind_ok h
    rw [ih hrest, streams_dispatch hu, List.exists_mem_cons_iff, Cleared]
    have hexclusive : Admits t e → ¬ Closes t e := by
      rintro ⟨hadmits, -⟩ ⟨hcloses, -⟩
      rw [hadmits] at hcloses
      cases hcloses
    generalize (∃ e ∈ events, Closes t e) = later
    tauto

theorem swept_dispatchAll {events : List Api.Types.Event} (h : s.dispatchAll events = .ok s') :
    Swept s' t ↔ Cleared t events ∧ ((∃ e ∈ events, Closes t e) ∨ Swept s t) := by
  have hwakers := has_dispatchAll (t := t) h
  have hstreams := streams_dispatchAll (t := t) h
  by_cases hcloses : ∃ e ∈ events, Closes t e
  · have hgone : ¬ Has s' t := by
      rw [hwakers]
      rintro ⟨hnone, -⟩
      obtain ⟨e, he, hclose⟩ := hcloses
      exact hnone e he hclose
    simp only [hcloses, true_or, and_true] at hstreams ⊢
    exact ⟨fun hs ↦ hstreams.mp hs.streams, fun hc ↦ ⟨hgone, hstreams.mpr hc⟩⟩
  · have hsame : Has s' t ↔ Has s t := by
      rw [hwakers]
      push Not at hcloses
      exact and_iff_right hcloses
    simp only [hcloses, false_or] at hstreams ⊢
    constructor
    · rintro ⟨hno, hnone⟩
      obtain ⟨hc, hnone⟩ := hstreams.mp hnone
      exact ⟨hc, fun hs ↦ hno (hsame.mpr hs), hnone⟩
    · rintro ⟨hc, hno, hnone⟩
      exact ⟨fun hs ↦ hno (hsame.mp hs), hstreams.mpr ⟨hc, hnone⟩⟩

end Dispatch

section Runs

variable {w w' w₁ : World}

def runAll (w : World) (actions : List Action) : Rust World := actions.foldlM step w

/-- Whether a `Connected` event of the token was dispatched that no later poll of
`is_established` took up. -/
def mark (t : Token) (m : Bool) : Action → Bool
  | .dispatch events => m || events.any fun e ↦ Connects t e
  | .isEstablished token _ => m && token ≠ t
  | _ => m

def marked (t : Token) (actions : List Action) : Bool := actions.foldl (mark t) false

/-- What may come once the connection was closed: a batch that clears the streams
it reports, a poll of `is_established` that takes the mark up, polls on a stream
that was shut down, and whatever is about other connections. -/
def Harmless (t : Token) (m : Bool) : Action → Prop
  | .isEstablished token _ => token = t → m = true
  | .acceptStream token _ => token ≠ t
  | .begin token op _ => token = t → op.shut = true
  | .dispatch events => Cleared t events
  | _ => True

def HarmlessAll (t : Token) : Bool → List Action → Prop
  | _, [] => True
  | m, a :: actions => Harmless t m a ∧ HarmlessAll t (mark t m a) actions

theorem swept_congr {s s' : State} (hwakers : Has s' t ↔ Has s t)
    (hstreams : s'.incomingStreams = s.incomingStreams) : Swept s' t ↔ Swept s t := by
  constructor
  · rintro ⟨hno, hnone⟩
    exact ⟨fun h ↦ hno (hwakers.mpr h), hstreams ▸ hnone⟩
  · rintro ⟨hno, hnone⟩
    exact ⟨fun h ↦ hno (hwakers.mp h), hstreams.symm ▸ hnone⟩

theorem not_swept_of_has {s : State} (h : Has s t) : ¬ Swept s t := fun hs ↦ hs.wakers h

theorem state_polled {α : Type} {r : Poll α × State} {key : Key} {waker : Waker} :
    (w.polled key waker r).state = r.2 := by
  obtain ⟨result, state⟩ := r
  cases result <;> rfl

section Polls

variable {s s' : State} {token : Token} {waker : Waker}

theorem swept_register {event : Event} (h : Swept s t) :
    Swept (s.register token event waker) t ↔ token ≠ t := by
  by_cases ht : t = token
  · simp only [ht, ne_eq, not_true_eq_false, iff_false]
    exact not_swept_of_has (has_register.mpr (.inl rfl))
  · refine iff_of_true ?_ (Ne.symm ht)
    exact (swept_congr (has_register.trans (or_iff_right ht)) rfl).mpr h

theorem swept_isEstablished (h : Swept s t) {m : Bool}
    (hm : t ∈ s.establishedConns ↔ m = true) :
    Swept (s.isEstablished token waker).2 t ↔ (token = t → m = true) := by
  by_cases hmem : token ∈ s.establishedConns
  · simp only [State.isEstablished, hmem, if_true]
    refine iff_of_true ⟨h.wakers, h.streams⟩ ?_
    rintro rfl
    exact hm.mp hmem
  · simp only [State.isEstablished, hmem, if_false]
    rw [swept_register h]
    refine ⟨fun hne heq ↦ absurd heq hne, ?_⟩
    rintro himp rfl
    exact hmem (hm.mpr (himp rfl))

theorem swept_acceptStream (hrunning : s.stopped = false) (h : Swept s t) :
    Swept (s.acceptStream token waker).2 t ↔ token ≠ t := by
  by_cases ht : token = t
  · subst ht
    simp only [ne_eq, not_true_eq_false, iff_false]
    intro hswept
    have hstreams := hswept.streams
    cases hqueue : (s.incomingStreams.lookup token).getD [] <;>
      simp [State.acceptStream, hrunning, hqueue, State.register] at hstreams
  · refine iff_of_true ?_ ht
    have hpop : ∀ rest, (s.incomingStreams.insert token rest).lookup t = none := by
      intro rest
      rw [AList.lookup_insert_ne (Ne.symm ht), h.streams]
    cases hqueue : (s.incomingStreams.lookup token).getD [] with
    | cons id rest =>
      simp only [State.acceptStream, hrunning, hqueue, Bool.false_eq_true, if_false]
      exact ⟨h.wakers, hpop _⟩
    | nil =>
      simp only [State.acceptStream, hrunning, hqueue, Bool.false_eq_true, if_false]
      refine (swept_register ?_).mpr ht
      exact ⟨h.wakers, hpop _⟩

theorem swept_acceptConn : Swept (s.acceptConn waker).2 t ↔ Swept s t := by
  unfold State.acceptConn
  split
  · rfl
  · split
    · exact swept_congr (has_of_wakers_eq rfl) rfl
    · exact swept_congr (has_of_wakers_eq rfl) rfl

theorem streams_finishPoll {α : Type} {event : Event} {answer : Except Io α}
    {result : Poll (Except Io α)} (h : s.finishPoll token event answer = .ok (result, s')) :
    s'.incomingStreams = s.incomingStreams ∧ s'.establishedConns = s.establishedConns := by
  cases answer with
  | ok a =>
    obtain ⟨conn, -, h⟩ := bind_ok h
    cases h
    exact ⟨rfl, rfl⟩
  | error err =>
    simp only [State.finishPoll] at h
    split at h
    · cases h
      exact ⟨rfl, rfl⟩
    · cases h
      exact ⟨rfl, rfl⟩

theorem tables_shutdown {streamId : ℕ} :
    (s.shutdown token streamId).2.incomingStreams = s.incomingStreams ∧
      (s.shutdown token streamId).2.establishedConns = s.establishedConns := by
  unfold State.shutdown
  dsimp only
  split
  · exact ⟨tables_wake.1.trans tables_wake.1, tables_wake.2.trans tables_wake.2⟩
  · exact ⟨tables_wake.1.trans tables_wake.1, tables_wake.2.trans tables_wake.2⟩

end Polls

theorem swept_step (hrunning : w.state.stopped = false) {m : Bool}
    (hm : t ∈ w.state.establishedConns ↔ m = true) (h : Swept w.state t) {a : Action}
    (hstep : step w a = .ok w') : Swept w'.state t ↔ Harmless t m a := by
  cases a with
  | isEstablished token waker =>
    cases hstep
    rw [state_polled]
    exact swept_isEstablished h hm
  | acceptStream token waker =>
    cases hstep
    rw [state_polled]
    exact swept_acceptStream hrunning h
  | acceptConn waker =>
    cases hstep
    rw [state_polled]
    exact iff_of_true (swept_acceptConn.mpr h) trivial
  | begin token op waker =>
    simp only [step, begun_of_running hrunning] at hstep
    cases hshut : op.shut with
    | true =>
      simp only [hshut, if_true] at hstep
      cases hstep
      exact iff_of_true h fun _ ↦ hshut
    | false =>
      simp only [hshut, Bool.false_eq_true, if_false] at hstep
      cases hstep
      simp only [Harmless, hshut, Bool.false_eq_true, imp_false]
      exact swept_register h
  | finish flight answer =>
    obtain ⟨⟨result, state⟩, hfinish, hstep⟩ := bind_ok hstep
    have hstate : w'.state = state := by
      cases result <;> cases hstep <;> rfl
    rw [hstate]
    have hswept := swept_congr (has_finishPoll (t := t) hfinish) (streams_finishPoll hfinish).1
    exact iff_of_true (hswept.mpr h) trivial
  | dispatch events =>
    obtain ⟨state, hdispatch, hstep⟩ := bind_ok hstep
    cases hstep
    apply (swept_dispatchAll hdispatch).trans
    simp only [h, or_true, and_true, Harmless]
  | stop =>
    cases hstep
    exact iff_of_true ⟨not_has_stop, h.streams⟩ trivial
  | shutdown token streamId =>
    cases hstep
    exact iff_of_true ((swept_congr has_shutdown tables_shutdown.1).mpr h) trivial
  | cancel key waker =>
    cases hstep
    exact iff_of_true h trivial

theorem mark_isEstablished {s : State} {m : Bool} (hm : t ∈ s.establishedConns ↔ m = true)
    (token : Token) (waker : Waker) :
    t ∈ (s.isEstablished token waker).2.establishedConns ↔
      mark t m (.isEstablished token waker) = true := by
  simp only [mark, Bool.and_eq_true, decide_eq_true_eq, ← hm]
  by_cases hmem : token ∈ s.establishedConns
  · simp only [State.isEstablished, hmem, if_true, HashSet.mem_erase]
    rw [and_comm, ne_comm]
  · simp only [State.isEstablished, hmem, if_false, State.register]
    refine ⟨fun ht ↦ ⟨ht, ?_⟩, And.left⟩
    rintro rfl
    exact hmem ht

theorem established_acceptStream {s : State} {token : Token} {waker : Waker} :
    (s.acceptStream token waker).2.establishedConns = s.establishedConns := by
  unfold State.acceptStream
  split
  · rfl
  · dsimp only
    split <;> rfl

theorem established_acceptConn {s : State} {waker : Waker} :
    (s.acceptConn waker).2.establishedConns = s.establishedConns := by
  unfold State.acceptConn
  split
  · rfl
  · split <;> rfl

theorem mark_step {m : Bool} (hm : t ∈ w.state.establishedConns ↔ m = true) {a : Action}
    (hstep : step w a = .ok w') : t ∈ w'.state.establishedConns ↔ mark t m a = true := by
  cases a with
  | isEstablished token waker =>
    cases hstep
    rw [state_polled]
    exact mark_isEstablished hm token waker
  | acceptStream token waker =>
    cases hstep
    rwa [state_polled, established_acceptStream]
  | acceptConn waker =>
    cases hstep
    rwa [state_polled, established_acceptConn]
  | begin token op waker =>
    simp only [step] at hstep
    split at hstep
    next =>
      cases hstep
      exact hm
    next state hbegun =>
      cases hstep
      obtain rfl := begun_eq hbegun
      exact hm
  | finish flight answer =>
    obtain ⟨⟨result, state⟩, hfinish, hstep⟩ := bind_ok hstep
    have hstate : w'.state = state := by
      cases result <;> cases hstep <;> rfl
    rwa [hstate, (streams_finishPoll hfinish).2]
  | dispatch events =>
    obtain ⟨state, hdispatch, hstep⟩ := bind_ok hstep
    cases hstep
    apply (established_dispatchAll hdispatch).trans
    simp only [hm, mark, Bool.or_eq_true, List.any_eq_true, decide_eq_true_eq]
    exact or_comm
  | stop =>
    cases hstep
    exact hm
  | shutdown token streamId =>
    cases hstep
    exact (iff_of_eq (congrArg (t ∈ ·) tables_shutdown.2)).trans hm
  | cancel key waker =>
    cases hstep
    exact hm

/-- What the runs of this section keep: the group is not stopped, and the marks
are those of the state. -/
structure Tracks (t : Token) (w : World) (m : Bool) : Prop where
  running : w.state.stopped = false
  marks : t ∈ w.state.establishedConns ↔ m = true

theorem Tracks.step {m : Bool} (h : Tracks t w m) {a : Action} (hstep : Tasks.step w a = .ok w') :
    Tracks t w' (mark t m a) :=
  ⟨by rw [stopped_step hstep, h.running], mark_step h.marks hstep⟩

theorem Tracks.runAll {m : Bool} (h : Tracks t w m) {actions : List Action}
    (hrun : runAll w actions = .ok w') : Tracks t w' (actions.foldl (mark t) m) := by
  induction actions generalizing w m with
  | nil =>
    cases hrun
    exact h
  | cons a actions ih =>
    obtain ⟨u, hu, hrest⟩ := bind_ok hrun
    exact ih (h.step hu) hrest

theorem swept_runAll {m : Bool} (htracks : Tracks t w m) (h : Swept w.state t)
    {actions : List Action} (hrun : runAll w actions = .ok w') (hall : HarmlessAll t m actions) :
    Swept w'.state t := by
  induction actions generalizing w m with
  | nil =>
    cases hrun
    exact h
  | cons a actions ih =>
    obtain ⟨u, hu, hrest⟩ := bind_ok hrun
    have hswept := (swept_step htracks.running htracks.marks h hu).mpr hall.1
    exact ih (htracks.step hu) hswept hrest hall.2

theorem clean_iff {s : State} : Clean s t ↔ Swept s t ∧ t ∉ s.establishedConns :=
  ⟨fun h ↦ ⟨h.toSwept, h.established⟩, fun h ↦ ⟨h.1, h.2⟩⟩

theorem runAll_append (w : World) (xs ys : List Action) :
    runAll w (xs ++ ys) = runAll w xs >>= fun w ↦ runAll w ys := List.foldlM_append

/-- A batch with the close of a connection leaves nothing of it, apart from a
mark, exactly if it clears the streams it reports. From then on, as long as only
harmless steps are taken, nothing of the connection is left exactly if no mark is,
and a step that is not harmless leaves something. -/
theorem closed_leaves_nothing (t : Token) (before after : List Action)
    (events : List Api.Types.Event)
    (hbefore : runAll .initial (before ++ [.dispatch events]) = .ok w₁)
    (hclosed : ∃ e ∈ events, Closes t e) (hafter : runAll w₁ after = .ok w')
    (hharmless : HarmlessAll t (marked t (before ++ [.dispatch events])) after) :
    (Swept w₁.state t ↔ Cleared t events) ∧
      (Cleared t events →
        (Clean w'.state t ↔ marked t (before ++ .dispatch events :: after) = false) ∧
        ∀ a w'', step w' a = .ok w'' →
          (Swept w''.state t ↔ Harmless t (marked t (before ++ .dispatch events :: after)) a)) := by
  have hstart : Tracks t .initial false := ⟨rfl, by simp [World.initial, State.new]⟩
  have htracks₁ : Tracks t w₁ (marked t (before ++ [.dispatch events])) := hstart.runAll hbefore
  have hmarked : after.foldl (mark t) (marked t (before ++ [.dispatch events])) =
      marked t (before ++ .dispatch events :: after) := by
    rw [marked, marked, ← List.foldl_append, List.append_assoc, List.singleton_append]
  have htracks := htracks₁.runAll hafter
  rw [hmarked] at htracks
  have hswept₁ : Swept w₁.state t ↔ Cleared t events := by
    rw [runAll_append] at hbefore
    obtain ⟨u, -, hlast⟩ := bind_ok hbefore
    obtain ⟨v, hv, hpure⟩ := bind_ok hlast
    cases hpure
    obtain ⟨state, hdispatch, hstep⟩ := bind_ok hv
    cases hstep
    apply (swept_dispatchAll hdispatch).trans
    simp only [hclosed, true_or, and_true]
  refine ⟨hswept₁, fun hcleared ↦ ?_⟩
  have hswept := swept_runAll htracks₁ (hswept₁.mpr hcleared) hafter hharmless
  refine ⟨?_, fun a w'' hstep ↦ swept_step htracks.running htracks.marks hswept hstep⟩
  rw [clean_iff, htracks.marks, and_iff_right hswept, Bool.not_eq_true]

end Runs

section Examples

def connectedEvent : Api.Types.Event := ⟨⟨1⟩, .connected, false, false, 0⟩

def acceptedEvent : Api.Types.Event := ⟨⟨1⟩, .streamAccept, false, false, 4⟩

def closedEvent : Api.Types.Event := ⟨⟨1⟩, .closed, false, false, 0⟩

theorem closed_leaves_nothing_example :
    ∃ w, runAll .initial [.isEstablished ⟨1⟩ ⟨0⟩,
        .dispatch [acceptedEvent, connectedEvent, closedEvent], .isEstablished ⟨1⟩ ⟨0⟩] = .ok w ∧
      Clean w.state ⟨1⟩ := by
  refine ⟨_, rfl, ?_⟩
  refine ((closed_leaves_nothing ⟨1⟩ [.isEstablished ⟨1⟩ ⟨0⟩] [.isEstablished ⟨1⟩ ⟨0⟩]
    [acceptedEvent, connectedEvent, closedEvent] rfl ?_ rfl ?_).2 ?_).1.mpr rfl
  · exact ⟨closedEvent, by simp, rfl, rfl⟩
  · exact ⟨fun _ ↦ rfl, trivial⟩
  · refine ⟨fun _ ↦ ⟨closedEvent, by simp, rfl, rfl⟩, ?_, ?_, trivial⟩
    · rintro ⟨hkind, -⟩
      cases hkind
    · rintro ⟨hkind, -⟩
      cases hkind

/-- No task waits for anything. A stream that comes after the close in its batch
is left, which it is not if it comes before it, and so is a finished handshake. -/
theorem closed_leaves_residue :
    ∃ w w' w'', runAll .initial [.dispatch [closedEvent, acceptedEvent]] = .ok w ∧
      runAll .initial [.dispatch [acceptedEvent, closedEvent]] = .ok w' ∧
      runAll .initial [.dispatch [connectedEvent, closedEvent]] = .ok w'' ∧
      w.waiting = [] ∧ w.state.incomingStreams.lookup ⟨1⟩ = some [4] ∧
      w'.state.incomingStreams.lookup ⟨1⟩ = none ∧ ⟨1⟩ ∈ w''.state.establishedConns :=
  ⟨_, _, _, rfl, rfl, rfl, rfl, rfl, rfl, by decide⟩

end Examples

end ZeroRtt.Futures.Residue
