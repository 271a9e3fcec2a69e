import ZeroRtt.Futures.Residue
import ZeroRtt.Futures.Waiters
import ZeroRtt.Lib.Queues

namespace ZeroRtt.Futures.Handover

open ZeroRtt.Lib.Panics ZeroRtt.Lib.Containers ZeroRtt.Lib.Runs ZeroRtt.Lib.Queues
open ZeroRtt.Futures ZeroRtt.Futures.Tasks ZeroRtt.Futures.Residue ZeroRtt.Futures.Waiters
open ZeroRtt.Api.Types (Token Poll)

inductive Note
  | reported (event : Api.Types.Event)
  | acceptedConn (token : Token)
  | acceptedStream (token : Token) (streamId : ℕ)
deriving DecidableEq

def notes (s : State) : Action → List Note
  | .dispatch events => events.map .reported
  | .acceptConn waker =>
    match (s.acceptConn waker).1 with
    | .ready (.ok token) => [.acceptedConn token]
    | _ => []
  | .acceptStream token waker =>
    match (s.acceptStream token waker).1 with
    | .ready (.ok streamId) => [.acceptedStream token streamId]
    | _ => []
  | _ => []

/-- The shared state and what passed so far. The notes are a history variable:
nothing reads them. -/
structure Recorded where
  world : World
  notes : List Note

def Recorded.initial : Recorded := ⟨.initial, []⟩

def step (r : Recorded) (a : Action) : Rust Recorded := do
  return ⟨← Tasks.step r.world a, r.notes ++ notes r.world.state a⟩

def Legal (r : Recorded) (a : Action) : Prop := Tasks.Legal r.world a

def connDeed : Note → Option (Deed Token)
  | .reported event => if event.kind = .accept then some (.push event.token) else none
  | .acceptedConn token => some (.pop token)
  | .acceptedStream _ _ => none

def streamDeed (t : Token) : Note → Option (Deed ℕ)
  | .reported event =>
    if event.token = t then
      match event.kind with
      | .streamAccept => some (.push event.streamId)
      | .closed => some .clear
      | _ => none
    else none
  | .acceptedConn _ => none
  | .acceptedStream token streamId => if token = t then some (.pop streamId) else none

def conns (ns : List Note) : List (Deed Token) := ns.filterMap connDeed

def streams (t : Token) (ns : List Note) : List (Deed ℕ) := ns.filterMap (streamDeed t)

def queue (s : State) (t : Token) : List ℕ := (s.incomingStreams.lookup t).getD []

structure Moves (s s' : State) (ns : List Note) : Prop where
  conns : replay s.incomingConns (conns ns) = some s'.incomingConns
  streams : ∀ t, replay (queue s t) (streams t ns) = some (queue s' t)

section Steps

variable {s s' s'' : State} {t token : Token} {event : Event} {waker : Waker} {ns ns' : List Note}

theorem Moves.trans (h : Moves s s' ns) (h' : Moves s' s'' ns') : Moves s s'' (ns ++ ns') := by
  constructor
  · rw [Handover.conns, List.filterMap_append]
    exact replay_trans h.conns h'.conns
  · intro t
    rw [Handover.streams, List.filterMap_append]
    exact replay_trans (h.streams t) (h'.streams t)

theorem moves_of_eq (hconns : s'.incomingConns = s.incomingConns)
    (hstreams : s'.incomingStreams = s.incomingStreams) : Moves s s' [] := by
  constructor
  · rw [hconns]
    exact replay_nil
  · intro t
    rw [queue, queue, hstreams]
    exact replay_nil

theorem moves_silent {n : Note} (hn : connDeed n = none) (hn' : ∀ t, streamDeed t n = none)
    (hconns : s'.incomingConns = s.incomingConns)
    (hstreams : s'.incomingStreams = s.incomingStreams) : Moves s s' [n] := by
  constructor
  · rw [Handover.conns, List.filterMap_cons_none hn, hconns]
    exact replay_nil
  · intro t
    rw [Handover.streams, List.filterMap_cons_none (hn' t), queue, queue, hstreams]
    exact replay_nil

theorem conns_wake : (s.wake token event).incomingConns = s.incomingConns := by
  cases hconn : s.wakers.lookup token with
  | none => simp only [State.wake, hconn]
  | some conn => cases hw : conn.lookup event <;> simp only [State.wake, hconn, hw]

theorem conns_onAccept : (s.onAccept token).incomingConns = s.incomingConns ++ [token] := by
  cases haccept : s.accept <;> simp only [State.onAccept, haccept]

theorem conns_onClosed : (s.onClosed token).incomingConns = s.incomingConns := by
  cases hconn : s.wakers.lookup token <;> simp only [State.onClosed, hconn]

theorem queue_insert {ids : List ℕ} (h : s'.incomingStreams = s.incomingStreams.insert token ids) :
    queue s' t = if t = token then ids else queue s t := by
  rw [queue, h]
  split
  next ht => rw [ht, AList.lookup_insert, Option.getD_some]
  next ht => rw [AList.lookup_insert_ne ht, queue]

theorem moves_dispatch {e : Api.Types.Event} (h : s.dispatch e = .ok s') :
    Moves s s' [.reported e] := by
  unfold State.dispatch at h
  cases hkind : e.kind with
  | connected | streamOpenBidi | streamOpenUni | streamSend | streamRecv =>
    rw [hkind] at h
    cases h
    apply moves_silent
    · simp [connDeed, hkind]
    · simp [streamDeed, hkind]
    · exact conns_wake
    · exact tables_wake.1
  | streamAccept =>
    rw [hkind] at h
    cases h
    refine ⟨?_, fun t ↦ ?_⟩
    · have hconns : conns [.reported e] = [] := by simp [conns, connDeed, hkind]
      rw [hconns, State.onStreamAccept, conns_wake]
      exact replay_nil
    · have hqueue : queue (s.onStreamAccept e.token e.streamId) t =
          if t = e.token then queue s e.token ++ [e.streamId] else queue s t :=
        queue_insert tables_wake.1
      rw [hqueue]
      split
      next ht =>
        have hstreams : streams t [.reported e] = [.push e.streamId] := by
          simp [streams, streamDeed, hkind, ht]
        rw [hstreams, replay_singleton, ht]
        rfl
      next ht =>
        have hstreams : streams t [.reported e] = [] := by simp [streams, streamDeed, Ne.symm ht]
        rw [hstreams]
        exact replay_nil
  | accept =>
    rw [hkind] at h
    cases h
    refine ⟨?_, fun t ↦ ?_⟩
    · have hconns : conns [.reported e] = [.push e.token] := by simp [conns, connDeed, hkind]
      rw [hconns, replay_singleton, conns_onAccept]
      rfl
    · have hstreams : streams t [.reported e] = [] := by simp [streams, streamDeed, hkind]
      rw [hstreams, queue, queue, tables_onAccept.1]
      exact replay_nil
  | closed =>
    rw [hkind] at h
    cases h
    refine ⟨?_, fun t ↦ ?_⟩
    · have hconns : conns [.reported e] = [] := by simp [conns, connDeed, hkind]
      rw [hconns, conns_onClosed]
      exact replay_nil
    · rw [queue, queue, tables_onClosed.1]
      by_cases ht : t = e.token
      · have hstreams : streams t [.reported e] = [.clear] := by
          simp [streams, streamDeed, hkind, ht]
        rw [hstreams, replay_singleton, ht, AList.lookup_erase]
        rfl
      · have hstreams : streams t [.reported e] = [] := by simp [streams, streamDeed, Ne.symm ht]
        rw [hstreams, AList.lookup_erase_ne ht]
        exact replay_nil
  | send | recv | readLock =>
    rw [hkind] at h
    cases h

theorem moves_dispatchAll {events : List Api.Types.Event} (h : s.dispatchAll events = .ok s') :
    Moves s s' (events.map .reported) := by
  induction events generalizing s with
  | nil =>
    cases h
    exact moves_of_eq rfl rfl
  | cons e events ih =>
    obtain ⟨u, hu, hrest⟩ := bind_ok h
    exact (moves_dispatch hu).trans (ih hrest)

theorem moves_acceptConn :
    Moves s (s.acceptConn waker).2 (notes s (.acceptConn waker)) := by
  cases hstopped : s.stopped with
  | true =>
    simp only [notes, State.acceptConn, hstopped, if_true]
    exact moves_of_eq rfl rfl
  | false =>
    cases hconns : s.incomingConns with
    | nil =>
      simp only [notes, State.acceptConn, hstopped, hconns, Bool.false_eq_true, if_false]
      exact moves_of_eq hconns.symm rfl
    | cons token rest =>
      simp only [notes, State.acceptConn, hstopped, hconns, Bool.false_eq_true, if_false]
      refine ⟨?_, fun t ↦ replay_nil⟩
      rw [hconns]
      exact replay_singleton.trans (apply_pop_iff.mpr rfl)

theorem tables_acceptStream (token : Token) (waker : Waker) (h : s.stopped = false) :
    (s.acceptStream token waker).2.incomingConns = s.incomingConns ∧
      (s.acceptStream token waker).2.incomingStreams =
        s.incomingStreams.insert token (queue s token).tail := by
  rw [queue]
  cases hqueue : (s.incomingStreams.lookup token).getD [] <;>
    simp [State.acceptStream, State.register, h, hqueue]

theorem moves_acceptStream :
    Moves s (s.acceptStream token waker).2 (notes s (.acceptStream token waker)) := by
  cases hstopped : s.stopped with
  | true =>
    simp only [notes, State.acceptStream, hstopped, if_true]
    exact moves_of_eq rfl rfl
  | false =>
    obtain ⟨hconns, hstreams⟩ := tables_acceptStream token waker hstopped
    cases hqueue : queue s token with
    | nil =>
      have hnotes : notes s (.acceptStream token waker) = [] := by
        rw [queue] at hqueue
        simp only [notes, State.acceptStream, hstopped, hqueue, Bool.false_eq_true, if_false]
      rw [hnotes]
      refine ⟨by rw [hconns]; exact replay_nil, fun t ↦ ?_⟩
      rw [queue_insert hstreams, hqueue]
      split
      next ht =>
        rw [ht, hqueue]
        exact replay_nil
      next => exact replay_nil
    | cons streamId rest =>
      have hnotes : notes s (.acceptStream token waker) = [.acceptedStream token streamId] := by
        rw [queue] at hqueue
        simp only [notes, State.acceptStream, hstopped, hqueue, Bool.false_eq_true, if_false]
      rw [hnotes]
      refine ⟨by rw [hconns]; exact replay_nil, fun t ↦ ?_⟩
      rw [queue_insert hstreams, hqueue]
      split
      next ht =>
        have hpop : streams t [.acceptedStream token streamId] = [.pop streamId] := by
          simp [streams, streamDeed, ht]
        rw [hpop, ht, hqueue]
        exact replay_singleton.trans (apply_pop_iff.mpr rfl)
      next ht =>
        have hnone : streams t [.acceptedStream token streamId] = [] := by
          simp [streams, streamDeed, Ne.symm ht]
        rw [hnone]
        exact replay_nil

theorem moves_isEstablished : Moves s (s.isEstablished token waker).2 [] := by
  by_cases h : token ∈ s.establishedConns
  · simp only [State.isEstablished, h, if_true]
    exact moves_of_eq rfl rfl
  · simp only [State.isEstablished, h, if_false]
    exact moves_of_eq rfl rfl

theorem moves_finishPoll {α : Type} {answer : Except Io α} {result : Poll (Except Io α)}
    (h : s.finishPoll token event answer = .ok (result, s')) : Moves s s' [] := by
  refine moves_of_eq ?_ (streams_finishPoll h).1
  cases answer with
  | ok a =>
    obtain ⟨conn, -, h⟩ := bind_ok h
    cases h
    rfl
  | error err =>
    simp only [State.finishPoll] at h
    split at h
    · cases h
      rfl
    · cases h
      rfl

theorem conns_shutdown {streamId : ℕ} :
    (s.shutdown token streamId).2.incomingConns = s.incomingConns := by
  unfold State.shutdown
  dsimp only
  split
  · exact conns_wake.trans conns_wake
  · exact conns_wake.trans conns_wake

end Steps

section Runs

variable {w w' : World} {r : Recorded} {t : Token} {k : Key}

theorem moves_step {a : Action} (hstep : Tasks.step w a = .ok w') :
    Moves w.state w'.state (notes w.state a) := by
  cases a with
  | isEstablished token waker =>
    cases hstep
    rw [state_polled]
    exact moves_isEstablished
  | acceptStream token waker =>
    cases hstep
    rw [state_polled]
    exact moves_acceptStream
  | acceptConn waker =>
    cases hstep
    rw [state_polled]
    exact moves_acceptConn
  | begin token op waker =>
    rw [Tasks.step] at hstep
    split at hstep
    next hbegun =>
      cases hstep
      exact moves_of_eq rfl rfl
    next state hbegun =>
      cases hstep
      obtain rfl := begun_eq hbegun
      exact moves_of_eq rfl rfl
  | finish flight answer =>
    obtain ⟨⟨result, state⟩, hfinish, hstep⟩ := bind_ok hstep
    cases result with
    | ready answer =>
      cases hstep
      exact moves_finishPoll hfinish
    | pending =>
      cases hstep
      exact moves_finishPoll hfinish
  | dispatch events =>
    obtain ⟨state, hdispatch, hstep⟩ := bind_ok hstep
    cases hstep
    exact moves_dispatchAll hdispatch
  | stop =>
    cases hstep
    exact moves_of_eq rfl rfl
  | shutdown token streamId =>
    cases hstep
    exact moves_of_eq conns_shutdown tables_shutdown.1
  | cancel key waker =>
    cases hstep
    exact moves_of_eq rfl rfl

theorem moves_of_run (h : Run step Legal .initial r) : Moves .new r.world.state r.notes := by
  refine h.invariant (P := fun r ↦ Moves .new r.world.state r.notes) (moves_of_eq rfl rfl) ?_
  intro r r' a hmoves _ hstep
  obtain ⟨w, hw, hstep⟩ := bind_ok hstep
  cases hstep
  exact hmoves.trans (moves_step hw)

theorem clear_not_mem_conns {ns : List Note} : .clear ∉ conns ns := by
  intro hmem
  obtain ⟨n, -, hn⟩ := List.mem_filterMap.mp hmem
  cases n with
  | reported event =>
    simp only [connDeed] at hn
    split at hn <;> cases hn
  | acceptedConn | acceptedStream => cases hn

/-- Connections are accepted in the order in which they were reported, each of them once. So are
the streams of every connection, and only the ones that nobody accepted before the connection was
closed are thrown away. -/
theorem accepted_in_order (h : Run step Legal .initial r) :
    pushes (conns r.notes) = pops (conns r.notes) ++ r.world.state.incomingConns ∧
    ∀ t, pushes (recent (streams t r.notes)) =
        pops (recent (streams t r.notes)) ++ queue r.world.state t ∧
      (pops (streams t r.notes) ++ queue r.world.state t).Sublist (pushes (streams t r.notes)) := by
  have hmoves := moves_of_run h
  refine ⟨?_, fun t ↦ ⟨pushes_recent (hmoves.streams t), pops_sublist (hmoves.streams t)⟩⟩
  have hrecent := pushes_recent hmoves.conns
  rwa [recent_eq_self clear_not_mem_conns] at hrecent

theorem accepted_in_order_example :
    ∃ r, Run step Legal .initial r ∧
      pops (conns r.notes) = [⟨1⟩] ∧ pops (streams ⟨1⟩ r.notes) = [0] ∧
      pushes (recent (streams ⟨1⟩ r.notes)) = [0, 4] ∧ queue r.world.state ⟨1⟩ = [4] := by
  have hdispatch : Run step Legal .initial _ :=
    .one (i := .dispatch [⟨⟨1⟩, .accept, true, false, 0⟩, ⟨⟨1⟩, .streamAccept, true, false, 0⟩,
      ⟨⟨1⟩, .streamAccept, true, false, 4⟩]) trivial rfl
  have hconn := hdispatch.tail (show Legal _ (.acceptConn ⟨7⟩) from fun f hf ↦ by cases hf) rfl
  have hstream := hconn.tail (show Legal _ (.acceptStream ⟨1⟩ ⟨7⟩) from fun f hf ↦ by cases hf) rfl
  have horder := ((accepted_in_order hstream).2 ⟨1⟩).1
  refine ⟨_, hstream, by decide, by decide, ?_, by decide⟩
  rw [horder]
  decide

end Runs

section Arrivals

variable {s s' : State} {token : Token} {waker : Waker} {k : Key} {w w' : World}

def Ready (s : State) : Key → Prop
  | .accept => s.incomingConns ≠ []
  | .conn token .streamAccept => queue s token ≠ []
  | .conn token .connected => token ∈ s.establishedConns
  | .conn _ _ => False

def Idle (s : State) : Prop := ∀ k, Ready s k → s.slot k = none

theorem ready_conn_of_eq {event : Event} (hstreams : s'.incomingStreams = s.incomingStreams)
    (hestablished : s'.establishedConns = s.establishedConns) :
    Ready s' (.conn token event) ↔ Ready s (.conn token event) := by
  cases event <;> simp only [Ready, queue, hstreams, hestablished]

theorem ready_of_eq (hconns : s'.incomingConns = s.incomingConns)
    (hstreams : s'.incomingStreams = s.incomingStreams)
    (hestablished : s'.establishedConns = s.establishedConns) : Ready s' k ↔ Ready s k := by
  cases k with
  | accept => simp only [Ready, hconns]
  | conn token event => exact ready_conn_of_eq hstreams hestablished

theorem not_ready_of_request {token : Token} {op : Op} : ¬ Ready s (.conn token op.event) := by
  cases op with
  | openStream kind => cases kind <;> exact id
  | send | recv => exact id

theorem Idle.of_slots (h : Idle s) (hready : ∀ k, Ready s' k → Ready s k)
    (hslot : ∀ k, s.slot k = none → s'.slot k = none) : Idle s' :=
  fun k hk ↦ hslot k (h k (hready k hk))

theorem Idle.register {event : Event} (h : Idle s) (hready : ¬ Ready s (.conn token event)) :
    Idle (s.register token event waker) := by
  intro k hk
  rw [ready_of_eq rfl rfl rfl] at hk
  rw [State.slot_register, if_neg]
  · exact h k hk
  · intro heq
    exact hready (heq ▸ hk)

theorem Idle.isEstablished (h : Idle s) : Idle (s.isEstablished token waker).2 := by
  by_cases hmem : token ∈ s.establishedConns
  · simp only [State.isEstablished, hmem, if_true]
    apply h.of_slots
    · intro k hk
      cases k with
      | accept => exact hk
      | conn t event =>
        cases event with
        | connected => exact (HashSet.mem_erase.mp hk).2
        | _ => exact hk
    · exact fun k hk ↦ (State.slot_of_wakers_eq rfl rfl).trans hk
  · simp only [State.isEstablished, hmem, if_false]
    exact h.register hmem

theorem Idle.acceptConn (h : Idle s) : Idle (s.acceptConn waker).2 := by
  cases hstopped : s.stopped with
  | true =>
    simp only [State.acceptConn, hstopped, if_true]
    exact h
  | false =>
    cases hconns : s.incomingConns with
    | nil =>
      simp only [State.acceptConn, hstopped, hconns, Bool.false_eq_true, if_false]
      intro k hk
      cases k with
      | accept => exact absurd rfl hk
      | conn t event => cases event <;> exact h (.conn t _) hk
    | cons first rest =>
      simp only [State.acceptConn, hstopped, hconns, Bool.false_eq_true, if_false]
      intro k hk
      cases k with
      | accept => exact h .accept (by simp [Ready, hconns])
      | conn t event => cases event <;> exact h (.conn t _) hk

theorem slot_acceptStream (hk : k = .conn token .streamAccept → queue s token ≠ []) :
    (s.acceptStream token waker).2.slot k = s.slot k := by
  cases hstopped : s.stopped with
  | true => simp only [State.acceptStream, hstopped, if_true]
  | false =>
    cases hqueue : (s.incomingStreams.lookup token).getD [] with
    | nil =>
      simp only [State.acceptStream, hstopped, hqueue, Bool.false_eq_true, if_false]
      rw [State.slot_register, if_neg fun heq ↦ hk heq hqueue]
      exact State.slot_of_wakers_eq rfl rfl
    | cons streamId rest =>
      simp only [State.acceptStream, hstopped, hqueue, Bool.false_eq_true, if_false]
      exact State.slot_of_wakers_eq rfl rfl

theorem ready_acceptStream (h : Ready (s.acceptStream token waker).2 k) :
    Ready s k ∧ (k = .conn token .streamAccept → queue s token ≠ []) := by
  cases hstopped : s.stopped with
  | true =>
    simp only [State.acceptStream, hstopped, if_true] at h
    refine ⟨h, ?_⟩
    rintro rfl
    exact h
  | false =>
    obtain ⟨hconns, hstreams⟩ := tables_acceptStream token waker hstopped
    cases k with
    | accept =>
      rw [Ready, hconns] at h
      exact ⟨h, fun heq ↦ by cases heq⟩
    | conn t event =>
      cases event with
      | streamAccept =>
        rw [Ready, queue_insert hstreams] at h
        split at h
        next ht =>
          have hne : queue s token ≠ [] := by
            intro hnil
            rw [hnil] at h
            exact h rfl
          rw [Ready, ht]
          exact ⟨hne, fun _ ↦ hne⟩
        next ht =>
          refine ⟨h, fun heq ↦ ?_⟩
          cases heq
          exact absurd rfl ht
      | connected =>
        rw [Ready, established_acceptStream] at h
        exact ⟨h, fun heq ↦ by cases heq⟩
      | _ => exact h.elim

theorem Idle.acceptStream (h : Idle s) : Idle (s.acceptStream token waker).2 := by
  intro k hk
  obtain ⟨hready, hne⟩ := ready_acceptStream hk
  rw [slot_acceptStream hne]
  exact h k hready

theorem ready_dispatch {e : Api.Types.Event} (h : s.dispatch e = .ok s') (hk : Ready s' k) :
    Ready s k ∨ State.Concerns e k := by
  have hmoves := moves_dispatch h
  cases k with
  | accept =>
    by_cases hkind : e.kind = .accept
    · exact .inr (by simp [State.Concerns, hkind])
    · have hconns := hmoves.conns
      rw [show conns [.reported e] = [] by simp [conns, connDeed, hkind]] at hconns
      rw [Ready, ← Option.some.inj hconns] at hk
      exact .inl hk
  | conn t event =>
    cases event with
    | connected =>
      rcases (established_dispatch h).mp hk with ⟨hkind, rfl⟩ | hmem
      · exact .inr (by simp [State.Concerns, hkind])
      · exact .inl hmem
    | streamAccept =>
      by_cases hadmits : Admits t e
      · obtain ⟨hkind, rfl⟩ := hadmits
        exact .inr (by simp [State.Concerns, hkind])
      · have hstreams := hmoves.streams t
        by_cases hcloses : Entries.Closes t e
        · obtain ⟨hkind, rfl⟩ := hcloses
          rw [show streams e.token [.reported e] = [.clear] by simp [streams, streamDeed, hkind],
            replay_singleton] at hstreams
          rw [Ready, ← Option.some.inj hstreams] at hk
          exact absurd rfl hk
        · have hnone : streamDeed t (.reported e) = none := by
            simp only [streamDeed]
            split
            next htoken =>
              split
              next hkind => exact absurd ⟨hkind, htoken⟩ hadmits
              next hkind => exact absurd ⟨hkind, htoken⟩ hcloses
              next => rfl
            next => rfl
          rw [streams, List.filterMap_cons_none hnone] at hstreams
          rw [Ready, ← Option.some.inj hstreams] at hk
          exact .inl hk
    | _ => exact hk.elim

theorem ready_dispatchAll {events : List Api.Types.Event} (h : s.dispatchAll events = .ok s')
    (hk : Ready s' k) : Ready s k ∨ ∃ e ∈ events, State.Concerns e k := by
  induction events generalizing s with
  | nil =>
    cases h
    exact .inl hk
  | cons e events ih =>
    obtain ⟨u, hu, hrest⟩ := bind_ok h
    rcases ih hrest with hready | ⟨e', he', hconcerns⟩
    · rcases ready_dispatch hu hready with hready | hconcerns
      · exact .inl hready
      · exact .inr ⟨e, List.mem_cons_self .., hconcerns⟩
    · exact .inr ⟨e', List.mem_cons_of_mem _ he', hconcerns⟩

theorem Idle.dispatchAll {events : List Api.Types.Event} (h : Idle s)
    (hdispatch : s.dispatchAll events = .ok s') : Idle s' := by
  intro k hk
  obtain ⟨ws, hrouses, hnone⟩ := State.rouses_dispatchAll hdispatch
  rcases ready_dispatchAll hdispatch hk with hready | ⟨e, he, hconcerns⟩
  · exact hrouses.slot_eq_none (h k hready)
  · exact hnone e he k hconcerns

theorem Idle.finishPoll {α : Type} {event : Event} {answer : Except Io α}
    {result : Poll (Except Io α)} (h : Idle s)
    (hfinish : s.finishPoll token event answer = .ok (result, s')) : Idle s' := by
  cases answer with
  | ok a =>
    cases hconn : s.wakers.lookup token with
    | none => simp [State.finishPoll, hconn, unwrapOption] at hfinish
    | some conn =>
      simp only [State.finishPoll, hconn, unwrapOption, ok_bind] at hfinish
      cases hfinish
      apply h.of_slots
      · exact fun k hk ↦ (ready_of_eq rfl rfl rfl).mp hk
      · intro k hk
        refine (State.slot_conn_erase hconn (by rfl) (by rfl)).trans ?_
        split
        · rfl
        · exact hk
  | error err =>
    simp only [State.finishPoll] at hfinish
    split at hfinish
    · cases hfinish
      exact h
    · cases hfinish
      exact h

theorem Idle.rouses {ws : List Waker} (h : Idle s) (hrouses : s.Rouses s' ws)
    (hready : ∀ k, Ready s' k ↔ Ready s k) : Idle s' :=
  h.of_slots (fun k hk ↦ (hready k).mp hk) fun _ hk ↦ hrouses.slot_eq_none hk

theorem idle_step {a : Action} (h : Idle w.state) (hstep : Tasks.step w a = .ok w') :
    Idle w'.state := by
  cases a with
  | isEstablished token waker =>
    cases hstep
    rw [state_polled]
    exact h.isEstablished
  | acceptStream token waker =>
    cases hstep
    rw [state_polled]
    exact h.acceptStream
  | acceptConn waker =>
    cases hstep
    rw [state_polled]
    exact h.acceptConn
  | begin token op waker =>
    rw [Tasks.step] at hstep
    split at hstep
    next hbegun =>
      cases hstep
      exact h
    next state hbegun =>
      cases hstep
      obtain rfl := begun_eq hbegun
      exact h.register not_ready_of_request
  | finish flight answer =>
    obtain ⟨⟨result, state⟩, hfinish, hstep⟩ := bind_ok hstep
    cases result with
    | ready answer =>
      cases hstep
      exact h.finishPoll hfinish
    | pending =>
      cases hstep
      exact h.finishPoll hfinish
  | dispatch events =>
    obtain ⟨state, hdispatch, hstep⟩ := bind_ok hstep
    cases hstep
    exact h.dispatchAll hdispatch
  | stop =>
    cases hstep
    obtain ⟨ws, hrouses, -⟩ := State.rouses_stop w.state
    exact h.rouses hrouses fun k ↦ ready_of_eq rfl rfl rfl
  | shutdown token streamId =>
    cases hstep
    obtain ⟨ws, hrouses⟩ := State.rouses_shutdown w.state token streamId
    exact h.rouses hrouses fun k ↦ ready_of_eq conns_shutdown tables_shutdown.1 tables_shutdown.2
  | cancel key waker =>
    cases hstep
    exact h

theorem idle_of_run (h : Run Tasks.step Tasks.Legal .initial w) : Idle w.state := by
  refine h.invariant (P := fun w ↦ Idle w.state) ?_ fun w w' a hw _ hstep ↦ idle_step hw hstep
  intro k hk
  cases k <;> rfl

/-- No waker is left where there is something to take. So as long as no task displaces another
one's waker, none of them sleeps on a connection, a stream or a handshake that is already there. -/
theorem nobody_sleeps_on_arrivals (h : Run Tasks.step Tasks.Legal .initial w) :
    (∀ k, Ready w.state k → w.state.slot k = none) ∧
    (Run Tasks.step (fun w a ↦ Tasks.Legal w a ∧ Alone w a) .initial w →
      ∀ k t, (k, t) ∈ w.waiting → ¬ Ready w.state k) := by
  have hidle := idle_of_run h
  refine ⟨hidle, fun halone k t hmem hready ↦ ?_⟩
  have hslot := registered_of_run halone k t hmem
  rw [hidle k hready] at hslot
  cases hslot

theorem nobody_sleeps_on_arrivals_example :
    ∃ w, Run Tasks.step (fun w a ↦ Tasks.Legal w a ∧ Alone w a) .initial w ∧
      (.conn ⟨1⟩ .streamAccept, ⟨0⟩) ∈ w.waiting ∧ ¬ Ready w.state (.conn ⟨1⟩ .streamAccept) ∧
      Ready w.state .accept ∧ w.state.slot .accept = none := by
  have hstream : Run Tasks.step (fun w a ↦ Tasks.Legal w a ∧ Alone w a) .initial _ :=
    .one (i := .acceptStream ⟨1⟩ ⟨0⟩) ⟨(fun f hf ↦ by cases hf), fun _ _ _ _ hmem ↦ by cases hmem⟩ rfl
  have haccept := hstream.tail (i := .dispatch [⟨⟨2⟩, .accept, true, false, 0⟩])
    ⟨by trivial, fun _ _ heq ↦ by cases heq⟩ rfl
  have hnobody := nobody_sleeps_on_arrivals (haccept.mono fun _ _ ha ↦ ha.1)
  refine ⟨_, haccept, by decide, hnobody.2 haccept _ ⟨0⟩ (by decide), ?_, hnobody.1 _ ?_⟩
  · exact List.cons_ne_nil _ _
  · exact List.cons_ne_nil _ _

end Arrivals

end ZeroRtt.Futures.Handover
