import ZeroRtt.Futures.Establishment
import ZeroRtt.Futures.Handover
import ZeroRtt.Poll.Sections

namespace ZeroRtt.Futures.Closing

open ZeroRtt.Lib.Panics ZeroRtt.Lib.Containers ZeroRtt.Lib.Runs ZeroRtt.Lib.Queues
open ZeroRtt.Futures ZeroRtt.Futures.Tasks ZeroRtt.Futures.Entries
open ZeroRtt.Futures.Stopping ZeroRtt.Futures.Residue
open ZeroRtt.Futures.Handover hiding step Legal
open ZeroRtt.Futures.Establishment
open ZeroRtt.Poll ZeroRtt.Poll.Conn ZeroRtt.Poll.Sections
open ZeroRtt.Api.Types (Token Poll StreamKind Error)

variable {w : World} {g : Group} {token : Token} {env : UnlockEnv}

section Gone

theorem streamSend_of_gone (hgone : g.state.conns.lookup token = none) (streamId : ℕ) (buf : Bytes)
    (fin : Bool) : Group.streamSend token streamId buf fin env g = .ok (.error .notFound) g := by
  rw [Group.streamSend, bind_of_ok (lock_of_none hgone _)]
  rfl

theorem streamRecv_of_gone (hgone : g.state.conns.lookup token = none) (streamId len : ℕ) :
    Group.streamRecv token streamId len env g = .ok (.error .notFound) g := by
  rw [Group.streamRecv, bind_of_ok (lock_of_none hgone _)]
  rfl

end Gone

inductive Answers (g : Group) (f : Flight) : Except Io Reply → Prop
  | openStream {kind : StreamKind} {nonBlocking : Bool} {env : UnlockEnv}
      {r : Except Error (Option ℕ)} {g' : Group} :
      f.event = State.openEvent kind →
      Group.streamOpen f.token kind nonBlocking env g = .ok r g' →
      Answers g f ((r.mapError Io.ofError).map .opened)
  | send {streamId : ℕ} {buf : Bytes} {fin : Bool} {env : UnlockEnv} {r : Except Error ℕ}
      {g' : Group} :
      f.event = .streamSend streamId →
      Group.streamSend f.token streamId buf fin env g = .ok r g' →
      Answers g f ((r.mapError Io.ofError).map .sent)
  | recv {streamId len : ℕ} {env : UnlockEnv} {r : Except Error (ℕ × Bool)} {g' : Group} :
      f.event = .streamRecv streamId →
      Group.streamRecv f.token streamId len env g = .ok r g' →
      Answers g f ((r.mapError Io.ofError).map fun r ↦ .received r.1 r.2)

theorem Answers.of_gone {f : Flight} {answer : Except Io Reply} (h : Answers g f answer)
    (hgone : g.state.conns.lookup f.token = none) : answer = .error (Io.ofError .notFound) := by
  cases h with
  | openStream _ hopen =>
    rw [streamOpen_of_none hgone] at hopen
    cases hopen
    rfl
  | send _ hsend =>
    rw [streamSend_of_gone hgone] at hsend
    cases hsend
    rfl
  | recv _ hrecv =>
    rw [streamRecv_of_gone hgone] at hrecv
    cases hrecv
    rfl

/-- The group below had no connection of the token when a poll called it. -/
def Gone (t : Token) : Action → Prop
  | .finish f answer => f.token = t → ∃ g, g.state.conns.lookup t = none ∧ Answers g f answer
  | _ => True

def Returns (t : Token) (w : World) : Action → Prop
  | .isEstablished token waker => token = t → ∃ r, (w.state.isEstablished token waker).1 = .ready r
  | .acceptStream token waker => token = t → ∃ r, (w.state.acceptStream token waker).1 = .ready r
  | .finish f answer =>
    f.token = t → ∃ r s, w.state.finishPoll f.token f.event answer = .ok (.ready r, s)
  | _ => True

section Offers

/-- The streams of the connection that wait to be accepted, after one more event. -/
def offer (t : Token) (ids : List ℕ) (e : Api.Types.Event) : List ℕ :=
  if e.token = t then
    match e.kind with
    | .streamAccept => ids ++ [e.streamId]
    | .closed => []
    | _ => ids
  else ids

def offers (t : Token) (ids : List ℕ) : Action → List ℕ
  | .dispatch events => events.foldl (offer t) ids
  | .acceptStream token _ => if token = t then ids.tail else ids
  | _ => ids

def offered (t : Token) (actions : List Action) : List ℕ := actions.foldl (offers t) []

variable {t : Token} {s s' : Futures.State} {w' : World} {a : Action}

theorem replay_reported (ids : List ℕ) (e : Api.Types.Event) :
    replay ids (streams t [.reported e]) = some (offer t ids e) := by
  unfold offer
  by_cases ht : e.token = t
  · cases hkind : e.kind <;> simp [streams, streamDeed, ht, hkind, replay, Deed.apply]
  · simp [streams, streamDeed, ht, replay]

theorem queue_dispatch {e : Api.Types.Event} (h : s.dispatch e = .ok s') :
    queue s' t = offer t (queue s t) e :=
  Option.some.inj (((moves_dispatch h).streams t).symm.trans (replay_reported _ e))

theorem queue_dispatchAll {events : List Api.Types.Event} (h : s.dispatchAll events = .ok s') :
    queue s' t = events.foldl (offer t) (queue s t) := by
  induction events generalizing s with
  | nil =>
    cases h
    rfl
  | cons e events ih =>
    obtain ⟨u, hu, hrest⟩ := bind_ok h
    rw [ih hrest, queue_dispatch hu, List.foldl_cons]

theorem streams_acceptConn {waker : Waker} :
    (s.acceptConn waker).2.incomingStreams = s.incomingStreams := by
  unfold State.acceptConn
  split
  · rfl
  · split <;> rfl

theorem queue_step (hrunning : w.state.stopped = false) (hstep : step w a = .ok w') :
    queue w'.state t = offers t (queue w.state t) a := by
  cases a with
  | dispatch events =>
    obtain ⟨state, hdispatch, hstep⟩ := bind_ok hstep
    cases hstep
    exact queue_dispatchAll hdispatch
  | acceptStream token waker =>
    cases hstep
    rw [state_polled, queue_insert (tables_acceptStream token waker hrunning).2, offers]
    simp only [eq_comm (a := t)]
    split
    next ht => rw [ht]
    next => rfl
  | acceptConn waker =>
    cases hstep
    rw [state_polled, queue, streams_acceptConn]
    rfl
  | isEstablished | begin | finish | stop | shutdown | cancel =>
    exact (Option.some.inj ((moves_step hstep).streams t)).symm

theorem running_runAll {actions : List Action} (hrun : runAll .initial actions = .ok w) :
    w.state.stopped = false := by
  have hstart : Tracks ⟨0⟩ .initial false := ⟨rfl, by simp [World.initial, State.new]⟩
  exact (hstart.runAll hrun).running

theorem queue_runAll (hrunning : w.state.stopped = false) {actions : List Action}
    (hrun : runAll w actions = .ok w') :
    queue w'.state t = actions.foldl (offers t) (queue w.state t) := by
  induction actions generalizing w with
  | nil =>
    cases hrun
    rfl
  | cons a actions ih =>
    obtain ⟨u, hu, hrest⟩ := bind_ok hrun
    rw [ih (by rw [stopped_step hu, hrunning]) hrest, queue_step hrunning hu, List.foldl_cons]

theorem queue_closed {before : List Action} {xs ys : List Api.Types.Event} {c : Api.Types.Event}
    (hclosed : Closes t c) (hrun : runAll .initial (before ++ [.dispatch (xs ++ c :: ys)]) = .ok w) :
    queue w.state t = offered t [.dispatch ys] := by
  have hc : ∀ ids, offer t ids c = [] := by
    intro ids
    simp [offer, hclosed.1, hclosed.2]
  rw [queue_runAll rfl hrun, List.foldl_append]
  simp only [List.foldl_cons, List.foldl_nil, offers, offered, List.foldl_append, hc]

end Offers

section Polls

variable {s : Futures.State} {waker : Waker} {t : Token} {a : Action}

theorem isEstablished_returns_iff :
    (∃ r, (s.isEstablished token waker).1 = .ready r) ↔
      (s.isEstablished token waker).1 = .ready (.ok ()) := by
  by_cases h : token ∈ s.establishedConns <;> simp [State.isEstablished, h]

theorem acceptStream_returns_iff (hrunning : s.stopped = false) :
    (∃ r, (s.acceptStream token waker).1 = .ready r) ↔ queue s token ≠ [] := by
  rw [queue]
  cases hqueue : (s.incomingStreams.lookup token).getD [] <;>
    simp [State.acceptStream, hrunning, hqueue]

theorem finishPoll_notFound (event : Event) :
    s.finishPoll token event (.error (Io.ofError .notFound) : Except Io Reply) =
      .ok (.ready (.error (Io.ofError .notFound)), s) := by
  simp [State.finishPoll, Io.ofError]

/-- What a poll asks for was reported, to `is_established` at any time by a
`Connected` event, to `accept` since the close by a `StreamAccept` event, and no
other poll took it. The other operations need no report. -/
def Told (t : Token) (past since : List Action) : Action → Prop
  | .isEstablished token _ => token = t → Fresh t past
  | .acceptStream token _ => token = t → offered t since ≠ []
  | _ => True

theorem returns_iff_told {past since : List Action} (hrun : runAll .initial past = .ok w)
    (hqueue : queue w.state t = offered t since) (hgone : Gone t a) :
    Returns t w a ↔ Told t past since a := by
  cases a with
  | isEstablished token waker =>
    refine forall_congr' fun heq ↦ ?_
    rw [isEstablished_returns_iff, heq, isEstablished_ready_iff hrun]
  | acceptStream token waker =>
    refine forall_congr' fun heq ↦ ?_
    rw [acceptStream_returns_iff (running_runAll hrun), heq, hqueue]
  | finish f answer =>
    refine iff_of_true (fun heq ↦ ?_) trivial
    obtain ⟨g, hnone, hanswers⟩ := hgone heq
    rw [hanswers.of_gone (heq ▸ hnone)]
    exact ⟨_, _, finishPoll_notFound f.event⟩
  | acceptConn | begin | dispatch | stop | shutdown | cancel => exact Iff.rfl

theorem told_of_not_gone {past since : List Action} (hgone : ¬ Gone t a) : Told t past since a := by
  cases a with
  | finish => trivial
  | _ => exact absurd trivial hgone

end Polls

/-- Once a `Closed` event was dispatched, the later polls on the connection all
return exactly if each poll of `is_established` has a `Connected` event of its own
and each poll of `accept` a stream that was reported after the close. -/
theorem closed_polls_complete_iff (t : Token) (before after : List Action)
    (xs ys : List Api.Types.Event) (c : Api.Types.Event) (w₁ w : World) (hclosed : Closes t c)
    (hbefore : runAll .initial (before ++ [.dispatch (xs ++ c :: ys)]) = .ok w₁)
    (hafter : runAll w₁ after = .ok w) :
    (∀ mid a rest v, after = mid ++ a :: rest → runAll w₁ mid = .ok v → Gone t a →
        Returns t v a) ↔
      ∀ mid a rest, after = mid ++ a :: rest →
        Told t (before ++ .dispatch (xs ++ c :: ys) :: mid) (.dispatch ys :: mid) a := by
  have hpast : ∀ mid v, runAll w₁ mid = .ok v →
      runAll .initial (before ++ .dispatch (xs ++ c :: ys) :: mid) = .ok v ∧
        queue v.state t = offered t (.dispatch ys :: mid) := by
    intro mid v hmid
    refine ⟨?_, ?_⟩
    · rw [List.append_cons, runAll_append, hbefore]
      exact hmid
    · rw [queue_runAll (running_runAll hbefore) hmid, queue_closed hclosed hbefore]
      rfl
  constructor
  · intro h mid a rest heq
    by_cases hgone : Gone t a
    · rw [heq, runAll_append] at hafter
      obtain ⟨v, hmid, -⟩ := bind_ok hafter
      obtain ⟨hrun, hqueue⟩ := hpast mid v hmid
      exact (returns_iff_told hrun hqueue hgone).mp (h mid a rest v heq hmid hgone)
    · exact told_of_not_gone hgone
  · intro h mid a rest v heq hmid hgone
    obtain ⟨hrun, hqueue⟩ := hpast mid v hmid
    exact (returns_iff_told hrun hqueue hgone).mpr (h mid a rest heq)

theorem splits_cons {P : List Action → Action → Prop} {a : Action} {as : List Action}
    (hhead : P [] a) (htail : ∀ mid b rest, as = mid ++ b :: rest → P (a :: mid) b) :
    ∀ mid b rest, a :: as = mid ++ b :: rest → P mid b := by
  intro mid b rest heq
  cases mid with
  | nil =>
    cases heq
    exact hhead
  | cons a' mid =>
    cases heq
    exact htail mid b rest rfl

theorem closed_polls_complete_iff_example :
    ∃ w₁ w₂, runAll .initial [.acceptStream ⟨1⟩ ⟨0⟩,
        .dispatch [connectedEvent, closedEvent, acceptedEvent]] = .ok w₁ ∧
      runAll w₁ [.acceptStream ⟨1⟩ ⟨0⟩, .begin ⟨1⟩ (.send 4 false) ⟨0⟩] = .ok w₂ ∧
      Returns ⟨1⟩ w₁ (.acceptStream ⟨1⟩ ⟨0⟩) ∧
      Returns ⟨1⟩ w₂ (.finish ⟨⟨1⟩, .streamSend 4, ⟨0⟩⟩ (.error (Io.ofError .notFound))) := by
  have hreturns := (closed_polls_complete_iff ⟨1⟩ [.acceptStream ⟨1⟩ ⟨0⟩]
    [.acceptStream ⟨1⟩ ⟨0⟩, .begin ⟨1⟩ (.send 4 false) ⟨0⟩,
      .finish ⟨⟨1⟩, .streamSend 4, ⟨0⟩⟩ (.error (Io.ofError .notFound))]
    [connectedEvent] [acceptedEvent] closedEvent _ _ ⟨rfl, rfl⟩ rfl rfl).mpr ?_
  · refine ⟨_, _, rfl, rfl, hreturns [] _ _ _ rfl rfl trivial, hreturns [_, _] _ _ _ rfl rfl ?_⟩
    have hgone : Group.streamSend ⟨1⟩ 4 [] false .still Group.new =
        .ok (.error .notFound) Group.new := streamSend_of_gone rfl 4 [] false
    have hanswers := Answers.send (f := ⟨⟨1⟩, .streamSend 4, ⟨0⟩⟩) rfl hgone
    exact fun _ ↦ ⟨Group.new, rfl, hanswers⟩
  · refine splits_cons (fun _ ↦ ?_) (splits_cons trivial (splits_cons trivial ?_))
    · decide
    · intro mid b rest heq
      simp at heq

/-- A task waits for a handshake and the connection is closed. The task is woken,
and its next poll waits again, although the connection is gone. -/
theorem closed_poll_waits :
    ∃ w, Run step Legal .initial w ∧ w.state.woken = [⟨0⟩] ∧ Legal w (.isEstablished ⟨1⟩ ⟨0⟩) ∧
      (w.state.isEstablished ⟨1⟩ ⟨0⟩).1 = .pending ∧ (w.state.acceptStream ⟨1⟩ ⟨0⟩).1 = .pending := by
  have hpoll : Run step Legal .initial _ :=
    .one (i := .isEstablished ⟨1⟩ ⟨0⟩) (by simp [Legal, World.initial]) rfl
  have hclosed : Run step Legal .initial _ :=
    .tail hpoll (i := .dispatch [⟨⟨1⟩, .closed, false, false, 0⟩]) trivial rfl
  refine ⟨_, hclosed, rfl, ?_, rfl, rfl⟩
  intro f hf
  cases hf

end ZeroRtt.Futures.Closing
