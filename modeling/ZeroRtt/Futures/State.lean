import ZeroRtt.Api.Types
import ZeroRtt.Lib.Containers

namespace ZeroRtt.Futures

open ZeroRtt.Lib.Panics ZeroRtt.Lib.Containers
open ZeroRtt.Api.Types (Token Poll StreamKind QuicheError Error EventKind)

inductive Event
  | connected
  | streamAccept
  | streamOpenBidi
  | streamOpenUni
  | streamSend (id : ℕ)
  | streamRecv (id : ℕ)
deriving DecidableEq

/-- `std::io::Error`; what comes from below carries the error it was made from. -/
abbrev Io := IoError (QuicheError ⊕ Error)

def Io.ofError : Error → Io
  | .quiche err => ⟨.other, .inr (.inl err)⟩
  | .retry => ⟨.wouldBlock, .inr (.inr .retry)⟩
  | .busy => ⟨.wouldBlock, .inr (.inr .busy)⟩
  | .notFound => ⟨.notFound, .inr (.inr .notFound)⟩
  | err => ⟨.other, .inr (.inr err)⟩

def stoppedError : Io := ⟨.brokenPipe, .inl "Stopped, backgroud group."⟩

def shutdownError : Io := ⟨.other, .inl "Quic stream is shutdown."⟩

/-- The fields behind the mutex. The list of the wakers that were woken is a
history variable: nothing reads it. -/
structure State where
  stopped : Bool
  accept : Option Waker
  wakers : HashMap Token (HashMap Event Waker)
  incomingConns : List Token
  establishedConns : HashSet Token
  incomingStreams : HashMap Token (List ℕ)
  woken : List Waker

namespace State

def new : State := ⟨false, none, ∅, [], .empty, ∅, []⟩

section Dispatch

def wake (s : State) (token : Token) (event : Event) : State :=
  match s.wakers.lookup token with
  | none => s
  | some conn =>
    match conn.lookup event with
    | none => s
    | some waker =>
      { s with
        wakers := s.wakers.insert token (conn.erase event)
        woken := s.woken ++ [waker] }

def onClosed (s : State) (token : Token) : State :=
  let s := match s.wakers.lookup token with
    | none => s
    | some conn =>
      { s with
        wakers := s.wakers.erase token
        woken := s.woken ++ conn.entries.map Sigma.snd }
  { s with incomingStreams := s.incomingStreams.erase token }

def onConnected (s : State) (token : Token) : State :=
  { s with establishedConns := s.establishedConns.insert token }.wake token .connected

def onAccept (s : State) (token : Token) : State :=
  let s := { s with incomingConns := s.incomingConns ++ [token] }
  match s.accept with
  | none => s
  | some waker => { s with accept := none, woken := s.woken ++ [waker] }

def openEvent : StreamKind → Event
  | .bidi => .streamOpenBidi
  | .uni => .streamOpenUni

def onStreamOpen (s : State) (token : Token) (kind : StreamKind) : State :=
  s.wake token (openEvent kind)

def onStreamAccept (s : State) (token : Token) (streamId : ℕ) : State :=
  let queue := (s.incomingStreams.lookup token).getD []
  { s with incomingStreams := s.incomingStreams.insert token (queue ++ [streamId]) }.wake token
    .streamAccept

def onStreamSend (s : State) (token : Token) (streamId : ℕ) : State :=
  s.wake token (.streamSend streamId)

def onStreamRecv (s : State) (token : Token) (streamId : ℕ) : State :=
  s.wake token (.streamRecv streamId)

/-- One round of the loop in `run_once`. -/
def dispatch (s : State) (event : Api.Types.Event) : Rust State :=
  match event.kind with
  | .connected => return s.onConnected event.token
  | .accept => return s.onAccept event.token
  | .closed => return s.onClosed event.token
  | .streamOpenBidi => return s.onStreamOpen event.token .bidi
  | .streamOpenUni => return s.onStreamOpen event.token .uni
  | .streamAccept => return s.onStreamAccept event.token event.streamId
  | .streamSend => return s.onStreamSend event.token event.streamId
  | .streamRecv => return s.onStreamRecv event.token event.streamId
  | _ => .error (.unreachable "illegal event")

def dispatchAll (s : State) (events : List Api.Types.Event) : Rust State := events.foldlM dispatch s

/-- What `run_once` does with a batch of events; `len` is the number of
connections in the group below. -/
def runOnce (s : State) (events : List Api.Types.Event) (len : ℕ) : Rust (Bool × State) := do
  let s ← s.dispatchAll events
  return (len = 0 && s.stopped, s)

def stop (s : State) : State :=
  { s with
    accept := none
    wakers := ∅
    woken := s.woken ++ s.accept.toList ++
      s.wakers.entries.flatMap fun conn ↦ conn.2.entries.map Sigma.snd }

end Dispatch

section Polls

def register (s : State) (token : Token) (event : Event) (waker : Waker) : State :=
  { s with
    wakers := s.wakers.insert token (((s.wakers.lookup token).getD ∅).insert event waker) }

def isEstablished (s : State) (token : Token) (waker : Waker) : Poll (Except Io Unit) × State :=
  if token ∈ s.establishedConns then
    (.ready (.ok ()), { s with establishedConns := s.establishedConns.erase token })
  else (.pending, s.register token .connected waker)

/-- `QuicConn::accept`. -/
def acceptStream (s : State) (token : Token) (waker : Waker) : Poll (Except Io ℕ) × State :=
  if s.stopped then (.ready (.error stoppedError), s)
  else
    let queue := (s.incomingStreams.lookup token).getD []
    let s := { s with incomingStreams := s.incomingStreams.insert token queue.tail }
    match queue with
    | streamId :: _ => (.ready (.ok streamId), s)
    | [] => (.pending, s.register token .streamAccept waker)

/-- `QuicListener::accept`. -/
def acceptConn (s : State) (waker : Waker) : Poll (Except Io Token) × State :=
  if s.stopped then (.ready (.error stoppedError), s)
  else
    match s.incomingConns with
    | token :: rest => (.ready (.ok token), { s with incomingConns := rest })
    | [] => (.pending, { s with accept := some waker })

def pollFlush (s : State) : Poll (Except Io Unit) :=
  if s.stopped then .ready (.error stoppedError) else .ready (.ok ())

/-- How the first critical section of a poll ends: with the result of the poll,
or with a call of the group below. -/
inductive Begun (α : Type)
  | done (result : Except Io α)
  | calling (s : State)

/-- The first critical section of `open_prv`, `send` and `recv`. -/
def beginPoll {α : Type} (s : State) (token : Token) (event : Event)
    (shutdown : Option (Except Io α)) (waker : Waker) : Begun α :=
  if s.stopped then .done (.error stoppedError)
  else
    match shutdown with
    | some result => .done result
    | none => .calling (s.register token event waker)

def beginOpen (s : State) (token : Token) (kind : StreamKind) (waker : Waker) :
    Begun (Option ℕ) :=
  s.beginPoll token (openEvent kind) none waker

def beginSend (s : State) (token : Token) (streamId : ℕ) (shutdown : Bool) (waker : Waker) :
    Begun ℕ :=
  s.beginPoll token (.streamSend streamId) (if shutdown then some (.error shutdownError) else none)
    waker

def beginRecv (s : State) (token : Token) (streamId : ℕ) (shutdown : Bool) (waker : Waker) :
    Begun (ℕ × Bool) :=
  s.beginPoll token (.streamRecv streamId) (if shutdown then some (.ok (0, true)) else none) waker

/-- The end of `open_prv`, `send` and `recv`, once the group has answered. -/
def finishPoll {α : Type} (s : State) (token : Token) (event : Event) (answer : Except Io α) :
    Rust (Poll (Except Io α) × State) :=
  match answer with
  | .ok a => do
    let conn ← unwrapOption (s.wakers.lookup token)
    return (.ready (.ok a), { s with wakers := s.wakers.insert token (conn.erase event) })
  | .error err =>
    if err.kind = .wouldBlock then return (.pending, s) else return (.ready (.error err), s)

def shutdown (s : State) (token : Token) (streamId : ℕ) : Except Io Unit × State :=
  let s := (s.wake token (.streamSend streamId)).wake token (.streamRecv streamId)
  if s.stopped then (.error stoppedError, s) else (.ok (), s)

end Polls

end State

end ZeroRtt.Futures
