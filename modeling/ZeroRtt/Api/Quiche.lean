import ZeroRtt.Api.Types
import ZeroRtt.Lib.Interface

namespace ZeroRtt.Api.Quiche

open ZeroRtt.Lib.Panics ZeroRtt.Lib.Interface ZeroRtt.Api.Types

inductive Shutdown
  | read
  | write
deriving DecidableEq, Repr

/-- The methods of `quiche::Connection` that take `&mut self`. -/
inductive Call
  | close (app : Bool) (err : ℕ) (reason : Bytes)
  | streamShutdown (id : ℕ) (direction : Shutdown) (err : ℕ)
  | streamSend (id : ℕ) (buf : Bytes) (fin : Bool)
  | streamRecv (id : ℕ) (len : ℕ)
  | streamPriority (id urgency : ℕ) (incremental : Bool)
  | streamWritable (id len : ℕ)
  | streamWritableNext
  | streamReadableNext
  | recv (buf : Bytes) (info : RecvInfo)
  | send (len : ℕ)
  | onTimeout
deriving DecidableEq

abbrev Answer : Call → Type
  | .close .. => Except QuicheError Unit
  | .streamShutdown .. => Except QuicheError Unit
  | .streamSend .. => Except QuicheError ℕ
  | .streamRecv .. => Except QuicheError (ℕ × Bool)
  | .streamPriority .. => Except QuicheError Unit
  | .streamWritable .. => Except QuicheError Bool
  | .streamWritableNext => Option ℕ
  | .streamReadableNext => Option ℕ
  | .recv .. => Except QuicheError ℕ
  | .send .. => Except QuicheError (ℕ × SendInfo)
  | .onTimeout => Unit

/-- `quiche::ReleaseDecision`, through its only method. -/
structure ReleaseDecision where
  time : Instant → Option Instant

/-- The methods that take `&self`. -/
inductive Query
  | isEstablished
  | isClosed
  | sourceId
  | streamFinished (id : ℕ)
  | peerStreamsLeftUni
  | peerStreamsLeftBidi
  | getNextReleaseTime
  | timeoutInstant

abbrev Value : Query → Type
  | .isEstablished => Bool
  | .isClosed => Bool
  | .sourceId => ConnectionId
  | .streamFinished _ => Bool
  | .peerStreamsLeftUni => ℕ
  | .peerStreamsLeftBidi => ℕ
  | .getNextReleaseTime => Option ReleaseDecision
  | .timeoutInstant => Option Instant

/-- `quiche::Connection`. The role is fixed when it is created, and the two
stream iterators drain a finite set: every stream they yield lowers
`streamsLeft`. The label tells two connections apart. -/
structure Connection extends BlackBox Answer Value where
  label : ℕ
  isServer : Bool
  streamsLeft : List Call → ℕ
  writable_ends : ∀ h id, answer h .streamWritableNext = some id →
    streamsLeft (h ++ [.streamWritableNext]) < streamsLeft h
  readable_ends : ∀ h id, answer h .streamReadableNext = some id →
    streamsLeft (h ++ [.streamReadableNext]) < streamsLeft h

namespace Connection

def after (q : Connection) (calls : List Call) : Connection :=
  { q with toBlackBox := q.toBlackBox.after calls }

def call (q : Connection) (c : Call) : Answer c × Connection :=
  ((q.toBlackBox.call c).1, q.after [c])

def isEstablished (q : Connection) : Bool := q.ask .isEstablished

def isClosed (q : Connection) : Bool := q.ask .isClosed

def sourceId (q : Connection) : ConnectionId := q.ask .sourceId

def streamFinished (q : Connection) (id : ℕ) : Bool := q.ask (.streamFinished id)

def peerStreamsLeft (q : Connection) : StreamKind → ℕ
  | .uni => q.ask .peerStreamsLeftUni
  | .bidi => q.ask .peerStreamsLeftBidi

def getNextReleaseTime (q : Connection) : Option ReleaseDecision := q.ask .getNextReleaseTime

def timeoutInstant (q : Connection) : Option Instant := q.ask .timeoutInstant

@[simp] theorem after_nil (q : Connection) : q.after [] = q := by
  simp only [after, BlackBox.after_nil]

@[simp] theorem after_after (q : Connection) (xs ys : List Call) :
    (q.after xs).after ys = q.after (xs ++ ys) := by
  simp only [after, BlackBox.after_after]

@[simp] theorem after_isServer (q : Connection) (calls : List Call) :
    (q.after calls).isServer = q.isServer := rfl

@[simp] theorem call_snd (q : Connection) (c : Call) : (q.call c).2 = q.after [c] := rfl

def FixedSourceId (q : Connection) : Prop := q.toBlackBox.Constant .sourceId

theorem FixedSourceId.after {q : Connection} (h : q.FixedSourceId) (calls : List Call) :
    (q.after calls).FixedSourceId := h

theorem FixedSourceId.sourceId_after {q : Connection} (h : q.FixedSourceId) (calls : List Call) :
    (q.after calls).sourceId = q.sourceId := BlackBox.Constant.ask_after h calls

end Connection

/-- A connection for examples: it reports the given streams as readable, one
at each call, is closed from the first call among `ends` on, and else answers as
an idle connection does. -/
structure Script where
  isServer : Bool
  sourceId : ConnectionId
  reports : List ℕ
  ends : List Call
  timeout : Option Instant

namespace Script

def answer (s : Script) (h : List Call) : (c : Call) → Answer c
  | .close .. => .ok ()
  | .streamShutdown .. => .ok ()
  | .streamSend .. => .ok 0
  | .streamRecv .. => .error .done
  | .streamPriority .. => .ok ()
  | .streamWritable .. => .ok false
  | .streamWritableNext => none
  | .streamReadableNext => s.reports[h.count .streamReadableNext]?
  | .recv buf _ => .ok buf.length
  | .send _ => .error .done
  | .onTimeout => ()

def value (s : Script) (h : List Call) : (q : Query) → Value q
  | .isEstablished => false
  | .isClosed => h.any (· ∈ s.ends)
  | .sourceId => s.sourceId
  | .streamFinished _ => false
  | .peerStreamsLeftUni => 0
  | .peerStreamsLeftBidi => 0
  | .getNextReleaseTime => none
  | .timeoutInstant => s.timeout

def connection (s : Script) : Connection where
  answer := s.answer
  value := s.value
  history := []
  label := 0
  isServer := s.isServer
  streamsLeft h := s.reports.length - h.count .streamReadableNext
  writable_ends := by
    intro h id hid
    cases hid
  readable_ends := by
    intro h id hid
    have hlt := (List.getElem?_eq_some_iff.mp hid).1
    simp only [List.count_append, List.count_singleton_self]
    omega

end Script

end ZeroRtt.Api.Quiche
