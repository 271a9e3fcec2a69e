import ZeroRtt.Api.Quiche
import ZeroRtt.Poll.Schedule

namespace ZeroRtt.Poll.Conn

open ZeroRtt.Lib.Panics ZeroRtt.Lib.Containers
open ZeroRtt.Api.Types ZeroRtt.Api.Quiche ZeroRtt.Poll.Schedule

inductive LocKind
  | none
  | send
  | recv
  | close (app : Bool) (err : ℕ) (reason : Bytes)
  | streamOpen (kind : StreamKind)
  | streamSend (id len : ℕ)
  | streamRecv (id : ℕ)
  | streamClose (id err : ℕ)
  | readLock
deriving DecidableEq

def LocKind.needRetry : LocKind → Bool
  | .send | .none => false
  | _ => true

structure LockContext where
  token : Token
  lockCount : ℕ
  sendDone : Bool
deriving DecidableEq

structure QuicConn where
  token : Token
  localStreamBidiNext : ℕ
  remoteStreamBidiSeen : Option ℕ
  localStreamUniNext : ℕ
  remoteStreamUniSeen : Option ℕ
  locker : LocKind
  reties : HashSet LocKind
  lockCount : ℕ
  readLockCount : ℕ
  established : Bool
  wrapped : Connection

section Pacing

def minOfSome : Option Instant → Option Instant → Option Instant
  | some a, some b => some (min a b)
  | some v, none => some v
  | none, some v => some v
  | none, none => none

def pacing (q : Connection) (now : Instant) : Option Instant :=
  q.getNextReleaseTime.bind fun release ↦ release.time now

def delaySend (q : Connection) (now : Instant) (sendDone : Bool) : Option Instant :=
  let releaseTime := pacing q now
  if sendDone then minOfSome q.timeoutInstant releaseTime
  else if releaseTime.isSome then minOfSome q.timeoutInstant releaseTime
  else none

def releaseTime (q : Connection) (now : Instant) (releaseTimerThreshold : Duration) :
    Option Instant :=
  (pacing q now).filter fun time ↦ time - now > releaseTimerThreshold

end Pacing

namespace QuicConn

def new (token : Token) (wrapped : Connection) : QuicConn where
  token := token
  localStreamBidiNext := if wrapped.isServer then 0x01 else 0x0
  remoteStreamBidiSeen := none
  localStreamUniNext := if wrapped.isServer then 0x03 else 0x02
  remoteStreamUniSeen := none
  locker := .none
  reties := .empty
  lockCount := 0
  readLockCount := 0
  established := wrapped.isEstablished
  wrapped := wrapped

def context (c : QuicConn) : LockContext := ⟨c.token, c.lockCount, false⟩

/-- The last arm of `try_lock_prv`. -/
def refuse (c : QuicConn) (kind : LocKind) : QuicConn :=
  if kind.needRetry then { c with reties := c.reties.insert kind } else c

def tryLockPrv (c : QuicConn) (kind : LocKind) : Rust (Except Error LockContext × QuicConn) :=
  match c.locker with
  | .none => do
    let c ← if kind = .readLock then do
        assert (c.readLockCount = 0)
        pure { c with readLockCount := c.readLockCount + 1 }
      else pure c
    let c := { c with locker := kind }
    return (.ok c.context, c)
  | .readLock =>
    if kind = .readLock then do
      assert (c.readLockCount > 0)
      let c := { c with readLockCount := c.readLockCount + 1 }
      return (.ok c.context, c)
    else return (.error .busy, c.refuse kind)
  | _ => return (.error .busy, c.refuse kind)

/-- The part of `unlock` that releases the lock. -/
def release (c : QuicConn) (lockCount : ℕ) : Rust QuicConn := do
  assert (c.locker ≠ .none)
  assert (c.lockCount = lockCount)
  if c.locker = .readLock then
    let c := { c with readLockCount := ← checkedSub c.readLockCount 1 }
    if c.readLockCount = 0 then
      return { c with lockCount := c.lockCount + 1, locker := .none }
    else return c
  else return { c with lockCount := c.lockCount + 1, locker := .none }

end QuicConn

/-- What an observer of a connection sees: a stream id that quiche reports as
readable, or a change of the readiness events. -/
inductive Obs
  | readable (id : ℕ)
  | insert (event : Event) (delayTo : Option Instant)
  | remove (event : Event)
deriving DecidableEq

/-- A connection together with the readiness events it reports to, as they are
in a critical section. The trace is a history variable: nothing reads it. -/
structure Ctx where
  conn : QuicConn
  readiness : Readiness
  trace : List Obs

/-- What releasing a lock reads from outside. -/
structure UnlockEnv where
  now : Instant
  order : HashSet.Order LocKind

def UnlockEnv.still : UnlockEnv := ⟨0, HashSet.listed⟩

namespace Ctx

def event (s : Ctx) (kind : EventKind) (isError : Bool) (streamId : ℕ) : Event where
  token := s.conn.token
  kind := kind
  isServer := s.conn.wrapped.isServer
  isError := isError
  streamId := streamId

def insert (s : Ctx) (event : Event) (delayTo : Option Instant) : Ctx :=
  { s with
    readiness := s.readiness.insert event delayTo
    trace := s.trace ++ [.insert event delayTo] }

def remove (s : Ctx) (event : Event) : Ctx :=
  { s with
    readiness := s.readiness.remove event
    trace := s.trace ++ [.remove event] }

def call (s : Ctx) (c : Call) : Answer c × Ctx :=
  ((s.conn.wrapped.call c).1, { s with conn.wrapped := (s.conn.wrapped.call c).2 })

/-- An answer whose failure with `Done` counts as success. -/
def unlessDone {α : Type} : Except QuicheError α → Except Error Unit
  | .error err => if err ≠ .done then .error (.quiche err) else .ok ()
  | .ok _ => .ok ()

def shutdownRead (s : Ctx) (streamId err : ℕ) : Except Error Unit × Ctx :=
  if !s.conn.wrapped.streamFinished streamId then
    let (answer, s) := s.call (.streamShutdown streamId .read err)
    (unlessDone answer, s)
  else (.ok (), s)

def sendFin (s : Ctx) (streamId : ℕ) : Except Error Unit × Ctx :=
  let (answer, s) := s.call (.streamSend streamId [] true)
  (unlessDone answer, s)

def streamClosePrv (s : Ctx) (streamId err : ℕ) : Except Error Unit × Ctx :=
  if isBidi streamId then
    match s.shutdownRead streamId err with
    | (.error err, s) => (.error err, s)
    | (.ok _, s) => s.sendFin streamId
  else if isLocal streamId s.conn.wrapped.isServer then s.sendFin streamId
  else s.shutdownRead streamId err

def takeStreamId (s : Ctx) : StreamKind → ℕ × Ctx
  | .uni => (s.conn.localStreamUniNext,
      { s with conn.localStreamUniNext := s.conn.localStreamUniNext + 4 })
  | .bidi => (s.conn.localStreamBidiNext,
      { s with conn.localStreamBidiNext := s.conn.localStreamBidiNext + 4 })

def streamOpenPrv (s : Ctx) (kind : StreamKind) : Except Error ℕ × Ctx :=
  if s.conn.wrapped.peerStreamsLeft kind = 0 then (.error .retry, s)
  else
    let (streamId, s) := s.takeStreamId kind
    match s.call (.streamPriority streamId 255 true) with
    | (.error err, s) => (.error (.quiche err), s)
    | (.ok _, s) => (.ok streamId, s)

def retryLater (s : Ctx) (kind : LocKind) : Ctx :=
  { s with conn.reties := s.conn.reties.insert kind }

def streamOpenEvent : StreamKind → EventKind
  | .uni => .streamOpenUni
  | .bidi => .streamOpenBidi

/-- One round of the loop in `handle_retry_events`. -/
def handleRetryEvent (s : Ctx) : LocKind → Rust Ctx
  | .send => return s
  | .recv => return s.insert (s.event .recv false 0) none
  | .close app err reason =>
    match s.call (.close app err reason) with
    | (.error err, s) =>
      if err ≠ .done then return s.insert (s.event .closed true 0) none else return s
    | (.ok _, s) => return s
  | .streamOpen kind =>
    if s.conn.wrapped.peerStreamsLeft kind > 0 then
      return s.insert (s.event (streamOpenEvent kind) false 0) none
    else return s.retryLater (.streamOpen kind)
  | .streamSend id len =>
    match s.call (.streamWritable id len) with
    | (.ok writable, s) =>
      if writable then return s.insert (s.event .streamSend false id) none else return s
    | (.error _, s) => return s.insert (s.event .streamSend true id) none
  | .streamRecv id => return s.insert (s.event .streamRecv false id) none
  | .streamClose id err => return (s.streamClosePrv id err).2
  | .readLock => return s.insert (s.event .readLock false 0) none
  | .none => .error (.unreachable "handle_retry_events")

def handleRetryEvents (s : Ctx) (env : UnlockEnv) : Rust Ctx :=
  (env.order s.conn.reties).1.foldlM handleRetryEvent { s with conn.reties := .empty }

def see (s : Ctx) (new : ℕ) : Ctx :=
  if isBidi new then { s with conn.remoteStreamBidiSeen := some new }
  else { s with conn.remoteStreamUniSeen := some new }

def handleAccept (s : Ctx) (new : ℕ) : Ctx :=
  let remoteStreamSeen :=
    if isBidi new then s.conn.remoteStreamBidiSeen else s.conn.remoteStreamUniSeen
  match remoteStreamSeen with
  | some seen =>
    if new > seen then (s.insert (s.event .streamAccept false new) none).see new
    else s.insert (s.event .streamRecv false new) none
  | none => (s.insert (s.event .streamAccept false new) none).see new

def handleReadable (s : Ctx) (id : ℕ) : Ctx :=
  if !isLocal id s.conn.wrapped.isServer then s.handleAccept id
  else s.insert (s.event .streamRecv false id) none

def report (s : Ctx) (id : ℕ) : Ctx := { s with trace := s.trace ++ [.readable id] }

def writableLoop : ℕ → Ctx → Ctx
  | 0, s => s
  | n + 1, s =>
    match s.call .streamWritableNext with
    | (none, s) => s
    | (some id, s) => writableLoop n (s.insert (s.event .streamSend false id) none)

def readableLoop : ℕ → Ctx → Ctx
  | 0, s => s
  | n + 1, s =>
    match s.call .streamReadableNext with
    | (none, s) => s
    | (some id, s) => readableLoop n ((s.report id).handleReadable id)

/-- One more round than there are streams left. -/
def rounds (s : Ctx) : ℕ := s.conn.wrapped.streamsLeft s.conn.wrapped.history + 1

def handleStreamStateChanged (s : Ctx) : Ctx :=
  let s := writableLoop s.rounds s
  readableLoop s.rounds s

def handleSend (s : Ctx) (sendDone : Bool) (now : Instant) : Ctx :=
  let delayTo := delaySend s.conn.wrapped now sendDone
  if sendDone && delayTo.isNone then s.remove (s.event .send false 0)
  else s.insert (s.event .send false 0) delayTo

/-- The first half of `handle_state_changed`. -/
def handleEstablished (s : Ctx) : Ctx :=
  if !s.conn.established && s.conn.wrapped.isEstablished then
    let s := { s with conn.established := true }
    if s.conn.wrapped.isServer then s.insert (s.event .accept false 0) none
    else s.insert (s.event .connected false 0) none
  else s

def handleStateChanged (s : Ctx) : Bool × Ctx :=
  let s := s.handleEstablished
  if s.conn.wrapped.isClosed then (true, s.insert (s.event .closed false 0) none)
  else (false, s)

def unlock (s : Ctx) (lockCount : ℕ) (sendDone : Bool) (env : UnlockEnv) : Rust (Bool × Ctx) := do
  let conn ← s.conn.release lockCount
  let s ← handleRetryEvents { s with conn } env
  let s := s.handleStreamStateChanged
  let s := s.handleSend sendDone env.now
  return s.handleStateChanged

def close (s : Ctx) (app : Bool) (err : ℕ) (reason : Bytes) (env : UnlockEnv) :
    Rust (Except Error Unit × Ctx) := do
  let (guard, conn) ← s.conn.tryLockPrv (.close app err reason)
  let s := { s with conn }
  match wouldBlock guard with
  | .pending => return (.ok (), s)
  | .ready (.error err) => return (.error err, s)
  | .ready (.ok guard) =>
    let (answer, s) := s.call (.close app err reason)
    let (_, s) ← s.unlock guard.lockCount false env
    return (unlessDone answer, s)

def streamOpen (s : Ctx) (kind : StreamKind) (nonBlocking : Bool) (env : UnlockEnv) :
    Rust (Except Error (Option ℕ) × Ctx) := do
  let (guard, conn) ← s.conn.tryLockPrv (.streamOpen kind)
  let s := { s with conn }
  match guard with
  | .error err => return (.error err, s)
  | .ok guard =>
    match s.streamOpenPrv kind with
    | (.error .retry, s) =>
      let (_, s) ← (s.retryLater (.streamOpen kind)).unlock guard.lockCount false env
      return (if nonBlocking then .ok none else .error .retry, s)
    | (r, s) =>
      let (_, s) ← s.unlock guard.lockCount false env
      return (r.map some, s)

def streamClose (s : Ctx) (streamId err : ℕ) (env : UnlockEnv) :
    Rust (Except Error Unit × Ctx) := do
  let (guard, conn) ← s.conn.tryLockPrv (.streamClose streamId err)
  let s := { s with conn }
  match wouldBlock guard with
  | .pending => return (.ok (), s)
  | .ready (.error err) => return (.error err, s)
  | .ready (.ok guard) =>
    let (r, s) := s.streamClosePrv streamId err
    let (_, s) ← s.unlock guard.lockCount false env
    return (r, s)

end Ctx

end ZeroRtt.Poll.Conn
