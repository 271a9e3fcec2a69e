import ZeroRtt.Api.Handshakes
import ZeroRtt.Poll.Locking

namespace ZeroRtt.Poll

open ZeroRtt.Lib.Panics ZeroRtt.Lib.Containers
open ZeroRtt.Api.Types ZeroRtt.Api.Quiche ZeroRtt.Api.Handshakes
open ZeroRtt.Poll.Schedule ZeroRtt.Poll.Conn ZeroRtt.Poll.Locking

def defaultReleaseTimerThreshold : Duration := 250000

/-- `crossbeam_utils::sync::Unparker`, the thread that it wakes. -/
structure Unparker where
  thread : ℕ
deriving DecidableEq

inductive Happening
  | registered (token : Token)
  | observed (obs : Obs)
  | delivered (event : Event)
deriving DecidableEq

/-- The fields behind the mutex. The history is a history variable: nothing
reads it. -/
structure State where
  tokenNext : UInt32
  conns : HashMap Token QuicConn
  readiness : Readiness
  unparkers : HashMap Token Unparker
  history : List Happening

structure Group where
  state : State
  scids : HashMap ConnectionId Token

/-- A piece of code that runs on a group: it ends with a result, or it fails,
and leaves the group behind as it is then. -/
abbrev Section := EStateM Panic Group

namespace State

def ctx (st : State) (conn : QuicConn) : Ctx := ⟨conn, st.readiness, []⟩

def put (st : State) (token : Token) (s : Ctx) : State :=
  { st with
    conns := st.conns.insert token s.conn
    readiness := s.readiness
    history := st.history ++ s.trace.map .observed }

/-- The loop of `register`. -/
def freeToken : ℕ → State → Option (Token × State)
  | 0, _ => none
  | n + 1, st =>
    let token : Token := ⟨st.tokenNext⟩
    let st := { st with tokenNext := st.tokenNext + 1 }
    if (st.conns.lookup token).isSome then freeToken n st else some (token, st)

end State

namespace Group

def new : Group := ⟨⟨0, ∅, .empty, ∅, []⟩, ∅⟩

variable {α : Type}

/-- A critical section of the mutex that works on one connection. -/
def onConn (token : Token) (f : Ctx → Rust (α × Ctx)) : Section (Except Error α) := fun g ↦
  match g.state.conns.lookup token with
  | none => .ok (.error .notFound) g
  | some conn =>
    match f (g.state.ctx conn) with
    | .error panic => .error panic g
    | .ok (a, s) => .ok (.ok a) { g with state := g.state.put token s }

def tryLock (kind : LocKind) (s : Ctx) : Rust (Except Error Guard × Ctx) := do
  let (r, conn) ← s.conn.tryLockPrv kind
  return (r.map fun lock ↦ ⟨lock, kind, conn.wrapped.label⟩, { s with conn })

def lock (token : Token) (kind : LocKind) : Section (Except Error Guard) :=
  return (← onConn token (tryLock kind)).bind id

/-- A guard points to the entry of its connection in the table, which is found by
the token: the entry is where the guard points to as long as the table has not
grown since the guard was taken. -/
def deref (guard : Guard) : Section Connection := fun g ↦
  match g.state.conns.lookup guard.lock.token with
  | none => .error .dangling g
  | some conn =>
    if conn.wrapped.label = guard.label then .ok conn.wrapped g else .error .dangling g

def derefMut (guard : Guard) (c : Call) : Section (Answer c) := do
  let q ← deref guard
  let _ ← onConn guard.lock.token fun s ↦ .ok ((), (s.call c).2)
  return (q.call c).1

/-- The critical section of `unlock`. -/
def unlockConn (ctx : LockContext) (env : UnlockEnv) : Section Bool := fun g ↦
  let g := { g with state.unparkers := g.state.unparkers.erase ctx.token }
  match onConn ctx.token (fun s ↦ s.unlock ctx.lockCount ctx.sendDone env) g with
  | .ok (.ok closed) g => .ok closed g
  | .ok (.error _) g => .error (.expect "Unlock.") g
  | .error panic g => .error panic g

/-- The critical section of `deregister` that takes the connection out. -/
def takeConn (token : Token) : Section (Except Error Connection) := fun g ↦
  match g.state.conns.lookup token with
  | none => .ok (.error .notFound) g
  | some conn => .ok (.ok conn.wrapped) { g with state.conns := g.state.conns.erase token }

/-- The critical section of `deregister` that takes the source id out. -/
def takeScid (token : Token) (conn : Connection) : Section Unit := fun g ↦
  let removed := g.scids.lookup conn.sourceId
  let g := { g with scids := g.scids.erase conn.sourceId }
  if removed = some token then .ok () g else .error .assertion g

def deregister (token : Token) : Section (Except Error Connection) := do
  match ← takeConn token with
  | .error err => return .error err
  | .ok conn =>
    takeScid token conn
    return .ok conn

def unlock (ctx : LockContext) (env : UnlockEnv) : Section Unit := do
  if ← unlockConn ctx env then
    let _ ← deregister ctx.token

/-- The guard that `register` takes and drops before the connection is in the
group. -/
def settle (s : Ctx) (env : UnlockEnv) : Rust (Except Error Unit × Ctx) := do
  let (guard, s) ← tryLock .readLock s
  match guard with
  | .error err => return (.error err, s)
  | .ok guard =>
    let (_, s) ← s.unlock guard.lock.lockCount false env
    return (.ok (), s)

def register (wrapped : Connection) (env : UnlockEnv) : Section (Except Error Token) := fun g ↦
  match g.state.freeToken (2 ^ 32) with
  | none => .error .hangs g
  | some (token, state) =>
    let previous := g.scids.lookup wrapped.sourceId
    let g : Group := { state, scids := g.scids.insert wrapped.sourceId token }
    if previous.isSome then .error .assertion g
    else
      match settle (state.ctx (.new token wrapped)) env with
      | .error panic => .error panic g
      | .ok (.error err, _) => .ok (.error err) g
      | .ok (.ok _, s) =>
        let state := { state with history := state.history ++ [Happening.registered token] }
        .ok (.ok token) { g with state := state.put token s }

def len : Section ℕ := fun g ↦ .ok g.state.conns.keys.length g

def close (token : Token) (app : Bool) (err : ℕ) (reason : Bytes) (env : UnlockEnv) :
    Section (Except Error Unit) :=
  return (← onConn token fun s ↦ s.close app err reason env).bind id

def streamOpen (token : Token) (kind : StreamKind) (nonBlocking : Bool) (env : UnlockEnv) :
    Section (Except Error (Option ℕ)) :=
  return (← onConn token fun s ↦ s.streamOpen kind nonBlocking env).bind id

def streamShutdown (token : Token) (streamId err : ℕ) (env : UnlockEnv) :
    Section (Except Error Unit) :=
  return (← onConn token fun s ↦ s.streamClose streamId err env).bind id

def streamSend (token : Token) (streamId : ℕ) (buf : Bytes) (fin : Bool) (env : UnlockEnv) :
    Section (Except Error ℕ) := do
  match ← lock token (.streamSend streamId buf.length) with
  | .error err => return .error err
  | .ok guard =>
    let r ← derefMut guard (.streamSend streamId buf fin)
    unlock guard.lock env
    match r with
    | .ok sendSize => return .ok sendSize
    | .error .done => return .error .retry
    | .error err => return .error (.quiche err)

def streamRecv (token : Token) (streamId len : ℕ) (env : UnlockEnv) :
    Section (Except Error (ℕ × Bool)) := do
  match ← lock token (.streamRecv streamId) with
  | .error err => return .error err
  | .ok guard =>
    let r ← derefMut guard (.streamRecv streamId len)
    let conn ← deref guard
    unlock guard.lock env
    match r with
    | .ok r => return .ok r
    | .error .done => return if conn.streamFinished streamId then .ok (0, true) else .error .retry
    | .error err => return .error (.quiche err)

def poll (events : List Event) (env : PollEnv) : Section (List Event × Option Instant) := fun g ↦
  match g.state.readiness.poll events defaultReleaseTimerThreshold env with
  | .error panic => .error panic g
  | .ok (out, deadline, readiness) =>
    let history := g.state.history ++ out.map .delivered
    .ok (out, deadline) { g with state.readiness := readiness, state.history := history }

/-- The first critical section of `recv_with_connection_id`. -/
def lookupScid (scid : ConnectionId) : Section (Except Error Token) := fun g ↦
  match g.scids.lookup scid with
  | none => .ok (.error .notFound) g
  | some token => .ok (.ok token) g

/-- The second critical section of `recv_with_connection_id`. -/
def lockRecv (token : Token) (unparker : Option Unparker) : Section (Except Error Guard) := fun g ↦
  match onConn token (tryLock .recv) g with
  | .error panic g => .error panic g
  | .ok (.error err) g => .ok (.error err) g
  | .ok (.ok (.ok guard)) g => .ok (.ok guard) g
  | .ok (.ok (.error _)) g =>
    match unparker with
    | none => .ok (.error .busy) g
    | some unparker => .ok (.error .busy)
        { g with state.unparkers := g.state.unparkers.insert token unparker }

def recvWithConnectionId (scid : ConnectionId) (buf : Bytes) (info : RecvInfo)
    (unparker : Option Unparker) (env : UnlockEnv) : Section (Except Error (Token × ℕ)) := do
  match ← lookupScid scid with
  | .error err => return .error err
  | .ok token =>
    match ← lockRecv token unparker with
    | .error err => return .error err
    | .ok guard =>
      let r ← derefMut guard (.recv buf info)
      unlock guard.lock env
      match r with
      | .ok recvSize => return .ok (token, recvSize)
      | .error err => return .error (.quiche err)

/-- `quiche::Header::from_slice`. -/
abbrev FromSlice := Bytes → Except QuicheError Header

def recv (fromSlice : FromSlice) (buf : Bytes) (info : RecvInfo) (env : UnlockEnv) :
    Section (Except Error ℕ) := do
  match fromSlice buf with
  | .error err => return .error (.quiche err)
  | .ok header =>
    return (← recvWithConnectionId header.dcid buf info none env).map Prod.snd

def send (token : Token) (len : ℕ) (now : Instant) (env : UnlockEnv) :
    Section (Except Error (ℕ × SendInfo)) := do
  match ← lock token .recv with
  | .error err => return .error err
  | .ok guard =>
    let conn ← deref guard
    if (releaseTime conn now defaultReleaseTimerThreshold).isSome then
      unlock guard.lock env
      return .error .retry
    derefMut guard .onTimeout
    match ← derefMut guard (.send len) with
    | .ok r =>
      unlock guard.lock env
      return .ok r
    | .error .done =>
      unlock { guard.lock with sendDone := true } env
      return .error .retry
    | .error err =>
      unlock guard.lock env
      return .error (.quiche err)

end Group

end ZeroRtt.Poll
