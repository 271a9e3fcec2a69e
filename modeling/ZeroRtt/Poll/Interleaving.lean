import ZeroRtt.Poll.Sections

namespace ZeroRtt.Poll.Interleaving

open ZeroRtt.Lib.Panics ZeroRtt.Lib.Containers ZeroRtt.Lib.Runs
open ZeroRtt.Api.Types ZeroRtt.Api.Quiche ZeroRtt.Poll.Schedule ZeroRtt.Poll.Conn
open ZeroRtt.Poll.Locking ZeroRtt.Poll.LockProtocol
open ZeroRtt.Poll.Sections (leftBy)

/-- An operation of some thread that is between two of its critical sections:
a `deregister` before its first or its second one, and a packet that was looked
up in `scids` or that is taken for the first one of a connection. -/
inductive Pending
  | takeConn (token : Token)
  | takeScid (token : Token) (conn : Connection)
  | lockRecv (dcid : ConnectionId) (token : Token)
  | handshake (dcid : ConnectionId)

structure World where
  group : Group
  guards : List Guard
  pending : List Pending

/-- The critical sections, each as one step. -/
inductive Action
  | connect (conn : Connection) (env : UnlockEnv)
  | lock (token : Token) (kind : LocKind)
  | call (guard : Guard) (c : Call)
  | unlock (guard : Guard) (sendDone : Bool) (env : UnlockEnv)
  | deregister (token : Token)
  | close (token : Token) (app : Bool) (err : ℕ) (reason : Bytes) (env : UnlockEnv)
  | streamOpen (token : Token) (kind : StreamKind) (nonBlocking : Bool) (env : UnlockEnv)
  | streamShutdown (token : Token) (streamId err : ℕ) (env : UnlockEnv)
  | poll (env : PollEnv)
  | lookupScid (dcid : ConnectionId)
  | resume (i : ℕ) (unparker : Option Unparker) (accepted : Option Connection) (env : UnlockEnv)

namespace World

def initial : World := ⟨.new, [], []⟩

variable {α : Type}

/-- A thread runs a critical section and goes on. A thread that panics is gone,
and the others continue. -/
def run (w : World) (x : Section α) (k : World → α → World) : World :=
  match x w.group with
  | .ok a group => k { w with group } a
  | .error _ group => { w with group }

def spawn (w : World) (p : Pending) : World := { w with pending := p :: w.pending }

def hold (w : World) : Except Error Guard → World
  | .ok guard => { w with guards := guard :: w.guards }
  | .error _ => w

def takeConn (w : World) (token : Token) : World :=
  w.run (Group.takeConn token) fun w r ↦
    match r with
    | .ok conn => w.spawn (.takeScid token conn)
    | .error _ => w

def resume (w : World) (unparker : Option Unparker) (accepted : Option Connection)
    (env : UnlockEnv) : Pending → World
  | .takeConn token => w.takeConn token
  | .takeScid token conn => w.run (Group.takeScid token conn) fun w _ ↦ w
  | .lockRecv dcid token => w.run (Group.lockRecv token unparker) fun w r ↦
    match r with
    | .error .notFound => w.spawn (.handshake dcid)
    | r => w.hold r
  | .handshake _ =>
    match accepted with
    | some conn => w.run (Group.register conn env) fun w _ ↦ w
    | none => w

def next (w : World) : Action → World
  | .connect conn env => w.run (Group.register conn env) fun w _ ↦ w
  | .lock token kind => w.run (Group.lock token kind) hold
  | .call guard c => w.run (Group.derefMut guard c) fun w _ ↦ w
  | .unlock guard sendDone env =>
    { w with guards := w.guards.erase guard }.run
      (Group.unlockConn { guard.lock with sendDone } env) fun w closed ↦
        if closed then w.spawn (.takeConn guard.lock.token) else w
  | .deregister token => w.takeConn token
  | .close token app err reason env => w.run (Group.close token app err reason env) fun w _ ↦ w
  | .streamOpen token kind nonBlocking env =>
    w.run (Group.streamOpen token kind nonBlocking env) fun w _ ↦ w
  | .streamShutdown token streamId err env =>
    w.run (Group.streamShutdown token streamId err env) fun w _ ↦ w
  | .poll env => w.run (Group.poll [] env) fun w _ ↦ w
  | .lookupScid dcid => w.run (Group.lookupScid dcid) fun w r ↦
    match r with
    | .ok token => w.spawn (.lockRecv dcid token)
    | .error _ => w.spawn (.handshake dcid)
  | .resume i unparker accepted env =>
    match w.pending[i]? with
    | some p => { w with pending := w.pending.eraseIdx i }.resume unparker accepted env p
    | none => w

end World

/-- Locks are never asked for under the kind `None`, and a guard is used as
long as it is held. -/
def Legal (w : World) : Action → Prop
  | .lock _ kind => kind ≠ .none
  | .call guard _ => guard ∈ w.guards
  | .unlock guard _ _ => guard ∈ w.guards
  | _ => True

def step (w : World) (a : Action) : Rust World := .ok (w.next a)

theorem run_group {α : Type} {w : World} {x : Section α} {k : World → α → World}
    (hk : ∀ w a, (k w a).group = w.group) :
    (w.run x k).group = leftBy (x w.group) := by
  unfold World.run
  cases x w.group with
  | ok a g => exact hk _ a
  | error panic g => rfl

theorem takeConn_group (w : World) (token : Token) :
    (w.takeConn token).group = leftBy (Group.takeConn token w.group) := by
  apply run_group
  intro w r
  cases r <;> rfl

end ZeroRtt.Poll.Interleaving
