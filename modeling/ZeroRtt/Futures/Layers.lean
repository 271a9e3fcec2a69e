import ZeroRtt.Futures.Tasks
import ZeroRtt.Poll.Minding

namespace ZeroRtt.Futures.Layers

open ZeroRtt.Lib.Panics ZeroRtt.Lib.Containers ZeroRtt.Lib.Runs ZeroRtt.Futures
open ZeroRtt.Poll (Group Section Unparker)
open ZeroRtt.Poll.Conn (LocKind UnlockEnv)
open ZeroRtt.Poll.Locking (Guard)
open ZeroRtt.Poll.Schedule (PollEnv)
open ZeroRtt.Api.Types (Token Poll StreamKind QuicheError Error)
open ZeroRtt.Api.Quiche (Connection Call)
open ZeroRtt.Futures.Tasks (Op Reply)

inductive Request
  | openStream (kind : StreamKind) (nonBlocking : Bool)
  | send (streamId : ℕ) (buf : Bytes) (fin : Bool)
  | recv (streamId len : ℕ)

namespace Request

def op (shutdown : Bool) : Request → Op
  | .openStream kind _ => .openStream kind
  | .send streamId _ _ => .send streamId shutdown
  | .recv streamId _ => .recv streamId shutdown

def event (r : Request) : Event := (r.op false).event

def kind : Request → LocKind
  | .openStream kind _ => .streamOpen kind
  | .send streamId buf _ => .streamSend streamId buf.length
  | .recv streamId _ => .streamRecv streamId

end Request

/-- How far a poll has come: its waker is registered, the connection is locked
for it, quiche has answered, or the group has returned a result. -/
inductive Stage
  | registered
  | holding (guard : Guard)
  | called (guard : Guard) (answer : Except QuicheError Reply)
  | answered (reply : Reply)

/-- A poll that is under way. What had been woken when it began is a history
variable: nothing reads it. -/
structure Polling where
  token : Token
  request : Request
  waker : Waker
  seen : ℕ
  stage : Stage

def Polling.key (p : Polling) : Key := .conn p.token p.request.event

/-- A poll that ended with `Pending` because the connection was locked, and the
number of calls that quiche had answered by then. -/
structure Refusal where
  poll : Polling
  mark : ℕ

/-- The futures over a group that is shared with other threads: the guards of
those threads, the events that the dispatcher has taken from the group, and the
polls that are under way, at most one for each operation. The refused polls are
a history variable: nothing reads them. -/
structure World where
  state : State
  group : Group
  guards : List Guard
  batch : List Api.Types.Event
  polls : HashMap Key Polling
  refused : HashMap Key Refusal

/-- The critical sections, each as one step. The first five are those of a poll,
`poll` and `dispatch` are those of `run_once`, and then there are the ones of the
other threads. -/
inductive Action
  | begin (token : Token) (request : Request) (shutdown : Bool) (waker : Waker)
  | attempt (key : Key) (env : UnlockEnv)
  | call (key : Key)
  | release (key : Key) (env : UnlockEnv)
  | finish (key : Key)
  | poll (env : PollEnv)
  | dispatch
  | connect (conn : Connection) (env : UnlockEnv)
  | lock (token : Token) (kind : LocKind)
  | lockRecv (token : Token) (unparker : Option Unparker)
  | use (guard : Guard) (c : Call)
  | unlock (guard : Guard) (sendDone : Bool) (env : UnlockEnv)
  | close (token : Token) (app : Bool) (err : ℕ) (reason : Bytes) (env : UnlockEnv)
  | streamOpen (token : Token) (kind : StreamKind) (nonBlocking : Bool) (env : UnlockEnv)
  | streamShutdown (token : Token) (streamId err : ℕ) (env : UnlockEnv)
  | isEstablished (token : Token) (waker : Waker)
  | acceptStream (token : Token) (waker : Waker)
  | acceptConn (waker : Waker)
  | shutdown (token : Token) (streamId : ℕ)
  | stop

namespace World

variable {α : Type}

def initial : World := ⟨.new, .new, [], [], ∅, ∅⟩

/-- A thread runs a critical section of the group and goes on with `k`, or it
panics and `gone` is left. -/
def run (w : World) (x : Section α) (k : World → α → World) (gone : World → World) : World :=
  match x w.group with
  | .ok a group => k { w with group } a
  | .error _ group => gone { w with group }

def other (w : World) (x : Section α) : World := w.run x (fun w _ ↦ w) id

def hold (w : World) : Except Error Guard → World
  | .ok guard => { w with guards := guard :: w.guards }
  | .error _ => w

def leave (w : World) (p : Polling) : World := { w with polls := w.polls.erase p.key }

def advance (w : World) (p : Polling) (stage : Stage) : World :=
  { w with polls := w.polls.insert p.key { p with stage } }

def asked (w : World) (token : Token) : ℕ :=
  ((w.group.state.conns.lookup token).map fun c ↦ c.wrapped.history.length).getD 0

def conclude (w : World) (p : Polling) (answer : Except Error Reply) : World :=
  match w.state.finishPoll p.token p.request.event (answer.mapError Io.ofError), answer with
  | .ok (.pending, state), .error .busy =>
    { w.leave p with state, refused := w.refused.insert p.key ⟨p, w.asked p.token⟩ }
  | .ok (_, state), _ => { w.leave p with state }
  | .error _, _ => w.leave p

/-- What follows once the group has returned: a failed poll is over without
another critical section. -/
def answer (w : World) (p : Polling) : Except Error Reply → World
  | .ok reply => w.advance p (.answered reply)
  | .error err => w.conclude p (.error err)

def begin (w : World) (token : Token) (request : Request) (shutdown : Bool) (waker : Waker) :
    World :=
  let p : Polling := ⟨token, request, waker, w.state.woken.length, .registered⟩
  let w := { w with refused := w.refused.erase p.key }
  match (request.op shutdown).begun w.state token waker with
  | none => w
  | some state => { w with state }.advance p .registered

def attempt (w : World) (p : Polling) (env : UnlockEnv) : World :=
  match p.request with
  | .openStream kind nonBlocking =>
    w.run (Group.streamOpen p.token kind nonBlocking env)
      (fun w r ↦ w.answer p (r.map .opened)) fun w ↦ w.leave p
  | _ =>
    w.run (Group.lock p.token p.request.kind)
      (fun w r ↦
        match r with
        | .ok guard => w.advance p (.holding guard)
        | .error err => w.answer p (.error err))
      fun w ↦ w.leave p

def call (w : World) (p : Polling) (guard : Guard) : World :=
  match p.request with
  | .openStream _ _ => w
  | .send streamId buf fin =>
    w.run (Group.derefMut guard (.streamSend streamId buf fin))
      (fun w r ↦ w.advance p (.called guard (r.map .sent))) fun w ↦ w.leave p
  | .recv streamId len =>
    w.run
      (do
        let r ← Group.derefMut guard (.streamRecv streamId len)
        let conn ← Group.deref guard
        return (r, conn.streamFinished streamId))
      (fun w r ↦ w.advance p (.called guard
        (match r with
        | (.ok (readSize, fin), _) => .ok (.received readSize fin)
        | (.error .done, true) => .ok (.received 0 true)
        | (.error err, _) => .error err)))
      fun w ↦ w.leave p

/-- How `stream_send` and `stream_recv` return what quiche has answered. -/
def returned : Except QuicheError Reply → Except Error Reply
  | .ok reply => .ok reply
  | .error .done => .error .retry
  | .error err => .error (.quiche err)

end World

def step (w : World) : Action → Rust World
  | .begin token request shutdown waker => return w.begin token request shutdown waker
  | .attempt key env =>
    match w.polls.lookup key with
    | some p@⟨_, _, _, _, .registered⟩ => return w.attempt p env
    | _ => return w
  | .call key =>
    match w.polls.lookup key with
    | some p@⟨_, _, _, _, .holding guard⟩ => return w.call p guard
    | _ => return w
  | .release key env =>
    match w.polls.lookup key with
    | some p@⟨_, _, _, _, .called guard answer⟩ =>
      return w.run (Group.unlock guard.lock env) (fun w _ ↦ w.answer p (World.returned answer))
        fun w ↦ w.leave p
    | _ => return w
  | .finish key =>
    match w.polls.lookup key with
    | some p@⟨_, _, _, _, .answered reply⟩ => return w.conclude p (.ok reply)
    | _ => return w
  | .poll env =>
    return w.run (Group.poll [] env)
      (fun w (events, _) ↦
        { w with batch := events.filter fun e ↦ e.kind ≠ .send && e.kind ≠ .recv })
      id
  | .dispatch => do return { w with state := ← w.state.dispatchAll w.batch, batch := [] }
  | .connect conn env => return w.other (Group.register conn env)
  | .lock token kind => return w.run (Group.lock token kind) World.hold id
  | .lockRecv token unparker => return w.run (Group.lockRecv token unparker) World.hold id
  | .use guard c => return w.other (Group.derefMut guard c)
  | .unlock guard sendDone env =>
    return { w with guards := w.guards.erase guard }.other
      (Group.unlock { guard.lock with sendDone } env)
  | .close token app err reason env => return w.other (Group.close token app err reason env)
  | .streamOpen token kind nonBlocking env =>
    return w.other (Group.streamOpen token kind nonBlocking env)
  | .streamShutdown token streamId err env =>
    return w.other (Group.streamShutdown token streamId err env)
  | .isEstablished token waker => return { w with state := (w.state.isEstablished token waker).2 }
  | .acceptStream token waker => return { w with state := (w.state.acceptStream token waker).2 }
  | .acceptConn waker => return { w with state := (w.state.acceptConn waker).2 }
  | .shutdown token streamId => return { w with state := (w.state.shutdown token streamId).2 }
  | .stop => return { w with state := w.state.stop }

/-- A task polls an operation after its last poll of it is over, the dispatcher
takes events once it is done with the last ones, and a guard is used as long as
it is held. Only `register` takes a guard for `ReadLock`, and only `unlock`
drains the iterator of the writable streams. -/
def Legal (w : World) : Action → Prop
  | .begin token request _ _ => w.polls.lookup (.conn token request.event) = none
  | .poll _ => w.batch = []
  | .lock _ kind => kind ≠ .readLock
  | .use guard c => guard ∈ w.guards ∧ c ≠ .streamWritableNext
  | .unlock guard _ _ => guard ∈ w.guards
  | _ => True

end ZeroRtt.Futures.Layers
