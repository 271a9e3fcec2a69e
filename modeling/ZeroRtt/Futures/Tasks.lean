import ZeroRtt.Futures.Wakers
import ZeroRtt.Lib.Runs

namespace ZeroRtt.Futures.Tasks

open ZeroRtt.Lib.Panics ZeroRtt.Lib.Containers ZeroRtt.Lib.Runs ZeroRtt.Futures
open ZeroRtt.Api.Types (Token Poll StreamKind)

/-- The operations that call the group between two critical sections. The flag
is the one of the stream. -/
inductive Op
  | openStream (kind : StreamKind)
  | send (streamId : ℕ) (shutdown : Bool)
  | recv (streamId : ℕ) (shutdown : Bool)

def Op.event : Op → Event
  | .openStream kind => State.openEvent kind
  | .send streamId _ => .streamSend streamId
  | .recv streamId _ => .streamRecv streamId

def Op.shut : Op → Bool
  | .openStream _ => false
  | .send _ shutdown | .recv _ shutdown => shutdown

def calling {α : Type} : State.Begun α → Option State
  | .done _ => none
  | .calling s => some s

def Op.begun (s : State) (token : Token) (waker : Waker) : Op → Option State
  | .openStream kind => calling (s.beginOpen token kind waker)
  | .send streamId shutdown => calling (s.beginSend token streamId shutdown waker)
  | .recv streamId shutdown => calling (s.beginRecv token streamId shutdown waker)

inductive Reply
  | opened (streamId : Option ℕ)
  | sent (size : ℕ)
  | received (size : ℕ) (fin : Bool)

structure Flight where
  token : Token
  event : Event
  waker : Waker
deriving DecidableEq

def Flight.key (f : Flight) : Key := .conn f.token f.event

/-- The shared state and the polls that are under way. The list of the tasks that
wait is a history variable: nothing reads it. A task waits for what its poll
registered its waker for until it is woken or a poll comes to a result. -/
structure World where
  state : State
  flights : List Flight
  waiting : List (Key × Waker)

/-- The critical sections, each as one step; a task gives up waiting when its
future is dropped. -/
inductive Action
  | isEstablished (token : Token) (waker : Waker)
  | acceptStream (token : Token) (waker : Waker)
  | acceptConn (waker : Waker)
  | begin (token : Token) (op : Op) (waker : Waker)
  | finish (flight : Flight) (answer : Except Io Reply)
  | dispatch (events : List Api.Types.Event)
  | stop
  | shutdown (token : Token) (streamId : ℕ)
  | cancel (key : Key) (waker : Waker)

namespace World

def initial : World := ⟨.new, [], []⟩

def wait (w : World) (key : Key) (waker : Waker) : World :=
  { w with waiting := (key, waker) :: w.waiting }

def leave (w : World) (key : Key) (waker : Waker) : World :=
  { w with waiting := w.waiting.filter fun x ↦ x ≠ (key, waker) }

def polled {α : Type} (w : World) (key : Key) (waker : Waker) : Poll α × State → World
  | (.ready _, state) => { w with state }.leave key waker
  | (.pending, state) => { w with state }.wait key waker

def rouse (w : World) (state : State) : World :=
  { w with
    state
    waiting := w.waiting.filter fun x ↦ x.2 ∉ state.woken.drop w.state.woken.length }

end World

def step (w : World) : Action → Rust World
  | .isEstablished token waker =>
    return w.polled (.conn token .connected) waker (w.state.isEstablished token waker)
  | .acceptStream token waker =>
    return w.polled (.conn token .streamAccept) waker (w.state.acceptStream token waker)
  | .acceptConn waker => return w.polled .accept waker (w.state.acceptConn waker)
  | .begin token op waker =>
    match op.begun w.state token waker with
    | none => return w.leave (.conn token op.event) waker
    | some state =>
      return { w with state, flights := ⟨token, op.event, waker⟩ :: w.flights }.wait
        (.conn token op.event) waker
  | .finish flight answer => do
    let (result, state) ← w.state.finishPoll flight.token flight.event answer
    let w := { w with state, flights := w.flights.erase flight }
    match result with
    | .ready _ => return w.leave flight.key flight.waker
    | .pending => return w
  | .dispatch events => do return w.rouse (← w.state.dispatchAll events)
  | .stop => return w.rouse w.state.stop
  | .shutdown token streamId => return w.rouse (w.state.shutdown token streamId).2
  | .cancel key waker => return w.leave key waker

/-- A task runs one poll at a time, and only a poll that is under way comes to
an end. -/
def Legal (w : World) : Action → Prop
  | .isEstablished _ waker | .acceptStream _ waker | .acceptConn waker | .begin _ _ waker =>
    ∀ f ∈ w.flights, f.waker ≠ waker
  | .finish flight _ => flight ∈ w.flights
  | _ => True

section Specs

variable {s s' : State} {token : Token} {waker : Waker}

theorem begun_of_running (h : s.stopped = false) (op : Op) :
    op.begun s token waker = if op.shut then none else some (s.register token op.event waker) := by
  cases op with
  | openStream kind => simp [Op.begun, State.beginOpen, State.beginPoll, h, calling, Op.shut, Op.event]
  | send streamId shutdown =>
    cases shutdown <;> simp [Op.begun, State.beginSend, State.beginPoll, h, calling, Op.shut, Op.event]
  | recv streamId shutdown =>
    cases shutdown <;> simp [Op.begun, State.beginRecv, State.beginPoll, h, calling, Op.shut, Op.event]

theorem begun_of_stopped (h : s.stopped = true) (op : Op) : op.begun s token waker = none := by
  cases op <;>
    simp [Op.begun, State.beginOpen, State.beginSend, State.beginRecv, State.beginPoll, h, calling]

theorem begun_eq {op : Op} (h : op.begun s token waker = some s') :
    s' = s.register token op.event waker := by
  cases hstopped : s.stopped with
  | true => simp [begun_of_stopped hstopped] at h
  | false =>
    rw [begun_of_running hstopped] at h
    split at h
    · cases h
    · cases h
      rfl

end Specs

end ZeroRtt.Futures.Tasks
