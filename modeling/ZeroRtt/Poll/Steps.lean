import ZeroRtt.Poll.Chronicle
import ZeroRtt.Poll.GuardLifetime
import ZeroRtt.Poll.Tables

namespace ZeroRtt.Poll.Steps

open ZeroRtt.Api.Types ZeroRtt.Api.Quiche ZeroRtt.Poll.Schedule ZeroRtt.Poll.Conn
open ZeroRtt.Poll.Locking ZeroRtt.Poll.Sections ZeroRtt.Poll.Interleaving
open ZeroRtt.Lib.Panics ZeroRtt.Poll.Chronicle
open ZeroRtt.Poll.GuardLifetime (takes)
open ZeroRtt.Poll.Tables (registers)

variable {w : World}

/-- What a step of a thread does to the group: nothing, or a critical section, on the
connection or with the guard that the step is about. -/
inductive Performs (w : World) : Action → Group → Prop
  | rests {a : Action} : Performs w a w.group
  | register {a : Action} (q : Connection) (env : UnlockEnv) : registers w a = some (q, env) →
      Performs w a (leftBy (Group.register q env w.group))
  | lock (token : Token) (kind : LocKind) :
      Performs w (.lock token kind) (leftBy (Group.lock token kind w.group))
  | lockRecv {i : ℕ} {accepted : Option Connection} {env : UnlockEnv} (token : Token)
      (unparker : Option Unparker) :
      Performs w (.resume i unparker accepted env) (leftBy (Group.lockRecv token unparker w.group))
  | call (guard : Guard) (c : Call) :
      Performs w (.call guard c) (leftBy (Group.derefMut guard c w.group))
  | unlock (guard : Guard) (sendDone : Bool) (env : UnlockEnv) :
      Performs w (.unlock guard sendDone env)
        (leftBy (Group.unlockConn { guard.lock with sendDone } env w.group))
  | takeConn {a : Action} (token : Token) : takes w a = some token →
      Performs w a (leftBy (Group.takeConn token w.group))
  | takeScid {a : Action} (token : Token) (q : Connection) : .takeScid token q ∈ w.pending →
      Performs w a (leftBy (Group.takeScid token q w.group))
  | close (token : Token) (app : Bool) (err : ℕ) (reason : Bytes) (env : UnlockEnv) :
      Performs w (.close token app err reason env)
        (leftBy (Group.close token app err reason env w.group))
  | streamOpen (token : Token) (kind : StreamKind) (nonBlocking : Bool) (env : UnlockEnv) :
      Performs w (.streamOpen token kind nonBlocking env)
        (leftBy (Group.streamOpen token kind nonBlocking env w.group))
  | streamShutdown (token : Token) (streamId err : ℕ) (env : UnlockEnv) :
      Performs w (.streamShutdown token streamId err env)
        (leftBy (Group.streamShutdown token streamId err env w.group))
  | poll (env : PollEnv) : Performs w (.poll env) (leftBy (Group.poll [] env w.group))

theorem performs_resume {i : ℕ} {p : Pending} (hp : w.pending[i]? = some p)
    (unparker : Option Unparker) (accepted : Option Connection) (env : UnlockEnv) :
    Performs w (.resume i unparker accepted env)
      (World.resume { w with pending := w.pending.eraseIdx i } unparker accepted env p).group := by
  cases p with
  | takeConn token =>
    rw [World.resume, takeConn_group]
    exact .takeConn token (by simp only [takes, hp])
  | takeScid token q =>
    rw [World.resume, run_group fun _ _ ↦ rfl]
    exact .takeScid token q (List.mem_of_getElem? hp)
  | lockRecv dcid token =>
    rw [World.resume, run_group]
    · exact .lockRecv token unparker
    · intro w r
      rcases r with err | guard
      · cases err <;> rfl
      · rfl
  | handshake dcid =>
    cases accepted with
    | none => exact .rests
    | some q =>
      rw [World.resume, run_group fun _ _ ↦ rfl]
      exact .register q env (by simp only [registers, hp])

theorem performs_next (w : World) (a : Action) : Performs w a (w.next a).group := by
  cases a with
  | connect conn env =>
    rw [World.next, run_group fun _ _ ↦ rfl]
    exact .register conn env rfl
  | lock token kind =>
    rw [World.next, run_group hold_group]
    exact .lock token kind
  | call guard c =>
    rw [World.next, run_group fun _ _ ↦ rfl]
    exact .call guard c
  | unlock guard sendDone env =>
    rw [World.next, run_group]
    · exact .unlock guard sendDone env
    · intro w closed
      cases closed <;> rfl
  | deregister token =>
    rw [World.next, takeConn_group]
    exact .takeConn token rfl
  | close token app err reason env =>
    rw [World.next, run_group fun _ _ ↦ rfl]
    exact .close token app err reason env
  | streamOpen token kind nonBlocking env =>
    rw [World.next, run_group fun _ _ ↦ rfl]
    exact .streamOpen token kind nonBlocking env
  | streamShutdown token streamId err env =>
    rw [World.next, run_group fun _ _ ↦ rfl]
    exact .streamShutdown token streamId err env
  | poll env =>
    rw [World.next, run_group fun _ _ ↦ rfl]
    exact .poll env
  | lookupScid dcid =>
    rw [World.next, run_group]
    · unfold Group.lookupScid
      split <;> exact .rests
    · intro w r
      cases r <;> rfl
  | resume i unparker accepted env =>
    unfold World.next
    dsimp only
    split
    next p hp => exact performs_resume hp unparker accepted env
    next => exact .rests

end ZeroRtt.Poll.Steps
