import ZeroRtt.Poll.Announcing
import ZeroRtt.Poll.GuardLifetime
import ZeroRtt.Poll.Routing

namespace ZeroRtt.Poll.Faultless

open ZeroRtt.Lib.Panics ZeroRtt.Lib.Containers ZeroRtt.Lib.Runs
open ZeroRtt.Api.Types ZeroRtt.Api.Quiche ZeroRtt.Poll.Schedule ZeroRtt.Poll.Conn
open ZeroRtt.Poll.Locking ZeroRtt.Poll.Sections ZeroRtt.Poll.Interleaving
open ZeroRtt.Poll.LockProtocol hiding Action step
open ZeroRtt.Poll.GuardLifetime ZeroRtt.Poll.Tables ZeroRtt.Poll.Announcing
open ZeroRtt.Poll.Routing (freeToken_ends)

variable {α : Type} {g : Group} {w : World} {guards : List Guard}

def Room (w : World) (a : Action) : Prop :=
  ∀ conn env, registers w a = some (conn, env) → w.group.state.conns.keys.length < 2 ^ 32

structure Careful (w : World) (a : Action) : Prop where
  legal : Legal w a
  unlocked : TakesUnlocked w a
  unguarded : GrowsUnguarded w a
  sources : SourceIds w a
  unknown : AcceptsUnknown w a
  room : Room w a

section Sections

theorem failureOf_map {β : Type} {x : Section α} {f : α → β} {a : α} {g' : Group}
    (h : x g = .ok a g') : failureOf ((do return f (← x) : Section β) g) = none := by
  rw [bind_of_ok h]
  rfl

theorem failureOf_lock (h : Guarded g guards) {kind : LocKind} (hk : kind ≠ .none)
    (token : Token) : failureOf (Group.lock token kind g) = none := by
  obtain ⟨r, g', hrun, -, -⟩ := h.onConn_tryLock hk token
  exact failureOf_map hrun

theorem failureOf_lockRecv (h : Guarded g guards) (token : Token) (unparker : Option Unparker) :
    failureOf (Group.lockRecv token unparker g) = none := by
  obtain ⟨r, g', hrun, -, -⟩ := h.onConn_tryLock (show LocKind.recv ≠ .none by simp) token
  unfold Group.lockRecv
  rw [hrun]
  rcases r with err | err | guard
  · rfl
  · cases unparker <;> rfl
  · rfl

theorem failureOf_operate (h : Guarded g guards) {f : Ctx → Rust (Except Error α × Ctx)}
    (hf : ∀ s gs, Held s.conn gs → ∃ a s', f s = .ok (a, s') ∧
      Run LockProtocol.step Enabled ⟨s, gs⟩ ⟨s', gs⟩) (token : Token) :
    failureOf ((do return (← Group.onConn token f).bind id : Section (Except Error α)) g) = none := by
  obtain ⟨r, g', hrun, -, -⟩ := h.onConn_run hf token
  exact failureOf_map hrun

theorem failureOf_derefMut (h : Guarded g guards) {guard : Guard} (hg : guard ∈ guards) (c : Call) :
    failureOf (Group.derefMut guard c g) = none := by
  obtain ⟨conn, hc, -, hheld⟩ := h.live hg
  have hlabel : conn.wrapped.label = guard.label := (hheld.lock guard (mem_guardsOf hg)).2.2.symm
  have hderef : Group.deref guard g = .ok conn.wrapped g := by
    simp only [Group.deref, hc, hlabel, if_true]
  have hcall := onConn_of_some (f := fun s ↦ .ok ((), (s.call c).2)) hc rfl
  unfold Group.derefMut
  rw [bind_of_ok hderef, bind_of_ok hcall]
  rfl

theorem failureOf_unlockConn (h : Guarded g guards) {guard : Guard} (hg : guard ∈ guards)
    (sendDone : Bool) (env : UnlockEnv) :
    failureOf (Group.unlockConn { guard.lock with sendDone } env g) = none := by
  obtain ⟨closed, g', hrun, -, -⟩ := h.unlockConn hg sendDone env
  rw [hrun]
  rfl

theorem failureOf_takeConn (token : Token) (g : Group) :
    failureOf (Group.takeConn token g) = none := by
  unfold Group.takeConn
  split <;> rfl

theorem failureOf_poll (env : PollEnv) (g : Group) : failureOf (Group.poll [] env g) = none := by
  obtain ⟨more, deadline, rest, hpoll, -⟩ :=
    Readiness.poll_eq g.state.readiness defaultReleaseTimerThreshold env
  simp only [Group.poll, hpoll]
  rfl

theorem failureOf_register {q : Connection} (env : UnlockEnv)
    (hroom : g.state.conns.keys.length < 2 ^ 32) (hscid : g.scids.lookup q.sourceId = none) :
    failureOf (Group.register q env g) = none := by
  obtain ⟨token, st, hfree⟩ := freeToken_ends hroom
  obtain ⟨tokenNext, n, b, k, closed, s, log, -, -, -, hrun⟩ := register_fresh env hfree hscid
  rw [hrun]
  rfl

end Sections

theorem failureOf_takeScid (h : Consistent w) {token : Token} {conn : Connection}
    (hmem : .takeScid token conn ∈ w.pending) :
    failureOf (Group.takeScid token conn w.group) = none := by
  obtain ⟨before, after, hsplit⟩ := List.append_of_mem hmem
  have hw : Consistent ⟨w.group, w.guards, before ++ .takeScid token conn :: after⟩ := by
    rw [← hsplit]
    exact ⟨h.fixed, h.indexed⟩
  rw [hw.takeScid.1]
  rfl

theorem failure_registers (h : Consistent w) {a : Action} (ha : Careful w a) {conn : Connection}
    {env : UnlockEnv} (hr : registers w a = some (conn, env)) :
    failureOf (Group.register conn env w.group) = none := by
  obtain ⟨-, hscid⟩ := h.registers_free ha.sources ha.unknown hr
  exact failureOf_register env (ha.room conn env hr) hscid

theorem failure_eq_none (h : Safe w) (h' : Consistent w) {a : Action} (ha : Careful w a) :
    failure w a = none := by
  cases a with
  | connect conn env => exact failure_registers h' ha rfl
  | lock token kind => exact failureOf_lock h ha.legal token
  | call guard c => exact failureOf_derefMut h ha.legal c
  | unlock guard sendDone env => exact failureOf_unlockConn h ha.legal sendDone env
  | deregister token => exact failureOf_takeConn token _
  | close token app err reason env =>
    exact failureOf_operate h (fun s gs hheld ↦ close_run hheld app err reason env) token
  | streamOpen token kind nonBlocking env =>
    exact failureOf_operate h (fun s gs hheld ↦ streamOpen_run hheld kind nonBlocking env) token
  | streamShutdown token streamId err env =>
    exact failureOf_operate h (fun s gs hheld ↦ streamClose_run hheld streamId err env) token
  | poll env => exact failureOf_poll env w.group
  | lookupScid dcid =>
    unfold Announcing.failure Group.lookupScid
    dsimp only
    split <;> rfl
  | resume i unparker accepted env =>
    unfold Announcing.failure
    dsimp only
    split
    next hp => exact failureOf_takeConn _ _
    next hp => exact failureOf_takeScid h' (List.mem_of_getElem? hp)
    next hp => exact failureOf_lockRecv h _ _
    next hp => exact failure_registers h' ha (by simp only [registers, hp])
    next => rfl

/-- However careful threads take turns, none of them panics. No lock is released that is not
held, no guard outlives its connection, and no assertion of the tables fails. -/
theorem careful_threads_never_fail (h : Run step Careful .initial w) :
    ∀ a, Careful w a → failure w a = none := by
  have hsafe := run_safe (h.mono fun _ _ ha ↦ ⟨ha.legal, ha.unlocked⟩)
  have hconsistent := run_consistent (h.mono fun _ _ ha ↦ ⟨ha.sources, ha.unknown⟩)
  exact fun a ha ↦ failure_eq_none hsafe hconsistent ha

theorem careful_threads_never_fail_example :
    ∃ w guard, Run step Careful .initial w ∧ guard ∈ w.guards ∧
      failure w (.unlock guard false .still) = none := by
  have hconnect : Run step Careful .initial _ :=
    .one (i := .connect (Script.connection ⟨false, [1], [], [], none⟩) .still)
      ⟨trivial, (fun _ _ ht ↦ by cases ht), (fun _ _ _ ↦ rfl), ⟨fun _ _ ↦ rfl, rfl⟩, trivial,
        (fun _ _ _ ↦ by decide)⟩ rfl
  have hlock := hconnect.tail (i := .lock ⟨0⟩ .recv)
    ⟨by simp [Legal], (fun _ _ ht ↦ by cases ht), (fun _ _ hr ↦ by cases hr), by trivial, by trivial,
      (fun _ _ hr ↦ by cases hr)⟩ rfl
  refine ⟨_, ⟨⟨⟨0⟩, 1, false⟩, .recv, 0⟩, hlock, List.mem_cons_self .., ?_⟩
  apply careful_threads_never_fail hlock
  exact ⟨List.mem_cons_self .., (fun _ _ ht ↦ by cases ht), (fun _ _ hr ↦ by cases hr), by trivial,
    by trivial, (fun _ _ hr ↦ by cases hr)⟩

end ZeroRtt.Poll.Faultless
