import ZeroRtt.Poll.Locking

namespace ZeroRtt.Poll.LockProtocol

open ZeroRtt.Lib.Panics ZeroRtt.Lib.Containers ZeroRtt.Lib.Runs
open ZeroRtt.Api.Types ZeroRtt.Api.Quiche ZeroRtt.Poll.Schedule ZeroRtt.Poll.Conn
open ZeroRtt.Poll.Evolution ZeroRtt.Poll.Retries ZeroRtt.Poll.Unlock ZeroRtt.Poll.Locking

structure Machine where
  ctx : Ctx
  guards : List Guard

/-- The steps out of which every operation on a connection is made. -/
inductive Action
  | tryLock (kind : LocKind)
  | call (c : Call)
  | openStream (kind : StreamKind)
  | release (g : Guard) (sendDone : Bool) (env : UnlockEnv)

/-- Locks are never asked for under the kind `None`, quiche is only called
through a guard, and a guard is given back once. -/
def Enabled (w : Machine) : Action → Prop
  | .tryLock kind => kind ≠ .none
  | .call _ => w.guards ≠ []
  | .openStream kind => ∃ g ∈ w.guards, g.kind = .streamOpen kind
  | .release g _ _ => g ∈ w.guards

def step (w : Machine) : Action → Rust Machine
  | .tryLock kind => do
    let (r, conn) ← w.ctx.conn.tryLockPrv kind
    match r with
    | .ok lock => return ⟨{ w.ctx with conn }, ⟨lock, kind, conn.wrapped.label⟩ :: w.guards⟩
    | .error _ => return ⟨{ w.ctx with conn }, w.guards⟩
  | .call c => return { w with ctx := (w.ctx.call c).2 }
  | .openStream kind =>
    match w.ctx.streamOpenPrv kind with
    | (.error .retry, s) => return { w with ctx := s.retryLater (.streamOpen kind) }
    | (_, s) => return { w with ctx := s }
  | .release g sendDone env => do
    let (_, s) ← w.ctx.unlock g.lock.lockCount sendDone env
    return ⟨s, w.guards.erase g⟩

def initial (token : Token) (q : Connection) (r : Readiness) : Machine :=
  ⟨⟨.new token q, r, []⟩, []⟩

variable {w w' : Machine}

theorem step_tryLock_grants (h : Held w.ctx.conn w.guards) {kind : LocKind}
    (hg : Grants w.ctx.conn kind) :
    step w (.tryLock kind) = .ok ⟨{ w.ctx with conn := grant w.ctx.conn kind },
      guardOf w.ctx.conn kind :: w.guards⟩ := by
  simp only [step, tryLockPrv_grants h hg, ok_bind, pure_eq_ok]
  rfl

theorem step_tryLock_refuses {kind : LocKind} (hg : ¬ Grants w.ctx.conn kind) :
    step w (.tryLock kind) = .ok ⟨{ w.ctx with conn := w.ctx.conn.refuse kind }, w.guards⟩ := by
  simp only [step, tryLockPrv_refuses hg, ok_bind, pure_eq_ok]

theorem unlock_released {s : Ctx} {guards : List Guard} {m n k : ℕ} {b : LocKind}
    (hrel : s.conn.release m = .ok (relock s.conn n b k)) (h : Held (relock s.conn n b k) guards)
    (sendDone : Bool) (env : UnlockEnv) :
    ∃ closed s' log, s.unlock m sendDone env = .ok (closed, s') ∧
      Unlocked { s with conn := relock s.conn n b k } sendDone env closed s' log ∧
      Held s'.conn guards ∧ Continues s.conn s'.conn := by
  obtain ⟨closed, s', log, hrun, hspec⟩ := unlock_spec s sendDone env hrel h.retries_ne_none
  obtain ⟨nexts, streams, established, hev, -, -⟩ := hspec.evolves
  have hrelock : Continues s.conn (relock s.conn n b k) := .of_wrapped_eq rfl rfl
  have hcontinues := hrelock.trans (continues_of_evolves hev)
  refine ⟨closed, s', log, hrun, hspec, h.evolves hev ?_, hcontinues⟩
  intro k' hk'
  obtain ⟨hd, -, -, hwait⟩ := (hspec.reties k').mp hk'
  obtain ⟨kind, rfl, -⟩ := waits_streamOpen hwait
  rfl

theorem unlock_held {s : Ctx} {guards : List Guard} (h : Held s.conn guards) {g : Guard}
    (hg : g ∈ guards) (sendDone : Bool) (env : UnlockEnv) :
    ∃ n b k closed s' log,
      s.unlock g.lock.lockCount sendDone env = .ok (closed, s') ∧
      Unlocked { s with conn := relock s.conn n b k } sendDone env closed s' log ∧
      Held s'.conn (guards.erase g) ∧ Continues s.conn s'.conn := by
  obtain ⟨n, b, k, hrel, hheld⟩ := release_ok h hg
  obtain ⟨closed, s', log, hunlock⟩ := unlock_released hrel hheld sendDone env
  exact ⟨n, b, k, closed, s', log, hunlock⟩

theorem step_openStream (w : Machine) (kind : StreamKind) :
    ∃ s calls, step w (.openStream kind) = .ok { w with ctx := s } ∧
      Evolves w.ctx s calls [] ∧
      ∀ k ∈ s.conn.reties, k ∈ w.ctx.conn.reties ∨ k = .streamOpen kind := by
  obtain ⟨hev, hreties⟩ := evolves_streamOpenPrv w.ctx kind
  rcases hs : w.ctx.streamOpenPrv kind with ⟨r, s⟩
  rw [hs] at hev hreties
  dsimp only at hev hreties
  by_cases hr : r = .error .retry
  · refine ⟨s.retryLater (.streamOpen kind), _, by simp [step, hs, hr],
      hev.trans (evolves_retryLater s _), ?_⟩
    intro k hk
    simpa [Ctx.retryLater, hreties, or_comm] using hk
  · refine ⟨s, _, ?_, hev, fun k hk ↦ .inl (hreties ▸ hk)⟩
    simp only [step, hs, pure_eq_ok]

theorem step_held (h : Held w.ctx.conn w.guards) {a : Action} (ha : Enabled w a) :
    ∃ w', step w a = .ok w' ∧ Held w'.ctx.conn w'.guards ∧ Continues w.ctx.conn w'.ctx.conn := by
  cases a with
  | tryLock kind =>
    by_cases hg : Grants w.ctx.conn kind
    · exact ⟨_, step_tryLock_grants h hg, h.grant ha hg, .of_wrapped_eq rfl rfl⟩
    · exact ⟨_, step_tryLock_refuses hg, h.refuse kind, continues_refuse _ kind⟩
  | call c =>
    have hev := evolves_call w.ctx c
    exact ⟨_, rfl, h.evolves hev h.retries, continues_of_evolves hev⟩
  | openStream kind =>
    obtain ⟨s, calls, hs, hev, hreties⟩ := step_openStream w kind
    refine ⟨_, hs, h.evolves hev ?_, continues_of_evolves hev⟩
    intro k hk
    rcases hreties k hk with hk | rfl
    · exact h.retries k hk
    · rfl
  | release g sendDone env =>
    obtain ⟨n, b, k, closed, s', log, hrun, -, hheld, hcont⟩ := unlock_held h ha sendDone env
    exact ⟨⟨s', w.guards.erase g⟩, by simp only [step, hrun, ok_bind, pure_eq_ok], hheld, hcont⟩

theorem held_run (h : Run step Enabled w w') (hw : Held w.ctx.conn w.guards) :
    Held w'.ctx.conn w'.guards ∧ Continues w.ctx.conn w'.ctx.conn := by
  refine h.invariant (P := fun w' ↦ Held w'.ctx.conn w'.guards ∧
    Continues w.ctx.conn w'.ctx.conn) ⟨hw, .of_wrapped_eq rfl rfl⟩ ?_
  intro a b i ha hi hstep
  obtain ⟨b', hb', hheld, hcont⟩ := step_held ha.1 hi
  rw [hstep] at hb'
  cases hb'
  exact ⟨hheld, ha.2.trans hcont⟩

theorem run_held {token : Token} {q : Connection} {r : Readiness}
    (h : Run step Enabled (initial token q r) w) : Held w.ctx.conn w.guards :=
  (held_run h (held_new token q)).1

/-- The lock is exclusive or shared, its fields count the guards, and no
assertion about it fails. -/
theorem lock_protocol {token : Token} {q : Connection} {r : Readiness}
    (h : Run step Enabled (initial token q r) w) :
    ((∀ g ∈ w.guards, g.kind ≠ .readLock → w.guards = [g]) ∧
      ((∀ g ∈ w.guards, g.kind = .readLock) → ∃ w', step w (.tryLock .readLock) = .ok w' ∧
        ∃ g, g.kind = .readLock ∧ w'.guards = g :: w.guards)) ∧
    ((w.ctx.conn.locker = .none ↔ w.guards = []) ∧
      w.ctx.conn.readLockCount = w.guards.countP fun g ↦ g.kind = .readLock) ∧
    (∀ g ∈ w.guards, g.lock.lockCount = w.ctx.conn.lockCount) ∧
    ∀ a, Enabled w a → ∃ w', step w a = .ok w' := by
  have hheld := run_held h
  refine ⟨⟨?_, ?_⟩, ⟨hheld.locker_eq_none_iff, hheld.readers⟩, fun g hg ↦ (hheld.lock g hg).2.1, ?_⟩
  · intro g hg hkind
    have hl : w.ctx.conn.locker ≠ .none := fun hl ↦ by simp [hheld.idle hl] at hg
    have hr : w.ctx.conn.locker ≠ .readLock := fun hr ↦ hkind ((hheld.shared hr).2 g hg)
    obtain ⟨g', hg', -⟩ := hheld.exclusive hl hr
    rw [hg'] at hg ⊢
    rw [List.mem_singleton.mp hg]
  · intro hall
    have hgrants : Grants w.ctx.conn .readLock := by
      by_contra hg
      have hl : w.ctx.conn.locker ≠ .none := fun hl ↦ hg (.inl hl)
      have hr : w.ctx.conn.locker ≠ .readLock := fun hr ↦ hg (.inr ⟨hr, rfl⟩)
      obtain ⟨g', hg', hkind⟩ := hheld.exclusive hl hr
      exact hr (hkind ▸ hall g' (by simp [hg']))
    exact ⟨_, step_tryLock_grants hheld hgrants, _, rfl, rfl⟩
  · intro a ha
    obtain ⟨w', hw', -, -⟩ := step_held hheld ha
    exact ⟨w', hw'⟩

theorem lock_protocol_two_readers :
    ∃ w g g', Run step Enabled (initial ⟨7⟩ (Script.connection ⟨true, [], [], [], none⟩) .empty)
        w ∧
      w.guards = [g, g'] ∧ w.ctx.conn.readLockCount = 2 ∧ g.kind = .readLock := by
  have hone : Run step Enabled (initial ⟨7⟩ (Script.connection ⟨true, [], [], [], none⟩) .empty)
      _ := .one (i := .tryLock .readLock) (by simp [Enabled]) rfl
  have htwo := hone.tail (i := .tryLock .readLock) (by simp [Enabled]) rfl
  obtain ⟨-, ⟨-, hreaders⟩, -, -⟩ := lock_protocol htwo
  exact ⟨_, _, _, htwo, rfl, hreaders, rfl⟩

section Operations

variable {s t : Ctx} {guards : List Guard} {kind : LocKind}

theorem run_calls (hguards : guards ≠ []) (calls : List Call) :
    Run step Enabled ⟨s, guards⟩ ⟨afterCalls s calls, guards⟩ := by
  induction calls generalizing s with
  | nil =>
    have hnil : afterCalls s [] = s := by simp [afterCalls]
    rw [hnil]
    exact .refl _
  | cons c calls ih =>
    have hcons : afterCalls s (c :: calls) = afterCalls (s.call c).2 calls := by
      rw [call_snd, afterCalls_afterCalls, List.singleton_append]
    rw [hcons]
    exact (Run.one (i := .call c) hguards rfl).trans ih

theorem run_granted (h : Held s.conn guards) (hk : kind ≠ .none) (hg : Grants s.conn kind) :
    Run step Enabled ⟨s, guards⟩
      ⟨{ s with conn := grant s.conn kind }, guardOf s.conn kind :: guards⟩ :=
  .one (i := .tryLock kind) hk (step_tryLock_grants h hg)

theorem run_refused (hk : kind ≠ .none) (hg : ¬ Grants s.conn kind) :
    Run step Enabled ⟨s, guards⟩ ⟨{ s with conn := s.conn.refuse kind }, guards⟩ :=
  .one (i := .tryLock kind) hk (step_tryLock_refuses hg)

theorem run_locked (h : Held s.conn guards) (hk : kind ≠ .none) (hg : Grants s.conn kind)
    (hbody : Run step Enabled
      ⟨{ s with conn := grant s.conn kind }, guardOf s.conn kind :: guards⟩
      ⟨t, guardOf s.conn kind :: guards⟩) (env : UnlockEnv) :
    ∃ closed s', t.unlock s.conn.context.lockCount false env = .ok (closed, s') ∧
      Run step Enabled ⟨s, guards⟩ ⟨s', guards⟩ := by
  have hrun := (run_granted h hk hg).trans hbody
  have hmem : guardOf s.conn kind ∈ guardOf s.conn kind :: guards := List.mem_cons_self ..
  obtain ⟨-, -, -, closed, s', -, hunlock, -, -⟩ := unlock_held (held_run hrun h).1 hmem false env
  refine ⟨closed, s', hunlock, hrun.tail (i := .release _ false env) hmem ?_⟩
  have hstep : t.unlock (guardOf s.conn kind).lock.lockCount false env = .ok (closed, s') := hunlock
  simp only [step, hstep, ok_bind, pure_eq_ok, List.erase_cons_head]

theorem close_refuses {app : Bool} {err : ℕ} {reason : Bytes} (env : UnlockEnv)
    (hg : ¬ Grants s.conn (.close app err reason)) :
    s.close app err reason env =
      .ok (.ok (), { s with conn := s.conn.refuse (.close app err reason) }) := by
  simp only [Ctx.close, tryLockPrv_refuses hg, ok_bind, wouldBlock, pure_eq_ok]

theorem close_grants (h : Held s.conn guards) {app : Bool} {err : ℕ} {reason : Bytes}
    (env : UnlockEnv) (hg : Grants s.conn (.close app err reason)) {closed : Bool} {s' : Ctx}
    (hunlock : (Ctx.call { s with conn := grant s.conn (.close app err reason) }
      (.close app err reason)).2.unlock s.conn.context.lockCount false env = .ok (closed, s')) :
    s.close app err reason env =
      .ok (Ctx.unlessDone (s.conn.wrapped.call (.close app err reason)).1, s') := by
  simp only [Ctx.close, tryLockPrv_grants h hg, ok_bind, wouldBlock, hunlock, pure_eq_ok]
  rfl

theorem close_run (h : Held s.conn guards) (app : Bool) (err : ℕ) (reason : Bytes)
    (env : UnlockEnv) :
    ∃ r s', s.close app err reason env = .ok (r, s') ∧
      Run step Enabled ⟨s, guards⟩ ⟨s', guards⟩ := by
  have hk : LocKind.close app err reason ≠ .none := by simp
  by_cases hg : Grants s.conn (.close app err reason)
  · obtain ⟨closed, s', hunlock, hrun⟩ := run_locked h hk hg
      (.one (i := .call (.close app err reason)) (by simp [Enabled]) rfl) env
    exact ⟨_, s', close_grants h env hg hunlock, hrun⟩
  · exact ⟨_, _, close_refuses env hg, run_refused hk hg⟩

theorem streamClose_refuses {id err : ℕ} (env : UnlockEnv)
    (hg : ¬ Grants s.conn (.streamClose id err)) :
    s.streamClose id err env =
      .ok (.ok (), { s with conn := s.conn.refuse (.streamClose id err) }) := by
  simp only [Ctx.streamClose, tryLockPrv_refuses hg, ok_bind, wouldBlock, pure_eq_ok]

theorem streamClose_grants (h : Held s.conn guards) {id err : ℕ} (env : UnlockEnv)
    (hg : Grants s.conn (.streamClose id err)) {closed : Bool} {s' : Ctx}
    (hunlock : (Ctx.streamClosePrv { s with conn := grant s.conn (.streamClose id err) } id
      err).2.unlock s.conn.context.lockCount false env = .ok (closed, s')) :
    s.streamClose id err env = .ok ((Ctx.streamClosePrv
      { s with conn := grant s.conn (.streamClose id err) } id err).1, s') := by
  simp only [Ctx.streamClose, tryLockPrv_grants h hg, ok_bind, wouldBlock, hunlock, pure_eq_ok]

theorem streamClose_run (h : Held s.conn guards) (id err : ℕ) (env : UnlockEnv) :
    ∃ r s', s.streamClose id err env = .ok (r, s') ∧
      Run step Enabled ⟨s, guards⟩ ⟨s', guards⟩ := by
  have hk : LocKind.streamClose id err ≠ .none := by simp
  by_cases hg : Grants s.conn (.streamClose id err)
  · have hbody : Run step Enabled
        ⟨{ s with conn := grant s.conn (.streamClose id err) },
          guardOf s.conn (.streamClose id err) :: guards⟩
        ⟨(Ctx.streamClosePrv { s with conn := grant s.conn (.streamClose id err) } id err).2,
          guardOf s.conn (.streamClose id err) :: guards⟩ := by
      rw [streamClosePrv_snd]
      exact run_calls (by simp) _
    obtain ⟨closed, s', hunlock, hrun⟩ := run_locked h hk hg hbody env
    exact ⟨_, s', streamClose_grants h env hg hunlock, hrun⟩
  · exact ⟨_, _, streamClose_refuses env hg, run_refused hk hg⟩

theorem streamOpen_refuses {kind : StreamKind} (nonBlocking : Bool) (env : UnlockEnv)
    (hg : ¬ Grants s.conn (.streamOpen kind)) :
    s.streamOpen kind nonBlocking env =
      .ok (.error .busy, { s with conn := s.conn.refuse (.streamOpen kind) }) := by
  simp only [Ctx.streamOpen, tryLockPrv_refuses hg, ok_bind, pure_eq_ok]

theorem streamOpen_run (h : Held s.conn guards) (kind : StreamKind) (nonBlocking : Bool)
    (env : UnlockEnv) :
    ∃ r s', s.streamOpen kind nonBlocking env = .ok (r, s') ∧
      Run step Enabled ⟨s, guards⟩ ⟨s', guards⟩ := by
  have hk : LocKind.streamOpen kind ≠ .none := by simp
  by_cases hg : Grants s.conn (.streamOpen kind)
  · obtain ⟨t, -, hstep, -, -⟩ := step_openStream
      ⟨{ s with conn := grant s.conn (.streamOpen kind) },
        guardOf s.conn (.streamOpen kind) :: guards⟩ kind
    obtain ⟨closed, s', hunlock, hrun⟩ := run_locked h hk hg
      (.one (i := .openStream kind) ⟨_, List.mem_cons_self .., rfl⟩ hstep) env
    rcases hopen : Ctx.streamOpenPrv { s with conn := grant s.conn (.streamOpen kind) } kind
      with ⟨r, u⟩
    by_cases hr : r = .error .retry
    · subst hr
      simp only [step, hopen] at hstep
      cases hstep
      simp only [Ctx.streamOpen, tryLockPrv_grants h hg, ok_bind, hopen, hunlock, pure_eq_ok]
      exact ⟨_, s', rfl, hrun⟩
    · simp only [step, hopen, pure_eq_ok] at hstep
      cases hstep
      simp only [Ctx.streamOpen, tryLockPrv_grants h hg, ok_bind, hopen, hunlock, pure_eq_ok]
      exact ⟨_, s', rfl, hrun⟩
  · exact ⟨_, _, streamOpen_refuses nonBlocking env hg, run_refused hk hg⟩

end Operations

end ZeroRtt.Poll.LockProtocol
