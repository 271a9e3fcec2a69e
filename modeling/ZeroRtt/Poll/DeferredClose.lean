import ZeroRtt.Poll.LockProtocol

namespace ZeroRtt.Poll.DeferredClose

open ZeroRtt.Lib.Panics ZeroRtt.Lib.Containers ZeroRtt.Lib.Runs
open ZeroRtt.Api.Types ZeroRtt.Api.Quiche ZeroRtt.Poll.Schedule ZeroRtt.Poll.Conn
open ZeroRtt.Poll.Evolution ZeroRtt.Poll.Retries ZeroRtt.Poll.Unlock
open ZeroRtt.Poll.Locking ZeroRtt.Poll.LockProtocol

section Scheduling

variable {s s' : Ctx} {sendDone closed : Bool} {env : UnlockEnv} {log : List Handled}

theorem dueBy_insertions {e : Event} (events : List Event) (h : ∀ f ∈ events, e ≠ f)
    (r : Readiness) (t : Instant) :
    ((insertions events).foldl applyObs r).DueBy e t ↔ r.DueBy e t := by
  induction events generalizing r with
  | nil => rfl
  | cons f events ih =>
    have hins := Readiness.dueBy_insert_of_ne (r := r) (t := t) (h f (by simp)) none
    rw [← hins]
    exact ih (fun f' hf' ↦ h f' (by simp [hf'])) _

theorem dueBy_send_iff (h : Unlocked s sendDone env closed s' log) (t : Instant) :
    s'.readiness.DueBy (s.event .send false 0) t ↔
      match delaySend s'.conn.wrapped env.now sendDone with
      | some d => d ≤ t
      | none => sendDone = false := by
  obtain ⟨nexts, streams, established, hev, -, -⟩ := h.evolves
  rw [hev.readiness, List.foldl_append, List.foldl_cons, dueBy_insertions]
  · unfold sendObs
    cases hd : delaySend s'.conn.wrapped env.now sendDone with
    | none =>
      cases sendDone with
      | false => simpa [applyObs] using Readiness.dueBy_insert_none
      | true => simpa [applyObs] using Readiness.not_dueBy_remove
    | some d => simpa [applyObs] using Readiness.dueBy_insert_some
  · intro f hf heq
    obtain ⟨kind, hkind, rfl⟩ := stateEvents_kind hf
    rcases hkind with rfl | rfl | rfl <;> cases heq

end Scheduling

section Deferring

variable {s s' : Ctx} {w : Machine} {sendDone closed : Bool} {env : UnlockEnv} {log : List Handled}

/-- When a direct `close` or `stream_close` schedules the next packet. -/
def directSend (q : Connection) (now : Instant) : Instant := (delaySend q now false).getD now

def Prompt (s s' : Ctx) (now : Instant) : Prop :=
  s'.readiness.DueBy (s.event .send false 0) (directSend s'.conn.wrapped now)

def isClose : LocKind → Bool
  | .close .. | .streamClose .. => true
  | _ => false

/-- Some close is recorded that makes a call of quiche at the next unlock. -/
def Defers (s : Ctx) (env : UnlockEnv) : Prop :=
  ∃ h ∈ recorded s env, isClose h.kind = true ∧ retryCalls h.conn h.kind ≠ []

/-- The quiche connection after the calls that precede the scheduling. -/
def atSend (s : Ctx) (env : UnlockEnv) : Connection :=
  drainStreams (s.conn.wrapped.after (logCalls (recorded s env)))

/-- Quiche paces the next packet, or its timer has run out. -/
def Due (q : Connection) (now : Instant) : Prop :=
  (pacing q now).isSome = true ∨ ∃ t, q.timeoutInstant = some t ∧ t ≤ now

theorem prompt_iff (h : Unlocked s sendDone env closed s' log) :
    Prompt s s' env.now ↔ sendDone = false ∨ Due (atSend s env) env.now := by
  have hq : s'.conn.wrapped = atSend s env := by rw [h.wrapped, h.log_eq]; rfl
  unfold Prompt
  rw [dueBy_send_iff h, hq]
  cases sendDone with
  | false =>
    cases hd : delaySend (atSend s env) env.now false with
    | none => simp
    | some d => simp [directSend, hd]
  | true =>
    unfold Due directSend delaySend
    cases hp : pacing (atSend s env) env.now with
    | none => cases ht : (atSend s env).timeoutInstant <;> simp [minOfSome]
    | some p => cases ht : (atSend s env).timeoutInstant <;> simp [minOfSome]

theorem dueBy_send_undone (h : Unlocked s false env closed s' log) (t : Instant) :
    s'.readiness.DueBy (s.event .send false 0) t ↔
      ∀ d, delaySend s'.conn.wrapped env.now false = some d → d ≤ t := by
  rw [dueBy_send_iff h]
  cases hd : delaySend s'.conn.wrapped env.now false with
  | none => simp
  | some d => simp

theorem close_schedules {guards : List Guard} (h : Held s.conn guards) {app : Bool} {err : ℕ}
    {reason : Bytes} (hg : Grants s.conn (.close app err reason)) (env : UnlockEnv) :
    ∃ r s', s.close app err reason env = .ok (r, s') ∧
      ∀ t, s'.readiness.DueBy (s.event .send false 0) t ↔
        ∀ d, delaySend s'.conn.wrapped env.now false = some d → d ≤ t := by
  have hrun := (run_granted h (by simp) hg).tail (i := .call (.close app err reason))
    (by simp [Enabled]) rfl
  obtain ⟨n, b, k, closed, s', log, hunlock, hspec, -⟩ :=
    unlock_held (held_run hrun h).1 (List.mem_cons_self ..) false env
  have hdue := dueBy_send_undone hspec
  exact ⟨_, s', close_grants h env hg hunlock, hdue⟩

theorem streamClose_schedules {guards : List Guard} (h : Held s.conn guards) {id err : ℕ}
    (hg : Grants s.conn (.streamClose id err)) (env : UnlockEnv) :
    ∃ r s', s.streamClose id err env = .ok (r, s') ∧
      ∀ t, s'.readiness.DueBy (s.event .send false 0) t ↔
        ∀ d, delaySend s'.conn.wrapped env.now false = some d → d ≤ t := by
  have hrun := (run_granted h (by simp) hg).trans
    (run_calls (by simp) (streamCloseCalls s.conn.wrapped id err))
  obtain ⟨n, b, k, closed, s', log, hunlock, hspec, -⟩ :=
    unlock_held (held_run hrun h).1 (List.mem_cons_self ..) false env
  have hdue := dueBy_send_undone hspec
  have hclose : (Ctx.streamClosePrv { s with conn := grant s.conn (.streamClose id err) } id
      err).2.unlock s.conn.context.lockCount false env = .ok (closed, s') := by
    rw [streamClosePrv_snd]
    exact hunlock
  exact ⟨_, s', streamClose_grants h env hg hclose, hdue⟩

/-- A deferred close is as prompt as a direct one unless the guard that is
released says that quiche has nothing more to send. -/
theorem deferred_close_prompt_iff {token : Token} {q : Connection} {r : Readiness}
    (h : Run step Enabled (initial token q r) w) {g : Guard} (hg : g ∈ w.guards)
    (sendDone : Bool) (env : UnlockEnv) :
    ∃ closed s', w.ctx.unlock g.lock.lockCount sendDone env = .ok (closed, s') ∧
      ((Defers w.ctx env → Prompt w.ctx s' env.now) ↔
        ¬ Defers w.ctx env ∨ sendDone = false ∨ Due (atSend w.ctx env) env.now) := by
  obtain ⟨n, b, k, closed, s', log, hrun, hspec, -⟩ := unlock_held (run_held h) hg sendDone env
  have hreleased := prompt_iff hspec
  have hprompt : Prompt w.ctx s' env.now ↔ sendDone = false ∨ Due (atSend w.ctx env) env.now :=
    hreleased
  refine ⟨closed, s', hrun, ?_⟩
  rw [hprompt]
  exact imp_iff_not_or

def closing : Script := ⟨false, [], [], [], some 30000000000⟩

theorem deferred_close_prompt_example :
    ∃ w g closed s', Run step Enabled (initial ⟨7⟩ closing.connection .empty) w ∧
      g ∈ w.guards ∧ Defers w.ctx .still ∧
      w.ctx.unlock g.lock.lockCount false .still = .ok (closed, s') ∧
      Prompt w.ctx s' 0 := by
  have hone : Run step Enabled (initial ⟨7⟩ closing.connection .empty) _ :=
    .one (i := .tryLock .recv) (by simp [Enabled]) rfl
  have htwo := hone.tail (i := .tryLock (.close true 0 [])) (by simp [Enabled]) rfl
  obtain ⟨closed, s', hunlock, hiff⟩ :=
    deferred_close_prompt_iff htwo (List.mem_cons_self ..) false .still
  have hprompt := hiff.mpr (.inr (.inl rfl))
  refine ⟨_, _, closed, s', htwo, List.mem_cons_self .., ?_, hunlock, hprompt ?_⟩
  all_goals exact ⟨⟨.close true 0 [], closing.connection⟩, List.mem_cons_self .., rfl,
    by simp [retryCalls]⟩

/-- `Group::send` finds nothing to send while a close waits for its guard. -/
theorem deferred_close_not_prompt :
    ∃ w g closed s', Run step Enabled (initial ⟨7⟩ closing.connection .empty) w ∧
      g ∈ w.guards ∧ Defers w.ctx .still ∧
      w.ctx.unlock g.lock.lockCount true .still = .ok (closed, s') ∧
      ¬ Prompt w.ctx s' 0 := by
  have hlock : Run step Enabled (initial ⟨7⟩ closing.connection .empty) _ :=
    .one (i := .tryLock .recv) (by simp [Enabled]) rfl
  have hsend := hlock.tail (i := .call (.send 1200)) (by simp [Enabled]) rfl
  have hclose := hsend.tail (i := .tryLock (.close true 0 [])) (by simp [Enabled]) rfl
  obtain ⟨n, b, k, closed, s', log, hunlock, hspec, -⟩ :=
    unlock_held (run_held hclose) (List.mem_cons_self ..) true .still
  refine ⟨_, _, closed, s', hclose, List.mem_cons_self ..,
    ⟨⟨.close true 0 [], closing.connection.after [.send 1200]⟩, List.mem_cons_self .., rfl,
      by simp [retryCalls]⟩, hunlock, ?_⟩
  intro hprompt
  rcases (prompt_iff hspec).mp hprompt with hdone | hpacing | ⟨t, ht, hle⟩
  · cases hdone
  · cases hpacing
  · obtain rfl : 30000000000 = t := Option.some.inj ht
    exact absurd hle (by decide)

end Deferring

end ZeroRtt.Poll.DeferredClose
