import ZeroRtt.Poll.LockProtocol

namespace ZeroRtt.Poll.RetryProtocol

open ZeroRtt.Lib.Panics ZeroRtt.Lib.Containers ZeroRtt.Lib.Runs
open ZeroRtt.Api.Types ZeroRtt.Api.Quiche ZeroRtt.Poll.Schedule ZeroRtt.Poll.Conn
open ZeroRtt.Poll.Evolution ZeroRtt.Poll.Retries ZeroRtt.Poll.Unlock
open ZeroRtt.Poll.Locking ZeroRtt.Poll.LockProtocol

section Keeping

def Keeps (e : Event) : Obs → Prop
  | .readable _ => True
  | .insert f delayTo => delayTo = none ∨ f ≠ e
  | .remove f => f ≠ e

variable {e : Event} {r : Readiness}

theorem keeps_applyObs {o : Obs} (ho : Keeps e o) (he : e ∈ r.events) :
    e ∈ (applyObs r o).events := by
  cases o with
  | readable id => exact he
  | insert f delayTo =>
    rcases ho with rfl | hf
    · exact Readiness.mem_events_insert_none.mpr (.inr he)
    · exact (Readiness.events_insert_of_ne (Ne.symm hf) delayTo).mpr he
  | remove f => exact Readiness.mem_events_remove.mpr ⟨Ne.symm ho, he⟩

theorem keeps_foldl {obs : List Obs} (hobs : ∀ o ∈ obs, Keeps e o) (he : e ∈ r.events) :
    e ∈ (obs.foldl applyObs r).events := by
  induction obs generalizing r with
  | nil => exact he
  | cons o obs ih =>
    exact ih (fun o' ho' ↦ hobs o' (by simp [ho'])) (keeps_applyObs (hobs o (by simp)) he)

theorem keeps_insertions (events : List Event) : ∀ o ∈ insertions events, Keeps e o := by
  intro o ho
  obtain ⟨f, -, rfl⟩ := List.mem_map.mp ho
  exact .inl rfl

theorem mem_events_foldl {obs : List Obs} (hmem : .insert e none ∈ obs)
    (hobs : ∀ o ∈ obs, Keeps e o) : e ∈ (obs.foldl applyObs r).events := by
  obtain ⟨before, after, rfl⟩ := List.append_of_mem hmem
  rw [List.foldl_append, List.foldl_cons]
  refine keeps_foldl (fun o ho ↦ hobs o ?_) (Readiness.mem_events_insert_none.mpr (.inl rfl))
  exact List.mem_append_right _ (List.mem_cons_of_mem _ ho)

theorem keeps_streamObs {o : Obs} (ho : StreamObs o) : Keeps e o := by
  cases o with
  | readable id => trivial
  | insert f delayTo => exact .inl ho.1
  | remove f => exact ho.elim

theorem keeps_sendObs {s : Ctx} {q : Connection} {sendDone : Bool} {now : Instant}
    (he : e.kind ≠ .send) : Keeps e (sendObs s.event q sendDone now) := by
  have hne : s.event .send false 0 ≠ e := fun h ↦ he (h ▸ rfl)
  unfold sendObs
  split
  · exact hne
  · exact .inr hne

end Keeping

section Settling

/-- What becomes of the recorded operations at an unlock. Each of them is taken
up once, on the quiche connection as it is at that moment. -/
structure Settled (s s' : Ctx) (log : List Handled) : Prop where
  once : ∀ k ∈ s.conn.reties, ∃ before q after, log = before ++ ⟨k, q⟩ :: after ∧
    q = s.conn.wrapped.after (logCalls before) ∧ ∀ h ∈ before ++ after, h.kind ≠ k
  only : ∀ h ∈ log, h.kind ∈ s.conn.reties
  applied : ∃ nexts, s'.conn.wrapped = s.conn.wrapped.after (logCalls log ++ nexts) ∧
    ∀ c ∈ nexts, NextCall c
  close : ∀ app err reason, .close app err reason ∈ s.conn.reties →
    (logCalls log).count (.close app err reason) = 1
  recv : .recv ∈ s.conn.reties → s.event .recv false 0 ∈ s'.readiness.events
  readLock : .readLock ∈ s.conn.reties → s.event .readLock false 0 ∈ s'.readiness.events
  streamRecv : ∀ id, .streamRecv id ∈ s.conn.reties →
    s.event .streamRecv false id ∈ s'.readiness.events
  streamSend : ∀ id len q, ⟨.streamSend id len, q⟩ ∈ log →
    match (q.call (.streamWritable id len)).1 with
    | .ok true => s.event .streamSend false id ∈ s'.readiness.events
    | .ok false => True
    | .error _ => s.event .streamSend true id ∈ s'.readiness.events
  streamOpen : ∀ kind q, ⟨.streamOpen kind, q⟩ ∈ log →
    if q.peerStreamsLeft kind > 0 then
      s.event (Ctx.streamOpenEvent kind) false 0 ∈ s'.readiness.events
    else .streamOpen kind ∈ s'.conn.reties
  left : ∀ k ∈ s'.conn.reties, ∃ kind q, k = .streamOpen kind ∧ ⟨k, q⟩ ∈ log ∧
    q.peerStreamsLeft kind = 0

variable {s s' : Ctx} {sendDone closed : Bool} {env : UnlockEnv} {log : List Handled}

theorem retryLog_append (q : Connection) (xs ys : List LocKind) :
    retryLog q (xs ++ ys) =
      retryLog q xs ++ retryLog (q.after (logCalls (retryLog q xs))) ys := by
  induction xs generalizing q with
  | nil => simp [retryLog, logCalls]
  | cons x xs ih =>
    simp only [List.cons_append, retryLog, ih, logCalls, List.flatMap_cons, Connection.after_after]

theorem retryLog_once {q : Connection} {ks : List LocKind} (hks : ks.Nodup) {k : LocKind}
    (hk : k ∈ ks) :
    ∃ before q' after, retryLog q ks = before ++ ⟨k, q'⟩ :: after ∧
      q' = q.after (logCalls before) ∧ ∀ h ∈ before ++ after, h.kind ≠ k := by
  obtain ⟨xs, ys, rfl⟩ := List.append_of_mem hk
  refine ⟨_, _, _, retryLog_append q xs (k :: ys), rfl, ?_⟩
  intro h hmem hkind
  have hkinds : k ∈ xs ++ ys := by
    rcases List.mem_append.mp hmem with hmem | hmem
    · have := List.mem_map_of_mem (f := Handled.kind) hmem
      rw [retryLog_map_kind, hkind] at this
      exact List.mem_append_left _ this
    · have := List.mem_map_of_mem (f := Handled.kind) hmem
      rw [retryLog_map_kind, hkind] at this
      exact List.mem_append_right _ this
  exact (List.nodup_middle.mp hks).notMem hkinds

theorem mem_readCalls {q : Connection} {id err : ℕ} {c : Call} (hc : c ∈ readCalls q id err) :
    c = .streamShutdown id .read err := by
  unfold readCalls at hc
  split at hc
  · cases hc
  · exact List.mem_singleton.mp hc

theorem mem_streamCloseCalls {q : Connection} {id err : ℕ} {c : Call}
    (hc : c ∈ streamCloseCalls q id err) :
    c = .streamShutdown id .read err ∨ c = .streamSend id [] true := by
  unfold streamCloseCalls at hc
  split at hc
  · rcases List.mem_append.mp hc with hc | hc
    · exact .inl (mem_readCalls hc)
    · split at hc
      · cases hc
      · exact .inr (List.mem_singleton.mp hc)
  · split at hc
    · exact .inr (List.mem_singleton.mp hc)
    · exact .inl (mem_readCalls hc)

theorem close_mem_retryCalls {q : Connection} {k : LocKind} {app : Bool} {err : ℕ} {reason : Bytes}
    (hc : .close app err reason ∈ retryCalls q k) : k = .close app err reason := by
  cases k with
  | close app' err' reason' => simpa [retryCalls, eq_comm] using hc
  | streamClose id err' => rcases mem_streamCloseCalls hc with hc | hc <;> cases hc
  | streamSend id len => simp [retryCalls] at hc
  | _ => cases hc

theorem logCalls_count_close {log before after : List Handled} {q : Connection} {app : Bool}
    {err : ℕ} {reason : Bytes} (hlog : log = before ++ ⟨.close app err reason, q⟩ :: after)
    (honce : ∀ h ∈ before ++ after, h.kind ≠ .close app err reason) :
    (logCalls log).count (.close app err reason) = 1 := by
  have hnone : ∀ part : List Handled, (∀ h ∈ part, h ∈ before ++ after) →
      (logCalls part).count (.close app err reason) = 0 := by
    intro part hpart
    rw [List.count_eq_zero]
    intro hmem
    obtain ⟨h, hh, hc⟩ := List.mem_flatMap.mp hmem
    exact honce h (hpart h hh) (close_mem_retryCalls hc)
  have hbefore := hnone before fun h hh ↦ List.mem_append_left _ hh
  have hafter := hnone after fun h hh ↦ List.mem_append_right _ hh
  have hsplit : logCalls log = logCalls before ++ (.close app err reason :: logCalls after) := by
    simp [hlog, logCalls, retryCalls]
  rw [hsplit, List.count_append, List.count_cons_self, hbefore, hafter]

theorem unlocked_ready (h : Unlocked s sendDone env closed s' log) :
    ∃ obs, s'.trace = s.trace ++ obs ∧ (∀ o ∈ insertions (logEvents s.event log), o ∈ obs) ∧
      ∀ e, e.kind ≠ .send → .insert e none ∈ obs → e ∈ s'.readiness.events := by
  obtain ⟨nexts, streams, established, hev, -, hstreams⟩ := h.evolves
  refine ⟨_, hev.trace, fun o ho ↦ List.mem_append_left _ (List.mem_append_left _ ho), ?_⟩
  intro e hkind hmem
  rw [hev.readiness]
  apply mem_events_foldl hmem
  intro o ho
  rcases List.mem_append.mp ho with ho | ho
  · rcases List.mem_append.mp ho with ho | ho
    · exact keeps_insertions _ o ho
    · exact keeps_streamObs (hstreams o ho)
  · rcases List.mem_cons.mp ho with rfl | ho
    · exact keeps_sendObs hkind
    · exact keeps_insertions _ o ho

theorem mem_events_of_log (h : Unlocked s sendDone env closed s' log) {e : Event}
    (hkind : e.kind ≠ .send) (he : e ∈ logEvents s.event log) : e ∈ s'.readiness.events := by
  obtain ⟨obs, -, hlog, hready⟩ := unlocked_ready h
  exact hready e hkind (hlog _ (List.mem_map_of_mem he))

theorem mem_reties_iff_log (h : Unlocked s sendDone env closed s' log) {k : LocKind} :
    k ∈ s.conn.reties ↔ ∃ q, ⟨k, q⟩ ∈ log := by
  have hkinds : log.map Handled.kind = (env.order s.conn.reties).1 := by
    rw [h.log_eq, recorded, retryLog_map_kind]
  rw [← HashSet.mem_order env.order, ← hkinds]
  constructor
  · intro hk
    obtain ⟨⟨k', q⟩, hmem, rfl⟩ := List.mem_map.mp hk
    exact ⟨q, hmem⟩
  · rintro ⟨q, hmem⟩
    exact List.mem_map_of_mem (f := Handled.kind) hmem

theorem settled (h : Unlocked s sendDone env closed s' log) : Settled s s' log := by
  have hevent : ∀ {k q e}, ⟨k, q⟩ ∈ log → e ∈ retryEvents s.event q k → e.kind ≠ .send →
      e ∈ s'.readiness.events :=
    fun hmem he hkind ↦ mem_events_of_log h hkind (List.mem_flatMap.mpr ⟨_, hmem, he⟩)
  obtain ⟨nexts, streams, established, hev, hnexts, -⟩ := h.evolves
  have honce : ∀ k ∈ s.conn.reties, ∃ before q after, log = before ++ ⟨k, q⟩ :: after ∧
      q = s.conn.wrapped.after (logCalls before) ∧ ∀ h ∈ before ++ after, h.kind ≠ k := by
    intro k hk
    rw [h.log_eq]
    exact retryLog_once (HashSet.order_nodup env.order _) ((HashSet.mem_order env.order).mpr hk)
  refine ⟨honce, ?_, ⟨nexts, hev.wrapped, hnexts⟩, ?_, ?_, ?_, ?_, ?_, ?_, ?_⟩
  · exact fun hd hmem ↦ (mem_reties_iff_log h).mpr ⟨hd.conn, hmem⟩
  · intro app err reason hk
    obtain ⟨before, q, after, hlog, -, hne⟩ := honce _ hk
    exact logCalls_count_close hlog hne
  · intro hk
    obtain ⟨q, hmem⟩ := (mem_reties_iff_log h).mp hk
    exact hevent hmem (by simp [retryEvents]) (by simp [Ctx.event])
  · intro hk
    obtain ⟨q, hmem⟩ := (mem_reties_iff_log h).mp hk
    exact hevent hmem (by simp [retryEvents]) (by simp [Ctx.event])
  · intro id hk
    obtain ⟨q, hmem⟩ := (mem_reties_iff_log h).mp hk
    exact hevent hmem (by simp [retryEvents]) (by simp [Ctx.event])
  · intro id len q hmem
    split
    next ha => exact hevent hmem (by simp [retryEvents, ha]) (by simp [Ctx.event])
    next => trivial
    next ha => exact hevent hmem (by simp [retryEvents, ha]) (by simp [Ctx.event])
  · intro kind q hmem
    split
    next hleft =>
      have hkind : (s.event (Ctx.streamOpenEvent kind) false 0).kind ≠ .send := by
        cases kind <;> simp [Ctx.event, Ctx.streamOpenEvent]
      exact hevent hmem (by simp [retryEvents, hleft]) hkind
    next hleft => exact (h.reties _).mpr ⟨_, hmem, rfl, by simpa [waits] using hleft⟩
  · intro k hk
    obtain ⟨⟨k', q⟩, hmem, rfl, hwait⟩ := (h.reties k).mp hk
    obtain ⟨kind, hkind, hleft⟩ := waits_streamOpen hwait
    exact ⟨kind, q, hkind, hmem, hleft⟩

end Settling

section Recording

variable {w w' : Machine}

theorem needRetry_of_ne {kind : LocKind} (hs : kind ≠ .send) (hn : kind ≠ .none) :
    kind.needRetry = true := by
  cases kind with
  | send => exact absurd rfl hs
  | none => exact absurd rfl hn
  | _ => rfl

/-- The operation gave the lock back itself, and that unlock settled what was
recorded then. -/
def Settles (s s' : Ctx) (recorded : HashSet LocKind) : Prop :=
  ∃ t calls log, t.conn.token = s.conn.token ∧ t.conn.reties = recorded ∧
    t.conn.wrapped = s.conn.wrapped.after calls ∧ Settled t s' log

/-- What a `stream_open` that answers `r` leaves behind. -/
def Opens (s s' : Ctx) (kind : StreamKind) : Except Error (Option ℕ) → Prop
  | .error .busy => .streamOpen kind ∈ s'.conn.reties
  | .error .retry | .ok none => Settles s s' (s.conn.reties.insert (.streamOpen kind)) ∧
      (.streamOpen kind ∈ s'.conn.reties ∨
        s.event (Ctx.streamOpenEvent kind) false 0 ∈ s'.readiness.events)
  | _ => Settles s s' s.conn.reties

/-- How an operation that cannot be carried out comes to be recorded, and that
it stays recorded until a guard is released. -/
structure Records (w : Machine) : Prop where
  refused : ∀ kind c, kind ≠ .send → kind ≠ .none →
    w.ctx.conn.tryLockPrv kind = .ok (.error .busy, c) → kind ∈ c.reties
  close : ∀ app err reason env, w.guards ≠ [] →
    ∃ s, w.ctx.close app err reason env = .ok (.ok (), s) ∧ .close app err reason ∈ s.conn.reties
  closed : ∀ app err reason env, w.guards = [] →
    ∃ r s, w.ctx.close app err reason env = .ok (r, s) ∧ Settles w.ctx s w.ctx.conn.reties
  streamClose : ∀ id err env, w.guards ≠ [] →
    ∃ s, w.ctx.streamClose id err env = .ok (.ok (), s) ∧ .streamClose id err ∈ s.conn.reties
  streamClosed : ∀ id err env, w.guards = [] →
    ∃ r s, w.ctx.streamClose id err env = .ok (r, s) ∧ Settles w.ctx s w.ctx.conn.reties
  streamOpen : ∀ kind nonBlocking env, ∃ r s,
    w.ctx.streamOpen kind nonBlocking env = .ok (r, s) ∧ Opens w.ctx s kind r
  openStream : ∀ kind w', (w.ctx.streamOpenPrv kind).1 = .error .retry →
    step w (.openStream kind) = .ok w' → .streamOpen kind ∈ w'.ctx.conn.reties
  kept : ∀ a w', Enabled w a → (∀ g sendDone env, a ≠ .release g sendDone env) →
    step w a = .ok w' → ∀ k ∈ w.ctx.conn.reties, k ∈ w'.ctx.conn.reties

theorem mem_reties_of_refused (h : Held w.ctx.conn w.guards) {kind : LocKind} {c : QuicConn}
    (hs : kind ≠ .send) (hn : kind ≠ .none)
    (hlock : w.ctx.conn.tryLockPrv kind = .ok (.error .busy, c)) : kind ∈ c.reties := by
  by_cases hg : Grants w.ctx.conn kind
  · rw [tryLockPrv_grants h hg] at hlock
    cases hlock
  · rw [tryLockPrv_refuses hg] at hlock
    cases hlock
    exact (refuse_reties _ _ _).mpr (.inr ⟨rfl, needRetry_of_ne hs hn⟩)

theorem not_grants_of_guards (h : Held w.ctx.conn w.guards) (hguards : w.guards ≠ [])
    {kind : LocKind} (hk : kind ≠ .readLock) : ¬ Grants w.ctx.conn kind :=
  not_grants_of_locked (fun hl ↦ hguards (h.idle hl)) hk

theorem step_kept (h : Held w.ctx.conn w.guards) {a : Action} (ha : Enabled w a)
    (hrel : ∀ g sendDone env, a ≠ .release g sendDone env) (hstep : step w a = .ok w') :
    ∀ k ∈ w.ctx.conn.reties, k ∈ w'.ctx.conn.reties := by
  intro k hk
  cases a with
  | tryLock kind =>
    by_cases hg : Grants w.ctx.conn kind
    · rw [step_tryLock_grants h hg] at hstep
      cases hstep
      exact hk
    · rw [step_tryLock_refuses hg] at hstep
      cases hstep
      exact (refuse_reties _ _ _).mpr (.inl hk)
  | call c =>
    cases hstep
    exact hk
  | openStream kind =>
    have hreties := (evolves_streamOpenPrv w.ctx kind).2
    simp only [step] at hstep
    split at hstep
    next s hs =>
      cases hstep
      rw [hs] at hreties
      exact HashSet.mem_insert.mpr (.inr (hreties ▸ hk))
    next s _ hs =>
      cases hstep
      rw [hs] at hreties
      exact hreties ▸ hk
  | release g sendDone env => exact absurd rfl (hrel g sendDone env)

theorem grants_of_idle (h : Held w.ctx.conn w.guards) (hguards : w.guards = []) (kind : LocKind) :
    Grants w.ctx.conn kind :=
  .inl (h.locker_eq_none_iff.mpr hguards)

section Locked

variable {s t : Ctx} {guards : List Guard} {kind : LocKind} {calls : List Call}
  {log : List Handled}

theorem unlock_settles (h : Held t.conn (guardOf s.conn kind :: guards))
    (htoken : t.conn.token = s.conn.token) (hcalls : t.conn.wrapped = s.conn.wrapped.after calls)
    (env : UnlockEnv) :
    ∃ closed s', t.unlock s.conn.context.lockCount false env = .ok (closed, s') ∧
      Settles s s' t.conn.reties := by
  obtain ⟨n, b, k, closed, s', log, hunlock, hspec, -, -⟩ :=
    unlock_held h (List.mem_cons_self ..) false env
  obtain ⟨once, only, applied, close, recv, readLock, streamRecv, streamSend, streamOpen, left⟩ :=
    settled hspec
  exact ⟨closed, s', hunlock, t, calls, log, htoken, rfl, hcalls, once, only, applied, close, recv,
    readLock, streamRecv, streamSend, streamOpen, left⟩

theorem held_granted (h : Held s.conn guards) (hk : kind ≠ .none) (hg : Grants s.conn kind)
    (hev : Evolves { s with conn := grant s.conn kind } t calls [])
    (hreties : ∀ k ∈ t.conn.reties, k.needRetry = true) :
    Held t.conn (guardOf s.conn kind :: guards) :=
  (h.grant hk hg).evolves hev hreties

theorem close_settles (h : Held s.conn guards) {app : Bool} {err : ℕ} {reason : Bytes}
    (hg : Grants s.conn (.close app err reason)) (env : UnlockEnv) :
    ∃ r s', s.close app err reason env = .ok (r, s') ∧ Settles s s' s.conn.reties := by
  have hev := evolves_call { s with conn := grant s.conn (.close app err reason) }
    (.close app err reason)
  have hheld := held_granted h (by simp) hg hev h.retries
  obtain ⟨closed, s', hunlock, hsettles⟩ := unlock_settles hheld hev.token hev.wrapped env
  exact ⟨_, s', close_grants h env hg hunlock, hsettles⟩

theorem streamClose_settles (h : Held s.conn guards) {id err : ℕ}
    (hg : Grants s.conn (.streamClose id err)) (env : UnlockEnv) :
    ∃ r s', s.streamClose id err env = .ok (r, s') ∧ Settles s s' s.conn.reties := by
  have hclose := streamClosePrv_snd { s with conn := grant s.conn (.streamClose id err) } id err
  have hev := evolves_afterCalls { s with conn := grant s.conn (.streamClose id err) }
    (streamCloseCalls s.conn.wrapped id err)
  have hheld := held_granted h (by simp) hg hev h.retries
  obtain ⟨closed, s', hunlock, hsettles⟩ := unlock_settles hheld hev.token hev.wrapped env
  exact ⟨_, s', streamClose_grants h env hg (hclose ▸ hunlock), hsettles⟩

theorem waits_or_ready {kind : StreamKind} {recorded : HashSet LocKind}
    (h : Settles s t recorded) (hkind : .streamOpen kind ∈ recorded) :
    .streamOpen kind ∈ t.conn.reties ∨
      s.event (Ctx.streamOpenEvent kind) false 0 ∈ t.readiness.events := by
  obtain ⟨u, calls, log, htoken, rfl, hcalls, hsettled⟩ := h
  have hevent : u.event = s.event := by
    funext kind isError streamId
    simp only [Ctx.event, htoken, hcalls, Connection.after_isServer]
  obtain ⟨before, q, after, hlog, -, -⟩ := hsettled.once _ hkind
  have hopen := hsettled.streamOpen kind q (by simp [hlog])
  split at hopen
  · exact .inr (hevent ▸ hopen)
  · exact .inl hopen

theorem opens_out_of_streams (h : Held s.conn guards) {kind : StreamKind} (nonBlocking : Bool)
    (env : UnlockEnv) (hg : Grants s.conn (.streamOpen kind))
    (hleft : s.conn.wrapped.peerStreamsLeft kind = 0) :
    ∃ r s', s.streamOpen kind nonBlocking env = .ok (r, s') ∧ Opens s s' kind r := by
  let t : Ctx := { s with conn := grant s.conn (.streamOpen kind) }
  have hopen : t.streamOpenPrv kind = (.error .retry, t) := if_pos hleft
  have hev := evolves_retryLater t (.streamOpen kind)
  have hreties : ∀ k ∈ (t.retryLater (.streamOpen kind)).conn.reties, k.needRetry = true := by
    intro k hk
    rcases HashSet.mem_insert.mp hk with rfl | hk
    · rfl
    · exact h.retries k hk
  obtain ⟨closed, s', hunlock, hsettles⟩ := unlock_settles
    (held_granted h (by simp) hg hev hreties) hev.token hev.wrapped env
  have hready := waits_or_ready hsettles (HashSet.mem_insert.mpr (.inl rfl))
  refine ⟨if nonBlocking then .ok none else .error .retry, s', ?_, ?_⟩
  · simp only [Ctx.streamOpen, tryLockPrv_grants h hg, ok_bind, pure_eq_ok]
    simp only [t] at hopen hunlock
    simp only [hopen, hunlock, ok_bind]
  · cases nonBlocking
    · exact ⟨hsettles, hready⟩
    · exact ⟨hsettles, hready⟩

theorem streamOpenPrv_answers {kind : StreamKind}
    (hleft : s.conn.wrapped.peerStreamsLeft kind ≠ 0) :
    (∃ err, (s.streamOpenPrv kind).1 = .error (.quiche err)) ∨
      ∃ id, (s.streamOpenPrv kind).1 = .ok id := by
  simp only [Ctx.streamOpenPrv, hleft, if_false]
  split
  · exact .inl ⟨_, rfl⟩
  · exact .inr ⟨_, rfl⟩

theorem opens_asking (h : Held s.conn guards) {kind : StreamKind} (nonBlocking : Bool)
    (env : UnlockEnv) (hg : Grants s.conn (.streamOpen kind))
    (hleft : s.conn.wrapped.peerStreamsLeft kind ≠ 0) :
    ∃ r s', s.streamOpen kind nonBlocking env = .ok (r, s') ∧ Opens s s' kind r := by
  let t : Ctx := { s with conn := grant s.conn (.streamOpen kind) }
  obtain ⟨hev, hreties⟩ := evolves_streamOpenPrv t kind
  obtain ⟨closed, s', hunlock, hsettles⟩ := unlock_settles
    (held_granted h (by simp) hg hev (hreties ▸ h.retries)) hev.token hev.wrapped env
  rw [hreties] at hsettles
  rcases hopen : t.streamOpenPrv kind with ⟨r, u⟩
  have hanswers := streamOpenPrv_answers (s := t) hleft
  rw [hopen] at hunlock hanswers
  simp only [t] at hopen
  simp only [Ctx.streamOpen, tryLockPrv_grants h hg, ok_bind, pure_eq_ok, hopen]
  rcases hanswers with ⟨err, rfl⟩ | ⟨id, rfl⟩
  · simp only [hunlock, ok_bind]
    exact ⟨_, s', rfl, hsettles⟩
  · simp only [hunlock, ok_bind]
    exact ⟨_, s', rfl, hsettles⟩

theorem streamOpen_opens (h : Held s.conn guards) (kind : StreamKind) (nonBlocking : Bool)
    (env : UnlockEnv) :
    ∃ r s', s.streamOpen kind nonBlocking env = .ok (r, s') ∧ Opens s s' kind r := by
  by_cases hg : Grants s.conn (.streamOpen kind)
  · by_cases hleft : s.conn.wrapped.peerStreamsLeft kind = 0
    · exact opens_out_of_streams h nonBlocking env hg hleft
    · exact opens_asking h nonBlocking env hg hleft
  · exact ⟨_, _, streamOpen_refuses nonBlocking env hg, (refuse_reties _ _ _).mpr (.inr ⟨rfl, rfl⟩)⟩

end Locked

theorem records (h : Held w.ctx.conn w.guards) : Records w where
  refused kind c hs hn hlock := mem_reties_of_refused h hs hn hlock
  close app err reason env hguards := by
    refine ⟨_, close_refuses env (not_grants_of_guards h hguards (by simp)), ?_⟩
    exact (refuse_reties _ _ _).mpr (.inr ⟨rfl, rfl⟩)
  streamClose id err env hguards := by
    refine ⟨_, streamClose_refuses env (not_grants_of_guards h hguards (by simp)), ?_⟩
    exact (refuse_reties _ _ _).mpr (.inr ⟨rfl, rfl⟩)
  closed app err reason env hguards := close_settles h (grants_of_idle h hguards _) env
  streamClosed id err env hguards := streamClose_settles h (grants_of_idle h hguards _) env
  streamOpen kind nonBlocking env := streamOpen_opens h kind nonBlocking env
  openStream kind w' hr hstep := by
    rcases hs : w.ctx.streamOpenPrv kind with ⟨r, s⟩
    rw [hs] at hr
    obtain rfl : r = .error .retry := hr
    simp only [step, hs] at hstep
    cases hstep
    exact HashSet.mem_insert.mpr (.inl rfl)
  kept a w' ha hrel hstep := step_kept h ha hrel hstep

end Recording

/-- Whatever was refused is recorded, stays recorded until a guard is released,
and is then settled. -/
theorem no_operation_forgotten {token : Token} {q : Connection} {r : Readiness} {w : Machine}
    (h : Run step Enabled (initial token q r) w) :
    Records w ∧ ∀ g ∈ w.guards, ∀ sendDone env, ∃ closed s' log,
      w.ctx.unlock g.lock.lockCount sendDone env = .ok (closed, s') ∧ Settled w.ctx s' log := by
  have hheld := run_held h
  refine ⟨records hheld, ?_⟩
  intro g hg sendDone env
  obtain ⟨n, b, k, closed, s', log, hrun, hspec, -⟩ := unlock_held hheld hg sendDone env
  obtain ⟨once, only, applied, close, recv, readLock, streamRecv, streamSend, streamOpen, left⟩ :=
    settled hspec
  exact ⟨closed, s', log, hrun, once, only, applied, close, recv, readLock, streamRecv, streamSend,
    streamOpen, left⟩

theorem no_operation_forgotten_example :
    ∃ w g closed s', Run step Enabled
        (initial ⟨7⟩ (Script.connection ⟨true, [], [], [], none⟩) .empty) w ∧
      w.guards = [g] ∧ .streamRecv 4 ∈ w.ctx.conn.reties ∧
      w.ctx.unlock g.lock.lockCount true .still = .ok (closed, s') ∧
      ⟨⟨7⟩, .streamRecv, true, false, 4⟩ ∈ s'.readiness.events := by
  have hone : Run step Enabled (initial ⟨7⟩ (Script.connection ⟨true, [], [], [], none⟩) .empty)
      _ := .one (i := .tryLock .recv) (by simp [Enabled]) rfl
  have htwo := hone.tail (i := .tryLock (.streamRecv 4)) (by simp [Enabled]) rfl
  obtain ⟨-, hrelease⟩ := no_operation_forgotten htwo
  obtain ⟨closed, s', log, hunlock, hsettled⟩ :=
    hrelease _ (List.mem_cons_self ..) true .still
  exact ⟨_, _, closed, s', htwo, rfl, List.mem_cons_self .., hunlock,
    hsettled.streamRecv 4 (List.mem_cons_self ..)⟩

end ZeroRtt.Poll.RetryProtocol
