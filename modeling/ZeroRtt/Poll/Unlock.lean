import ZeroRtt.Poll.Retries

namespace ZeroRtt.Poll.Unlock

open ZeroRtt.Lib.Panics ZeroRtt.Lib.Containers
open ZeroRtt.Api.Types ZeroRtt.Api.Quiche ZeroRtt.Poll.Schedule ZeroRtt.Poll.Conn
open ZeroRtt.Poll.Evolution ZeroRtt.Poll.Retries

def StreamObs : Obs → Prop
  | .readable _ => True
  | .insert e delayTo => delayTo = none ∧
      (e.kind = .streamSend ∨ e.kind = .streamRecv ∨ e.kind = .streamAccept)
  | .remove _ => False

def NextCall (c : Call) : Prop := c = .streamWritableNext ∨ c = .streamReadableNext

structure Drained (s s' : Ctx) : Prop where
  evolves : ∃ calls obs, Evolves s s' calls obs ∧ (∀ c ∈ calls, NextCall c) ∧
    ∀ o ∈ obs, StreamObs o
  reties : s'.conn.reties = s.conn.reties

theorem Drained.refl (s : Ctx) : Drained s s :=
  ⟨⟨[], [], Evolves.refl s, by simp, by simp⟩, rfl⟩

theorem Drained.trans {s t u : Ctx} (h : Drained s t) (h' : Drained t u) : Drained s u := by
  obtain ⟨⟨xs, os, he, hx, ho⟩, hr⟩ := h
  obtain ⟨⟨ys, ps, he', hy, hp⟩, hr'⟩ := h'
  refine ⟨⟨xs ++ ys, os ++ ps, he.trans he', ?_, ?_⟩, hr'.trans hr⟩
  · intro c hc
    exact (List.mem_append.mp hc).elim (hx c) (hy c)
  · intro o hc
    exact (List.mem_append.mp hc).elim (ho o) (hp o)

theorem drained_call (s : Ctx) {c : Call} (hc : NextCall c) : Drained s (s.call c).2 :=
  ⟨⟨[c], [], evolves_call s c, by simpa using hc, by simp⟩, rfl⟩

theorem drained_writable (s : Ctx) (id : ℕ) :
    Drained s (s.insert (s.event .streamSend false id) none) :=
  ⟨⟨[], [_], evolves_insert s none (by simp [Ctx.event]), by simp, by simp [StreamObs, Ctx.event]⟩,
    rfl⟩

def setSeen (s : Ctx) (seen : Seen) : Ctx :=
  { s with conn.remoteStreamBidiSeen := seen.bidi, conn.remoteStreamUniSeen := seen.uni }

theorem see_eq (s : Ctx) (id : ℕ) : s.see id = setSeen s ((seenOf s.conn).set id) := by
  unfold Ctx.see Seen.set
  cases isBidi id <;> rfl

theorem handleAccept_eq (s : Ctx) (id : ℕ) (h : isLocal id s.conn.wrapped.isServer = false) :
    s.handleAccept id =
      setSeen (s.insert (reportEvent s.conn.token s.conn.wrapped.isServer (seenOf s.conn) id) none)
        ((seenOf s.conn).observe s.conn.wrapped.isServer id) := by
  have hget : (if isBidi id then s.conn.remoteStreamBidiSeen else s.conn.remoteStreamUniSeen) =
      (seenOf s.conn).get id := rfl
  cases hs : (seenOf s.conn).get id with
  | none =>
    have hc : (seenOf s.conn).classify id = .streamAccept := by simp [Seen.classify, hs]
    simp only [Ctx.handleAccept, hget, hs, reportEvent, Seen.observe, h, hc, see_eq]
    rfl
  | some max =>
    by_cases hm : id > max
    · have hc : (seenOf s.conn).classify id = .streamAccept := by simp [Seen.classify, hs, hm]
      simp only [Ctx.handleAccept, hget, hs, hm, reportEvent, Seen.observe, h, hc, see_eq]
      rfl
    · have hc : (seenOf s.conn).classify id = .streamRecv := by simp [Seen.classify, hs, hm]
      simp only [Ctx.handleAccept, hget, hs, hm, reportEvent, Seen.observe, h, hc]
      rfl

theorem handleReadable_eq (s : Ctx) (id : ℕ) :
    s.handleReadable id =
      setSeen (s.insert (reportEvent s.conn.token s.conn.wrapped.isServer (seenOf s.conn) id) none)
        ((seenOf s.conn).observe s.conn.wrapped.isServer id) := by
  unfold Ctx.handleReadable
  cases h : isLocal id s.conn.wrapped.isServer
  · exact handleAccept_eq s id h
  · simp [reportEvent, Seen.observe, h, Ctx.event, Ctx.insert, setSeen, seenOf]

theorem evolves_report (s : Ctx) (id : ℕ) :
    Evolves s ((s.report id).handleReadable id) [] [.readable id,
      .insert (reportEvent s.conn.token s.conn.wrapped.isServer (seenOf s.conn) id) none] := by
  rw [handleReadable_eq]
  refine ⟨rfl, rfl, rfl, rfl, by simp [setSeen, Ctx.insert, Ctx.report], ?_, rfl,
    .report id (.nil _)⟩
  simp [setSeen, Ctx.insert, Ctx.report, seenOf]

theorem reportEvent_kind (token : Token) (isServer : Bool) (seen : Seen) (id : ℕ) :
    (reportEvent token isServer seen id).kind = .streamRecv ∨
      (reportEvent token isServer seen id).kind = .streamAccept := by
  unfold reportEvent Seen.classify
  cases isLocal id isServer
  · cases seen.get id with
    | none => simp
    | some max => by_cases h : id > max <;> simp [h]
  · simp

theorem drained_report (s : Ctx) (id : ℕ) : Drained s ((s.report id).handleReadable id) := by
  refine ⟨⟨[], _, evolves_report s id, by simp, ?_⟩, by rw [handleReadable_eq]; rfl⟩
  have hk := reportEvent_kind s.conn.token s.conn.wrapped.isServer (seenOf s.conn) id
  intro o ho
  simp only [List.mem_cons, List.not_mem_nil, or_false] at ho
  rcases ho with rfl | rfl
  · trivial
  · exact ⟨rfl, .inr hk⟩

theorem drained_writableLoop (n : ℕ) (s : Ctx) : Drained s (Ctx.writableLoop n s) := by
  induction n generalizing s with
  | zero => exact Drained.refl s
  | succ n ih =>
    have hcall := drained_call s (c := .streamWritableNext) (.inl rfl)
    unfold Ctx.writableLoop
    rcases hs : s.call .streamWritableNext with ⟨_ | id, t⟩
    · rwa [hs] at hcall
    · rw [hs] at hcall
      exact (hcall.trans (drained_writable t id)).trans (ih _)

theorem drained_readableLoop (n : ℕ) (s : Ctx) : Drained s (Ctx.readableLoop n s) := by
  induction n generalizing s with
  | zero => exact Drained.refl s
  | succ n ih =>
    have hcall := drained_call s (c := .streamReadableNext) (.inr rfl)
    unfold Ctx.readableLoop
    rcases hs : s.call .streamReadableNext with ⟨_ | id, t⟩
    · rwa [hs] at hcall
    · rw [hs] at hcall
      exact (hcall.trans (drained_report t id)).trans (ih _)

theorem drained_handleStreamStateChanged (s : Ctx) : Drained s s.handleStreamStateChanged :=
  (drained_writableLoop _ s).trans (drained_readableLoop _ _)

section Draining

def writableCalls : ℕ → Connection → List Call
  | 0, _ => []
  | n + 1, q => .streamWritableNext ::
    match (q.call .streamWritableNext).1 with
    | none => []
    | some _ => writableCalls n (q.after [.streamWritableNext])

def readableCalls : ℕ → Connection → List Call
  | 0, _ => []
  | n + 1, q => .streamReadableNext ::
    match (q.call .streamReadableNext).1 with
    | none => []
    | some _ => readableCalls n (q.after [.streamReadableNext])

def drainStreams (q : Connection) : Connection :=
  let q := q.after (writableCalls (q.streamsLeft q.history + 1) q)
  q.after (readableCalls (q.streamsLeft q.history + 1) q)

theorem writableLoop_wrapped (n : ℕ) (s : Ctx) :
    (Ctx.writableLoop n s).conn.wrapped =
      s.conn.wrapped.after (writableCalls n s.conn.wrapped) := by
  induction n generalizing s with
  | zero => simp [Ctx.writableLoop, writableCalls]
  | succ n ih =>
    unfold Ctx.writableLoop writableCalls
    cases ha : (s.conn.wrapped.call .streamWritableNext).1 with
    | none => simp [Ctx.call, ha]
    | some id => simp [Ctx.call, ha, ih, Ctx.insert]

theorem readableLoop_wrapped (n : ℕ) (s : Ctx) :
    (Ctx.readableLoop n s).conn.wrapped =
      s.conn.wrapped.after (readableCalls n s.conn.wrapped) := by
  induction n generalizing s with
  | zero => simp [Ctx.readableLoop, readableCalls]
  | succ n ih =>
    unfold Ctx.readableLoop readableCalls
    cases ha : (s.conn.wrapped.call .streamReadableNext).1 with
    | none => simp [Ctx.call, ha]
    | some id => simp [Ctx.call, ha, ih, handleReadable_eq, setSeen, Ctx.insert, Ctx.report]

theorem handleStreamStateChanged_wrapped (s : Ctx) :
    s.handleStreamStateChanged.conn.wrapped = drainStreams s.conn.wrapped := by
  simp only [Ctx.handleStreamStateChanged, readableLoop_wrapped, writableLoop_wrapped, Ctx.rounds,
    drainStreams]

theorem writableLoop_quiet {s : Ctx} (n : ℕ)
    (h : (s.conn.wrapped.call .streamWritableNext).1 = none) :
    Ctx.writableLoop (n + 1) s = afterCalls s [.streamWritableNext] := by
  simp only [Ctx.writableLoop, Ctx.call, h]
  rfl

theorem handleStreamStateChanged_quiet {s : Ctx}
    (hwritable : (s.conn.wrapped.call .streamWritableNext).1 = none)
    (hreadable : ((s.conn.wrapped.after [.streamWritableNext]).call .streamReadableNext).1 = none) :
    s.handleStreamStateChanged = afterCalls s [.streamWritableNext, .streamReadableNext] := by
  simp only [Ctx.handleStreamStateChanged, Ctx.rounds, writableLoop_quiet _ hwritable,
    Ctx.readableLoop, Ctx.call]
  rw [show (afterCalls s [.streamWritableNext]).conn.wrapped =
    s.conn.wrapped.after [.streamWritableNext] from rfl, hreadable]
  simp [afterCalls]

theorem writableLoop_inserts {s : Ctx} {id : ℕ} (n : ℕ)
    (h : (s.conn.wrapped.call .streamWritableNext).1 = some id) :
    .insert (s.event .streamSend false id) none ∈ (Ctx.writableLoop (n + 1) s).trace := by
  simp only [Ctx.writableLoop, Ctx.call, h]
  obtain ⟨⟨calls, obs, hevolves, -, -⟩, -⟩ := drained_writableLoop n
    ((afterCalls s [.streamWritableNext]).insert (s.event .streamSend false id) none)
  apply hevolves.trace ▸ List.mem_append_left _
  exact List.mem_append_right _ (List.mem_singleton_self _)

theorem readableLoop_inserts {s : Ctx} {id : ℕ} (n : ℕ)
    (h : (s.conn.wrapped.call .streamReadableNext).1 = some id) :
    ∃ e, e.kind ≠ .send ∧ .insert e none ∈ (Ctx.readableLoop (n + 1) s).trace := by
  simp only [Ctx.readableLoop, Ctx.call, h]
  have hreport := evolves_report (afterCalls s [.streamReadableNext]) id
  obtain ⟨⟨calls, obs, hevolves, -, -⟩, -⟩ := drained_readableLoop n
    (((afterCalls s [.streamReadableNext]).report id).handleReadable id)
  refine ⟨_, ?_, hevolves.trace ▸ List.mem_append_left _
    (hreport.trace ▸ List.mem_append_right _ (List.mem_cons_of_mem _ (List.mem_singleton_self _)))⟩
  rcases reportEvent_kind s.conn.token s.conn.wrapped.isServer
    (seenOf (afterCalls s [.streamReadableNext]).conn) id with hkind | hkind
  · exact fun hsend ↦ by cases hkind.symm.trans hsend
  · exact fun hsend ↦ by cases hkind.symm.trans hsend

theorem handleStreamStateChanged_silent {s : Ctx}
    (h : ∀ e, e.kind ≠ .send → .insert e none ∉ s.handleStreamStateChanged.trace) :
    (s.conn.wrapped.call .streamWritableNext).1 = none ∧
      ((s.conn.wrapped.after [.streamWritableNext]).call .streamReadableNext).1 = none := by
  have hwritable : (s.conn.wrapped.call .streamWritableNext).1 = none := by
    cases hnext : (s.conn.wrapped.call .streamWritableNext).1 with
    | none => rfl
    | some id =>
      obtain ⟨⟨calls, obs, hevolves, -, -⟩, -⟩ := drained_readableLoop
        (Ctx.writableLoop s.rounds s).rounds (Ctx.writableLoop s.rounds s)
      refine absurd ?_ (h (s.event .streamSend false id) (by simp [Ctx.event]))
      exact hevolves.trace ▸ List.mem_append_left _ (writableLoop_inserts _ hnext)
  refine ⟨hwritable, ?_⟩
  cases hnext : ((s.conn.wrapped.after [.streamWritableNext]).call .streamReadableNext).1 with
  | none => rfl
  | some id =>
    obtain ⟨e, hkind, hmem⟩ := readableLoop_inserts (s := afterCalls s [.streamWritableNext])
      ((afterCalls s [.streamWritableNext]).rounds - 1) hnext
    refine absurd ?_ (h e hkind)
    simp only [Ctx.handleStreamStateChanged]
    rw [show s.rounds = _ + 1 from rfl, writableLoop_quiet _ hwritable]
    exact hmem

end Draining

def sendObs (event : EventKind → Bool → ℕ → Event) (q : Connection) (sendDone : Bool)
    (now : Instant) : Obs :=
  if sendDone && (delaySend q now sendDone).isNone then .remove (event .send false 0)
  else .insert (event .send false 0) (delaySend q now sendDone)

theorem evolves_handleSend (s : Ctx) (sendDone : Bool) (now : Instant) :
    Evolves s (s.handleSend sendDone now) [] [sendObs s.event s.conn.wrapped sendDone now] := by
  unfold Ctx.handleSend sendObs
  by_cases h : (sendDone && (delaySend s.conn.wrapped now sendDone).isNone) = true
  · simp only [h, if_true]
    exact evolves_remove s _
  · simp only [h]
    exact evolves_insert s _ (show EventKind.send ≠ .streamAccept by decide)

def stateEvents (event : EventKind → Bool → ℕ → Event) (established : Bool) (q : Connection) :
    List Event :=
  (if !established && q.isEstablished then
    [event (if q.isServer then .accept else .connected) false 0] else []) ++
  if q.isClosed then [event .closed false 0] else []

theorem stateEvents_kind {event : EventKind → Bool → ℕ → Event} {established : Bool}
    {q : Connection} {e : Event} (he : e ∈ stateEvents event established q) :
    ∃ kind, (kind = .accept ∨ kind = .connected ∨ kind = .closed) ∧ e = event kind false 0 := by
  rcases List.mem_append.mp he with he | he
  · split at he
    · refine ⟨_, ?_, List.mem_singleton.mp he⟩
      cases q.isServer <;> simp
    · cases he
  · split at he
    · exact ⟨.closed, .inr (.inr rfl), List.mem_singleton.mp he⟩
    · cases he

theorem evolves_handleEstablished (s : Ctx) :
    Evolves s s.handleEstablished [] (insertions
      (if !s.conn.established && s.conn.wrapped.isEstablished then
        [s.event (if s.conn.wrapped.isServer then .accept else .connected) false 0] else [])) := by
  have hest : Evolves s { s with conn.established := true } [] [] :=
    ⟨rfl, rfl, rfl, rfl, by simp, by simp, rfl, .nil _⟩
  unfold Ctx.handleEstablished
  cases !s.conn.established && s.conn.wrapped.isEstablished
  · exact Evolves.refl s
  · dsimp only
    cases s.conn.wrapped.isServer
    · exact hest.trans (evolves_insert _ none (show EventKind.connected ≠ .streamAccept by decide))
    · exact hest.trans (evolves_insert _ none (show EventKind.accept ≠ .streamAccept by decide))

theorem evolves_handleStateChanged (s : Ctx) :
    Evolves s s.handleStateChanged.2 []
      (insertions (stateEvents s.event s.conn.established s.conn.wrapped)) ∧
    s.handleStateChanged.1 = s.conn.wrapped.isClosed := by
  have hest := evolves_handleEstablished s
  have hw : s.handleEstablished.conn.wrapped = s.conn.wrapped := by simpa using hest.wrapped
  unfold Ctx.handleStateChanged stateEvents
  cases hc : s.conn.wrapped.isClosed
  · simpa [hw, hc] using hest
  · have hins := hest.trans (evolves_insert _ (e := s.handleEstablished.event .closed false 0) none
      (show EventKind.closed ≠ .streamAccept by decide))
    simpa [hw, hc, hest.event, insertions] using hins

theorem handleEstablished_reties (s : Ctx) : s.handleEstablished.conn.reties = s.conn.reties := by
  unfold Ctx.handleEstablished
  cases !s.conn.established && s.conn.wrapped.isEstablished
  · rfl
  · dsimp only
    cases s.conn.wrapped.isServer <;> rfl

theorem handleStateChanged_reties (s : Ctx) :
    s.handleStateChanged.2.conn.reties = s.conn.reties := by
  unfold Ctx.handleStateChanged
  dsimp only
  cases s.handleEstablished.conn.wrapped.isClosed <;> exact handleEstablished_reties s

theorem handleSend_reties (s : Ctx) (sendDone : Bool) (now : Instant) :
    (s.handleSend sendDone now).conn.reties = s.conn.reties := by
  unfold Ctx.handleSend
  dsimp only
  split <;> rfl

theorem handleSend_established (s : Ctx) (sendDone : Bool) (now : Instant) :
    (s.handleSend sendDone now).conn.established = s.conn.established := by
  unfold Ctx.handleSend
  dsimp only
  split <;> rfl

/-- The recorded operations as an unlock takes them up. -/
def recorded (s : Ctx) (env : UnlockEnv) : List Handled :=
  retryLog s.conn.wrapped (env.order s.conn.reties).1

/-- What `unlock` does once the lock is released. The recorded operations are
taken up in the order `log`, then the stream iterators are drained, then the
next packet is scheduled, and last a change of state is reported. -/
structure Unlocked (s : Ctx) (sendDone : Bool) (env : UnlockEnv) (closed : Bool) (s' : Ctx)
    (log : List Handled) : Prop where
  log_eq : log = recorded s env
  evolves : ∃ nexts streams established,
    Evolves s s' (logCalls log ++ nexts)
      (insertions (logEvents s.event log) ++ streams ++
        sendObs s.event s'.conn.wrapped sendDone env.now ::
        insertions (stateEvents s.event established s'.conn.wrapped)) ∧
    (∀ c ∈ nexts, NextCall c) ∧ ∀ o ∈ streams, StreamObs o
  wrapped : s'.conn.wrapped = drainStreams (s.conn.wrapped.after (logCalls log))
  reties : ∀ k, k ∈ s'.conn.reties ↔ ∃ h ∈ log, h.kind = k ∧ waits h.conn k = true
  closed_eq : closed = s'.conn.wrapped.isClosed

theorem handleRetryEvents_spec (s : Ctx) (env : UnlockEnv) (hret : ∀ k ∈ s.conn.reties, k ≠ .none) :
    ∃ t, s.handleRetryEvents env = .ok t ∧
      Evolves s t (logCalls (recorded s env)) (insertions (logEvents s.event (recorded s env))) ∧
      ∀ k, k ∈ t.conn.reties ↔
        ∃ h ∈ recorded s env, h.kind = k ∧ waits h.conn k = true := by
  have hclear : Evolves s { s with conn.reties := .empty } [] [] :=
    ⟨rfl, rfl, rfl, rfl, by simp, by simp, rfl, .nil _⟩
  obtain ⟨t, ht, hev, hreties⟩ := foldlM_handleRetryEvent (env.order s.conn.reties).1
    { s with conn.reties := .empty } (fun k hk ↦ hret k ((HashSet.mem_order env.order).mp hk))
  refine ⟨t, ht, hclear.trans hev, ?_⟩
  intro k
  rw [hreties]
  simp [recorded]

theorem handleRetryEvents_conn {s t : Ctx} {env : UnlockEnv} (h : s.handleRetryEvents env = .ok t) :
    t.conn = { s.conn with wrapped := t.conn.wrapped, reties := t.conn.reties } :=
  foldlM_conn (s := { s with conn.reties := .empty }) h

theorem handleRetryEvents_established {s t : Ctx} {env : UnlockEnv} (h : s.handleRetryEvents env = .ok t) :
    t.conn.established = s.conn.established := by rw [handleRetryEvents_conn h]

theorem unlock_spec (s : Ctx) {c : QuicConn} {lockCount : ℕ} (sendDone : Bool) (env : UnlockEnv)
    (hrel : s.conn.release lockCount = .ok c) (hret : ∀ k ∈ c.reties, k ≠ .none) :
    ∃ closed s' log, s.unlock lockCount sendDone env = .ok (closed, s') ∧
      Unlocked { s with conn := c } sendDone env closed s' log := by
  obtain ⟨t, ht, hretry, hreties⟩ := handleRetryEvents_spec { s with conn := c } env hret
  obtain ⟨⟨nexts, streams, hstream, hnexts, hobs⟩, hsreties⟩ := drained_handleStreamStateChanged t
  have hdrain := handleStreamStateChanged_wrapped t
  have hu := hretry.trans hstream
  generalize hus : t.handleStreamStateChanged = u at *
  have hsend := evolves_handleSend u sendDone env.now
  have hv := hu.trans hsend
  have hvreties := handleSend_reties u sendDone env.now
  obtain ⟨hstate, hclosed⟩ := evolves_handleStateChanged (u.handleSend sendDone env.now)
  have hwreties := handleStateChanged_reties (u.handleSend sendDone env.now)
  have hrun : s.unlock lockCount sendDone env =
      .ok (u.handleSend sendDone env.now).handleStateChanged := by
    simp only [Ctx.unlock, hrel, ht, hus, ok_bind, pure_eq_ok]
  have hvu : (u.handleSend sendDone env.now).conn.wrapped = u.conn.wrapped := by
    simpa using hsend.wrapped
  have hw : (u.handleSend sendDone env.now).handleStateChanged.2.conn.wrapped = u.conn.wrapped := by
    rw [hstate.wrapped, hvu, Connection.after_nil]
  refine ⟨(u.handleSend sendDone env.now).handleStateChanged.1,
    (u.handleSend sendDone env.now).handleStateChanged.2, _, hrun, rfl,
    ⟨nexts, streams, (u.handleSend sendDone env.now).conn.established, ?_, hnexts, hobs⟩, ?_, ?_, ?_⟩
  · have h := hv.trans hstate
    rw [hv.event, hu.event, hvu] at h
    simpa only [hw, List.append_nil, List.append_assoc, List.cons_append, List.nil_append] using h
  · rw [hw, hdrain, hretry.wrapped]
  · intro k
    rw [hwreties, hvreties, hsreties]
    exact hreties k
  · rw [hclosed, hw, hvu]

end ZeroRtt.Poll.Unlock
